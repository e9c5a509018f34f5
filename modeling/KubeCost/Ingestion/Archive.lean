/-
# The raw archive

`FileArchiver` of `services/ingestion/server/archive.go`. An accepted batch is written to
`<root>/<tenant_id>/<cluster_id>/<yyyy>/<mm>/<dd>/<first>-<last>-<batch_id>.pb`, over
whatever the file held. The name of the file has the numbers of the batch and not the
agent that sent it: an agent that starts again counts from the same number, so a batch that
was archived and not yet persisted is lost from the archive when the next agent sends the
same numbers on the same day (`restarted_agent_overwrites`). Ids may share a directory or
lead out of the root, as those of the checkpoints may.

`path_eq_iff` says which records share a file: those whose ids lead to one directory, with
one day, one range of numbers and one cleaned batch id. `preserved_iff` says which archives
keep every batch.
-/
import KubeCost.Replacing
import KubeCost.Rfc3339
import KubeCost.Ingestion.Checkpoint
import KubeCost.Ingestion.Watermark

namespace KubeCost
namespace Ingestion

open Replacing

/-! ### Files -/

/-- How the protobuf library writes a batch to a file and reads it back. -/
structure Format (Data : Type) where
  marshal : ObservationBatch → Data
  unmarshal : Data → Option ObservationBatch
  unmarshal_marshal : ∀ batch, unmarshal (marshal batch) = some batch

structure FileArchiver where
  root : String
  root_ne : root ≠ ""

def newFileArchiver (root : String) : Except String FileArchiver :=
  if h : trimSpace root = "" then .error "archive root is required" else .ok ⟨trimSpace root, h⟩

/-- The day of `ReceivedAt`, in UTC. -/
def ArchiveRecord.day (record : ArchiveRecord) : ℤ := record.receivedAt.seconds / 86400

/-- `Format("2006")`. -/
def formatYear (day : ℤ) : String :=
  let year := (Instant.civil day).1
  String.ofList ((if year < 0 then ['-'] else []) ++ Instant.padded 4 year.natAbs)

/-- `Format("01")`. -/
def formatMonth (day : ℤ) : String := String.ofList (Instant.padded 2 (Instant.civil day).2.1)

/-- `Format("02")`. -/
def formatDay (day : ℤ) : String := String.ofList (Instant.padded 2 (Instant.civil day).2.2)

/-- `fmt.Sprintf("%020d-%020d-%s.pb", …)`. -/
def fileName (batch : ObservationBatch) : String :=
  String.ofList (Instant.padded 20 batch.firstSequence ++ '-' :: (Instant.padded 20 batch.lastSequence ++
    '-' :: ((safePathElement batch.batchId).toList ++ ".pb".toList)))

namespace FileArchiver

def path (a : FileArchiver) (record : ArchiveRecord) : String :=
  Path.join [a.root, safePathElement record.tenantId, safePathElement record.clusterId,
    formatYear record.day, formatMonth record.day,
    formatDay record.day, fileName record.batch]

variable {Data : Type} (format : Format Data)

/-- `Archive`, when it returns nil. -/
def archive (a : FileArchiver) (files : String → Option Data) (record : ArchiveRecord) :
    String → Option Data :=
  Function.update files (a.path record) (some (format.marshal record.batch))

/-- The files after records were archived, in an archive that was empty. -/
def files (a : FileArchiver) (records : List ArchiveRecord) : String → Option Data :=
  records.foldl (a.archive format) fun _ => none

/-- **No batch is lost**: the observations of every record are in a file under the root. -/
def Preserved (a : FileArchiver) (records : List ArchiveRecord) : Prop :=
  ∀ record ∈ records, ∃ path data batch, a.files format records path = some data ∧
    (Path.parse path).Inside (Path.parse a.root) ∧ format.unmarshal data = some batch ∧
    batch.observations = record.batch.observations

end FileArchiver

/-! ### Names -/

theorem properName_of_mem {s : String} {c : Char} (hc : c ∈ s.toList) (hdot : c ≠ '.')
    (hslash : '/' ∉ s.toList) : ProperName s := by
  refine ⟨?_, ?_, ?_, hslash⟩
  · rintro rfl
    exact absurd hc List.not_mem_nil
  · rintro rfl
    exact hdot (List.mem_singleton.mp hc)
  · rintro rfl
    have hdots : "..".toList.all (· == '.') = true := by decide
    exact hdot (beq_iff_eq.mp (List.all_eq_true.mp hdots c hc))

theorem padded_ne_nil {width n : ℕ} (h : 0 < width) : Instant.padded width n ≠ [] := by
  intro hnil
  have hlength := congrArg List.length hnil
  rw [Instant.padded_eq, List.length_append, List.length_replicate, List.length_nil] at hlength
  omega

/-- A text with a digit in it is not `.` or `..`. -/
theorem properName_padded {width : ℕ} (n : ℕ) (h : 0 < width) (front back : List Char)
    (hfront : '/' ∉ front) (hback : '/' ∉ back) :
    ProperName (String.ofList (front ++ (Instant.padded width n ++ back))) := by
  have hne : Instant.padded width n ≠ [] := padded_ne_nil h
  have hdigit : (Instant.padded width n).head hne ∈ Instant.padded width n := List.head_mem hne
  refine properName_of_mem (c := (Instant.padded width n).head hne) ?_ ?_ ?_
  · rw [String.toList_ofList]
    exact List.mem_append_right _ (List.mem_append_left _ hdigit)
  · intro hdot
    have := Instant.isDigit_of_mem_padded hdigit
    rw [hdot] at this
    exact absurd this (by decide)
  · rw [String.toList_ofList, List.mem_append, List.mem_append]
    rintro (h | h | h)
    · exact hfront h
    · exact Instant.not_mem_padded (by decide) h
    · exact hback h

theorem properName_formatYear (day : ℤ) : ProperName (formatYear day) := by
  have hproper : ProperName (String.ofList ((if (Instant.civil day).1 < 0 then ['-'] else []) ++
      (Instant.padded 4 (Instant.civil day).1.natAbs ++ []))) := by
    refine properName_padded _ (by decide) _ _ ?_ List.not_mem_nil
    split <;> decide
  rwa [List.append_nil] at hproper

theorem properName_twoDigits (n : ℕ) : ProperName (String.ofList (Instant.padded 2 n)) := by
  have hproper : ProperName (String.ofList ([] ++ (Instant.padded 2 n ++ []))) :=
    properName_padded n (by decide) _ _ List.not_mem_nil List.not_mem_nil
  rwa [List.append_nil] at hproper

theorem properName_fileName (batch : ObservationBatch) : ProperName (fileName batch) := by
  rw [fileName, ← List.nil_append (Instant.padded 20 batch.firstSequence ++ _)]
  refine properName_padded batch.firstSequence (by decide) [] _ List.not_mem_nil ?_
  simp only [List.mem_cons, List.mem_append, not_or]
  exact ⟨by decide, Instant.not_mem_padded (by decide), by decide,
    safePathElement_no_slash batch.batchId, by decide⟩

/-- The names of the folders of a day. -/
def ArchiveRecord.date (record : ArchiveRecord) : List Name :=
  [⟨formatYear record.day, properName_formatYear _⟩, ⟨formatMonth record.day, properName_twoDigits _⟩,
    ⟨formatDay record.day, properName_twoDigits _⟩]

def ArchiveRecord.file (record : ArchiveRecord) : Name :=
  ⟨fileName record.batch, properName_fileName _⟩

/-- The names below the directory of the cluster. -/
def ArchiveRecord.names (record : ArchiveRecord) : List Name := record.date ++ [record.file]

theorem ArchiveRecord.length_names (record : ArchiveRecord) : record.names.length = 4 := rfl

/-- A date determines its day. -/
theorem day_inj {day day' : ℤ} (hyear : formatYear day = formatYear day')
    (hmonth : formatMonth day = formatMonth day') (hday : formatDay day = formatDay day') :
    day = day' := by
  have hyear' := congrArg (· ++ ['-']) (String.ofList_injective hyear)
  simp only [List.append_assoc] at hyear'
  have hcivil : Instant.civil day = Instant.civil day' :=
    Prod.ext (Instant.signed_append_inj hyear').1
      (Prod.ext (Instant.padded_inj (String.ofList_injective hmonth))
        (Instant.padded_inj (String.ofList_injective hday)))
  rw [← Instant.dayNumber_civil day, hcivil, Instant.dayNumber_civil]

theorem fileName_inj {batch batch' : ObservationBatch} (h : fileName batch = fileName batch') :
    batch.firstSequence = batch'.firstSequence ∧ batch.lastSequence = batch'.lastSequence ∧
      safePathElement batch.batchId = safePathElement batch'.batchId := by
  obtain ⟨hfirst, h⟩ := Instant.padded_append_inj (by decide) (String.ofList_injective h)
  obtain ⟨hlast, h⟩ := Instant.padded_append_inj (by decide) h
  exact ⟨hfirst, hlast, String.toList_inj.mp (List.append_cancel_right h)⟩

/-! ### Places -/

/-- What the path of a record is made of. -/
@[ext]
structure Place where
  /-- Where the ids of the tenant and the cluster lead. -/
  directory : Path
  day : ℤ
  firstSequence : ℕ
  lastSequence : ℕ
  batchId : String
deriving DecidableEq

namespace FileArchiver

variable (a : FileArchiver) {Data : Type} {format : Format Data} {records : List ArchiveRecord}
  {r s : ArchiveRecord}

def place (r : ArchiveRecord) : Place where
  directory := directory (Path.parse a.root) (component (safePathElement r.tenantId))
    (component (safePathElement r.clusterId))
  day := r.day
  firstSequence := r.batch.firstSequence
  lastSequence := r.batch.lastSequence
  batchId := safePathElement r.batch.batchId

theorem path_eq (r : ArchiveRecord) : a.path r =
    Path.render ⟨(a.place r).directory.base, (a.place r).directory.names ++ r.names⟩ := by
  have hrest : ∀ e ∈ [safePathElement r.tenantId, safePathElement r.clusterId] ++
      r.names.map Subtype.val, '/' ∉ e.toList := by
    intro e he
    rcases List.mem_append.mp he with he | he
    · simp only [List.mem_cons, List.not_mem_nil, or_false] at he
      rcases he with rfl | rfl
      · exact safePathElement_no_slash _
      · exact safePathElement_no_slash _
    · obtain ⟨n, -, rfl⟩ := List.mem_map.mp he
      exact n.2.2.2.2
  have hpath : a.path r = Path.join (a.root ::
      ([safePathElement r.tenantId, safePathElement r.clusterId] ++ r.names.map Subtype.val)) := rfl
  have hdirectory : (Path.parse a.root).walk
      ([safePathElement r.tenantId, safePathElement r.clusterId].map component) =
      (a.place r).directory := by
    simp only [List.map_cons, List.map_nil, Path.walk, List.foldl_cons, List.foldl_nil, place, directory]
  have hnames : (r.names.map Subtype.val).map component = r.names.map fun n => component n.val :=
    List.map_map
  rw [hpath, Path.join_eq a.root_ne hrest, List.map_append, Path.walk_append, hdirectory, hnames]
  generalize (a.place r).directory = directory
  rw [← Path.walk_names]

/-- **Which records share a file.** -/
theorem path_eq_iff : a.path r = a.path s ↔ a.place r = a.place s := by
  constructor
  · intro h
    rw [path_eq, path_eq, Path.render_inj, Path.mk.injEq] at h
    obtain ⟨hbase, hnames⟩ := h
    obtain ⟨hdirs, hrest⟩ := List.append_inj' hnames (by rw [r.length_names, s.length_names])
    have hvalues : [formatYear r.day, formatMonth r.day, formatDay r.day, fileName r.batch] =
        [formatYear s.day, formatMonth s.day, formatDay s.day, fileName s.batch] :=
      congrArg (List.map Subtype.val) hrest
    simp only [List.cons.injEq] at hvalues
    obtain ⟨hyear, hmonth, hday, hfile, -⟩ := hvalues
    obtain ⟨hfirst, hlast, hid⟩ := fileName_inj hfile
    have hdirectory := Path.ext hbase hdirs
    simp only [place] at hdirectory
    simp only [place, hdirectory, day_inj hyear hmonth hday, hfirst, hlast, hid]
  · intro h
    obtain ⟨hdirectory, hday, hfirst, hlast, hid⟩ := Place.ext_iff.mp h
    have hnames : r.names = s.names := by
      simp only [place] at hday hfirst hlast hid
      simp only [ArchiveRecord.names, ArchiveRecord.date, ArchiveRecord.file, fileName, hday, hfirst,
        hlast, hid]
    rw [path_eq, path_eq, hdirectory, hnames]

/-! ### What is kept -/

/-- The folder of the day of a record. -/
def folder (r : ArchiveRecord) : Path :=
  ⟨(a.place r).directory.base, (a.place r).directory.names ++ r.date⟩

theorem inside_iff (r : ArchiveRecord) : (Path.parse (a.path r)).Inside (Path.parse a.root) ↔
    (a.folder r).Within (Path.parse a.root) := by
  have hpath : Path.parse (a.path r) = ⟨(a.folder r).base, (a.folder r).names ++ [r.file]⟩ := by
    rw [path_eq, Path.parse_render, ArchiveRecord.names, ← List.append_assoc, folder]
  rw [hpath, Path.inside_entry_iff]

/-- No later record has the place of the record. -/
def NotOverwritten (records : List ArchiveRecord) (r : ArchiveRecord) : Prop :=
  Last a.place (fun _ _ => true) records r

/-- **The files are those of the records that were not overwritten.** -/
theorem files_eq_some {path : String} {data : Data} : a.files format records path = some data ↔
    ∃ r, a.NotOverwritten records r ∧ a.path r = path ∧ format.marshal r.batch = data := by
  have hplace : ∀ records r, a.NotOverwritten records r ↔ Last a.path (fun _ _ => true) records r :=
    fun records r => last_congr fun _ => (a.path_eq_iff).symm
  simp only [hplace]
  induction records using List.reverseRecOn with
  | nil =>
    constructor
    · intro h
      cases h
    · rintro ⟨r, hlast, _⟩
      exact absurd hlast.mem List.not_mem_nil
  | append_singleton records new ih =>
    have hfiles : a.files format (records ++ [new]) = a.archive format (a.files format records) new :=
      List.foldl_append
    rw [hfiles, archive]
    by_cases hpath : path = a.path new
    · subst hpath
      rw [Function.update_self, Option.some.injEq]
      constructor
      · exact fun h => ⟨new, last_append.mpr (.inl ⟨rfl, fun _ _ _ => rfl⟩), rfl, h⟩
      · rintro ⟨r, hlast, hr, hdata⟩
        rcases last_append.mp hlast with ⟨rfl, _⟩ | ⟨_, hnew⟩
        · exact hdata
        · exact absurd (hnew hr.symm).symm Bool.false_ne_true
    · rw [Function.update_of_ne hpath]
      refine ih.trans (exists_congr fun r => and_congr_left fun ⟨hr, _⟩ => ?_)
      rw [last_append]
      constructor
      · exact fun h => .inr ⟨h, fun hnew => absurd (hnew.trans hr).symm hpath⟩
      · rintro (⟨rfl, _⟩ | ⟨h, _⟩)
        · exact absurd hr.symm hpath
        · exact h

/-- **Which archives keep every batch.** For every sequence of records: each record needs
one with its observations, itself or another, whose folder is under the root and whose
place no later record has, that is, no later record with ids that lead to the same
directory, with the same day, first and last number and cleaned batch id. -/
theorem preserved_iff (format : Format Data) (records : List ArchiveRecord) :
    a.Preserved format records ↔ ∀ r ∈ records, ∃ s, a.NotOverwritten records s ∧
      (a.folder s).Within (Path.parse a.root) ∧ s.batch.observations = r.batch.observations := by
  refine forall₂_congr fun r _ => ?_
  constructor
  · rintro ⟨path, data, batch, hfile, hinside, hbatch, hobservations⟩
    obtain ⟨s, hs, rfl, rfl⟩ := a.files_eq_some.mp hfile
    rw [format.unmarshal_marshal, Option.some.injEq] at hbatch
    subst hbatch
    exact ⟨s, hs, (a.inside_iff s).mp hinside, hobservations⟩
  · rintro ⟨s, hs, hwithin, hobservations⟩
    exact ⟨a.path s, format.marshal s.batch, s.batch, a.files_eq_some.mpr ⟨s, hs, rfl, rfl⟩,
      (a.inside_iff s).mpr hwithin, format.unmarshal_marshal _, hobservations⟩

end FileArchiver

/-! ### An agent that starts again -/

/-- The first batch of an agent, with one observation. -/
def firstBatch (eventId : String) : ObservationBatch :=
  let observations := [{ plainObservation 1 with eventId := eventId }]
  { batchId := "c-1-1", firstSequence := 1, lastSequence := 1,
    payloadChecksum := batchChecksum plainCodec observations, observations := observations }

/-- An agent sends its first batch and is gone before the batch is persisted; the agent that
takes its place sends another first batch. -/
def restartedRun : List Action :=
  [.connect (.hello plainHello) true true, .greet 0 true,
    .recv 0 (some (.batch (firstBatch "e1"))) true, .checkDepth 0 true, .archive 0 ⟨0, 0⟩ true true,
    .enqueue 0 true true, .cancelled 0,
    .connect (.hello { plainHello with agentInstanceId := "a2" }) true true, .greet 1 true,
    .recv 1 (some (.batch (firstBatch "e2"))) true, .checkDepth 1 true, .archive 1 ⟨60, 0⟩ true true]

def firstRecord : ArchiveRecord := ⟨"t", "c", "a", 0, ⟨0, 0⟩, firstBatch "e1"⟩

def secondRecord : ArchiveRecord := ⟨"t", "c", "a2", 1, ⟨60, 0⟩, firstBatch "e2"⟩

theorem archive_restartedRun : (Machine.run (step plainEnv) (World.initial plainEnv fun _ _ => 0)
    restartedRun).map (·.archive) = some [firstRecord, secondRecord] := by
  decide +kernel

theorem notOverwritten_eq {a : FileArchiver} {r : ArchiveRecord}
    (h : a.NotOverwritten [firstRecord, secondRecord] r) : r = secondRecord := by
  have hplace : a.place secondRecord = a.place firstRecord := rfl
  have hlast : Last a.place (fun _ _ => true) ([firstRecord] ++ [secondRecord]) r := h
  rcases last_append.mp hlast with ⟨h, _⟩ | ⟨hfirst, hnew⟩
  · exact h
  · rw [List.mem_singleton.mp hfirst.mem] at hnew
    exact absurd (hnew hplace).symm Bool.false_ne_true

/-- Whatever the root and the format of the files, the first agent's batch is lost. -/
theorem restarted_agent_overwrites : ∃ w, Machine.run (step plainEnv)
    (World.initial plainEnv fun _ _ => 0) restartedRun = some w ∧
    ∀ (a : FileArchiver) (Data : Type) (format : Format Data), ¬ a.Preserved format w.archive := by
  obtain ⟨w, hw, harchive⟩ := Option.map_eq_some_iff.mp archive_restartedRun
  refine ⟨w, hw, fun a Data format h => ?_⟩
  rw [harchive] at h
  obtain ⟨path, data, batch, hfile, _, hbatch, hobservations⟩ := h _ List.mem_cons_self
  obtain ⟨r, hr, _, rfl⟩ := a.files_eq_some.mp hfile
  rw [format.unmarshal_marshal, Option.some.injEq, notOverwritten_eq hr] at hbatch
  rw [← hbatch] at hobservations
  exact absurd hobservations (by decide)

end Ingestion
end KubeCost
