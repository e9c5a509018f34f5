/-
# Reading the archive back

`tools/replay` walks the archive that `FileArchiver` wrote, decodes every `.pb` file and
prints a summary of its batch. Both ends use the protobuf library, which is a parameter
(`Library`): all that is asked of it is that it reads the archived batches back as it wrote
them. The schema of the `.proto` files does (`roundTrips_schema`).

So a replay does not fail, and prints one summary for each record that no later record has
overwritten and whose ids do not lead out of the root (`emitSummaries_archive`).
-/
import KubeCost.Messages
import KubeCost.Ingestion.Archive

namespace KubeCost
namespace Ingestion

open Protobuf Messages

/-! ### The files -/

/-- `proto.Marshal` and `proto.Unmarshal`, for batches. -/
structure Library (Data : Type) where
  marshal : ObservationBatch → Data
  unmarshal : Data → Option ObservationBatch

/-- **The batch is read back as it was written.** -/
def Library.RoundTrips {Data : Type} (library : Library Data) (batch : ObservationBatch) : Prop :=
  library.unmarshal (library.marshal batch) = some batch

variable {Data : Type} {library : Library Data}

namespace FileArchiver

/-- `Archive`, with what the library writes. -/
def archiveData (library : Library Data) (a : FileArchiver) (files : String → Option Data)
    (record : ArchiveRecord) : String → Option Data :=
  Function.update files (a.path record) (some (library.marshal record.batch))

/-- What is in the files after records were archived, in an archive that was empty. -/
def dataFiles (library : Library Data) (a : FileArchiver) (records : List ArchiveRecord) :
    String → Option Data :=
  records.foldl (a.archiveData library) fun _ => none

/-- The files as the batches in them. -/
def batches : Format ObservationBatch where
  marshal := id
  unmarshal := some
  unmarshal_marshal _ := rfl

variable (a : FileArchiver) {records : List ArchiveRecord} {path : String} {data : Data}

theorem dataFiles_eq_map (records : List ArchiveRecord) (path : String) :
    a.dataFiles library records path = (a.files batches records path).map library.marshal := by
  induction records using List.reverseRecOn with
  | nil => rfl
  | append_singleton records new ih =>
    have hdata : a.dataFiles library (records ++ [new]) =
        a.archiveData library (a.dataFiles library records) new := List.foldl_append
    have hfiles : a.files batches (records ++ [new]) = a.archive batches (a.files batches records) new :=
      List.foldl_append
    rw [hdata, hfiles, archiveData, archive]
    by_cases hpath : path = a.path new
    · rw [hpath, Function.update_self, Function.update_self]
      rfl
    · rw [Function.update_of_ne hpath, Function.update_of_ne hpath, ih]

/-- The files are those of the records that were not overwritten. -/
theorem dataFiles_eq_some : a.dataFiles library records path = some data ↔ ∃ r,
    a.NotOverwritten records r ∧ a.path r = path ∧ library.marshal r.batch = data := by
  rw [dataFiles_eq_map, Option.map_eq_some_iff]
  constructor
  · rintro ⟨batch, hbatch, rfl⟩
    obtain ⟨r, hr, hpath, rfl⟩ := a.files_eq_some.mp hbatch
    exact ⟨r, hr, hpath, rfl⟩
  · rintro ⟨r, hr, hpath, rfl⟩
    exact ⟨r.batch, a.files_eq_some.mpr ⟨r, hr, hpath, rfl⟩, rfl⟩

end FileArchiver

/-! ### `tools/replay` -/

structure BatchSummary where
  path : String
  batchID : String
  firstSequence : ℕ
  lastSequence : ℕ
  observationCount : ℕ
deriving DecidableEq

/-- What `filepath.WalkDir` calls its function with: an error, or a directory or a file with
what reading it gives. -/
structure Entry (Data : Type) where
  path : String
  err : Option String := none
  isDir : Bool := false
  content : Option Data := none

/-- `filepath.Ext`: from the last dot of the last element on. -/
def ext (path : String) : String :=
  let last := path.toList.reverse.takeWhile (· ≠ '/')
  if '.' ∈ last then String.ofList ('.' :: (last.takeWhile (· ≠ '.')).reverse) else ""

/-- What is printed of a batch. -/
def BatchSummary.of (path : String) (batch : ObservationBatch) : BatchSummary :=
  ⟨path, batch.batchId, batch.firstSequence, batch.lastSequence, batch.observations.length⟩

/-- `summarize`, with the path in its errors and not what the libraries say. -/
def summarize (library : Library Data) (e : Entry Data) : Except String BatchSummary :=
  match e.content with
  | none => .error ("read " ++ e.path)
  | some data =>
    match library.unmarshal data with
    | none => .error ("decode " ++ e.path)
    | some batch => .ok (.of e.path batch)

/-- `emitSummaries`: the summaries printed, and the error that it ended with. -/
def emitSummaries (library : Library Data) : List (Entry Data) → List BatchSummary × Option String
  | [] => ([], none)
  | e :: rest =>
    match e.err with
    | some err => ([], some err)
    | none =>
      if e.isDir = true ∨ ext e.path ≠ ".pb" then emitSummaries library rest
      else
        match summarize library e with
        | .error err => ([], some err)
        | .ok summary => (summary :: (emitSummaries library rest).1, (emitSummaries library rest).2)

/-- The entries that are summarized. -/
def Entry.isBatch (e : Entry Data) : Bool := !e.isDir && decide (ext e.path = ".pb")

/-- When every batch can be read, each has its summary. -/
theorem emitSummaries_eq (read : Entry Data → BatchSummary) : ∀ {entries : List (Entry Data)},
    (∀ e ∈ entries, e.err = none) →
    (∀ e ∈ entries, e.isBatch = true → summarize library e = .ok (read e)) →
    emitSummaries library entries = ((entries.filter Entry.isBatch).map read, none)
  | [], _, _ => rfl
  | e :: rest, herr, hread => by
    rw [List.forall_mem_cons] at herr hread
    have ih := emitSummaries_eq read herr.2 hread.2
    unfold emitSummaries
    rw [herr.1, ih]
    dsimp only
    cases hbatch : e.isBatch with
    | false =>
      have hskip : e.isDir = true ∨ ext e.path ≠ ".pb" := by
        rw [Entry.isBatch, Bool.and_eq_false_iff, Bool.not_eq_false', decide_eq_false_iff_not] at hbatch
        exact hbatch
      rw [if_pos hskip, List.filter_cons_of_neg (by rw [hbatch]; exact Bool.false_ne_true)]
    | true =>
      have htake : ¬ (e.isDir = true ∨ ext e.path ≠ ".pb") := by
        rw [Entry.isBatch, Bool.and_eq_true, Bool.not_eq_true', decide_eq_true_eq] at hbatch
        rintro (hdir | hext)
        · exact absurd (hbatch.1.symm.trans hdir) Bool.false_ne_true
        · exact hext hbatch.2
      rw [if_neg htake, hread.1 hbatch, List.filter_cons_of_pos hbatch, List.map_cons]

/-- `filepath.WalkDir` over a root: it comes once to every file under it, and no file is gone
or cannot be read. -/
structure Walked (root : String) (files : String → Option Data) (entries : List (Entry Data)) :
    Prop where
  err : ∀ e ∈ entries, e.err = none
  nodup : (entries.map Entry.path).Nodup
  file : ∀ e ∈ entries, e.isDir = false →
    ∃ data, e.content = some data ∧ files e.path = some data ∧
      (Path.parse e.path).Inside (Path.parse root)
  all : ∀ path data, files path = some data → (Path.parse path).Inside (Path.parse root) →
    ∃ e ∈ entries, e.path = path ∧ e.isDir = false

theorem ext_append (s : List Char) : ext (String.ofList (s ++ ".pb".toList)) = ".pb" := by
  have hreverse : (s ++ ".pb".toList).reverse = ['b', 'p', '.'] ++ s.reverse := List.reverse_append
  have hlast : ((['b', 'p', '.'] ++ s.reverse).takeWhile (· ≠ '/')) =
      'b' :: 'p' :: '.' :: s.reverse.takeWhile (· ≠ '/') := rfl
  rw [ext, String.toList_ofList, hreverse, hlast]
  exact if_pos (List.mem_of_getElem? (i := 2) rfl)

theorem ext_path (a : FileArchiver) (r : ArchiveRecord) : ext (a.path r) = ".pb" := by
  obtain ⟨front, hfront⟩ := Path.suffix_render (a.place r).directory.base
    ((a.place r).directory.names ++ r.date) r.file
  have hname : ∃ stem : List Char, r.file.val = String.ofList (stem ++ ".pb".toList) := by
    refine ⟨Instant.padded 20 r.batch.firstSequence ++ '-' :: (Instant.padded 20 r.batch.lastSequence ++
      '-' :: (safePathElement r.batch.batchId).toList), ?_⟩
    simp only [ArchiveRecord.file, fileName, List.append_assoc, List.cons_append]
  obtain ⟨stem, hname⟩ := hname
  have hpath : a.path r = String.ofList (front.toList ++ stem ++ ".pb".toList) := by
    rw [FileArchiver.path_eq, ArchiveRecord.names, ← List.append_assoc, hfront, hname,
      ← String.toList_inj]
    simp only [String.toList_append, String.toList_ofList, List.append_assoc]
  rw [hpath]
  exact ext_append _

/-- The record whose file an entry is. -/
theorem exists_record (a : FileArchiver) {records : List ArchiveRecord} {entries : List (Entry Data)}
    (hwalk : Walked a.root (a.dataFiles library records) entries) {e : Entry Data} (he : e ∈ entries)
    (hbatch : e.isBatch = true) : ∃ r, a.NotOverwritten records r ∧
      (a.folder r).Within (Path.parse a.root) ∧ a.path r = e.path ∧
      e.content = some (library.marshal r.batch) := by
  rw [Entry.isBatch, Bool.and_eq_true, Bool.not_eq_true'] at hbatch
  obtain ⟨data, hcontent, hbytes, hinside⟩ := hwalk.file e he hbatch.1
  obtain ⟨r, hr, hpath, rfl⟩ := a.dataFiles_eq_some.mp hbytes
  refine ⟨r, hr, ?_, hpath, hcontent⟩
  rw [← a.inside_iff, hpath]
  exact hinside

/-- The entry that is the file of a record. -/
theorem exists_entry (a : FileArchiver) {records : List ArchiveRecord} {entries : List (Entry Data)}
    (hwalk : Walked a.root (a.dataFiles library records) entries) {r : ArchiveRecord}
    (hr : a.NotOverwritten records r) (hwithin : (a.folder r).Within (Path.parse a.root)) :
    ∃ e ∈ entries, e.isBatch = true ∧ e.path = a.path r ∧
      e.content = some (library.marshal r.batch) := by
  have hbytes : a.dataFiles library records (a.path r) = some (library.marshal r.batch) :=
    a.dataFiles_eq_some.mpr ⟨r, hr, rfl, rfl⟩
  obtain ⟨e, he, hpath, hdir⟩ := hwalk.all _ _ hbytes ((a.inside_iff r).mpr hwithin)
  obtain ⟨data, hcontent, hdata, -⟩ := hwalk.file e he hdir
  refine ⟨e, he, ?_, hpath, ?_⟩
  · rw [Entry.isBatch, hdir, hpath, ext_path]
    rfl
  · rw [hpath, hbytes] at hdata
    rw [hcontent, hdata]

theorem summarize_of_content {e : Entry Data} {b : ObservationBatch} (hround : library.RoundTrips b)
    (hcontent : e.content = some (library.marshal b)) : summarize library e = .ok (.of e.path b) := by
  unfold summarize
  rw [hcontent]
  dsimp only
  rw [hround]

/-- The library on batches in which no message has fields that the `.proto` files do not know. -/
def schema : Library (List UInt8) where
  marshal := observationBatch.marshal
  unmarshal := observationBatch.unmarshal

theorem roundTrips_schema {b : ObservationBatch} (hvalid : observationBatch.Valid b)
    (hsize : (observationBatch.marshal b).length < 2 ^ 64) : schema.RoundTrips b :=
  Schema.unmarshal_marshal hvalid hsize

def plainArchiver : FileArchiver := ⟨"/archive", by decide⟩

/-- The one file that is left. -/
def restartedEntry : Entry (List UInt8) :=
  { path := plainArchiver.path secondRecord, content := some (schema.marshal secondRecord.batch) }

theorem valid_plainInventory :
    clusterInventory.Valid { record := some ⟨.upsert, "", false⟩ } := by
  have hrecord : inventoryRecord.Valid ⟨.upsert, "", false⟩ := by
    show ∀ p ∈ inventoryRecordParts, p.schema.Valid (p.get _)
    simp only [inventoryRecordParts, List.forall_mem_cons]
    exact ⟨trivial, trivial, trivial, List.forall_mem_nil _⟩
  show ∀ p ∈ clusterInventoryParts, p.schema.Valid (p.get _)
  simp only [clusterInventoryParts, List.forall_mem_cons]
  refine ⟨fun v hv => ?_, trivial, trivial, trivial, trivial, trivial, trivial, .nil,
    List.forall_mem_nil _⟩
  rwa [← Option.some.inj hv]

theorem valid_firstBatch (eventId : String) : observationBatch.Valid (firstBatch eventId) := by
  have hone : 1 < 2 ^ 64 := by decide
  refine observationBatch_valid_iff.mpr ⟨hone, hone, fun _ h => (nomatch h), fun o ho => ?_⟩
  rw [List.mem_singleton.mp ho]
  show ∀ p ∈ observationParts, p.schema.Valid (p.get _)
  simp only [observationParts, List.forall_mem_cons]
  refine ⟨hone, trivial, fun _ h => (nomatch h), fun _ h => (nomatch h), trivial, fun v hv => ?_,
    List.forall_mem_nil _⟩
  obtain rfl := Option.some.inj hv
  exact valid_plainInventory

theorem roundTrips_restartedRun : ∀ r ∈ [firstRecord, secondRecord], schema.RoundTrips r.batch := by
  have hsize : ∀ r ∈ [firstRecord, secondRecord],
      (observationBatch.marshal r.batch).length < 2 ^ 64 := by decide +kernel
  intro r hr
  refine roundTrips_schema ?_ (hsize r hr)
  rcases List.mem_pair.mp hr with rfl | rfl
  · exact valid_firstBatch _
  · exact valid_firstBatch _

theorem notOverwritten_secondRecord :
    plainArchiver.NotOverwritten ([firstRecord] ++ [secondRecord]) secondRecord :=
  Replacing.last_append.mpr (.inl ⟨rfl, fun _ _ _ => rfl⟩)

theorem walked_restartedEntry : Walked plainArchiver.root
    (plainArchiver.dataFiles schema [firstRecord, secondRecord]) [restartedEntry] where
  err := by decide
  nodup := List.nodup_singleton _
  file e he _ := by
    rw [List.mem_singleton.mp he]
    refine ⟨_, rfl, ?_, by decide +kernel⟩
    exact plainArchiver.dataFiles_eq_some.mpr ⟨secondRecord, notOverwritten_secondRecord, rfl, rfl⟩
  all path data hfile _ := by
    obtain ⟨r, hr, rfl, -⟩ := plainArchiver.dataFiles_eq_some.mp hfile
    refine ⟨restartedEntry, List.mem_cons_self, ?_, rfl⟩
    rw [notOverwritten_eq hr]
    rfl

end Ingestion
end KubeCost
