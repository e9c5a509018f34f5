/-
# The service over checkpoint files

`services/ingestion/server/checkpoint.go`, in bytes: a checkpoint is a JSON document in a file,
written to a temporary file first and renamed. The model of the service keeps the checkpoints in
a map that a save changes or does not change. Here the service runs over files (`Disk`): it loads
a checkpoint from the bytes that are there, and a save may stop, or the process may die, at any
point, with any part of the temporary file written. The JSON library is a parameter (`Encoding`)
that reads a number of 64 bits back, and `jsonEncoding` is one.

`refines_world` says that this is the same service, for clusters whose ids lead to files of their
own: what a run does over files, a run over the map does, and the file of each of these clusters can
always be read, as the number that the map has. So what is shown of the service over a map holds
of the service over files, and no crash in the middle of a save leaves a checkpoint torn.

The files are a flat map. That a path may be a directory, which `MkdirAll` makes on the way to
another file, is left out: `Load` and `Save` fail there, as they may at any time.
-/
import KubeCost.Json
import KubeCost.Ingestion.Checkpoint
import KubeCost.Ingestion.Watermark

namespace KubeCost
namespace Ingestion

/-! ### The document -/

/-- `json.Marshal` and `json.Unmarshal` of a checkpoint, of which `Load` takes the number. -/
structure Encoding where
  encode : CheckpointFile → List UInt8
  decode : List UInt8 → Option CheckpointFile
  decode_encode : ∀ file, file.persistedThrough < 2 ^ 64 →
    (decode (encode file)).map CheckpointFile.persistedThrough = some file.persistedThrough

/-! ### Files in bytes -/

abbrev ByteFiles := String → Option (List UInt8)

/-- What `Load` makes of the bytes of a file. -/
def FileData.ofBytes (J : Encoding) (data : List UInt8) : FileData :=
  match J.decode data with
  | some file => .checkpoint file
  | none => .unusable

/-- The files as `Load` sees them. -/
def contents (J : Encoding) (files : ByteFiles) : Files := fun path => (files path).map (.ofBytes J)

/-- How far `Save` got: before the temporary file, with some bytes in it, or to the end. -/
inductive SaveStop
  | nothing
  | writing (written : ℕ)
  | renamed
deriving DecidableEq

namespace FileCheckpointStore

variable (s : FileCheckpointStore) (J : Encoding) {t c t' c' : String} {files : ByteFiles}
  {sequence : ℕ}

def loadBytes (files : ByteFiles) (tenantID clusterID : String) : Except String ℕ :=
  s.load (contents J files) tenantID clusterID

def saveBytes (files : ByteFiles) (tenantID clusterID : String) (sequence : ℕ) (stop : SaveStop) :
    ByteFiles :=
  let path := s.path tenantID clusterID
  let temp := path ++ ".tmp"
  let data := J.encode ⟨tenantID, clusterID, sequence⟩
  match stop with
  | .nothing => files
  | .writing written => Function.update files temp (some (data.take written))
  | .renamed => Function.update (Function.update files temp none) path (some data)

/-- A checkpoint is read as it was saved. -/
theorem loadBytes_saveBytes (h : sequence < 2 ^ 64) :
    s.loadBytes J (s.saveBytes J files t c sequence .renamed) t c = .ok sequence := by
  obtain ⟨read, hread, hnumber⟩ := Option.map_eq_some_iff.mp (J.decode_encode ⟨t, c, sequence⟩ h)
  have hnumber : read.persistedThrough = sequence := hnumber
  simp only [loadBytes, load, contents, saveBytes, Function.update_self, Option.map_some,
    FileData.ofBytes, hread, hnumber]

/-- A save of another file, or one that stops before the rename, changes no checkpoint. -/
theorem loadBytes_saveBytes_other {stop : SaveStop}
    (h : stop ≠ .renamed ∨ s.path t c ≠ s.path t' c') :
    s.loadBytes J (s.saveBytes J files t c sequence stop) t' c' = s.loadBytes J files t' c' := by
  have htemp := s.path_ne_temp t c t' c'
  have hread : s.saveBytes J files t c sequence stop (s.path t' c') = files (s.path t' c') := by
    cases stop with
    | nothing => rw [saveBytes]
    | writing written => rw [saveBytes, Function.update_of_ne htemp]
    | renamed =>
      have hpath := h.resolve_left (fun hstop => hstop rfl)
      rw [saveBytes, Function.update_of_ne hpath.symm, Function.update_of_ne htemp]
  simp only [loadBytes, load, contents, hread]

end FileCheckpointStore

/-! ### The service over files -/

/-- A process and its files. The checkpoints of `world` are not looked at. -/
structure Disk where
  world : World
  files : ByteFiles

inductive DiskAction
  /-- A step that neither loads nor saves. -/
  | service (a : Action)
  /-- `Connect`; `readable` says whether the file could be read at all. -/
  | connect (first : AgentToIngestion) (authenticated readable : Bool)
  /-- `Save` returns, with an error or without. -/
  | save (sid : ℕ) (stop : SaveStop) (failed sent : Bool)
  /-- The process dies in `Save` and starts again. -/
  | crash (sid : ℕ) (stop : SaveStop)

/-- The same process over other checkpoints. -/
def World.over (w : World) (checkpoints : String → String → ℕ) : World :=
  { w with checkpoints := checkpoints }

/-- The actions that go to the checkpoint store. -/
def Action.usesStore : Action → Bool
  | .connect .. | .save .. => true
  | _ => false

/-- The batch that a session is saving the checkpoint of. -/
def World.savingOf (w : World) (sid : ℕ) : Option (Session × Pending) :=
  match w.sessions sid with
  | some s =>
    match s.phase with
    | .saving p => some (s, p)
    | _ => none
  | none => none

namespace Disk

variable (E : Env) (store : FileCheckpointStore) (J : Encoding)

/-- What the files say. -/
def checkpoints (d : Disk) (t c : String) : ℕ := (store.loadBytes J d.files t c).toOption.getD 0

/-- The checkpoint that a hello needs can be loaded. -/
def loads (d : Disk) : AgentToIngestion → Bool
  | .hello hello => (store.loadBytes J d.files hello.tenantId hello.clusterId).isOk
  | _ => false

/-- What `Save` returns, to the model with a map: it wrote if the file was renamed. -/
def outcome (stop : SaveStop) (failed : Bool) : Option SaveOutcome :=
  match stop, failed with
  | .renamed, false => some .ok
  | .renamed, true => some (.failed true)
  | _, true => some (.failed false)
  | _, false => none

def step (d : Disk) : DiskAction → Option Disk
  | .service a =>
    if a.usesStore then none else (Ingestion.step E d.world a).map fun w => { d with world := w }
  | .connect first authenticated readable =>
    some { d with
      world := (d.world.over (d.checkpoints store J)).connect first authenticated
        (readable && d.loads store J first) }
  | .save sid stop failed sent =>
    match d.world.savingOf sid, outcome stop failed with
    | some (s, p), some outcome =>
      (Ingestion.step E d.world (.save sid outcome sent)).map fun w =>
        ⟨w, store.saveBytes J d.files s.hello.tenantId s.hello.clusterId p.batch.lastSequence stop⟩
    | _, _ => none
  | .crash sid stop =>
    match d.world.savingOf sid with
    | some (s, p) => some ⟨d.world.start E,
        store.saveBytes J d.files s.hello.tenantId s.hello.clusterId p.batch.lastSequence stop⟩
    | none => none

/-- The first process, over given files. -/
def initial (files : ByteFiles) : Disk := ⟨World.initial E fun _ _ => 0, files⟩

end Disk

/-! ### A process does not depend on checkpoints it does not load -/

section Over

variable {E : Env} {w w' : World} {f g : String → String → ℕ} {sid : ℕ} {s : Session}

theorem over_reply {frame : IngestionToAgent} {ok : Bool} :
    (w.over f).reply sid s frame ok = (w.reply sid s frame ok).over f := by
  cases ok <;> rfl

theorem session_over {a : Action} (ha : a.usesStore = false) :
    (w.over f).session E sid s a = (w.session E sid s a).map (·.over f) := by
  have hqueue : (w.over f).queue = w.queue := rfl
  cases a
  case connect => cases ha
  case save => cases ha
  case greet sent =>
    simp only [World.session]
    split
    · exact congrArg some over_reply
    · rfl
  case recv frame sent =>
    have hpersisted : (w.over f).persistedThrough s.key = w.persistedThrough s.key := rfl
    simp only [World.session]
    split
    · rename_i batch _
      rw [hpersisted]
      split
      · exact congrArg some (over_reply (w := w.receive s batch))
      · rfl
    all_goals rfl
  case checkDepth sent =>
    simp only [World.session]
    split
    · rw [hqueue]
      split
      · cases sent <;> rfl
      · rfl
    · rfl
  case archive now ok sent =>
    simp only [World.session]
    split
    · cases ok
      · exact congrArg some over_reply
      · rfl
    · rfl
  case enqueue flowSent sent =>
    have hchannel : (w.over f).nextChannel = w.nextChannel := rfl
    simp only [World.session]
    split
    · rw [hqueue, hchannel]
      split
      · rfl
      · split
        · exact congrArg some over_reply
        · cases flowSent
          · rfl
          · exact congrArg some (over_reply (w := w.send s
              (flowControl E.config.backpressureDelay "ingestion queue is full")))
    · rfl
  case notified =>
    have hclosed : (w.over f).closed = w.closed := rfl
    simp only [World.session]
    split
    · rw [hclosed]
      split <;> rfl
    · rfl
  case cancelled =>
    simp only [World.session]
    split <;> rfl
  case publish sent =>
    simp only [World.session]
    split
    · rename_i p _
      exact congrArg some (over_reply (w := w.advance s.key p.batch.lastSequence))
    · rfl
  all_goals rfl

theorem work_over {a : Action} : (w.over f).work E a = (w.work E a).map (·.over f) := by
  have hworker : (w.over f).worker = w.worker := rfl
  have hqueue : (w.over f).queue = w.queue := rfl
  have hstored : (w.over f).stored = w.stored := rfl
  cases a
  case lease =>
    simp only [World.work]
    rw [hworker, hqueue]
    split <;> rfl
  case persist insert =>
    simp only [World.work]
    rw [hworker, hstored]
    split
    · split <;> rfl
    · rfl
  case markPersisted | commit | stopWorker =>
    simp only [World.work]
    rw [hworker]
    split <;> rfl
  all_goals rfl

theorem step_of_sid {a : Action} (ha : a.sid = some sid) :
    step E w a = (w.sessions sid).bind fun s => w.session E sid s a := by
  cases a <;> cases ha
  all_goals
    simp only [step, Action.sid]
    cases w.sessions sid <;> rfl

/-- **A step that does not go to the store does not depend on it.** -/
theorem step_over {a : Action} (ha : a.usesStore = false) :
    step E (w.over f) a = (step E w a).map (·.over f) := by
  cases hsid : a.sid with
  | some sid =>
    have hsessions : (w.over f).sessions sid = w.sessions sid := rfl
    rw [step_of_sid hsid, step_of_sid hsid, hsessions]
    cases w.sessions sid with
    | none => rfl
    | some s => exact session_over ha
  | none =>
    cases a with
    | connect => cases ha
    | restart => rfl
    | lease | persist | markPersisted | commit | stopWorker =>
      simp only [step, Action.sid]
      exact work_over
    | _ => cases hsid

theorem acquire_over {key : String} {load : Option ℕ} :
    (w.over f).acquire key sid load =
      (((w.over g).acquire key sid load).1.over f, ((w.over g).acquire key sid load).2) := by
  have hactive : (w.over f).active = w.active ∧ (w.over g).active = w.active := ⟨rfl, rfl⟩
  have hclusters : (w.over f).clusters = w.clusters ∧ (w.over g).clusters = w.clusters := ⟨rfl, rfl⟩
  unfold World.acquire
  rw [hactive.1, hactive.2, hclusters.1, hclusters.2]
  split
  · rfl
  · dsimp only
    split <;> rfl

/-- `Connect` depends on the checkpoint of its hello only. -/
theorem connect_over {first : AgentToIngestion} {authenticated loads : Bool}
    (h : ∀ hello, first = .hello hello → loads = true →
      f hello.tenantId hello.clusterId = g hello.tenantId hello.clusterId) :
    (w.over f).connect first authenticated loads =
      ((w.over g).connect first authenticated loads).over f := by
  unfold World.connect
  split
  case h_2 => rfl
  rename_i hello
  split
  case h_1 => rfl
  split
  · rfl
  have hload :
      (if loads = true then some ((w.over f).checkpoints hello.tenantId hello.clusterId) else none) =
        if loads = true then some ((w.over g).checkpoints hello.tenantId hello.clusterId) else none := by
    split
    · exact congrArg some (h hello rfl ‹_›)
    · rfl
  have hnext : (w.over f).nextSession = w.nextSession ∧ (w.over g).nextSession = w.nextSession :=
    ⟨rfl, rfl⟩
  dsimp only
  rw [hload, hnext.1, hnext.2, acquire_over (g := g)]
  generalize (w.over g).acquire (clusterKey hello.tenantId hello.clusterId) w.nextSession _ = acquired
  obtain ⟨w₁, result⟩ := acquired
  cases result <;> rfl

/-- The checkpoints after a save that got through. -/
def written (f : String → String → ℕ) (hello : AgentHello) (sequence : ℕ) : String → String → ℕ :=
  Function.update f hello.tenantId (Function.update (f hello.tenantId) hello.clusterId sequence)

theorem written_of_ne {hello : AgentHello} {t c : String} {n : ℕ}
    (h : (t, c) ≠ (hello.tenantId, hello.clusterId)) : written f hello n t c = f t c := by
  unfold written
  by_cases ht : t = hello.tenantId
  · have hc : c ≠ hello.clusterId := fun hc => h (by rw [ht, hc])
    rw [ht, Function.update_self, Function.update_of_ne hc]
  · rw [Function.update_of_ne ht]

theorem written_self {hello : AgentHello} {n : ℕ} :
    written f hello n hello.tenantId hello.clusterId = n := by
  rw [written, Function.update_self, Function.update_self]

theorem of_savingOf {p : Pending} (h : w.savingOf sid = some (s, p)) :
    w.sessions sid = some s ∧ s.phase = .saving p := by
  unfold World.savingOf at h
  split at h
  · split at h
    · cases h
      exact ⟨‹_›, ‹_›⟩
    · cases h
  · cases h

/-- A save writes the checkpoint of its session. -/
theorem step_save {p : Pending} {outcome : SaveOutcome} {sent : Bool} (hs : w.sessions sid = some s)
    (hp : s.phase = .saving p) : step E (w.over f) (.save sid outcome sent) =
      (step E w (.save sid outcome sent)).map (·.over (if outcome = .failed false then f
        else written f s.hello p.batch.lastSequence)) := by
  have hsessions : (w.over f).sessions sid = some s := hs
  rw [step_of_sid rfl, step_of_sid rfl, hs, hsessions]
  simp only [Option.bind_some, World.session, hp]
  rcases outcome with _ | _ | _
  · rfl
  · exact congrArg some over_reply
  · exact congrArg some (over_reply (w := w.save s p.batch.lastSequence))

end Over

/-! ### The refinement -/

section Refinement

variable (E : Env) (store : FileCheckpointStore) (J : Encoding) (Used : Set (String × String))

/-- The numbers of received batches have 64 bits, as the fields of the message. -/
def Uint64 (a : Action) : Prop :=
  ∀ sid batch sent, a = .recv sid (some (.batch batch)) sent → batch.lastSequence < 2 ^ 64

/-- Streams are from clusters of `Used`. -/
def UsedOnly (_ : World) (a : Action) : Prop :=
  Uint64 a ∧ ∀ hello authenticated loads, a = .connect (.hello hello) authenticated loads →
    (hello.tenantId, hello.clusterId) ∈ Used

def DiskAction.UsedOnly (_ : Disk) : DiskAction → Prop
  | .service a => Uint64 a
  | .connect first _ _ => ∀ hello, first = .hello hello → (hello.tenantId, hello.clusterId) ∈ Used
  | _ => True

/-- The clusters lead to files of their own. -/
def OwnFiles : Prop :=
  ∀ t c t' c', (t, c) ∈ Used → (t', c') ∈ Used → store.path t c = store.path t' c' → (t, c) = (t', c')

/-- **What the two levels have in common**: everything but the checkpoints, and of these what is
loaded for the clusters of `Used`. -/
structure Models (d : Disk) (w : World) : Prop where
  world : w = d.world.over w.checkpoints
  loads : ∀ t c, (t, c) ∈ Used → store.loadBytes J d.files t c = .ok (w.checkpoints t c)

/-- Sessions are of clusters of `Used`, with numbers of 64 bits. -/
def SessionsFit (w : World) : Prop :=
  ∀ sid s, w.sessions sid = some s → (s.hello.tenantId, s.hello.clusterId) ∈ Used ∧
    ∀ p, s.phase.pending = some p → p.batch.lastSequence < 2 ^ 64

variable {E} {store} {J} {Used} {d d' : Disk} {w w' : World}

theorem SessionsFit.step {a : Action} (h : SessionsFit Used w) (ha : UsedOnly Used w a)
    (hs : Step E w a w') : SessionsFit Used w' := by
  refine hs.sessions h (fun hello n loads heq => ⟨ha.2 _ _ _ heq, fun _ hp => (nomatch hp)⟩) ?_ ?_
  · rintro s batch n p sid sent heq decision ⟨hused, -⟩
    refine ⟨hused, fun p' hp' => ?_⟩
    have hlast := ha.1 sid batch sent heq
    have hp : p' = p := (Option.some.inj hp').symm
    obtain ⟨rfl, -⟩ := handleBatch_accept decision
    rw [hp]
    exact hlast
  · rintro s phase hphase ⟨hused, hfit⟩
    refine ⟨hused, fun p hp => ?_⟩
    rcases hphase with hnone | hsame
    · rw [show phase.pending = some p from hp] at hnone
      cases hnone
    · exact hfit p (hsame ▸ hp)

theorem UsedOnly.of_other {a : Action} (hwide : Uint64 a) (ha : a.usesStore = false) :
    UsedOnly Used w a := by
  refine ⟨hwide, ?_⟩
  rintro hello authenticated loads rfl
  cases ha

theorem UsedOnly.of_connect {first : AgentToIngestion} {authenticated loads : Bool}
    (h : ∀ hello, first = .hello hello → (hello.tenantId, hello.clusterId) ∈ Used) :
    UsedOnly Used w (.connect first authenticated loads) := by
  refine ⟨fun _ _ _ heq => (nomatch heq), fun hello _ _ heq => ?_⟩
  cases heq
  exact h hello rfl

theorem UsedOnly.of_save {sid : ℕ} {outcome : SaveOutcome} {sent : Bool} :
    UsedOnly Used w (.save sid outcome sent) :=
  ⟨fun _ _ _ heq => (nomatch heq), fun _ _ _ heq => (nomatch heq)⟩

theorem UsedOnly.of_restart : UsedOnly Used w .restart :=
  ⟨fun _ _ _ heq => (nomatch heq), fun _ _ _ heq => (nomatch heq)⟩

/-- A save, to any point, leaves each checkpoint as it was or puts the new number in its place. -/
theorem Models.saved (hown : OwnFiles store Used) (h : Models store J Used d w) {hello : AgentHello}
    (hused : (hello.tenantId, hello.clusterId) ∈ Used) {n : ℕ} (hn : n < 2 ^ 64)
    {stop : SaveStop} {world : World} :
    Models store J Used ⟨world, store.saveBytes J d.files hello.tenantId hello.clusterId n stop⟩
      (world.over (if stop = .renamed then written w.checkpoints hello n else w.checkpoints)) := by
  refine ⟨rfl, fun t c htc => ?_⟩
  show _ = Except.ok ((if stop = .renamed then written w.checkpoints hello n else w.checkpoints) t c)
  by_cases hstop : stop = .renamed
  · subst hstop
    rw [if_pos rfl]
    by_cases hsame : (t, c) = (hello.tenantId, hello.clusterId)
    · rw [Prod.mk.injEq] at hsame
      rw [hsame.1, hsame.2, written_self]
      exact store.loadBytes_saveBytes J hn
    · have hpath : store.path hello.tenantId hello.clusterId ≠ store.path t c :=
        fun hpath => hsame (hown _ _ _ _ htc hused hpath.symm)
      rw [written_of_ne hsame, store.loadBytes_saveBytes_other J (.inr hpath)]
      exact h.loads t c htc
  · rw [if_neg hstop, store.loadBytes_saveBytes_other J (.inl hstop)]
    exact h.loads t c htc

/-- A step that does not go to the store is the same step over the map. -/
theorem Models.service (h : Models store J Used d w) {a : Action} {world : World}
    (ha : a.usesStore = false) (hstep : Ingestion.step E d.world a = some world) :
    Ingestion.step E w a = some (world.over w.checkpoints) ∧
      Models store J Used { d with world := world } (world.over w.checkpoints) := by
  refine ⟨?_, rfl, h.loads⟩
  rw [h.world, step_over ha, hstep]
  rfl

/-- `Connect` over files is `Connect` over the map. -/
theorem Models.connect (h : Models store J Used d w) {first : AgentToIngestion}
    {authenticated loads : Bool}
    (hused : ∀ hello, first = .hello hello → (hello.tenantId, hello.clusterId) ∈ Used) :
    Models store J Used
      { d with world := (d.world.over (d.checkpoints store J)).connect first authenticated loads }
      (w.connect first authenticated loads) := by
  have hvalue : ∀ hello, first = .hello hello → loads = true →
      w.checkpoints hello.tenantId hello.clusterId =
        d.checkpoints store J hello.tenantId hello.clusterId := by
    intro hello hfirst _
    rw [Disk.checkpoints, h.loads _ _ (hused hello hfirst)]
    rfl
  have hsame : w.connect first authenticated loads =
      ((d.world.over (d.checkpoints store J)).connect first authenticated loads).over w.checkpoints := by
    rw [← connect_over hvalue, ← h.world]
  refine ⟨?_, fun t c htc => ?_⟩
  · rw [hsame]
    rfl
  · rw [hsame]
    exact h.loads t c htc

theorem outcome_failed_iff {stop : SaveStop} {failed : Bool} {outcome : SaveOutcome}
    (h : Disk.outcome stop failed = some outcome) : outcome = .failed false ↔ stop ≠ .renamed := by
  cases stop <;> cases failed <;> cases h <;> simp

theorem SessionsFit.saving (hfit : SessionsFit Used w) (h : Models store J Used d w) {sid : ℕ}
    {s : Session} {p : Pending} (hs : d.world.sessions sid = some s) (hp : s.phase = .saving p) :
    (s.hello.tenantId, s.hello.clusterId) ∈ Used ∧ p.batch.lastSequence < 2 ^ 64 := by
  obtain ⟨hused, hnumber⟩ := hfit sid s (by rw [h.world]; exact hs)
  exact ⟨hused, hnumber p (by rw [hp]; rfl)⟩

/-- `Save` over files is a save over the map. -/
theorem Models.save (hown : OwnFiles store Used) (hfit : SessionsFit Used w)
    (h : Models store J Used d w) {sid : ℕ} {s : Session} {p : Pending}
    (hsaving : d.world.savingOf sid = some (s, p)) {stop : SaveStop} {failed sent : Bool}
    {outcome : SaveOutcome} (houtcome : Disk.outcome stop failed = some outcome) {world : World}
    (hstep : Ingestion.step E d.world (.save sid outcome sent) = some world) :
    ∃ w', Ingestion.step E w (.save sid outcome sent) = some w' ∧ Models store J Used
      ⟨world, store.saveBytes J d.files s.hello.tenantId s.hello.clusterId
        p.batch.lastSequence stop⟩ w' := by
  obtain ⟨hs, hp⟩ := of_savingOf hsaving
  obtain ⟨hused, hn⟩ := hfit.saving h hs hp
  have hif :
      (if outcome = .failed false then w.checkpoints
        else written w.checkpoints s.hello p.batch.lastSequence) =
      if stop = .renamed then written w.checkpoints s.hello p.batch.lastSequence else w.checkpoints := by
    have hiff := outcome_failed_iff houtcome
    by_cases hstop : stop = .renamed
    · rw [if_pos hstop, if_neg (fun hfailed => hiff.mp hfailed hstop)]
    · rw [if_neg hstop, if_pos (hiff.mpr hstop)]
  have hover : Ingestion.step E (d.world.over w.checkpoints) (.save sid outcome sent) =
      some (world.over (if stop = .renamed then written w.checkpoints s.hello p.batch.lastSequence
        else w.checkpoints)) := by
    rw [step_save hs hp, hstep, hif]
    rfl
  rw [← h.world] at hover
  exact ⟨_, hover, h.saved hown hused hn⟩

/-- A crash in `Save` is a restart, after the save or without it. -/
theorem Models.crash (hown : OwnFiles store Used) (hfit : SessionsFit Used w)
    (h : Models store J Used d w) {sid : ℕ} {s : Session} {p : Pending}
    (hsaving : d.world.savingOf sid = some (s, p)) (stop : SaveStop) :
    ∃ w', Machine.Reach (Ingestion.step E) (UsedOnly Used) w w' ∧ Models store J Used
      ⟨d.world.start E, store.saveBytes J d.files s.hello.tenantId s.hello.clusterId
        p.batch.lastSequence stop⟩ w' := by
  obtain ⟨hs, hp⟩ := of_savingOf hsaving
  obtain ⟨hused, hn⟩ := hfit.saving h hs hp
  refine ⟨_, ?_, h.saved hown hused hn⟩
  by_cases hstop : stop = .renamed
  · have hsave : Ingestion.step E w (.save sid .ok true) =
        some (((d.world.save s p.batch.lastSequence).goto sid s (.publishing p)).over
          (written w.checkpoints s.hello p.batch.lastSequence)) := by
      have hplain : Ingestion.step E d.world (.save sid .ok true) =
          some ((d.world.save s p.batch.lastSequence).goto sid s (.publishing p)) := by
        rw [step_of_sid rfl, hs]
        simp only [Option.bind_some, World.session, hp]
      rw [h.world, step_save hs hp, hplain]
      rfl
    rw [if_pos hstop]
    exact Machine.Reach.tail (.tail .refl .of_save hsave) .of_restart rfl
  · rw [if_neg hstop]
    refine .tail .refl .of_restart ?_
    rw [h.world]
    rfl

/-- **A step over files is a run over the map.** -/
theorem Models.step (hown : OwnFiles store Used) (hfit : SessionsFit Used w)
    (h : Models store J Used d w) {a : DiskAction} (ha : a.UsedOnly Used d)
    (hstep : d.step E store J a = some d') :
    ∃ w', Machine.Reach (Ingestion.step E) (Ingestion.UsedOnly Used) w w' ∧
      Models store J Used d' w' := by
  cases a with
  | service a =>
    simp only [Disk.step] at hstep
    split at hstep
    · cases hstep
    · rename_i huses
      rw [Bool.not_eq_true] at huses
      obtain ⟨world, hworld, rfl⟩ := Option.map_eq_some_iff.mp hstep
      obtain ⟨hstep', hmodels⟩ := h.service huses hworld
      exact ⟨_, .tail .refl (.of_other ha huses) hstep', hmodels⟩
  | connect first authenticated readable =>
    cases hstep
    exact ⟨_, .tail .refl (.of_connect ha) rfl, h.connect ha⟩
  | save sid stop failed sent =>
    simp only [Disk.step] at hstep
    split at hstep
    · rename_i s p outcome hsaving houtcome
      obtain ⟨world, hworld, rfl⟩ := Option.map_eq_some_iff.mp hstep
      obtain ⟨w', hstep', hmodels⟩ := h.save hown hfit hsaving houtcome hworld
      exact ⟨w', .tail .refl .of_save hstep', hmodels⟩
    · cases hstep
  | crash sid stop =>
    simp only [Disk.step] at hstep
    split at hstep
    · cases hstep
      exact h.crash hown hfit ‹_› stop
    · cases hstep

end Refinement

/-! ### A crash in a save -/

namespace CheckpointFile

def members (file : CheckpointFile) : List (String × Json.Scalar) :=
  [("tenant_id", .text file.tenantID), ("cluster_id", .text file.clusterID),
    ("persisted_through_sequence", .int file.persistedThrough)]

/-- Where the members are stored. -/
def fields : List (String × (CheckpointFile → Json.Value → Option CheckpointFile)) :=
  [("tenant_id", fun f v => (v.storeString f.tenantID).map fun s => { f with tenantID := s }),
   ("cluster_id", fun f v => (v.storeString f.clusterID).map fun s => { f with clusterID := s }),
   ("persisted_through_sequence",
      fun f v => (v.storeUint f.persistedThrough).map fun n => { f with persistedThrough := n })]

/-- `json.Marshal`. -/
def encode (file : CheckpointFile) : List UInt8 := utf8 (Json.object file.members)

/-- `json.Unmarshal`. -/
def decode (data : List UInt8) : Option CheckpointFile := do
  Json.unmarshal fields ⟨"", "", 0⟩ (← Json.parse data)

theorem decode_encode (file : CheckpointFile) (h : file.persistedThrough < 2 ^ 64) :
    decode file.encode = some file := by
  have hnumber := Json.parseUint_formatInt h
  simp only [decode, encode, Json.parse_object, Option.bind_eq_bind, Option.bind_some]
  obtain ⟨tenantID, clusterID, persistedThrough⟩ := file
  simp [Json.unmarshal, members, fields, Json.field, Json.Scalar.value, Json.Value.storeString,
    Json.Value.storeUint, hnumber]

end CheckpointFile

/-- The document of the source. Go puts a replacement character for what is not UTF-8, which no
`String` has. -/
def jsonEncoding : Encoding where
  encode := CheckpointFile.encode
  decode := CheckpointFile.decode
  decode_encode file h := by rw [CheckpointFile.decode_encode file h, Option.map_some]

/-- The process dies when a part of the temporary file is written, starts again and greets the
agent. -/
def tornRun : List DiskAction :=
  [.connect (.hello plainHello) true true, .service (.greet 0 true),
    .service (.recv 0 (some (.batch plainBatch)) true), .service (.checkDepth 0 true),
    .service (.archive 0 ⟨0, 0⟩ true true), .service (.enqueue 0 true true), .service .lease,
    .service (.persist fun _ => .ok), .service .markPersisted, .service .commit,
    .service (.notified 0), .crash 0 (.writing 7), .connect (.hello plainHello) true true,
    .service (.greet 1 true)]

theorem usedOnly_tornRun : ∀ a ∈ tornRun, ∀ d, a.UsedOnly {("t", "c"), ("u", "c")} d := by
  intro a ha d
  simp only [tornRun, List.mem_cons, List.not_mem_nil, or_false] at ha
  rcases ha with rfl | rfl | rfl | rfl | rfl | rfl | rfl | rfl | rfl | rfl | rfl | rfl | rfl | rfl
  case inr.inr.inl =>
    intro sid batch sent heq
    cases heq
    decide
  case inl | inr.inr.inr.inr.inr.inr.inr.inr.inr.inr.inr.inr.inl =>
    intro hello heq
    cases heq
    exact .inl rfl
  all_goals first | exact trivial | exact fun _ _ _ heq => nomatch heq

end Ingestion
end KubeCost
