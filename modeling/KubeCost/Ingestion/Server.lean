/-
# The ingestion service as a state machine

`services/ingestion`: the sessions of `Server.Connect`, the lease queue and the
persistence worker of one process, with what outlives the process (the
checkpoint store, the raw archive and the inventory rows).

A session is a call of `Connect`. Its phase is the place in `Connect` or
`handleBatch` at which it waits for something outside: a frame, the archive, the
queue, the persistence notification, the checkpoint store, a send. A step runs
one thread from one such place to the next. Everything that can go wrong there
(an archive, load, save, insert or send that fails, a cancelled stream, a
restart) is part of the action, so a run is a list of actions and covers every
interleaving of the threads.

The mutex of a cluster's state is held by at most one session, since a cluster
has at most one active session; it is not modelled. Session ids are UUIDs in
the source and come from a counter here, as do the notification channels.

Three lists record what happened: `received`, every batch frame a session took
from its stream, `sent`, every frame handed to a stream, and `persisted`, every
batch on which `Repository.Persist` returned nil.
-/
import Mathlib.Logic.Function.Basic
import KubeCost.Ingestion.Batch
import KubeCost.Ingestion.Repository

namespace KubeCost
namespace Ingestion

/-- The parameters of a process: libraries, server and worker configuration. -/
structure Env where
  codec : Codec
  config : Config
  queueCapacity : ℕ
  batchSize : ℕ

/-! ### State -/

structure ClusterState where
  persistedThrough : ℕ := 0
  loaded : Bool := false
deriving DecidableEq

structure ArchiveRecord where
  tenantId : String
  clusterId : String
  agentInstance : String
  sessionId : ℕ
  receivedAt : Timestamp
  batch : ObservationBatch
deriving DecidableEq

/-- The locals of `handleBatch` once a batch is accepted: the batch, its suffix
after the watermark, and the watermark. -/
structure Pending where
  batch : ObservationBatch
  accepted : ObservationBatch
  persisted : ℕ
deriving DecidableEq

/-- Where a session is in `Connect` and `handleBatch`. -/
inductive Phase
  /-- Acquired, about to send the server's hello. -/
  | greeting (persistedThrough : ℕ)
  /-- In `stream.Recv`. -/
  | receiving
  /-- A batch is accepted; the depth of the queue is looked at next. -/
  | admitted (p : Pending)
  | archiving (p : Pending) (flowControlSent : Bool)
  | enqueueing (p : Pending) (flowControlSent : Bool) (receivedAt : Timestamp)
  /-- In the `select` on the batch's channel and the stream's context. -/
  | waiting (p : Pending) (channel : ℕ)
  | saving (p : Pending)
  /-- The checkpoint is saved; the watermark and the acknowledgement come next. -/
  | publishing (p : Pending)
deriving DecidableEq

structure Session where
  hello : AgentHello
  phase : Phase
deriving DecidableEq

/-- Where the persistence worker is in `Worker.Run`. -/
inductive WorkerPhase
  | idle
  | persisting (lease : List Batch)
  /-- In `Lease.Commit`, with the items whose channels are still to be closed. -/
  | committing (lease pending : List Batch)
  | stopped

/-- A frame handed to the stream of a session. -/
structure Sent where
  tenantId : String
  clusterId : String
  frame : IngestionToAgent
deriving DecidableEq

/-- A batch frame that a session took from its stream. -/
structure Received where
  tenantId : String
  clusterId : String
  batch : ObservationBatch
deriving DecidableEq

structure World where
  clusters : String → Option ClusterState
  active : String → Option ℕ
  sessions : ℕ → Option Session
  queue : Queue Batch
  closed : List ℕ
  worker : WorkerPhase
  nextSession : ℕ
  nextChannel : ℕ
  checkpoints : String → String → ℕ
  archive : List ArchiveRecord
  stored : List MappedRow
  received : List Received
  sent : List Sent
  persisted : List Batch

/-- The key of `Server.clusters` and `Server.active`. -/
def clusterKey (tenantID clusterID : String) : String := tenantID ++ "\x00" ++ clusterID

/-- NUL-free ids have a key of their own. -/
theorem clusterKey_inj {t t' c c' : String} (ht : NulFree t) (ht' : NulFree t')
    (h : clusterKey t c = clusterKey t' c') : t = t' ∧ c = c' :=
  joined_inj ht ht' h

def Session.key (s : Session) : String := clusterKey s.hello.tenantId s.hello.clusterId

/-- A process that has just started over the given durable state. -/
def World.start (E : Env) (w : World) : World :=
  { w with
    clusters := fun _ => none
    active := fun _ => none
    sessions := fun _ => none
    queue := Queue.new E.queueCapacity
    closed := []
    worker := .idle }

/-- The first process, over a checkpoint store with the given values. -/
def World.initial (E : Env) (checkpoints : String → String → ℕ) : World where
  clusters := fun _ => none
  active := fun _ => none
  sessions := fun _ => none
  queue := Queue.new E.queueCapacity
  closed := []
  worker := .idle
  nextSession := 0
  nextChannel := 0
  checkpoints := checkpoints
  archive := []
  stored := []
  received := []
  sent := []
  persisted := []

/-! ### Sessions -/

/-- `Server.persisted`: 0 for a cluster without a state. -/
def World.persistedThrough (w : World) (key : String) : ℕ :=
  ((w.clusters key).map (·.persistedThrough)).getD 0

/-- The watermark of a cluster, which `acquire` returns: the one in memory, or
the checkpoint when none has been loaded. -/
def World.watermark (w : World) (t c : String) : ℕ :=
  match w.clusters (clusterKey t c) with
  | some st => if st.loaded then st.persistedThrough else w.checkpoints t c
  | none => w.checkpoints t c

/-- The session goes on to a phase. -/
def World.goto (w : World) (sid : ℕ) (s : Session) (phase : Phase) : World :=
  { w with sessions := Function.update w.sessions sid (some { s with phase := phase }) }

/-- A batch comes from the stream. -/
def World.receive (w : World) (s : Session) (batch : ObservationBatch) : World :=
  { w with received := w.received ++ [⟨s.hello.tenantId, s.hello.clusterId, batch⟩] }

/-- `stream.Send`. A send that fails may still have reached the agent. -/
def World.send (w : World) (s : Session) (frame : IngestionToAgent) : World :=
  { w with sent := w.sent ++ [⟨s.hello.tenantId, s.hello.clusterId, frame⟩] }

/-- `Connect` returns: the deferred `release`. -/
def World.finish (w : World) (sid : ℕ) (s : Session) : World :=
  { w with
    active := if w.active s.key = some sid then Function.update w.active s.key none else w.active
    sessions := Function.update w.sessions sid none }

/-- `handleBatch` ends with a send: back to `Recv`, or out of `Connect`. -/
def World.reply (w : World) (sid : ℕ) (s : Session) (frame : IngestionToAgent) (ok : Bool) : World :=
  if ok then (w.send s frame).goto sid s .receiving else (w.send s frame).finish sid s

inductive Acquired
  | busy
  | loadFailed
  | acquired (persistedThrough : ℕ)

/-- `acquire`. `load` is what the checkpoint store returned, `none` an error; a
cluster seen for the first time keeps its empty state even then. -/
def World.acquire (w : World) (key : String) (sid : ℕ) (load : Option ℕ) : World × Acquired :=
  if (w.active key).isSome then (w, .busy)
  else
    let state := (w.clusters key).getD {}
    let loaded : Option ClusterState :=
      if state.loaded then some state
      else load.map fun persistedThrough => ⟨persistedThrough, true⟩
    match loaded with
    | none => ({ w with clusters := Function.update w.clusters key (some state) }, .loadFailed)
    | some state =>
      ({ w with
          clusters := Function.update w.clusters key (some state)
          active := Function.update w.active key (some sid) }, .acquired state.persistedThrough)

/-- `Connect` up to the server's hello. A refused stream changes at most the
entry that `acquire` makes. -/
def World.connect (w : World) (first : AgentToIngestion) (authenticated loads : Bool) : World :=
  match first with
  | .hello hello =>
    match validateHello hello with
    | .error _ => w
    | .ok () =>
      if !authenticated || !supportsProtocol hello.supportedProtocolVersions then w
      else
        let load := if loads then some (w.checkpoints hello.tenantId hello.clusterId) else none
        match w.acquire (clusterKey hello.tenantId hello.clusterId) w.nextSession load with
        | (w', .acquired persistedThrough) =>
          { w' with
            sessions := Function.update w'.sessions w.nextSession
              (some ⟨hello, .greeting persistedThrough⟩)
            nextSession := w.nextSession + 1 }
        | (w', _) => w'
  | _ => w

/-- The first part of `handleBatch`: an answer at once, or a batch to archive,
enqueue and wait for. -/
inductive Decision
  | answer (frame : IngestionToAgent)
  | accept (p : Pending)

def handleBatch (E : Env) (persisted : ℕ) (batch : ObservationBatch) : Decision :=
  match validateBatch E.codec E.config batch with
  | .error e => .answer (acknowledgement batch.batchId persisted persisted []
      (rejectionsForBatch batch (rejectionCode e) e))
  | .ok () =>
    if batch.lastSequence ≤ persisted then
      .answer (acknowledgement batch.batchId batch.lastSequence persisted [] [])
    else if batch.firstSequence > persisted + 1 then
      .answer (acknowledgement batch.batchId batch.lastSequence persisted
        [⟨persisted + 1, batch.firstSequence - 1⟩] [])
    else .accept ⟨batch, suffixAfter E.codec batch persisted, persisted⟩

/-- The acknowledgement that asks for the accepted suffix again. -/
def Pending.retryAck (p : Pending) : IngestionToAgent :=
  acknowledgement p.batch.batchId p.batch.lastSequence p.persisted
    [⟨p.accepted.firstSequence, p.accepted.lastSequence⟩] []

/-- The acknowledgement of a persisted batch. -/
def Pending.persistedAck (p : Pending) : IngestionToAgent :=
  acknowledgement p.batch.batchId p.batch.lastSequence p.batch.lastSequence [] []

/-- `highWatermark`. -/
def highWatermark (E : Env) (q : Queue Batch) : ℕ :=
  max 1 ((q.capacity : ℤ) * E.config.highWatermarkPercent / 100).toNat

def archiveRecord (s : Session) (sid : ℕ) (p : Pending) (receivedAt : Timestamp) : ArchiveRecord :=
  ⟨s.hello.tenantId, s.hello.clusterId, s.hello.agentInstanceId, sid, receivedAt, p.accepted⟩

def queuedBatch (s : Session) (sid : ℕ) (p : Pending) (receivedAt : Timestamp) (channel : ℕ) : Batch :=
  ⟨s.hello.tenantId, s.hello.clusterId, s.hello.agentInstanceId, sid, receivedAt, p.accepted,
    some channel⟩

/-- `checkpoints.Save`, which may also fail after it has written. -/
inductive SaveOutcome
  | ok
  | failed (written : Bool)
deriving DecidableEq

def World.save (w : World) (s : Session) (sequence : ℕ) : World :=
  { w with
    checkpoints := Function.update w.checkpoints s.hello.tenantId
      (Function.update (w.checkpoints s.hello.tenantId) s.hello.clusterId sequence) }

/-- `state.persistedThrough = …`. -/
def World.advance (w : World) (key : String) (sequence : ℕ) : World :=
  { w with
    clusters := Function.update w.clusters key
      ((w.clusters key).map fun st => { st with persistedThrough := sequence }) }

/-! ### Steps -/

inductive Action
  | connect (first : AgentToIngestion) (authenticated loads : Bool)
  | greet (sid : ℕ) (sent : Bool)
  /-- `stream.Recv` returns a frame, or an error. -/
  | recv (sid : ℕ) (frame : Option AgentToIngestion) (sent : Bool)
  | checkDepth (sid : ℕ) (sent : Bool)
  | archive (sid : ℕ) (now : Timestamp) (ok sent : Bool)
  | enqueue (sid : ℕ) (flowSent sent : Bool)
  | notified (sid : ℕ)
  | cancelled (sid : ℕ)
  | save (sid : ℕ) (outcome : SaveOutcome) (sent : Bool)
  | publish (sid : ℕ) (sent : Bool)
  | lease
  | persist (insert : String → InsertOutcome)
  | markPersisted
  | commit
  /-- The worker's context is cancelled. -/
  | stopWorker
  | restart

/-- A step of a session that is in some phase. -/
def World.session (E : Env) (w : World) (sid : ℕ) (s : Session) : Action → Option World
  | .greet _ sent =>
    match s.phase with
    | .greeting p => some (w.reply sid s (serverHello sid p E.config) sent)
    | _ => none
  | .recv _ frame sent =>
    match s.phase, frame with
    | .receiving, some (.batch batch) =>
      match handleBatch E (w.persistedThrough s.key) batch with
      | .answer frame => some ((w.receive s batch).reply sid s frame sent)
      | .accept p => some ((w.receive s batch).goto sid s (.admitted p))
    | .receiving, some (.heartbeat _) => some w
    | .receiving, _ => some (w.finish sid s)
    | _, _ => none
  | .checkDepth _ sent =>
    match s.phase with
    | .admitted p =>
      if w.queue.depth ≥ highWatermark E w.queue then
        let w' := w.send s
          (flowControl E.config.backpressureDelay "ingestion queue is above its high watermark")
        some (if sent then w'.goto sid s (.archiving p true) else w'.finish sid s)
      else some (w.goto sid s (.archiving p false))
    | _ => none
  | .archive _ now ok sent =>
    match s.phase with
    | .archiving p flowControlSent =>
      if ok then
        some ({ w with archive := w.archive ++ [archiveRecord s sid p now] }.goto sid s
          (.enqueueing p flowControlSent now))
      else some (w.reply sid s p.retryAck sent)
    | _ => none
  | .enqueue _ flowSent sent =>
    match s.phase with
    | .enqueueing p flowControlSent receivedAt =>
      match w.queue.tryEnqueue (queuedBatch s sid p receivedAt w.nextChannel) with
      | some q =>
        some ({ w with queue := q, nextChannel := w.nextChannel + 1 }.goto sid s
          (.waiting p w.nextChannel))
      | none =>
        if flowControlSent then some (w.reply sid s p.retryAck sent)
        else
          let w' := w.send s (flowControl E.config.backpressureDelay "ingestion queue is full")
          some (if flowSent then w'.reply sid s p.retryAck sent else w'.finish sid s)
    | _ => none
  | .notified _ =>
    match s.phase with
    | .waiting p channel => if channel ∈ w.closed then some (w.goto sid s (.saving p)) else none
    | _ => none
  | .cancelled _ =>
    match s.phase with
    | .waiting _ _ => some (w.finish sid s)
    | _ => none
  | .save _ outcome sent =>
    match s.phase with
    | .saving p =>
      match outcome with
      | .ok => some ((w.save s p.batch.lastSequence).goto sid s (.publishing p))
      | .failed written =>
        some ((if written then w.save s p.batch.lastSequence else w).reply sid s p.retryAck sent)
    | _ => none
  | .publish _ sent =>
    match s.phase with
    | .publishing p =>
      some ((w.advance s.key p.batch.lastSequence).reply sid s p.persistedAck sent)
    | _ => none
  | _ => none

/-- The session an action belongs to. -/
def Action.sid : Action → Option ℕ
  | .greet sid _ | .recv sid _ _ | .checkDepth sid _ | .archive sid _ _ _ | .enqueue sid _ _
  | .notified sid | .cancelled sid | .save sid _ _ | .publish sid _ => some sid
  | _ => none

/-- A step of `Worker.Run`. -/
def World.work (E : Env) (w : World) : Action → Option World
  | .lease =>
    match w.worker, w.queue.acquire E.batchSize with
    | .idle, some (lease, q) => some { w with queue := q, worker := .persisting lease }
    | _, _ => none
  | .persist insert =>
    match w.worker with
    | .persisting lease =>
      match KubeCost.Ingestion.persist insert w.stored lease with
      | (.ok (), stored) =>
        some { w with
          stored := stored
          worker := .committing lease lease
          persisted := w.persisted ++ lease }
      | (.error (.invalidInventory _), stored) =>
        some { w with stored := stored, queue := w.queue.retry lease, worker := .stopped }
      | (.error (.insert _), stored) =>
        some { w with stored := stored, queue := w.queue.retry lease, worker := .idle }
    | _ => none
  | .markPersisted =>
    match w.worker with
    | .committing lease (item :: pending) =>
      some { w with
        closed := w.closed ++ item.persisted.toList
        worker := .committing lease pending }
    | _ => none
  | .commit =>
    match w.worker with
    | .committing lease [] => some { w with queue := w.queue.commit lease, worker := .idle }
    | _ => none
  | .stopWorker =>
    match w.worker with
    | .idle => some { w with worker := .stopped }
    | _ => none
  | _ => none

/-- One step; `none` when the action is not possible. -/
def step (E : Env) (w : World) (a : Action) : Option World :=
  match a with
  | .connect first authenticated loads => some (w.connect first authenticated loads)
  | .restart => some (w.start E)
  | a =>
    match a.sid with
    | some sid =>
      match w.sessions sid with
      | some s => w.session E sid s a
      | none => none
    | none => w.work E a

/-! ### What a step can do -/

/-- What `acquire` takes as the cluster's state: the one in memory, or the
checkpoint when none has been loaded. -/
def World.Loads (w : World) (hello : AgentHello) (st : ClusterState) : Prop :=
  (w.clusters (clusterKey hello.tenantId hello.clusterId) = some st ∧ st.loaded = true) ∨
  (((w.clusters (clusterKey hello.tenantId hello.clusterId)).getD {}).loaded = false ∧
    st = ⟨w.checkpoints hello.tenantId hello.clusterId, true⟩)

/-- The world in which the stream of `hello` has become a session. -/
def World.opened (w : World) (hello : AgentHello) (st : ClusterState) : World :=
  let key := clusterKey hello.tenantId hello.clusterId
  { w with
    clusters := Function.update w.clusters key (some st)
    active := Function.update w.active key (some w.nextSession)
    sessions := Function.update w.sessions w.nextSession
      (some ⟨hello, .greeting st.persistedThrough⟩)
    nextSession := w.nextSession + 1 }

/-- The entry `acquire` leaves behind when the checkpoint cannot be loaded. -/
def World.noteCluster (w : World) (key : String) : World :=
  { w with clusters := Function.update w.clusters key (some ((w.clusters key).getD {})) }

/-- The transitions of `step`, one constructor for each way through the code. -/
inductive Step (E : Env) (w : World) : Action → World → Prop
  | refused {a} : Step E w a w
  | loadFailed {hello authenticated loads} :
    Step E w (.connect (.hello hello) authenticated loads)
      (w.noteCluster (clusterKey hello.tenantId hello.clusterId))
  | acquired {hello loads st} (valid : validateHello hello = .ok ())
    (idle : w.active (clusterKey hello.tenantId hello.clusterId) = none) (state : w.Loads hello st) :
    Step E w (.connect (.hello hello) true loads) (w.opened hello st)
  | greeted {sid s sent p} (here : w.sessions sid = some s) (phase : s.phase = .greeting p) :
    Step E w (.greet sid sent) (w.reply sid s (serverHello sid p E.config) sent)
  | answered {sid s batch frame sent} (here : w.sessions sid = some s)
    (phase : s.phase = .receiving)
    (decision : handleBatch E (w.persistedThrough s.key) batch = .answer frame) :
    Step E w (.recv sid (some (.batch batch)) sent) ((w.receive s batch).reply sid s frame sent)
  | accepted {sid s batch p sent} (here : w.sessions sid = some s) (phase : s.phase = .receiving)
    (decision : handleBatch E (w.persistedThrough s.key) batch = .accept p) :
    Step E w (.recv sid (some (.batch batch)) sent) ((w.receive s batch).goto sid s (.admitted p))
  | left {a sid s} (here : w.sessions sid = some s) : Step E w a (w.finish sid s)
  | below {sid s p sent} (here : w.sessions sid = some s) (phase : s.phase = .admitted p) :
    Step E w (.checkDepth sid sent) (w.goto sid s (.archiving p false))
  | above {sid s p reason} (here : w.sessions sid = some s) (phase : s.phase = .admitted p) :
    Step E w (.checkDepth sid true)
      ((w.send s (flowControl E.config.backpressureDelay reason)).goto sid s (.archiving p true))
  | flowLeft {a sid s reason} (here : w.sessions sid = some s) :
    Step E w a ((w.send s (flowControl E.config.backpressureDelay reason)).finish sid s)
  | archived {sid s p flag now sent} (here : w.sessions sid = some s)
    (phase : s.phase = .archiving p flag) :
    Step E w (.archive sid now true sent)
      ({ w with archive := w.archive ++ [archiveRecord s sid p now] }.goto sid s
        (.enqueueing p flag now))
  | archiveFailed {sid s p flag now sent} (here : w.sessions sid = some s)
    (phase : s.phase = .archiving p flag) :
    Step E w (.archive sid now false sent) (w.reply sid s p.retryAck sent)
  | enqueued {sid s p flag now q flowSent sent} (here : w.sessions sid = some s)
    (phase : s.phase = .enqueueing p flag now)
    (queue : w.queue.tryEnqueue (queuedBatch s sid p now w.nextChannel) = some q) :
    Step E w (.enqueue sid flowSent sent)
      ({ w with queue := q, nextChannel := w.nextChannel + 1 }.goto sid s
        (.waiting p w.nextChannel))
  | full {sid s p flag now flowSent sent} (here : w.sessions sid = some s)
    (phase : s.phase = .enqueueing p flag now) :
    Step E w (.enqueue sid flowSent sent) (w.reply sid s p.retryAck sent)
  | fullFlow {sid s p flag now flowSent sent reason} (here : w.sessions sid = some s)
    (phase : s.phase = .enqueueing p flag now) :
    Step E w (.enqueue sid flowSent sent)
      ((w.send s (flowControl E.config.backpressureDelay reason)).reply sid s p.retryAck sent)
  | notified {sid s p channel} (here : w.sessions sid = some s)
    (phase : s.phase = .waiting p channel) (closed : channel ∈ w.closed) :
    Step E w (.notified sid) (w.goto sid s (.saving p))
  | saved {sid s p sent} (here : w.sessions sid = some s) (phase : s.phase = .saving p) :
    Step E w (.save sid .ok sent)
      ((w.save s p.batch.lastSequence).goto sid s (.publishing p))
  | saveFailed {sid s p sent} (here : w.sessions sid = some s) (phase : s.phase = .saving p) :
    Step E w (.save sid (.failed false) sent) (w.reply sid s p.retryAck sent)
  | saveFailedLate {sid s p sent} (here : w.sessions sid = some s) (phase : s.phase = .saving p) :
    Step E w (.save sid (.failed true) sent)
      ((w.save s p.batch.lastSequence).reply sid s p.retryAck sent)
  | published {sid s p sent} (here : w.sessions sid = some s) (phase : s.phase = .publishing p) :
    Step E w (.publish sid sent)
      ((w.advance s.key p.batch.lastSequence).reply sid s p.persistedAck sent)
  | leased {lease q} (idle : w.worker = .idle)
    (queue : w.queue.acquire E.batchSize = some (lease, q)) :
    Step E w .lease { w with queue := q, worker := .persisting lease }
  | persisted {insert lease stored} (phase : w.worker = .persisting lease)
    (result : persist insert w.stored lease = (.ok (), stored)) :
    Step E w (.persist insert)
      { w with
        stored := stored
        worker := .committing lease lease
        persisted := w.persisted ++ lease }
  | persistFailed {insert lease error stored after} (phase : w.worker = .persisting lease)
    (result : persist insert w.stored lease = (.error error, stored))
    (next : after = .stopped ∨ after = .idle) :
    Step E w (.persist insert)
      { w with stored := stored, queue := w.queue.retry lease, worker := after }
  | marked {lease item pending} (phase : w.worker = .committing lease (item :: pending)) :
    Step E w .markPersisted
      { w with
        closed := w.closed ++ item.persisted.toList
        worker := .committing lease pending }
  | committed {lease} (phase : w.worker = .committing lease []) :
    Step E w .commit { w with queue := w.queue.commit lease, worker := .idle }
  | stopped (phase : w.worker = .idle) : Step E w .stopWorker { w with worker := .stopped }
  | restarted : Step E w .restart (w.start E)

variable {E : Env} {w w' : World}

/-- A stream is refused, its cluster is noted, or it becomes a session. -/
theorem connect_cases (first : AgentToIngestion) (authenticated loads : Bool) :
    w.connect first authenticated loads = w ∨
    (∃ hello, first = .hello hello ∧ w.connect first authenticated loads =
      w.noteCluster (clusterKey hello.tenantId hello.clusterId)) ∨
    ∃ hello st, first = .hello hello ∧ authenticated = true ∧ validateHello hello = .ok () ∧
      w.active (clusterKey hello.tenantId hello.clusterId) = none ∧ w.Loads hello st ∧
      w.connect first authenticated loads = w.opened hello st := by
  unfold World.connect
  split
  case h_2 => exact .inl rfl
  rename_i hello
  split
  case h_1 => exact .inl rfl
  rename_i valid
  by_cases hp : (!authenticated || !supportsProtocol hello.supportedProtocolVersions) = true
  · rw [if_pos hp]
    exact .inl rfl
  rw [if_neg hp]
  obtain rfl : authenticated = true := by
    cases authenticated
    · exact absurd rfl hp
    · rfl
  simp only [World.acquire]
  cases hact : w.active (clusterKey hello.tenantId hello.clusterId) with
  | some sid => exact .inl rfl
  | none =>
    simp only [Option.isSome_none, Bool.false_eq_true, ↓reduceIte]
    cases hl : ((w.clusters (clusterKey hello.tenantId hello.clusterId)).getD {}).loaded with
    | true =>
      -- the state in memory is used as it is
      cases hc : w.clusters (clusterKey hello.tenantId hello.clusterId) with
      | none => rw [hc] at hl; cases hl
      | some st =>
        rw [hc] at hl
        simp only [Option.getD_some] at hl ⊢
        simp only [↓reduceIte]
        exact .inr (.inr ⟨hello, st, rfl, trivial, valid, hact, .inl ⟨hc, hl⟩, rfl⟩)
    | false =>
      cases loads with
      | true => exact .inr (.inr ⟨hello, _, rfl, trivial, valid, hact, .inr ⟨hl, rfl⟩, rfl⟩)
      | false => exact .inr (.inl ⟨hello, rfl, rfl⟩)

theorem connect_step (first : AgentToIngestion) (authenticated loads : Bool) :
    Step E w (.connect first authenticated loads) (w.connect first authenticated loads) := by
  rcases connect_cases (w := w) first authenticated loads with
    h | ⟨hello, rfl, h⟩ | ⟨hello, st, rfl, rfl, valid, idle, state, h⟩
  · rw [h]
    exact .refused
  · rw [h]
    exact .loadFailed
  · rw [h]
    exact .acquired valid idle state

theorem session_step {sid : ℕ} {s : Session} (here : w.sessions sid = some s) {a : Action}
    (ha : a.sid = some sid) (h : w.session E sid s a = some w') : Step E w a w' := by
  cases a <;> cases ha
  case greet sent =>
    simp only [World.session] at h
    split at h <;> cases h
    exact .greeted here ‹_›
  case recv frame sent =>
    simp only [World.session] at h
    split at h
    case h_1 =>
      split at h <;> cases h
      · exact .answered here ‹_› ‹_›
      · exact .accepted here ‹_› ‹_›
    all_goals cases h
    · exact .refused
    · exact .left here
  case checkDepth sent =>
    simp only [World.session] at h
    split at h
    case h_2 => cases h
    split at h <;> cases h
    · cases sent
      · exact .flowLeft here
      · exact .above here ‹_›
    · exact .below here ‹_›
  case archive now ok sent =>
    simp only [World.session] at h
    split at h
    case h_2 => cases h
    cases ok <;> cases h
    · exact .archiveFailed here ‹_›
    · exact .archived here ‹_›
  case enqueue flowSent sent =>
    simp only [World.session] at h
    split at h
    case h_2 => cases h
    split at h
    · cases h
      exact .enqueued here ‹_› ‹_›
    · split at h <;> cases h
      · exact .full here ‹_›
      · cases flowSent
        · exact .flowLeft here
        · exact .fullFlow here ‹_›
  case notified =>
    simp only [World.session] at h
    split at h
    case h_2 => cases h
    split at h <;> cases h
    exact .notified here ‹_› ‹_›
  case cancelled =>
    simp only [World.session] at h
    split at h <;> cases h
    exact .left here
  case save outcome sent =>
    simp only [World.session] at h
    split at h
    case h_2 => cases h
    split at h <;> cases h
    · exact .saved here ‹_›
    · rename_i written
      cases written
      · exact .saveFailed here ‹_›
      · exact .saveFailedLate here ‹_›
  case publish sent =>
    simp only [World.session] at h
    split at h <;> cases h
    exact .published here ‹_›

theorem work_step {a : Action} (h : w.work E a = some w') : Step E w a w' := by
  cases a <;> try cases h
  case lease =>
    simp only [World.work] at h
    split at h <;> cases h
    exact .leased ‹_› ‹_›
  case persist insert =>
    simp only [World.work] at h
    split at h
    case h_2 => cases h
    split at h <;> cases h
    · exact .persisted ‹_› ‹_›
    · exact .persistFailed ‹_› ‹_› (.inl rfl)
    · exact .persistFailed ‹_› ‹_› (.inr rfl)
  case markPersisted =>
    simp only [World.work] at h
    split at h <;> cases h
    exact .marked ‹_›
  case commit =>
    simp only [World.work] at h
    split at h <;> cases h
    exact .committed ‹_›
  case stopWorker =>
    simp only [World.work] at h
    split at h <;> cases h
    exact .stopped ‹_›

/-- A valid hello of an idle cluster is let in with the cluster's watermark. -/
theorem connect_opens {hello : AgentHello} (valid : validateHello hello = .ok ())
    (protocol : supportsProtocol hello.supportedProtocolVersions = true)
    (idle : w.active (clusterKey hello.tenantId hello.clusterId) = none) :
    w.connect (.hello hello) true true =
      w.opened hello ⟨w.watermark hello.tenantId hello.clusterId, true⟩ := by
  simp only [World.connect, valid, protocol, World.acquire, idle, World.watermark]
  cases hc : w.clusters (clusterKey hello.tenantId hello.clusterId) with
  | none => rfl
  | some st =>
    obtain ⟨n, loaded⟩ := st
    cases loaded <;> rfl

/-- **Every step is one of the transitions.** -/
theorem step_cases {a : Action} (h : step E w a = some w') : Step E w a w' := by
  have other : ∀ {a : Action}, (match a.sid with
      | some sid => match w.sessions sid with
        | some s => w.session E sid s a
        | none => none
      | none => w.work E a) = some w' → Step E w a w' := by
    intro a h
    cases hs : a.sid with
    | none =>
      rw [hs] at h
      exact work_step h
    | some sid =>
      simp only [hs] at h
      cases here : w.sessions sid with
      | none => rw [here] at h; cases h
      | some s =>
        simp only [here] at h
        exact session_step here hs h
  cases a with
  | connect first authenticated loads =>
    cases h
    exact connect_step first authenticated loads
  | restart =>
    cases h
    exact .restarted
  | _ => exact other h

end Ingestion
end KubeCost
