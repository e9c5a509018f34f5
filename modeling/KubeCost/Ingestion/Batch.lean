/-
# What the server accepts

The pure part of `services/ingestion/server/server.go`: the checks of a hello
and of a batch, the suffix of a batch after a watermark, and the frames the
server answers with.

`validateBatch_iff` says what an accepted batch is: a non-empty run of
consecutive sequence numbers from `firstSequence` to `lastSequence`, each
observation with an event id, a payload and the fields its kind requires.
`suffixAfter_covers` is what the watermark rests on: the suffix after `p` has
every number from `p + 1` to `lastSequence`.
-/
import Mathlib.Algebra.Ring.Nat
import KubeCost.Checks
import KubeCost.Text
import KubeCost.Wire

namespace KubeCost
namespace Ingestion

structure Config where
  maxBatchRecords : ℕ
  maxBatchBytes : ℕ
  heartbeatInterval : ℤ
  backpressureDelay : ℤ
  highWatermarkPercent : ℤ

/-- The defaults `New` puts in place of unset or senseless values. Durations
are in nanoseconds. -/
def Config.withDefaults (config : Config) : Config where
  maxBatchRecords := if config.maxBatchRecords = 0 then 500 else config.maxBatchRecords
  maxBatchBytes := if config.maxBatchBytes = 0 then 4 * 2 ^ 20 else config.maxBatchBytes
  heartbeatInterval :=
    if config.heartbeatInterval ≤ 0 then 30 * 1000000000 else config.heartbeatInterval
  backpressureDelay := if config.backpressureDelay ≤ 0 then 1000000000 else config.backpressureDelay
  highWatermarkPercent :=
    if config.highWatermarkPercent ≤ 0 || config.highWatermarkPercent > 100 then 80
    else config.highWatermarkPercent

/-! ### Checks -/

def validateHello (hello : AgentHello) : Except String Unit := do
  rejectIf (hello.tenantId = "") "tenant_id is required"
  rejectIf (hello.clusterId = "") "cluster_id is required"
  rejectIf (hello.agentInstanceId = "") "agent_instance_id is required"

theorem validateHello_iff (hello : AgentHello) : validateHello hello = .ok () ↔
    hello.tenantId ≠ "" ∧ hello.clusterId ≠ "" ∧ hello.agentInstanceId ≠ "" := by
  simp only [validateHello, check_bind_ok, rejectIf_eq_ok, ne_eq]

def protocolMajor : ℕ := 1

def supportsProtocol (versions : List ProtocolVersion) : Bool :=
  versions.any (·.major == protocolMajor)

def validateInventoryRecord (record : Option InventoryRecord) : Except String Unit :=
  match getOperation record with
  | .upsert | .delete => .ok ()
  | _ => .error "inventory operation is required"

/-- The check of the kinds with metadata: the record, then the UID. -/
def validateObject (kind : String) (record : Option InventoryRecord)
    (metadata : Option ObjectMetadata) : Except String Unit := do
  validateInventoryRecord record
  rejectIf ((getMetadata metadata).uid = "") (kind ++ " UID is required")

def validateInventoryObservation (observation : Observation) : Except String Unit :=
  match observation.payload with
  | some (.clusterInventory i) => validateInventoryRecord i.record
  | some (.nodeInventory i) => validateObject "node" i.record i.metadata
  | some (.namespaceInventory i) => validateObject "namespace" i.record i.metadata
  | some (.deploymentInventory i) => validateObject "deployment" i.record i.metadata
  | some (.podInventory i) => validateObject "pod" i.record i.metadata
  | some (.containerInventory i) => do
    validateInventoryRecord i.record
    rejectIf (i.podUid = "" ∨ i.containerName = "") "container pod UID and name are required"
  | _ => .ok ()

/-- One pass of the loop of `validateBatch`. -/
def validateObservation (expected : ℕ) (observation : Observation) : Except String Unit := do
  rejectIf (observation.sequence ≠ expected)
    ("observation sequence " ++ toString observation.sequence ++ " is not expected sequence " ++
      toString expected)
  rejectIf (observation.eventId = "") ("observation " ++ toString expected ++ " has no event_id")
  rejectIf (observation.payload = none) ("observation " ++ toString expected ++ " has no payload")
  (validateInventoryObservation observation).mapError
    fun e => "observation " ++ toString expected ++ ": " ++ e

/-- The loop of `validateBatch`, from the number expected next. -/
def validateObservations : ℕ → List Observation → Except String Unit
  | _, [] => .ok ()
  | expected, observation :: rest => do
    validateObservation expected observation
    validateObservations (expected + 1) rest

/-- `validateBatch`. The record count is cut to 32 bits before it is compared,
as the conversion in the source does. -/
def validateBatch (C : Codec) (config : Config) (batch : ObservationBatch) : Except String Unit := do
  rejectIf (batch.batchId = "") "batch_id is required"
  rejectIf (batch.observations.length = 0) "batch must contain observations"
  rejectIf (batch.observations.length % 2 ^ 32 > config.maxBatchRecords)
    ("batch contains " ++ toString batch.observations.length ++ " records; maximum is " ++
      toString config.maxBatchRecords)
  rejectIf (C.size batch > config.maxBatchBytes)
    ("batch size exceeds maximum of " ++ toString config.maxBatchBytes ++ " bytes")
  rejectIf (batch.firstSequence = 0 ∨ batch.lastSequence < batch.firstSequence)
    "batch sequence range is invalid"
  rejectIf (batch.observations.length ≠ batch.lastSequence - batch.firstSequence + 1)
    "batch sequence range does not match observation count"
  validateObservations batch.firstSequence batch.observations
  rejectIf (batch.payloadChecksum ≠ batchChecksum C batch.observations)
    "payload checksum does not match observations"

/-- What `validateBatch` asks of one observation. -/
structure ObservationOk (expected : ℕ) (o : Observation) : Prop where
  sequence : o.sequence = expected
  eventId : o.eventId ≠ ""
  payload : o.payload ≠ none
  inventory : validateInventoryObservation o = .ok ()

/-- What `validateBatch` asks of a batch. -/
structure BatchOk (C : Codec) (config : Config) (b : ObservationBatch) : Prop where
  id : b.batchId ≠ ""
  records : b.observations.length % 2 ^ 32 ≤ config.maxBatchRecords
  bytes : C.size b ≤ config.maxBatchBytes
  first : 1 ≤ b.firstSequence
  last : b.firstSequence ≤ b.lastSequence
  count : b.observations.length = b.lastSequence - b.firstSequence + 1
  observations : ∀ i o, b.observations[i]? = some o → ObservationOk (b.firstSequence + i) o
  checksum : b.payloadChecksum = batchChecksum C b.observations

theorem validateObservation_iff (n : ℕ) (o : Observation) :
    validateObservation n o = .ok () ↔ ObservationOk n o := by
  simp only [validateObservation, check_bind_ok, rejectIf_eq_ok, mapError_eq_ok, not_not]
  constructor
  · rintro ⟨h1, h2, h3, h4⟩
    exact ⟨h1, h2, h3, h4⟩
  · rintro ⟨h1, h2, h3, h4⟩
    exact ⟨h1, h2, h3, h4⟩

theorem validateObservations_iff : ∀ (n : ℕ) (os : List Observation),
    validateObservations n os = .ok () ↔ ∀ i o, os[i]? = some o → ObservationOk (n + i) o
  | n, [] => by simp [validateObservations]
  | n, o :: os => by
    simp only [validateObservations, check_bind_ok, validateObservations_iff (n + 1) os]
    constructor
    · rintro ⟨ho, hos⟩ i o' hi
      cases i with
      | zero =>
        cases hi
        exact (validateObservation_iff n o).mp ho
      | succ i =>
        have := hos i o' hi
        rwa [Nat.add_assoc, Nat.add_comm 1] at this
    · intro h
      refine ⟨(validateObservation_iff n o).mpr (h 0 o rfl), fun i o' hi => ?_⟩
      have := h (i + 1) o' hi
      rwa [Nat.add_assoc, Nat.add_comm 1]

/-- **What an accepted batch is.** -/
theorem validateBatch_iff (C : Codec) (config : Config) (b : ObservationBatch) :
    validateBatch C config b = .ok () ↔ BatchOk C config b := by
  simp only [validateBatch, check_bind_ok, rejectIf_eq_ok, validateObservations_iff]
  constructor
  · rintro ⟨h1, -, h3, h4, h5, h6, h7, h8⟩
    exact ⟨h1, by omega, by omega, by omega, by omega, by omega, h7, not_not.mp h8⟩
  · rintro ⟨h1, h3, h4, h5, h6, h7, h8, h9⟩
    exact ⟨h1, by omega, by omega, by omega, by omega, by omega, h8, not_not.mpr h9⟩

/-! ### The suffix after a watermark -/

/-- `suffixAfter`: the batch without what the watermark already covers. -/
def suffixAfter (C : Codec) (batch : ObservationBatch) (persisted : ℕ) : ObservationBatch :=
  if batch.firstSequence > persisted then batch
  else
    let offset := persisted + 1 - batch.firstSequence
    let observations := batch.observations.drop offset
    { batch with
      firstSequence := persisted + 1
      observations := observations
      payloadChecksum := batchChecksum C observations }

theorem suffixAfter_observations (C : Codec) (b : ObservationBatch) (p : ℕ) :
    (suffixAfter C b p).observations = b.observations.drop (p + 1 - b.firstSequence) := by
  unfold suffixAfter
  split
  · rename_i h
    rw [show p + 1 - b.firstSequence = 0 by omega, List.drop_zero]
  · rfl

theorem suffixAfter_subset (C : Codec) (b : ObservationBatch) (p : ℕ) :
    (suffixAfter C b p).observations ⊆ b.observations := by
  rw [suffixAfter_observations]
  exact List.drop_subset _ _

/-- **The suffix after `p` has every number above `p`** up to the batch's last. -/
theorem suffixAfter_covers {C : Codec} {config : Config} {b : ObservationBatch}
    (h : BatchOk C config b) {p s : ℕ} (hf : b.firstSequence ≤ p + 1) (hp : p < s)
    (hs : s ≤ b.lastSequence) : ∃ o ∈ (suffixAfter C b p).observations, o.sequence = s := by
  have hi : s - b.firstSequence < b.observations.length := by
    have := h.count
    omega
  have ho := h.observations _ _ (List.getElem?_eq_getElem hi)
  refine ⟨b.observations[s - b.firstSequence], ?_, ho.sequence.trans (by omega)⟩
  rw [suffixAfter_observations, List.mem_iff_getElem?]
  refine ⟨s - (p + 1), ?_⟩
  rw [List.getElem?_drop, show p + 1 - b.firstSequence + (s - (p + 1)) = s - b.firstSequence by omega]
  exact List.getElem?_eq_getElem hi

/-! ### Frames -/

def serverHello (sessionID persisted : ℕ) (config : Config) : IngestionToAgent :=
  .hello {
    sessionId := sessionID
    selectedProtocolVersion := ⟨protocolMajor, 0⟩
    acceptedThroughSequence := persisted
    maxBatchRecords := config.maxBatchRecords
    maxBatchBytes := config.maxBatchBytes
    heartbeatInterval := config.heartbeatInterval }

def acknowledgement (batchID : String) (received persisted : ℕ) (retry : List SequenceRange)
    (rejections : List RecordRejection) : IngestionToAgent :=
  .acknowledgement ⟨batchID, received, persisted, retry, rejections⟩

def flowControl (delay : ℤ) (reason : String) : IngestionToAgent := .flowControl ⟨delay, 1, reason⟩

def rejectionCode (message : String) : RejectionCode :=
  if contains message "maximum" then .tooLarge else .invalidRecord

/-- `rejectionsForBatch`: one terminal rejection for each observation, or one
for the first sequence of a batch without observations. -/
def rejectionsForBatch (batch : ObservationBatch) (code : RejectionCode) (detail : String) :
    List RecordRejection :=
  if batch.observations.length = 0 then [⟨batch.firstSequence, code, detail, false⟩]
  else batch.observations.map fun o => ⟨o.sequence, code, detail, false⟩

end Ingestion
end KubeCost
