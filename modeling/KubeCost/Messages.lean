/-
# How the messages of the agent protocol are marshalled

The tables of `proto/cost/v1/agent/agent.proto` and `inventory.proto`, field by field. The
generated code writes the fields of a message by ascending numbers, those of the `oneof` of
an observation in the place of its first member, and the entries of a map by ascending
keys, since every `Marshal` of the repository is deterministic. The payloads that neither
side looks into are kept as their bytes, which have to be those of some message.

A batch whose numbers have their widths is read back as it was (`Schema.unmarshal_marshal`,
`observationBatch_valid_iff`). Fields that the tables do not have are not part of the messages
here, though the library would keep them.
-/
import KubeCost.Protobuf
import KubeCost.Wire

namespace KubeCost
namespace Messages

open Protobuf

/-! ### Parts of the inventory -/

def timestampParts : List (Segment Timestamp) :=
  [field 1 int64 (·.seconds) fun v t => { t with seconds := v },
    field 2 int32 (·.nanos) fun v t => { t with nanos := v }]

theorem timestamp_table : Table timestampParts ⟨0, 0⟩ where
  distinct := by decide
  restore _ := rfl
  independent values := by
    unfold timestampParts
    repeat refine List.forall_mem_cons.mpr ⟨rfl, ?_⟩
    exact List.forall_mem_nil _

def timestamp : Schema Timestamp := record timestamp_table

/-- A number without a name is kept as it is written: 64 bits, with the sign of its low 32. -/
def operationNumber : InventoryOperation → ℕ
  | .unspecified => 0
  | .upsert => 1
  | .delete => 2
  | .unrecognized number => number

def namedOperation : ℕ → InventoryOperation
  | 0 => .unspecified
  | 1 => .upsert
  | 2 => .delete
  | number => .unrecognized number

def ofOperationNumber (n : ℕ) : InventoryOperation := namedOperation (twosComplement (signed 32 n))

def OperationValid : InventoryOperation → Prop
  | .unrecognized number => 3 ≤ number ∧ number = twosComplement (signed 32 number)
  | _ => True

theorem twosComplement_lt (z : ℤ) : twosComplement z < 2 ^ 64 := by
  unfold twosComplement
  omega

theorem signed_twosComplement_signed {n : ℕ} (h : n < 2 ^ 64) :
    signed 32 (twosComplement (signed 32 n)) = signed 32 n :=
  represents_int32.ofWire_toWire _ (represents_int32.valid n h)

theorem operationValid_namedOperation {n : ℕ} (h : n = twosComplement (signed 32 n)) :
    OperationValid (namedOperation n) := by
  match n with
  | 0 | 1 | 2 => exact trivial
  | n + 3 => exact ⟨Nat.le_add_left 3 n, h⟩

theorem namedOperation_operationNumber {operation : InventoryOperation}
    (h : OperationValid operation) : namedOperation (operationNumber operation) = operation := by
  cases operation with
  | unrecognized number =>
    obtain ⟨k, rfl⟩ := Nat.exists_eq_add_of_le' h.1
    rfl
  | _ => rfl

theorem operationNumber_eq {operation : InventoryOperation} (h : OperationValid operation) :
    operationNumber operation = twosComplement (signed 32 (operationNumber operation)) := by
  cases operation with
  | unrecognized number => exact h.2
  | _ => decide

theorem represents_operation : Represents operationNumber ofOperationNumber OperationValid where
  lt operation h := by
    rw [operationNumber_eq h]
    exact twosComplement_lt _
  ofWire_toWire operation h := by
    rw [ofOperationNumber, ← operationNumber_eq h, namedOperation_operationNumber h]
  valid n h := operationValid_namedOperation (by rw [signed_twosComplement_signed h])

def operation : Kind InventoryOperation := scalar represents_operation

def inventoryRecordParts : List (Segment InventoryRecord) :=
  [field 1 operation (·.operation) fun v r => { r with operation := v },
    field 2 string (·.snapshotId) fun v r => { r with snapshotId := v },
    field 3 bool (·.snapshotRecord) fun v r => { r with snapshotRecord := v }]

theorem inventoryRecord_table : Table inventoryRecordParts ⟨.unspecified, "", false⟩ where
  distinct := by decide
  restore _ := rfl
  independent values := by
    unfold inventoryRecordParts
    repeat refine List.forall_mem_cons.mpr ⟨rfl, ?_⟩
    exact List.forall_mem_nil _

def inventoryRecord : Schema InventoryRecord := record inventoryRecord_table

def objectReferenceParts : List (Segment ObjectReference) :=
  [field 1 string (·.apiVersion) fun v r => { r with apiVersion := v },
    field 2 string (·.kind) fun v r => { r with kind := v },
    field 3 string (·.namespace) fun v r => { r with «namespace» := v },
    field 4 string (·.name) fun v r => { r with name := v },
    field 5 string (·.uid) fun v r => { r with uid := v }]

theorem objectReference_table : Table objectReferenceParts ⟨"", "", "", "", ""⟩ where
  distinct := by decide
  restore _ := rfl
  independent values := by
    unfold objectReferenceParts
    repeat refine List.forall_mem_cons.mpr ⟨rfl, ?_⟩
    exact List.forall_mem_nil _

def objectReference : Schema ObjectReference := record objectReference_table

def objectMetadataParts : List (Segment ObjectMetadata) :=
  [field 1 string (·.uid) fun v m => { m with uid := v },
    field 2 string (·.name) fun v m => { m with name := v },
    field 3 string (·.namespace) fun v m => { m with «namespace» := v },
    field 4 stringMap (·.labels) fun v m => { m with labels := v },
    field 5 stringMap (·.annotations) fun v m => { m with annotations := v },
    field 6 (message timestamp) (·.createdAt) fun v m => { m with createdAt := v },
    field 7 (message timestamp) (·.deletedAt) fun v m => { m with deletedAt := v },
    field 8 (messages objectReference) (·.ownerReferences) fun v m => { m with ownerReferences := v }]

theorem objectMetadata_table : Table objectMetadataParts {} where
  distinct := by decide
  restore m := by
    cases m
    rfl
  independent values := by
    unfold objectMetadataParts
    repeat refine List.forall_mem_cons.mpr ⟨rfl, ?_⟩
    exact List.forall_mem_nil _

def objectMetadata : Schema ObjectMetadata := record objectMetadata_table

def resourceValuesParts : List (Segment ResourceValues) :=
  [field 1 optionalInt64 (·.cpuMillicores) fun v r => { r with cpuMillicores := v },
    field 2 optionalInt64 (·.memoryBytes) fun v r => { r with memoryBytes := v },
    field 3 optionalInt64 (·.ephemeralStorageBytes) fun v r => { r with ephemeralStorageBytes := v },
    field 4 optionalInt64 (·.gpuCount) fun v r => { r with gpuCount := v },
    field 5 stringMap (·.extendedResources) fun v r => { r with extendedResources := v }]

theorem resourceValues_table : Table resourceValuesParts {} where
  distinct := by decide
  restore _ := rfl
  independent values := by
    unfold resourceValuesParts
    repeat refine List.forall_mem_cons.mpr ⟨rfl, ?_⟩
    exact List.forall_mem_nil _

def resourceValues : Schema ResourceValues := record resourceValues_table

/-! ### The inventories -/

def clusterInventoryParts : List (Segment ClusterInventory) :=
  [field 1 (message inventoryRecord) (·.record) fun v i => { i with record := v },
    field 2 string (·.clusterUid) fun v i => { i with clusterUid := v },
    field 3 string (·.name) fun v i => { i with name := v },
    field 4 string (·.kubernetesVersion) fun v i => { i with kubernetesVersion := v },
    field 5 string (·.provider) fun v i => { i with provider := v },
    field 6 string (·.region) fun v i => { i with region := v },
    field 7 string (·.accountId) fun v i => { i with accountId := v },
    field 8 stringMap (·.labels) fun v i => { i with labels := v }]

theorem clusterInventory_table : Table clusterInventoryParts {} where
  distinct := by decide
  restore i := by
    cases i
    rfl
  independent values := by
    unfold clusterInventoryParts
    repeat refine List.forall_mem_cons.mpr ⟨rfl, ?_⟩
    exact List.forall_mem_nil _

def clusterInventory : Schema ClusterInventory := record clusterInventory_table

def nodeInventoryParts : List (Segment NodeInventory) :=
  [field 1 (message inventoryRecord) (·.record) fun v i => { i with record := v },
    field 2 (message objectMetadata) (·.metadata) fun v i => { i with metadata := v },
    field 3 string (·.providerId) fun v i => { i with providerId := v },
    field 4 string (·.instanceType) fun v i => { i with instanceType := v },
    field 5 string (·.architecture) fun v i => { i with architecture := v },
    field 6 string (·.operatingSystem) fun v i => { i with operatingSystem := v },
    field 7 string (·.region) fun v i => { i with region := v },
    field 8 string (·.zone) fun v i => { i with zone := v },
    field 9 string (·.capacityType) fun v i => { i with capacityType := v },
    field 10 (message resourceValues) (·.capacity) fun v i => { i with capacity := v },
    field 11 (message resourceValues) (·.allocatable) fun v i => { i with allocatable := v },
    field 12 bool (·.schedulable) fun v i => { i with schedulable := v },
    field 13 strings (·.taints) fun v i => { i with taints := v },
    field 14 string (·.karpenterNodeClaimUid) fun v i => { i with karpenterNodeClaimUid := v },
    field 15 string (·.karpenterNodePool) fun v i => { i with karpenterNodePool := v }]

theorem nodeInventory_table : Table nodeInventoryParts {} where
  distinct := by decide
  restore i := by
    cases i
    rfl
  independent values := by
    unfold nodeInventoryParts
    repeat refine List.forall_mem_cons.mpr ⟨rfl, ?_⟩
    exact List.forall_mem_nil _

def nodeInventory : Schema NodeInventory := record nodeInventory_table

def namespaceInventoryParts : List (Segment NamespaceInventory) :=
  [field 1 (message inventoryRecord) (·.record) fun v i => { i with record := v },
    field 2 (message objectMetadata) (·.metadata) fun v i => { i with metadata := v },
    field 3 string (·.phase) fun v i => { i with phase := v }]

theorem namespaceInventory_table : Table namespaceInventoryParts {} where
  distinct := by decide
  restore i := by
    cases i
    rfl
  independent values := by
    unfold namespaceInventoryParts
    repeat refine List.forall_mem_cons.mpr ⟨rfl, ?_⟩
    exact List.forall_mem_nil _

def namespaceInventory : Schema NamespaceInventory := record namespaceInventory_table

def deploymentInventoryParts : List (Segment DeploymentInventory) :=
  [field 1 (message inventoryRecord) (·.record) fun v i => { i with record := v },
    field 2 (message objectMetadata) (·.metadata) fun v i => { i with metadata := v },
    field 3 int32 (·.desiredReplicas) fun v i => { i with desiredReplicas := v },
    field 4 int32 (·.availableReplicas) fun v i => { i with availableReplicas := v },
    field 5 string (·.selector) fun v i => { i with selector := v },
    field 6 string (·.strategy) fun v i => { i with strategy := v },
    field 7 string (·.namespaceUid) fun v i => { i with namespaceUid := v }]

theorem deploymentInventory_table : Table deploymentInventoryParts {} where
  distinct := by decide
  restore i := by
    cases i
    rfl
  independent values := by
    unfold deploymentInventoryParts
    repeat refine List.forall_mem_cons.mpr ⟨rfl, ?_⟩
    exact List.forall_mem_nil _

def deploymentInventory : Schema DeploymentInventory := record deploymentInventory_table

def podInventoryParts : List (Segment PodInventory) :=
  [field 1 (message inventoryRecord) (·.record) fun v i => { i with record := v },
    field 2 (message objectMetadata) (·.metadata) fun v i => { i with metadata := v },
    field 3 string (·.nodeName) fun v i => { i with nodeName := v },
    field 4 string (·.nodeUid) fun v i => { i with nodeUid := v },
    field 5 string (·.phase) fun v i => { i with phase := v },
    field 6 string (·.qosClass) fun v i => { i with qosClass := v },
    field 7 string (·.serviceAccountName) fun v i => { i with serviceAccountName := v },
    field 8 string (·.priorityClassName) fun v i => { i with priorityClassName := v },
    field 9 string (·.workloadKind) fun v i => { i with workloadKind := v },
    field 10 string (·.workloadUid) fun v i => { i with workloadUid := v },
    field 11 (message timestamp) (·.scheduledAt) fun v i => { i with scheduledAt := v },
    field 12 (message timestamp) (·.startedAt) fun v i => { i with startedAt := v },
    field 13 string (·.namespaceUid) fun v i => { i with namespaceUid := v }]

theorem podInventory_table : Table podInventoryParts {} where
  distinct := by decide
  restore i := by
    cases i
    rfl
  independent values := by
    unfold podInventoryParts
    repeat refine List.forall_mem_cons.mpr ⟨rfl, ?_⟩
    exact List.forall_mem_nil _

def podInventory : Schema PodInventory := record podInventory_table

def containerInventoryParts : List (Segment ContainerInventory) :=
  [field 1 (message inventoryRecord) (·.record) fun v i => { i with record := v },
    field 2 string (·.podUid) fun v i => { i with podUid := v },
    field 3 string (·.namespace) fun v i => { i with «namespace» := v },
    field 4 string (·.podName) fun v i => { i with podName := v },
    field 5 string (·.containerName) fun v i => { i with containerName := v },
    field 6 string (·.containerId) fun v i => { i with containerId := v },
    field 7 string (·.image) fun v i => { i with image := v },
    field 8 string (·.imageId) fun v i => { i with imageId := v },
    field 9 (message resourceValues) (·.requests) fun v i => { i with requests := v },
    field 10 (message resourceValues) (·.limits) fun v i => { i with limits := v },
    field 11 int32 (·.restartCount) fun v i => { i with restartCount := v },
    field 12 bool (·.initContainer) fun v i => { i with initContainer := v },
    field 13 (message timestamp) (·.startedAt) fun v i => { i with startedAt := v },
    field 14 (message timestamp) (·.finishedAt) fun v i => { i with finishedAt := v },
    field 15 string (·.namespaceUid) fun v i => { i with namespaceUid := v },
    field 16 string (·.workloadKind) fun v i => { i with workloadKind := v },
    field 17 string (·.workloadUid) fun v i => { i with workloadUid := v }]

theorem containerInventory_table : Table containerInventoryParts {} where
  distinct := by decide
  restore i := by
    cases i
    rfl
  independent values := by
    unfold containerInventoryParts
    repeat refine List.forall_mem_cons.mpr ⟨rfl, ?_⟩
    exact List.forall_mem_nil _

def containerInventory : Schema ContainerInventory := record containerInventory_table

/-! ### The payload of an observation -/

/-- A payload that is not looked into has to be a message, though. -/
def readEncoded (chunks : List (List UInt8)) : Option (List UInt8) :=
  (merged chunks).map fun _ => chunks.flatten

theorem readEncoded_singleton {encoded : List UInt8} (h : (parse encoded).isSome) :
    readEncoded [encoded] = some encoded := by
  obtain ⟨fields, hfields⟩ := Option.isSome_iff_exists.mp h
  rw [readEncoded, merged, List.mapM_cons, hfields, List.flatten_singleton]
  rfl

def writePayload : Payload → Number × List UInt8
  | .clusterInventory i => (20, clusterInventory.marshal i)
  | .nodeInventory i => (21, nodeInventory.marshal i)
  | .namespaceInventory i => (22, namespaceInventory.marshal i)
  | .deploymentInventory i => (23, deploymentInventory.marshal i)
  | .podInventory i => (24, podInventory.marshal i)
  | .containerInventory i => (25, containerInventory.marshal i)
  | .nodeMetrics encoded => (26, encoded)
  | .containerMetrics encoded => (27, encoded)
  | .gpuMetrics encoded => (28, encoded)
  | .kubernetesEvent encoded => (29, encoded)
  | .karpenterEvent encoded => (30, encoded)
  | .inventorySnapshotMarker encoded => (31, encoded)

def readPayload (number : ℕ) (chunks : List (List UInt8)) : Option Payload :=
  match number with
  | 20 => (readMerged clusterInventory chunks).map .clusterInventory
  | 21 => (readMerged nodeInventory chunks).map .nodeInventory
  | 22 => (readMerged namespaceInventory chunks).map .namespaceInventory
  | 23 => (readMerged deploymentInventory chunks).map .deploymentInventory
  | 24 => (readMerged podInventory chunks).map .podInventory
  | 25 => (readMerged containerInventory chunks).map .containerInventory
  | 26 => (readEncoded chunks).map .nodeMetrics
  | 27 => (readEncoded chunks).map .containerMetrics
  | 28 => (readEncoded chunks).map .gpuMetrics
  | 29 => (readEncoded chunks).map .kubernetesEvent
  | 30 => (readEncoded chunks).map .karpenterEvent
  | 31 => (readEncoded chunks).map .inventorySnapshotMarker
  | _ => none

def PayloadValid : Payload → Prop
  | .clusterInventory i => clusterInventory.Valid i
  | .nodeInventory i => nodeInventory.Valid i
  | .namespaceInventory i => namespaceInventory.Valid i
  | .deploymentInventory i => deploymentInventory.Valid i
  | .podInventory i => podInventory.Valid i
  | .containerInventory i => containerInventory.Valid i
  | .nodeMetrics encoded | .containerMetrics encoded | .gpuMetrics encoded
  | .kubernetesEvent encoded | .karpenterEvent encoded
  | .inventorySnapshotMarker encoded => (parse encoded).isSome

theorem writePayload_number_mem (p : Payload) :
    (writePayload p).1.val ∈ [20, 21, 22, 23, 24, 25, 26, 27, 28, 29, 30, 31] := by
  cases p <;> exact of_decide_eq_true rfl

theorem readMerged_map {β : Type} {S : Schema β} {b : β} (wrap : β → Payload) (hb : S.Valid b)
    (hlength : (S.marshal b).length < 2 ^ 64) :
    (readMerged S [S.marshal b]).map wrap = some (wrap b) := by
  rw [readMerged_marshal S hb hlength, Option.map_some]

theorem readEncoded_map {encoded : List UInt8} (wrap : List UInt8 → Payload)
    (h : (parse encoded).isSome) : (readEncoded [encoded]).map wrap = some (wrap encoded) := by
  rw [readEncoded_singleton h, Option.map_some]

theorem readPayload_writePayload (p : Payload) (hp : PayloadValid p)
    (hlength : (writePayload p).2.length < 2 ^ 64) :
    readPayload (writePayload p).1.val [(writePayload p).2] = some p := by
  cases p with
  | clusterInventory => exact readMerged_map .clusterInventory hp hlength
  | nodeInventory => exact readMerged_map .nodeInventory hp hlength
  | namespaceInventory => exact readMerged_map .namespaceInventory hp hlength
  | deploymentInventory => exact readMerged_map .deploymentInventory hp hlength
  | podInventory => exact readMerged_map .podInventory hp hlength
  | containerInventory => exact readMerged_map .containerInventory hp hlength
  | nodeMetrics => exact readEncoded_map .nodeMetrics hp
  | containerMetrics => exact readEncoded_map .containerMetrics hp
  | gpuMetrics => exact readEncoded_map .gpuMetrics hp
  | kubernetesEvent => exact readEncoded_map .kubernetesEvent hp
  | karpenterEvent => exact readEncoded_map .karpenterEvent hp
  | inventorySnapshotMarker => exact readEncoded_map .inventorySnapshotMarker hp

theorem payloadValid_of_readPayload (number : ℕ) (chunks : List (List UInt8)) (p : Payload)
    (h : readPayload number chunks = some p) : PayloadValid p := by
  have hencoded : ∀ encoded, readEncoded chunks = some encoded → (parse encoded).isSome := by
    intro encoded h
    obtain ⟨fields, hfields, rfl⟩ := Option.map_eq_some_iff.mp h
    exact Option.isSome_iff_exists.mpr ⟨fields, parse_flatten hfields⟩
  unfold readPayload at h
  split at h
  case h_13 => cases h
  all_goals
    obtain ⟨content, hcontent, rfl⟩ := Option.map_eq_some_iff.mp h
    first
    | exact valid_of_readMerged _ hcontent
    | exact hencoded content hcontent

/-- The `oneof payload`. -/
def payload : Choice Payload where
  numbers := [20, 21, 22, 23, 24, 25, 26, 27, 28, 29, 30, 31]
  write := writePayload
  read := readPayload
  Valid := PayloadValid
  number_mem := writePayload_number_mem
  read_write := readPayload_writePayload
  valid := payloadValid_of_readPayload

/-! ### Observations and batches -/

def observationParts : List (Segment Observation) :=
  [field 1 uint64 (·.sequence) fun v o => { o with sequence := v },
    field 2 string (·.eventId) fun v o => { o with eventId := v },
    field 3 (message timestamp) (·.observedAt) fun v o => { o with observedAt := v },
    field 4 (message timestamp) (·.collectedAt) fun v o => { o with collectedAt := v },
    field 5 string (·.sourceResourceVersion) fun v o => { o with sourceResourceVersion := v },
    payload.part (·.payload) fun v o => { o with payload := v }]

theorem observation_table : Table observationParts {} where
  distinct := by decide
  restore o := by
    cases o
    rfl
  independent values := by
    unfold observationParts
    repeat refine List.forall_mem_cons.mpr ⟨rfl, ?_⟩
    exact List.forall_mem_nil _

def observation : Schema Observation := record observation_table

def emptyBatch : ObservationBatch :=
  { batchId := "", firstSequence := 0, lastSequence := 0, payloadChecksum := [], observations := [] }

def observationBatchParts : List (Segment ObservationBatch) :=
  [field 1 string (·.batchId) fun v b => { b with batchId := v },
    field 2 uint64 (·.firstSequence) fun v b => { b with firstSequence := v },
    field 3 uint64 (·.lastSequence) fun v b => { b with lastSequence := v },
    field 4 (message timestamp) (·.createdAt) fun v b => { b with createdAt := v },
    field 5 bytes (·.payloadChecksum) fun v b => { b with payloadChecksum := v },
    field 6 (messages observation) (·.observations) fun v b => { b with observations := v }]

theorem observationBatch_table : Table observationBatchParts emptyBatch where
  distinct := by decide
  restore _ := rfl
  independent values := by
    unfold observationBatchParts
    repeat refine List.forall_mem_cons.mpr ⟨rfl, ?_⟩
    exact List.forall_mem_nil _

def observationBatch : Schema ObservationBatch := record observationBatch_table

/-- What a batch has to keep to be written. -/
theorem observationBatch_valid_iff {b : ObservationBatch} : observationBatch.Valid b ↔
    b.firstSequence < 2 ^ 64 ∧ b.lastSequence < 2 ^ 64 ∧ (∀ t ∈ b.createdAt, timestamp.Valid t) ∧
      ∀ o ∈ b.observations, observation.Valid o := by
  show (∀ p ∈ observationBatchParts, p.schema.Valid (p.get b)) ↔ _
  unfold observationBatchParts
  simp only [List.forall_mem_cons]
  constructor
  · rintro ⟨-, hfirst, hlast, hcreated, -, hobservations, -⟩
    exact ⟨hfirst, hlast, hcreated, hobservations⟩
  · rintro ⟨hfirst, hlast, hcreated, hobservations⟩
    exact ⟨trivial, hfirst, hlast, hcreated, trivial, hobservations, List.forall_mem_nil _⟩

end Messages
end KubeCost
