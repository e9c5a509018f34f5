/-
# The messages of the agent protocol

The protobuf messages that `proto/cost/v1/agent` defines, as the agent and the
ingestion service exchange them: observations with their inventory payloads,
batches of observations, and the frames of the bidirectional stream.

A message field that may be absent is an `Option`, and the generated getters
(which read a default from a nil message) are the functions named `get…`. The
payloads that neither side looks into (metrics, events, snapshot markers) are
kept as their encoded bytes. Sequence numbers are `uint64` on the wire and ℕ
here: the code adds one to a number only below a number it has received.
The wall-clock stamps of the server's frames (`server_time`,
`acknowledged_at`) are read by nobody and left out.
-/
import Mathlib.Data.Nat.Notation
import Mathlib.Data.Int.Notation
import KubeCost.Hash

namespace KubeCost

/-- An instant: a protobuf `Timestamp`, and Go's `time.Time` in UTC. -/
structure Timestamp where
  seconds : ℤ
  nanos : ℤ
deriving DecidableEq

/-- `Timestamp.IsValid`: years 1 to 9999, nanoseconds within a second. -/
def Timestamp.isValid (t : Timestamp) : Bool :=
  decide (-62135596800 ≤ t.seconds) && decide (t.seconds ≤ 253402300799) &&
    decide (0 ≤ t.nanos) && decide (t.nanos ≤ 999999999)

/-! ### Inventory -/

/-- `InventoryOperation`. Enumerations of proto3 are open: a number without a
name is kept. -/
inductive InventoryOperation
  | unspecified
  | upsert
  | delete
  | unrecognized (number : ℕ)
deriving DecidableEq

structure InventoryRecord where
  operation : InventoryOperation
  snapshotId : String
  snapshotRecord : Bool
deriving DecidableEq

/-- `GetOperation`, `UNSPECIFIED` for a missing record. -/
def getOperation (record : Option InventoryRecord) : InventoryOperation :=
  (record.map (·.operation)).getD .unspecified

structure ObjectReference where
  apiVersion : String
  kind : String
  «namespace» : String
  name : String
  uid : String
deriving DecidableEq

/-- A map with string keys and values, one entry for each key. -/
abbrev Labels := List (String × String)

/-- `labels[key]`, empty for a key that is not there. -/
def labelOf (labels : Labels) (key : String) : String := (labels.lookup key).getD ""

/-- An encoded field with a length, for a content of fewer than 128 bytes. -/
def shortField (tag content : List UInt8) : List UInt8 :=
  tag ++ UInt8.ofNat content.length :: content

structure ObjectMetadata where
  uid : String := ""
  name : String := ""
  «namespace» : String := ""
  labels : Labels := []
  annotations : Labels := []
  createdAt : Option Timestamp := none
  deletedAt : Option Timestamp := none
  ownerReferences : List ObjectReference := []
deriving DecidableEq

structure ResourceValues where
  cpuMillicores : Option ℤ := none
  memoryBytes : Option ℤ := none
  ephemeralStorageBytes : Option ℤ := none
  gpuCount : Option ℤ := none
  extendedResources : Labels := []
deriving DecidableEq

/-- The metadata of a message, empty where the message has none. -/
def getMetadata (metadata : Option ObjectMetadata) : ObjectMetadata := metadata.getD {}

/-- The resource values of a message, empty where the message has none. -/
def getResources (values : Option ResourceValues) : ResourceValues := values.getD {}

def ResourceValues.getCpuMillicores (r : ResourceValues) : ℤ := r.cpuMillicores.getD 0
def ResourceValues.getMemoryBytes (r : ResourceValues) : ℤ := r.memoryBytes.getD 0
def ResourceValues.getGpuCount (r : ResourceValues) : ℤ := r.gpuCount.getD 0

structure ClusterInventory where
  record : Option InventoryRecord := none
  clusterUid : String := ""
  name : String := ""
  kubernetesVersion : String := ""
  provider : String := ""
  region : String := ""
  accountId : String := ""
  labels : Labels := []
deriving DecidableEq

structure NodeInventory where
  record : Option InventoryRecord := none
  metadata : Option ObjectMetadata := none
  providerId : String := ""
  instanceType : String := ""
  architecture : String := ""
  operatingSystem : String := ""
  region : String := ""
  zone : String := ""
  capacityType : String := ""
  capacity : Option ResourceValues := none
  allocatable : Option ResourceValues := none
  schedulable : Bool := false
  taints : List String := []
  karpenterNodeClaimUid : String := ""
  karpenterNodePool : String := ""
deriving DecidableEq

structure NamespaceInventory where
  record : Option InventoryRecord := none
  metadata : Option ObjectMetadata := none
  phase : String := ""
deriving DecidableEq

structure DeploymentInventory where
  record : Option InventoryRecord := none
  metadata : Option ObjectMetadata := none
  desiredReplicas : ℤ := 0
  availableReplicas : ℤ := 0
  selector : String := ""
  strategy : String := ""
  namespaceUid : String := ""
deriving DecidableEq

structure PodInventory where
  record : Option InventoryRecord := none
  metadata : Option ObjectMetadata := none
  nodeName : String := ""
  nodeUid : String := ""
  phase : String := ""
  qosClass : String := ""
  serviceAccountName : String := ""
  priorityClassName : String := ""
  workloadKind : String := ""
  workloadUid : String := ""
  scheduledAt : Option Timestamp := none
  startedAt : Option Timestamp := none
  namespaceUid : String := ""
deriving DecidableEq

structure ContainerInventory where
  record : Option InventoryRecord := none
  podUid : String := ""
  «namespace» : String := ""
  podName : String := ""
  containerName : String := ""
  containerId : String := ""
  image : String := ""
  imageId : String := ""
  requests : Option ResourceValues := none
  limits : Option ResourceValues := none
  restartCount : ℤ := 0
  initContainer : Bool := false
  startedAt : Option Timestamp := none
  finishedAt : Option Timestamp := none
  namespaceUid : String := ""
  workloadKind : String := ""
  workloadUid : String := ""
deriving DecidableEq

/-! ### Observations and batches -/

/-- The `oneof payload` of an observation. -/
inductive Payload
  | clusterInventory (inventory : ClusterInventory)
  | nodeInventory (inventory : NodeInventory)
  | namespaceInventory (inventory : NamespaceInventory)
  | deploymentInventory (inventory : DeploymentInventory)
  | podInventory (inventory : PodInventory)
  | containerInventory (inventory : ContainerInventory)
  | nodeMetrics (encoded : List UInt8)
  | containerMetrics (encoded : List UInt8)
  | gpuMetrics (encoded : List UInt8)
  | kubernetesEvent (encoded : List UInt8)
  | karpenterEvent (encoded : List UInt8)
  | inventorySnapshotMarker (encoded : List UInt8)
deriving DecidableEq

/-- The payload is one of the six inventory kinds. -/
def Payload.isInventory : Payload → Bool
  | .clusterInventory _ | .nodeInventory _ | .namespaceInventory _
  | .deploymentInventory _ | .podInventory _ | .containerInventory _ => true
  | _ => false

/-- The inventory record of a payload. -/
def Payload.record : Payload → Option InventoryRecord
  | .clusterInventory i => i.record
  | .nodeInventory i => i.record
  | .namespaceInventory i => i.record
  | .deploymentInventory i => i.record
  | .podInventory i => i.record
  | .containerInventory i => i.record
  | _ => none

structure Observation where
  sequence : ℕ := 0
  eventId : String := ""
  observedAt : Option Timestamp := none
  collectedAt : Option Timestamp := none
  sourceResourceVersion : String := ""
  payload : Option Payload := none
deriving DecidableEq

structure ObservationBatch where
  batchId : String
  firstSequence : ℕ
  lastSequence : ℕ
  createdAt : Option Timestamp := none
  payloadChecksum : List UInt8
  observations : List Observation
deriving DecidableEq

/-- What the two sides take from the protobuf library. -/
structure Codec where
  /-- Deterministic marshalling of an observation; `none` on an error. -/
  marshal : Observation → Option (List UInt8)
  /-- `proto.Size` of a batch. -/
  size : ObservationBatch → ℕ

/-- `batchChecksum`, the same on both sides: the hash of the encoded
observations, without those that do not encode. -/
def batchChecksum (C : Codec) (observations : List Observation) : List UInt8 :=
  Hash.sha256 (observations.filterMap C.marshal).flatten

/-! ### Frames -/

structure ProtocolVersion where
  major : ℕ
  minor : ℕ
deriving DecidableEq

structure AgentHello where
  tenantId : String
  clusterId : String
  agentInstanceId : String
  agentVersion : String := ""
  kubernetesVersion : String := ""
  supportedProtocolVersions : List ProtocolVersion := []
  resumeAfterSequence : ℕ := 0
deriving DecidableEq

structure AgentHeartbeat where
  highestSequenceCreated : ℕ
  highestSequencePersistedByServer : ℕ
deriving DecidableEq

/-- The frames of an agent; `empty` has none of the known payloads. -/
inductive AgentToIngestion
  | hello (hello : AgentHello)
  | batch (batch : ObservationBatch)
  | heartbeat (heartbeat : AgentHeartbeat)
  | empty
deriving DecidableEq

structure ServerHello where
  sessionId : ℕ
  selectedProtocolVersion : ProtocolVersion
  acceptedThroughSequence : ℕ
  maxBatchRecords : ℕ
  maxBatchBytes : ℕ
  heartbeatInterval : ℤ
deriving DecidableEq

structure SequenceRange where
  firstSequence : ℕ
  lastSequence : ℕ
deriving DecidableEq

/-- The rejection codes the service uses. -/
inductive RejectionCode
  | invalidRecord
  | tooLarge
deriving DecidableEq

structure RecordRejection where
  sequence : ℕ
  code : RejectionCode
  detail : String
  retryable : Bool
deriving DecidableEq

structure BatchAcknowledgement where
  batchId : String
  receivedThroughSequence : ℕ
  persistedThroughSequence : ℕ
  retryRanges : List SequenceRange
  rejections : List RecordRejection
deriving DecidableEq

structure FlowControl where
  retryAfter : ℤ
  maxInFlightBatches : ℕ
  reason : String
deriving DecidableEq

/-- The frames of the ingestion service. A stream error and a collection
configuration are part of the contract; the service sends neither. -/
inductive IngestionToAgent
  | hello (hello : ServerHello)
  | acknowledgement (acknowledgement : BatchAcknowledgement)
  | configuration
  | flowControl (flow : FlowControl)
  | error (detail : String)
deriving DecidableEq

/-- The durability boundary a frame announces, if it announces one:
`accepted_through_sequence` or `persisted_through_sequence`. -/
def IngestionToAgent.watermark : IngestionToAgent → Option ℕ
  | .hello h => some h.acceptedThroughSequence
  | .acknowledgement a => some a.persistedThroughSequence
  | _ => none

end KubeCost
