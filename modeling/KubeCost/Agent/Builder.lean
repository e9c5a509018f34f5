/-
# Inventory events from Kubernetes objects

`agent/inventory/builders.go` and `event.go`. The builder turns an object of the cluster
into an event: a key, which names the object for the agent's cache, and an observation
with the inventory record. Of the Kubernetes types there are the fields that the
builder reads; a quantity is what its three accessors return, and the selector of a
deployment is its formatted text.

Every observation reads the builder's clock. `now` numbers the readings, so a clock
that never goes backwards is a monotone one; a builder function gets the number of its
first reading.
-/
import Mathlib.Algebra.Order.Ring.Int
import Mathlib.Data.List.Sort
import KubeCost.Agent.Buffer

namespace KubeCost
namespace Agent

/-! ### Kubernetes objects -/

/-- `resource.Quantity`, by what `MilliValue`, `Value` and `String` return. -/
structure Quantity where
  milliValue : ℤ
  value : ℤ
  text : String
deriving DecidableEq

/-- A map from resource names to quantities. -/
abbrev ResourceList := List (String × Quantity)

structure OwnerReference where
  apiVersion : String
  kind : String
  name : String
  uid : String
  controller : Option Bool
deriving DecidableEq

structure ObjectMeta where
  uid : String
  name : String
  «namespace» : String := ""
  resourceVersion : String := ""
  labels : Labels := []
  creationTimestamp : Timestamp
  deletionTimestamp : Option Timestamp := none
  ownerReferences : List OwnerReference := []
deriving DecidableEq

structure Taint where
  key : String
  value : String
  effect : String
deriving DecidableEq

structure Node where
  objectMeta : ObjectMeta
  providerID : String := ""
  architecture : String := ""
  operatingSystem : String := ""
  unschedulable : Bool := false
  taints : List Taint := []
  capacity : ResourceList := []
  allocatable : ResourceList := []
deriving DecidableEq

structure Namespace where
  objectMeta : ObjectMeta
  phase : String := ""
deriving DecidableEq

structure Deployment where
  objectMeta : ObjectMeta
  replicas : Option ℤ := none
  availableReplicas : ℤ := 0
  selector : String := ""
  strategy : String := ""
deriving DecidableEq

structure Container where
  name : String
  image : String := ""
  requests : ResourceList := []
  limits : ResourceList := []
deriving DecidableEq

structure ContainerStateTerminated where
  startedAt : Timestamp
  finishedAt : Timestamp
deriving DecidableEq

/-- A missing status reads as the zero value, which is the default here. -/
structure ContainerStatus where
  name : String := ""
  containerID : String := ""
  imageID : String := ""
  restartCount : ℤ := 0
  running : Option Timestamp := none
  terminated : Option ContainerStateTerminated := none
  lastTerminated : Option ContainerStateTerminated := none
deriving DecidableEq

structure PodCondition where
  type : String
  status : String
  lastTransitionTime : Timestamp
deriving DecidableEq

structure Pod where
  objectMeta : ObjectMeta
  nodeName : String := ""
  serviceAccountName : String := ""
  priorityClassName : String := ""
  phase : String := ""
  qosClass : String := ""
  conditions : List PodCondition := []
  startTime : Option Timestamp := none
  initContainers : List Container := []
  containers : List Container := []
  initContainerStatuses : List ContainerStatus := []
  containerStatuses : List ContainerStatus := []
deriving DecidableEq

/-! ### Conversions -/

/-- The operations that the informers' handlers queue. -/
inductive Operation
  | upsert
  | delete
deriving DecidableEq

def Operation.wire : Operation → InventoryOperation
  | .upsert => .upsert
  | .delete => .delete

def record (operation : Operation) : Option InventoryRecord := some ⟨operation.wire, "", false⟩

/-- The zero `time.Time`. -/
def zeroTime : Timestamp := ⟨-62135596800, 0⟩

/-- `timestamp`: nothing for a missing or a zero time. -/
def timestamp (value : Option Timestamp) : Option Timestamp := value.filter (· ≠ zeroTime)

/-- `firstNonEmpty` of the agent: the first value that is not empty, blank or not. -/
def firstNonEmpty (values : List String) : String := (values.find? (· ≠ "")).getD ""

def metadata (m : ObjectMeta) : Option ObjectMetadata := some {
  uid := m.uid
  name := m.name
  «namespace» := m.namespace
  labels := m.labels
  createdAt := some m.creationTimestamp
  deletedAt := timestamp m.deletionTimestamp
  ownerReferences := m.ownerReferences.map fun owner =>
    ⟨owner.apiVersion, owner.kind, "", owner.name, owner.uid⟩ }

/-- The resources that have fields of their own, or none. -/
def isPlainResource (name : String) : Bool :=
  name ∈ ["cpu", "memory", "ephemeral-storage", "storage"]

def resourceValues (resources : ResourceList) : Option ResourceValues :=
  let others := resources.filter fun r => !isPlainResource r.1
  let gpus := others.filter fun r => contains r.1.toLower "gpu"
  some {
    cpuMillicores := (resources.lookup "cpu").map (·.milliValue)
    memoryBytes := (resources.lookup "memory").map (·.value)
    ephemeralStorageBytes := (resources.lookup "ephemeral-storage").map (·.value)
    gpuCount := if gpus = [] then none else some (gpus.map (·.2.value)).sum
    extendedResources := others.map fun r => (r.1, r.2.text) }

def taints (values : List Taint) : List String :=
  (values.map fun t => t.key ++ "=" ++ t.value ++ ":" ++ t.effect).mergeSort (· ≤ ·)

/-- `workloadOwner`: kind and UID of the controller, or of the first owner. -/
def workloadOwner (owners : List OwnerReference) : String × String :=
  match owners.find? fun owner => owner.controller = some true with
  | some owner => (owner.kind, owner.uid)
  | none =>
    match owners with
    | owner :: _ => (owner.kind, owner.uid)
    | [] => ("", "")

def conditionTime (conditions : List PodCondition) (conditionType : String) : Option Timestamp :=
  (conditions.find? fun c => c.type = conditionType && c.status = "True").map (·.lastTransitionTime)

def containerTimes (status : ContainerStatus) : Option Timestamp × Option Timestamp :=
  match status.running, status.terminated, status.lastTerminated with
  | some startedAt, _, _ => (some startedAt, none)
  | none, some t, _ => (some t.startedAt, some t.finishedAt)
  | none, none, some t => (some t.startedAt, some t.finishedAt)
  | none, none, none => (none, none)

/-! ### The builder -/

structure Builder where
  /-- The readings of the clock, in order. -/
  now : ℕ → Timestamp

namespace Builder

/-- `observation` with its payload; it reads the clock once. -/
def observation (b : Builder) (tick : ℕ) (resourceVersion : String) (observedAt : Timestamp)
    (payload : Payload) : Option Observation := some {
  observedAt := some (if observedAt = zeroTime then b.now tick else observedAt)
  collectedAt := some (b.now tick)
  sourceResourceVersion := resourceVersion
  payload := some payload }

def cluster (b : Builder) (tick : ℕ) (clusterID kubernetesVersion : String) (systemNamespace : Namespace) :
    Event where
  key := "cluster/" ++ clusterID
  observation := b.observation tick systemNamespace.objectMeta.resourceVersion
    systemNamespace.objectMeta.creationTimestamp (.clusterInventory {
      record := record .upsert
      clusterUid := systemNamespace.objectMeta.uid
      name := clusterID
      kubernetesVersion := kubernetesVersion })

/-- `Snapshot`; `marker` is the encoded marker. -/
def snapshot (b : Builder) (tick : ℕ) (snapshotID phase : String) (marker : List UInt8) : Event where
  key := "snapshot/" ++ snapshotID ++ "/" ++ phase
  observation := b.observation (tick + 1) "" (b.now tick) (.inventorySnapshotMarker marker)

def node (b : Builder) (tick : ℕ) (n : Node) (operation : Operation) : Event where
  key := "node/" ++ n.objectMeta.uid
  observation := b.observation (tick + 1) n.objectMeta.resourceVersion (b.now tick) (.nodeInventory {
    record := record operation
    metadata := metadata n.objectMeta
    providerId := n.providerID
    instanceType := firstNonEmpty [labelOf n.objectMeta.labels "node.kubernetes.io/instance-type",
      labelOf n.objectMeta.labels "beta.kubernetes.io/instance-type"]
    architecture := n.architecture
    operatingSystem := n.operatingSystem
    region := firstNonEmpty [labelOf n.objectMeta.labels "topology.kubernetes.io/region",
      labelOf n.objectMeta.labels "failure-domain.beta.kubernetes.io/region"]
    zone := firstNonEmpty [labelOf n.objectMeta.labels "topology.kubernetes.io/zone",
      labelOf n.objectMeta.labels "failure-domain.beta.kubernetes.io/zone"]
    capacityType := firstNonEmpty [labelOf n.objectMeta.labels "karpenter.sh/capacity-type",
      labelOf n.objectMeta.labels "eks.amazonaws.com/capacityType"]
    capacity := resourceValues n.capacity
    allocatable := resourceValues n.allocatable
    schedulable := !n.unschedulable
    taints := taints n.taints
    karpenterNodeClaimUid := labelOf n.objectMeta.labels "karpenter.sh/nodeclaim"
    karpenterNodePool := labelOf n.objectMeta.labels "karpenter.sh/nodepool" })

def «namespace» (b : Builder) (tick : ℕ) (n : Namespace) (operation : Operation) : Event where
  key := "namespace/" ++ n.objectMeta.uid
  observation := b.observation (tick + 1) n.objectMeta.resourceVersion (b.now tick) (.namespaceInventory {
    record := record operation
    metadata := metadata n.objectMeta
    phase := n.phase })

def deployment (b : Builder) (tick : ℕ) (d : Deployment) (namespaceUID : String)
    (operation : Operation) : Event where
  key := "deployment/" ++ d.objectMeta.uid
  observation := b.observation (tick + 1) d.objectMeta.resourceVersion (b.now tick) (.deploymentInventory {
    record := record operation
    metadata := metadata d.objectMeta
    desiredReplicas := d.replicas.getD 0
    availableReplicas := d.availableReplicas
    selector := d.selector
    strategy := d.strategy
    namespaceUid := namespaceUID })

def pod (b : Builder) (tick : ℕ) (p : Pod) (namespaceUID : String) (operation : Operation) : Event where
  key := "pod/" ++ p.objectMeta.uid
  observation := b.observation (tick + 1) p.objectMeta.resourceVersion (b.now tick) (.podInventory {
    record := record operation
    metadata := metadata p.objectMeta
    namespaceUid := namespaceUID
    nodeName := p.nodeName
    phase := p.phase
    qosClass := p.qosClass
    serviceAccountName := p.serviceAccountName
    priorityClassName := p.priorityClassName
    workloadKind := (workloadOwner p.objectMeta.ownerReferences).1
    workloadUid := (workloadOwner p.objectMeta.ownerReferences).2
    scheduledAt := conditionTime p.conditions "PodScheduled"
    startedAt := timestamp p.startTime })

/-- The key of a container's events. -/
def containerKey (init : Bool) (podUID name : String) : String :=
  (if init then "init-container" else "container") ++ "/" ++ podUID ++ "/" ++ name

def container (b : Builder) (tick : ℕ) (p : Pod) (c : Container) (status : ContainerStatus)
    (namespaceUID : String) (init : Bool) (operation : Operation) : Event where
  key := containerKey init p.objectMeta.uid c.name
  observation := b.observation (tick + 1) p.objectMeta.resourceVersion (b.now tick) (.containerInventory {
    record := record operation
    podUid := p.objectMeta.uid
    «namespace» := p.objectMeta.namespace
    namespaceUid := namespaceUID
    podName := p.objectMeta.name
    containerName := c.name
    containerId := status.containerID
    image := c.image
    imageId := status.imageID
    requests := resourceValues c.requests
    limits := resourceValues c.limits
    restartCount := status.restartCount
    initContainer := init
    startedAt := (containerTimes status).1
    finishedAt := (containerTimes status).2
    workloadKind := (workloadOwner p.objectMeta.ownerReferences).1
    workloadUid := (workloadOwner p.objectMeta.ownerReferences).2 })

/-- The status of a container: the last one of that name, those of init containers
first. -/
def statusOf (p : Pod) (name : String) : ContainerStatus :=
  ((p.initContainerStatuses ++ p.containerStatuses).reverse.find? (·.name = name)).getD {}

/-- The containers of a pod in the order of their events, each with whether it is an init
container. -/
def specs (p : Pod) : List (Container × Bool) :=
  p.initContainers.map (·, true) ++ p.containers.map (·, false)

/-- Events for the containers, two readings of the clock for each. -/
def containersFrom (b : Builder) (p : Pod) (namespaceUID : String) (operation : Operation) :
    ℕ → List (Container × Bool) → List Event
  | _, [] => []
  | tick, (c, init) :: rest =>
    b.container tick p c (statusOf p c.name) namespaceUID init operation ::
      containersFrom b p namespaceUID operation (tick + 2) rest

def containers (b : Builder) (tick : ℕ) (p : Pod) (namespaceUID : String) (operation : Operation) :
    List Event :=
  b.containersFrom p namespaceUID operation tick (specs p)

end Builder

/-! ### Fingerprints -/

/-- The observation without what changes from one look at the object to the next. -/
def bare (o : Observation) : Observation :=
  { o with sequence := 0, eventId := "", observedAt := none, collectedAt := none, sourceResourceVersion := "" }

/-- `Fingerprint`. -/
def fingerprint (C : Codec) (o : Observation) : Except String String :=
  if o.payload = none then .error "observation payload is required"
  else
    match C.marshal (bare o) with
    | none => .error "marshal observation"
    | some data => .ok (hexEncode (Hash.sha256 data))

end Agent
end KubeCost
