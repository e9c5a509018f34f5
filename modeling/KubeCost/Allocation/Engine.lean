/-
# The allocation engine

`services/allocation/engine.go`: `allocateCosts` splits the price of each
node-hour between the namespaces that requested CPU on it and an idle row, the
price of each cluster's control plane between its namespaces, and charges the
network by the byte. `float64` is read as an exact rational, `uint64` is
`UInt64`. Go visits a map in any order: the two orders that `allocateCosts`
depends on are parameters.

`sort.Slice` is not stable; since the rows come to it in any order, a stable
sort gives every result it can give.
-/
import Mathlib.Data.Rat.Defs
import Mathlib.Data.UInt
import KubeCost.Keyed
import KubeCost.Text
import KubeCost.Time

namespace KubeCost
namespace Allocation

open Keyed

/-! ### Types -/

structure NamespaceCost where
  tenantId : String
  clusterId : String
  namespaceUid : String
  namespaceName : String
  bucketStart : String
  cpuRequestCoreMilliseconds : UInt64 := 0
  networkBytes : UInt64 := 0
  allocationWeight : ℚ := 0
  directCost : ℚ := 0
  idleCost : ℚ := 0
  networkCost : ℚ := 0
  controlPlaneCost : ℚ := 0
  systemNamespaceCost : ℚ := 0
  allocatedCost : ℚ := 0
  currency : String := ""
  allocationMethod : String := ""
  computationVersion : String := ""
deriving DecidableEq

structure NodeNamespaceRequest where
  tenantId : String
  clusterId : String
  nodeUid : String
  namespaceUid : String
  namespaceName : String
  bucketStart : UTC
  cpuRequestCoreMilliseconds : UInt64
  networkBytes : UInt64
  nodeAllocatableMillicores : UInt64
deriving DecidableEq

structure AllocationOptions where
  nodeHourlyCostUSD : ℚ
  controlPlaneHourlyCostUSD : ℚ := 0
  networkCostPerGiBUSD : ℚ := 0
deriving DecidableEq

def defaultNodeHourlyCostUSD : ℚ := 1 / 10
def defaultControlPlaneHourlyCostUSD : ℚ := 1 / 20
def defaultNetworkCostPerGiBUSD : ℚ := 1 / 100
def defaultCurrency : String := "USD"
def allocationMethodCPU : String := "cpu_request_allocatable"
def computationVersionV1 : String := "allocation-v1-cpu-request-overhead-idle"
def idleNamespaceUID : String := "__idle__"
def idleNamespaceName : String := "__idle__"

/-! ### Helpers -/

def normalizeAllocationOptions (options : AllocationOptions) : AllocationOptions where
  nodeHourlyCostUSD :=
    if options.nodeHourlyCostUSD ≤ 0 then defaultNodeHourlyCostUSD else options.nodeHourlyCostUSD
  controlPlaneHourlyCostUSD :=
    if options.controlPlaneHourlyCostUSD < 0 then defaultControlPlaneHourlyCostUSD
    else options.controlPlaneHourlyCostUSD
  networkCostPerGiBUSD :=
    if options.networkCostPerGiBUSD < 0 then defaultNetworkCostPerGiBUSD
    else options.networkCostPerGiBUSD

def isSystemNamespace (namespaceName namespaceUID : String) : Bool :=
  namespaceName ∈ ["kube-system", "kube-public", "kube-node-lease"] ||
    namespaceUID ∈ ["kube-system", "kube-public", "kube-node-lease"]

/-- `float64` of a `uint64`. -/
def float64 (n : UInt64) : ℚ := n.toNat

def bytesToGiB (bytes : UInt64) : ℚ := float64 bytes / 1073741824

def maxUint64 (left right : UInt64) : UInt64 := if left > right then left else right

def nodeBucketKey (request : NodeNamespaceRequest) : String :=
  request.tenantId ++ "\x00" ++ (request.clusterId ++ "\x00" ++
    (request.nodeUid ++ "\x00" ++ request.bucketStart.rfc3339))

def namespaceBucketKey (request : NodeNamespaceRequest) : String :=
  request.tenantId ++ "\x00" ++ (request.clusterId ++ "\x00" ++
    (request.namespaceUid ++ "\x00" ++ request.bucketStart.rfc3339))

def idleNamespaceBucketKey (request : NodeNamespaceRequest) : String :=
  request.tenantId ++ "\x00" ++ (request.clusterId ++ "\x00" ++
    (idleNamespaceUID ++ "\x00" ++ request.bucketStart.rfc3339))

def clusterBucketKey (request : NodeNamespaceRequest) : String :=
  request.tenantId ++ "\x00" ++ (request.clusterId ++ "\x00" ++ request.bucketStart.rfc3339)

/-- `firstNodeRequest`; the source returns an empty request when there is none. -/
def firstNodeRequest (nodeKey : String) (requests : List NodeNamespaceRequest) :
    Option NodeNamespaceRequest :=
  requests.find? fun request => nodeBucketKey request = nodeKey

/-! ### `allocateCosts` -/

/-- The requests that the first loop does not skip. -/
def counted (request : NodeNamespaceRequest) : Bool :=
  !(request.nodeUid = "" || request.cpuRequestCoreMilliseconds = 0)

/-- The CPU requests of the counted requests, by a key. -/
def totalsBy (key : NodeNamespaceRequest → String) (requests : List NodeNamespaceRequest) :
    Map String UInt64 :=
  collect counted key (fun r o => o.getD 0 + r.cpuRequestCoreMilliseconds) requests ∅

/-- The three maps that the first loop fills. An entry 0 of `nodeAllocatable`
reads like a missing one, which is what the source has there. -/
def nodeTotals (requests : List NodeNamespaceRequest) : Map String UInt64 :=
  totalsBy nodeBucketKey requests

def clusterTotals (requests : List NodeNamespaceRequest) : Map String UInt64 :=
  totalsBy clusterBucketKey requests

def nodeAllocatable (requests : List NodeNamespaceRequest) : Map String UInt64 :=
  collect counted nodeBucketKey (fun r o =>
    let allocatable := r.nodeAllocatableMillicores * 3600
    if allocatable > o.getD 0 then allocatable else o.getD 0) requests ∅

/-- `map[key]` of a `map[string]uint64`. -/
def read (m : Map String UInt64) (key : String) : UInt64 := (m.lookup key).getD 0

/-- What a node-hour's price is divided by. -/
def denominator (requests : List NodeNamespaceRequest) (nodeKey : String) : UInt64 :=
  maxUint64 (read (nodeTotals requests) nodeKey) (read (nodeAllocatable requests) nodeKey)

/-- The requests that the second loop does not skip. -/
def charged (requests : List NodeNamespaceRequest) (request : NodeNamespaceRequest) : Bool :=
  !(denominator requests (nodeBucketKey request) = 0 || request.cpuRequestCoreMilliseconds = 0)

def emptyItem (request : NodeNamespaceRequest) : NamespaceCost where
  tenantId := request.tenantId
  clusterId := request.clusterId
  namespaceUid := request.namespaceUid
  namespaceName := request.namespaceName
  bucketStart := request.bucketStart.rfc3339

def nodeWeight (requests : List NodeNamespaceRequest) (request : NodeNamespaceRequest) : ℚ :=
  float64 request.cpuRequestCoreMilliseconds /
    float64 (denominator requests (nodeBucketKey request))

def controlPlaneWeight (requests : List NodeNamespaceRequest) (request : NodeNamespaceRequest) : ℚ :=
  let clusterTotal := read (clusterTotals requests) (clusterBucketKey request)
  if clusterTotal > 0 then float64 request.cpuRequestCoreMilliseconds / float64 clusterTotal else 0

/-- The body of the second loop. -/
def addRequest (options : AllocationOptions) (requests : List NodeNamespaceRequest)
    (request : NodeNamespaceRequest) (present : Option NamespaceCost) : NamespaceCost :=
  let item := present.getD (emptyItem request)
  let weight := nodeWeight requests request
  let networkCost := bytesToGiB request.networkBytes * options.networkCostPerGiBUSD
  let controlPlaneCost :=
    options.controlPlaneHourlyCostUSD * controlPlaneWeight requests request
  let directCost := options.nodeHourlyCostUSD * weight
  { item with
    cpuRequestCoreMilliseconds :=
      item.cpuRequestCoreMilliseconds + request.cpuRequestCoreMilliseconds
    networkBytes := item.networkBytes + request.networkBytes
    allocationWeight := item.allocationWeight + weight
    directCost := item.directCost + directCost
    networkCost := item.networkCost + networkCost
    controlPlaneCost := item.controlPlaneCost + controlPlaneCost
    allocatedCost := item.allocatedCost + (directCost + networkCost + controlPlaneCost)
    systemNamespaceCost :=
      if isSystemNamespace request.namespaceName request.namespaceUid then
        item.systemNamespaceCost + (directCost + networkCost + controlPlaneCost)
      else item.systemNamespaceCost }

/-- The node-hours that the third loop does not skip. -/
def hasIdle (requests : List NodeNamespaceRequest) (entry : (_ : String) × UInt64) : Bool :=
  !(denominator requests entry.1 = 0 || denominator requests entry.1 ≤ entry.2)

def emptyIdleItem (request : Option NodeNamespaceRequest) : NamespaceCost where
  tenantId := (request.map (·.tenantId)).getD ""
  clusterId := (request.map (·.clusterId)).getD ""
  namespaceUid := idleNamespaceUID
  namespaceName := idleNamespaceName
  bucketStart := (request.map (·.bucketStart.rfc3339)).getD "0001-01-01T00:00:00Z"

/-- The row key of a node-hour's idle cost. -/
def idleKey (requests : List NodeNamespaceRequest) (entry : (_ : String) × UInt64) : String :=
  match firstNodeRequest entry.1 requests with
  | some request => idleNamespaceBucketKey request
  | none => "" ++ "\x00" ++ ("" ++ "\x00" ++ (idleNamespaceUID ++ "\x00" ++ "0001-01-01T00:00:00Z"))

def idleCost (options : AllocationOptions) (requests : List NodeNamespaceRequest)
    (entry : (_ : String) × UInt64) : ℚ :=
  let d := denominator requests entry.1
  options.nodeHourlyCostUSD * (float64 (d - entry.2) / float64 d)

/-- The body of the third loop. -/
def addIdle (options : AllocationOptions) (requests : List NodeNamespaceRequest)
    (entry : (_ : String) × UInt64) (present : Option NamespaceCost) : NamespaceCost :=
  let item := present.getD (emptyIdleItem (firstNodeRequest entry.1 requests))
  { item with
    idleCost := item.idleCost + idleCost options requests entry
    allocatedCost := item.allocatedCost + idleCost options requests entry }

def less (a b : NamespaceCost) : Bool :=
  if a.bucketStart ≠ b.bucketStart then a.bucketStart < b.bucketStart
  else if a.clusterId ≠ b.clusterId then a.clusterId < b.clusterId
  else a.namespaceUid < b.namespaceUid

/-- The map of rows after the second loop, and after the third. -/
def namespaceRows (options : AllocationOptions) (requests : List NodeNamespaceRequest) :
    Map String NamespaceCost :=
  collect (charged requests) namespaceBucketKey (addRequest options requests) requests ∅

def byNamespace (options : AllocationOptions) (nodes : Order ((_ : String) × UInt64))
    (requests : List NodeNamespaceRequest) : Map String NamespaceCost :=
  collect (hasIdle requests) (idleKey requests) (addIdle options requests)
    (nodes.visit (nodeTotals requests).entries) (namespaceRows options requests)

def finish (item : NamespaceCost) : NamespaceCost :=
  { item with
    currency := defaultCurrency
    allocationMethod := allocationMethodCPU
    computationVersion := computationVersionV1 }

def allocateCosts (nodes : Order ((_ : String) × UInt64)) (rows : Order NamespaceCost)
    (requests : List NodeNamespaceRequest) (options : AllocationOptions) : List NamespaceCost :=
  let options := normalizeAllocationOptions options
  let result := (rows.visit (values (byNamespace options nodes requests))).map finish
  result.mergeSort fun a b => !less b a

/-- `allocateByCPURequest`. -/
def allocateByCPURequest (nodes : Order ((_ : String) × UInt64)) (rows : Order NamespaceCost)
    (requests : List NodeNamespaceRequest) (nodeHourlyCostUSD : ℚ) : List NamespaceCost :=
  allocateCosts nodes rows requests ⟨nodeHourlyCostUSD, 0, 0⟩

/-! ### Reading the rows -/

/-- The row is about the namespace and the hour. -/
def isAt (clusterId namespaceUid bucketStart : String) (row : NamespaceCost) : Bool :=
  row.clusterId = clusterId && row.namespaceUid = namespaceUid && row.bucketStart = bucketStart

/-- A measure of the rows about a namespace and an hour; 0 when there is none. -/
def sumAt {M : Type*} [AddCommMonoid M] (g : NamespaceCost → M)
    (clusterId namespaceUid bucketStart : String) (rows : List NamespaceCost) : M :=
  ((rows.filter (isAt clusterId namespaceUid bucketStart)).map g).sum

end Allocation
end KubeCost
