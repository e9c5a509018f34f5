/-
# The cost query

`services/allocation/repository.go`: `namespaceCostSQL` as a function of the
tables it reads, one definition for each of its common table expressions, and
`NamespaceCosts`, which reads the rows into `NamespaceCost`. A `UInt64` column is
`UInt64` and its `sum` wraps around as ClickHouse's does; `Float64` is an exact
rational. In `WHERE` a name is the column of the table, in `GROUP BY` and after
it `bucket_start` is the hour.
-/
import Mathlib.Algebra.Order.Field.Rat
import KubeCost.Allocation.Engine
import KubeCost.Inventory
import KubeCost.Relational

namespace KubeCost
namespace Allocation

open Relational Inventory

/-! ### Tables -/

/-- A row of `container_metrics_10s`, the columns that the query reads. -/
structure ContainerMetric where
  tenantId : String
  clusterId : String
  nodeUid : String
  namespaceUid : String
  bucketStart : UTC
  cpuRequestCoreMilliseconds : UInt64
  networkRxBytes : UInt64
  networkTxBytes : UInt64
deriving DecidableEq

/-- What the query reads. -/
structure Tables where
  containerMetrics : List ContainerMetric
  currentNode : List Node
  currentNamespace : List Namespace

structure Query where
  tenantId : String
  clusterId : String := ""
  start : UTC
  stop : UTC

/-- The columns that the query groups by and joins on. -/
structure UsageKey where
  tenantId : String
  clusterId : String
  nodeUid : String
  namespaceUid : String
  bucketStart : UTC
deriving DecidableEq

structure NodeHour where
  tenantId : String
  clusterId : String
  nodeUid : String
  bucketStart : UTC
deriving DecidableEq

structure ClusterHour where
  tenantId : String
  clusterId : String
  bucketStart : UTC
deriving DecidableEq

structure NamespaceHour where
  tenantId : String
  clusterId : String
  namespaceUid : String
  bucketStart : UTC
deriving DecidableEq

/-! ### `usage`, `node_requests` and `cluster_requests` -/

/-- The clauses of `metricWhere`. -/
def metricWhere (query : Query) (row : ContainerMetric) : Bool :=
  row.tenantId = query.tenantId && decide (query.start ≤ row.bucketStart) &&
    decide (row.bucketStart < query.stop) && decide (row.cpuRequestCoreMilliseconds > 0) &&
    (query.clusterId = "" || row.clusterId = query.clusterId)

/-- The rows of `container_metrics_10s` that the query selects. -/
def selected (db : Tables) (query : Query) : List ContainerMetric :=
  db.containerMetrics.filter (metricWhere query)

structure Usage extends UsageKey where
  cpuRequestCoreMilliseconds : UInt64
  networkBytes : UInt64

def ContainerMetric.usageKey (row : ContainerMetric) : UsageKey :=
  ⟨row.tenantId, row.clusterId, row.nodeUid, row.namespaceUid, row.bucketStart.startOfHour⟩

def usage (db : Tables) (query : Query) : List Usage :=
  groupBy ContainerMetric.usageKey (fun key rows =>
    { toUsageKey := key
      cpuRequestCoreMilliseconds := (rows.map (·.cpuRequestCoreMilliseconds)).sum
      networkBytes := (rows.map fun row => row.networkRxBytes + row.networkTxBytes).sum })
    (selected db query)

structure NodeRequests extends NodeHour where
  nodeCpuRequestCoreMilliseconds : UInt64

def Usage.nodeHour (row : Usage) : NodeHour :=
  ⟨row.tenantId, row.clusterId, row.nodeUid, row.bucketStart.startOfHour⟩

def nodeRequests (db : Tables) (query : Query) : List NodeRequests :=
  (groupBy Usage.nodeHour (fun key rows =>
    { toNodeHour := key
      nodeCpuRequestCoreMilliseconds := (rows.map (·.cpuRequestCoreMilliseconds)).sum })
    (usage db query)).filter fun row => row.nodeCpuRequestCoreMilliseconds > 0

structure ClusterRequests extends ClusterHour where
  clusterCpuRequestCoreMilliseconds : UInt64

def Usage.clusterHour (row : Usage) : ClusterHour :=
  ⟨row.tenantId, row.clusterId, row.bucketStart⟩

def clusterRequests (db : Tables) (query : Query) : List ClusterRequests :=
  (groupBy Usage.clusterHour (fun key rows =>
    { toClusterHour := key
      clusterCpuRequestCoreMilliseconds := (rows.map (·.cpuRequestCoreMilliseconds)).sum })
    (usage db query)).filter fun row => row.clusterCpuRequestCoreMilliseconds > 0

/-! ### `allocated` and `idle` -/

/-- A row of `allocated` or of `idle`. -/
structure CostRow extends NamespaceHour where
  namespaceName : String
  cpuRequestCoreMilliseconds : UInt64 := 0
  networkBytes : UInt64 := 0
  allocationWeight : ℚ := 0
  directCost : ℚ := 0
  idleCost : ℚ := 0
  networkCost : ℚ := 0
  controlPlaneCost : ℚ := 0

/-- The conditions of the joins. -/
def onNodeRequests (row : Usage) (node : NodeRequests) : Bool :=
  row.tenantId = node.tenantId && row.clusterId = node.clusterId && row.nodeUid = node.nodeUid &&
    row.bucketStart = node.bucketStart

def onClusterRequests (row : Usage) (cluster : ClusterRequests) : Bool :=
  row.tenantId = cluster.tenantId && row.clusterId = cluster.clusterId &&
    row.bucketStart = cluster.bucketStart

def onNode (tenantId clusterId nodeUid : String) (node : Node) : Bool :=
  tenantId = node.tenantId && clusterId = node.clusterId && nodeUid = node.uid

def onNamespace (row : Usage) (ns : Namespace) : Bool :=
  row.tenantId = ns.tenantId && row.clusterId = ns.clusterId && row.namespaceUid = ns.uid

/-- `usage` joined with the requests of its node and of its cluster. -/
def withRequests (db : Tables) (query : Query) : List ((Usage × NodeRequests) × ClusterRequests) :=
  innerJoin (fun row cluster => onClusterRequests row.1 cluster)
    (innerJoin onNodeRequests (usage db query) (nodeRequests db query)) (clusterRequests db query)

/-- A row of the joins of `allocated`. -/
abbrev Joined := (((Usage × NodeRequests) × ClusterRequests) × Node) × Option Namespace

def joined (db : Tables) (query : Query) : List Joined :=
  leftJoin (fun row ns => onNamespace row.1.1.1 ns)
    (innerJoin (fun row node => onNode row.1.1.tenantId row.1.1.clusterId row.1.1.nodeUid node)
      (withRequests db query) db.currentNode)
    db.currentNamespace

namespace Joined

def usage (row : Joined) : Usage := row.1.1.1.1
def nodeRequests (row : Joined) : NodeRequests := row.1.1.1.2
def clusterRequests (row : Joined) : ClusterRequests := row.1.1.2
def node (row : Joined) : Node := row.1.2

/-- `ns.namespace_name`: the default of the column for a row without a match. -/
def namespaceName (row : Joined) : String := (row.2.map (·.columns.namespaceName)).getD ""

def namespaceHour (row : Joined) : NamespaceHour :=
  ⟨row.usage.tenantId, row.usage.clusterId, row.usage.namespaceUid, row.usage.bucketStart⟩

end Joined

/-- `greatest(toFloat64(allocatable) * 3600, toFloat64(requested))`. -/
def greatestCapacity (node : Node) (requests : NodeRequests) : ℚ :=
  max (float64 node.columns.allocatableCpuMillicores * 3600)
    (float64 requests.nodeCpuRequestCoreMilliseconds)

def weight (row : Joined) : ℚ :=
  float64 row.usage.cpuRequestCoreMilliseconds / greatestCapacity row.node row.nodeRequests

/-- `if(empty(any(ns.namespace_name)), usage.namespace_uid, any(ns.namespace_name))`. -/
def nameOf (namespaceUid : String) (rows : List Joined) : String :=
  let name := (rows.head?.map Joined.namespaceName).getD ""
  if name = "" then namespaceUid else name

/-- The columns of `allocated`. -/
def allocatedRow (options : AllocationOptions) (key : NamespaceHour) (rows : List Joined) : CostRow where
  toNamespaceHour := key
  namespaceName := nameOf key.namespaceUid rows
  cpuRequestCoreMilliseconds := (rows.map (·.usage.cpuRequestCoreMilliseconds)).sum
  networkBytes := (rows.map (·.usage.networkBytes)).sum
  allocationWeight := (rows.map weight).sum
  directCost := (rows.map fun row => options.nodeHourlyCostUSD * weight row).sum
  networkCost := (rows.map fun row =>
    float64 row.usage.networkBytes / 1073741824 * options.networkCostPerGiBUSD).sum
  controlPlaneCost := (rows.map fun row => options.controlPlaneHourlyCostUSD *
    (float64 row.usage.cpuRequestCoreMilliseconds /
      float64 row.clusterRequests.clusterCpuRequestCoreMilliseconds)).sum

def allocated (db : Tables) (query : Query) (options : AllocationOptions) : List CostRow :=
  groupBy Joined.namespaceHour (allocatedRow options) (joined db query)

def idleJoined (db : Tables) (query : Query) : List (NodeRequests × Node) :=
  innerJoin (fun row node => onNode row.tenantId row.clusterId row.nodeUid node)
    (nodeRequests db query) db.currentNode

def NodeRequests.clusterHour (row : NodeRequests) : ClusterHour :=
  ⟨row.tenantId, row.clusterId, row.bucketStart⟩

def idleShare (options : AllocationOptions) (row : NodeRequests × Node) : ℚ :=
  options.nodeHourlyCostUSD *
    max (greatestCapacity row.2 row.1 - float64 row.1.nodeCpuRequestCoreMilliseconds) 0 /
    greatestCapacity row.2 row.1

/-- The columns of `idle`. -/
def idleRow (options : AllocationOptions) (key : ClusterHour) (rows : List (NodeRequests × Node)) :
    CostRow where
  tenantId := key.tenantId
  clusterId := key.clusterId
  namespaceUid := idleNamespaceUID
  bucketStart := key.bucketStart
  namespaceName := idleNamespaceName
  idleCost := (rows.map (idleShare options)).sum

def idle (db : Tables) (query : Query) (options : AllocationOptions) : List CostRow :=
  groupBy (fun row => row.1.clusterHour) (idleRow options) (idleJoined db query)

/-! ### `NamespaceCosts` -/

/-- `ORDER BY bucket_start, cluster_id, namespace_uid`. -/
def precedes (a b : CostRow) : Bool :=
  if a.bucketStart ≠ b.bucketStart then a.bucketStart < b.bucketStart
  else if a.clusterId ≠ b.clusterId then a.clusterId < b.clusterId
  else a.namespaceUid < b.namespaceUid

def namespaceCostSQL (db : Tables) (query : Query) (options : AllocationOptions) : List CostRow :=
  let options := normalizeAllocationOptions options
  (allocated db query options ++ idle db query options).mergeSort fun a b => !precedes b a

/-- The outer `SELECT`, and the row that `NamespaceCosts` scans from it. -/
def CostRow.scan (row : CostRow) : NamespaceCost where
  tenantId := row.tenantId
  clusterId := row.clusterId
  namespaceUid := row.namespaceUid
  namespaceName := row.namespaceName
  bucketStart := row.bucketStart.rfc3339
  cpuRequestCoreMilliseconds := row.cpuRequestCoreMilliseconds
  networkBytes := row.networkBytes
  allocationWeight := row.allocationWeight
  directCost := row.directCost
  idleCost := row.idleCost
  networkCost := row.networkCost
  controlPlaneCost := row.controlPlaneCost
  systemNamespaceCost :=
    if row.namespaceName ∈ ["kube-system", "kube-public", "kube-node-lease"] then
      row.directCost + row.networkCost + row.controlPlaneCost
    else 0
  allocatedCost := row.directCost + row.idleCost + row.networkCost + row.controlPlaneCost
  currency := defaultCurrency
  allocationMethod := allocationMethodCPU
  computationVersion := computationVersionV1

/-- `NamespaceCosts`, of a connection that does not fail. -/
def namespaceCosts (db : Tables) (query : Query) (options : AllocationOptions) :
    List NamespaceCost :=
  (namespaceCostSQL db query options).map CostRow.scan

/-! ### An hour of two namespaces on one node, for examples -/

def plainMetrics : List ContainerMetric :=
  [⟨"t", "c", "n", "a", .newYear, 900, 0, 0⟩, ⟨"t", "c", "n", "b", .newYear, 1800, 0, 0⟩]

def plainNode : Node := ⟨"t", "c", "n", ⟨1⟩, .upsert, .newYear, .newYear, 1, 1⟩

def plainQuery : Query where
  tenantId := "t"
  start := .newYear
  stop := { UTC.newYear with hour := 1, hour_lt := by omega }

end Allocation
end KubeCost
