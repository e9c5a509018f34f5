/-
# The analytics queries

`services/query/repository.go`: `costsSQL` and `allocationSQL` as functions of the tables
they read, and the limits of a page. Both read `current_namespace_cost_1h`, the `FINAL`
view of `namespace_cost_1h` (`deploy/clickhouse/migrations` 008), joined with the current
namespaces, and differ only in the columns they select. Decimals are exact rationals.
-/
import Mathlib.Algebra.Order.Field.Rat
import Mathlib.Algebra.Order.Ring.Nat
import Mathlib.Data.UInt
import KubeCost.Inventory
import KubeCost.Relational

namespace KubeCost
namespace Analytics

open Relational Replacing

structure AnalyticsQuery where
  tenantId : String
  clusterId : String := ""
  start : Instant
  stop : Instant
  groupBy : String := "namespace"
  limit : ℤ := 0
  offset : ℤ := 0
  includeQuality : Bool := false
deriving DecidableEq

/-! ### Pages -/

def defaultAnalyticsLimit : ℤ := 100
def maxAnalyticsLimit : ℤ := 500

def normalizedAnalyticsLimit (limit : ℤ) : ℤ :=
  if limit ≤ 0 then defaultAnalyticsLimit
  else if limit > maxAnalyticsLimit then maxAnalyticsLimit
  else limit

def normalizedAnalyticsFetchLimit (limit : ℤ) : ℤ := normalizedAnalyticsLimit limit + 1

def normalizedAnalyticsOffset (offset : ℤ) : ℤ := if offset < 0 then 0 else offset

/-- `LIMIT` and `OFFSET` of a query. -/
def page {α : Type*} (query : AnalyticsQuery) (rows : List α) : List α :=
  (rows.drop (normalizedAnalyticsOffset query.offset).toNat).take
    (normalizedAnalyticsFetchLimit query.limit).toNat

/-! ### Tables -/

/-- A row of `namespace_cost_1h`, the columns that the queries read. -/
structure CostRecord where
  tenantId : String
  clusterId : String
  namespaceUid : String
  namespaceName : String
  bucketStart : Instant
  allocationMethod : String
  currency : String
  cpuRequestCoreMilliseconds : UInt64
  networkBytes : UInt64
  allocationWeight : ℚ
  directCost : ℚ
  idleCost : ℚ
  networkCost : ℚ
  controlPlaneCost : ℚ
  systemNamespaceCost : ℚ
  allocatedCost : ℚ
  computationVersion : String
  computedAt : Instant
  version : ℕ
deriving DecidableEq

/-- The columns of `namespace` that a query may group by. -/
structure OwnerColumns where
  team : String
  project : String
  environment : String
  costCenter : String
deriving DecidableEq

structure Tables where
  namespaceCost : List CostRecord
  namespaces : List (Inventory.Row OwnerColumns)

/-- `ORDER BY` of `namespace_cost_1h`; `toDate(bucket_start)` is the day. -/
structure CostKey where
  tenantId : String
  day : ℤ
  clusterId : String
  namespaceUid : String
  bucketStart : Instant
  allocationMethod : String
  computationVersion : String
deriving DecidableEq

def CostRecord.sortingKey (row : CostRecord) : CostKey where
  tenantId := row.tenantId
  day := row.bucketStart / (86400 * 1000000000)
  clusterId := row.clusterId
  namespaceUid := row.namespaceUid
  bucketStart := row.bucketStart
  allocationMethod := row.allocationMethod
  computationVersion := row.computationVersion

/-- `ReplacingMergeTree(version)`. -/
def byVersion (a b : CostRecord) : Bool := a.version ≤ b.version

/-- `current_namespace_cost_1h`. -/
def currentNamespaceCost (db : Tables) : List CostRecord :=
  final CostRecord.sortingKey byVersion db.namespaceCost

/-! ### `FROM`, `WHERE` and `GROUP BY` -/

/-- A row of the join. -/
abbrev Joined := CostRecord × Option (Inventory.Row OwnerColumns)

def onNamespace (row : CostRecord) (ns : Inventory.Row OwnerColumns) : Bool :=
  row.tenantId = ns.tenantId && row.clusterId = ns.clusterId && row.namespaceUid = ns.uid

/-- The clauses of `analyticsWhere`. -/
def analyticsWhere (query : AnalyticsQuery) (row : CostRecord) : Bool :=
  row.tenantId = query.tenantId && decide (query.start ≤ row.bucketStart) &&
    decide (row.bucketStart < query.stop) &&
    (query.clusterId = "" || row.clusterId = query.clusterId)

def joined (db : Tables) (query : AnalyticsQuery) : List Joined :=
  (leftJoin onNamespace (currentNamespaceCost db) (Inventory.current db.namespaces)).filter
    fun row => analyticsWhere query row.1

/-- A column of the namespace: its default for a row without a match. -/
def Joined.owner (column : OwnerColumns → String) (row : Joined) : String :=
  (row.2.map fun ns => column ns.columns).getD ""

/-- `any(column)`. -/
def any (column : Joined → String) (rows : List Joined) : String :=
  (rows.head?.map column).getD ""

/-- `anyLast(column)`. -/
def anyLast (column : Joined → String) (rows : List Joined) : String :=
  (rows.getLast?.map column).getD ""

/-- `analyticsGroupSpec`: the last column of `GROUP BY`, and what is selected of a group. -/
structure AnalyticsGroup where
  suffix : Joined → String
  groupKey : String
  groupValue : List Joined → String
  namespaceUid : List Joined → String
  namespaceName : List Joined → String

/-- A group of namespaces with one value of a column. -/
def ownerGroup (name : String) (column : OwnerColumns → String) : AnalyticsGroup where
  suffix := Joined.owner column
  groupKey := name
  groupValue := fun rows =>
    if any (Joined.owner column) rows = "" then "__unassigned__" else any (Joined.owner column) rows
  namespaceUid := fun _ => ""
  namespaceName := fun _ => ""

def namespaceName (rows : List Joined) : String :=
  if any (·.1.namespaceName) rows = "" then any (·.1.namespaceUid) rows
  else any (·.1.namespaceName) rows

def analyticsGroup (groupBy : String) : AnalyticsGroup :=
  if groupBy = "cluster" then
    { suffix := fun _ => ""
      groupKey := "cluster"
      groupValue := any (·.1.clusterId)
      namespaceUid := fun _ => ""
      namespaceName := fun _ => "" }
  else if groupBy = "team" then ownerGroup groupBy OwnerColumns.team
  else if groupBy = "project" then ownerGroup groupBy OwnerColumns.project
  else if groupBy = "environment" then ownerGroup groupBy OwnerColumns.environment
  else if groupBy = "cost_center" then ownerGroup groupBy OwnerColumns.costCenter
  else
    { suffix := (·.1.namespaceUid)
      groupKey := "namespace"
      groupValue := namespaceName
      namespaceUid := any (·.1.namespaceUid)
      namespaceName := namespaceName }

/-! ### `SELECT` -/

structure CostRow where
  tenantId : String
  clusterId : String
  groupKey : String
  groupValue : String
  namespaceUid : String
  namespaceName : String
  currency : String
  computationVersion : String
  computedAt : Instant
  directCost : ℚ
  idleCost : ℚ
  networkCost : ℚ
  controlPlaneCost : ℚ
  systemNamespaceCost : ℚ
  allocatedCost : ℚ

structure AllocationRow extends CostRow where
  cpuRequestCoreMilliseconds : UInt64
  networkBytes : UInt64
  allocationWeight : ℚ

/-- `max(computed_at)`. -/
def maxComputedAt (rows : List Joined) : Instant :=
  (rows.map (·.1.computedAt)).foldl max ((rows.head?.map (·.1.computedAt)).getD 0)

/-- The columns of `costsSQL`. -/
def costRow (group : AnalyticsGroup) (key : String × String × String) (rows : List Joined) :
    CostRow where
  tenantId := key.1
  clusterId := key.2.1
  groupKey := group.groupKey
  groupValue := group.groupValue rows
  namespaceUid := group.namespaceUid rows
  namespaceName := group.namespaceName rows
  currency := any (·.1.currency) rows
  computationVersion := anyLast (·.1.computationVersion) rows
  computedAt := maxComputedAt rows
  directCost := (rows.map (·.1.directCost)).sum
  idleCost := (rows.map (·.1.idleCost)).sum
  networkCost := (rows.map (·.1.networkCost)).sum
  controlPlaneCost := (rows.map (·.1.controlPlaneCost)).sum
  systemNamespaceCost := (rows.map (·.1.systemNamespaceCost)).sum
  allocatedCost := (rows.map (·.1.allocatedCost)).sum

/-- The columns of `allocationSQL`. -/
def allocationRow (group : AnalyticsGroup) (key : String × String × String) (rows : List Joined) :
    AllocationRow where
  toCostRow := costRow group key rows
  cpuRequestCoreMilliseconds := (rows.map (·.1.cpuRequestCoreMilliseconds)).sum
  networkBytes := (rows.map (·.1.networkBytes)).sum
  allocationWeight := (rows.map (·.1.allocationWeight)).sum

/-- `GROUP BY tenant_id, cluster_id` and the group's own column. -/
def groupedBy (query : AnalyticsQuery) (row : Joined) : String × String × String :=
  (row.1.tenantId, row.1.clusterId, (analyticsGroup query.groupBy).suffix row)

/-- `ORDER BY allocated_cost DESC, cluster_id, group_value, namespace_uid`. -/
def precedes (a b : CostRow) : Bool :=
  if a.allocatedCost ≠ b.allocatedCost then a.allocatedCost > b.allocatedCost
  else if a.clusterId ≠ b.clusterId then a.clusterId < b.clusterId
  else if a.groupValue ≠ b.groupValue then a.groupValue < b.groupValue
  else a.namespaceUid < b.namespaceUid

/-- All groups of `costsSQL`, in order. -/
def costGroups (db : Tables) (query : AnalyticsQuery) : List CostRow :=
  (groupBy (groupedBy query) (costRow (analyticsGroup query.groupBy)) (joined db query)).mergeSort
    fun a b => !precedes b a

def costsSQL (db : Tables) (query : AnalyticsQuery) : List CostRow := page query (costGroups db query)

def allocationSQL (db : Tables) (query : AnalyticsQuery) : List AllocationRow :=
  page query ((groupBy (groupedBy query) (allocationRow (analyticsGroup query.groupBy))
    (joined db query)).mergeSort fun a b => !precedes b.toCostRow a.toCostRow)

end Analytics
end KubeCost
