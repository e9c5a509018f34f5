/-
# What the rows of the cost query are made of

A measure of the rows about one namespace and hour is a sum over the rows that the
query groups (`sumAt_namespaceCosts`). Where the current views have at most one row
for an object, the joins look their partners up, so that is a sum over the rows of
`usage` and of `node_requests` (`joined_eq`, `idleJoined_eq`).
-/
import KubeCost.Allocation.Query

namespace KubeCost
namespace Allocation

open Relational Inventory

variable {db : Tables} {query : Query} {options : AllocationOptions}
  {clusterId namespaceUid bucketStart : String}

/-! ### Sums over the result -/

/-- The rows behind the `allocated` rows, and behind the `idle` rows, that are
about a namespace and an hour. -/
def joinedAt (db : Tables) (query : Query) (clusterId namespaceUid bucketStart : String) :
    List Joined :=
  (joined db query).filter fun row => row.usage.clusterId = clusterId &&
    row.usage.namespaceUid = namespaceUid && row.usage.bucketStart.rfc3339 = bucketStart

def idleJoinedAt (db : Tables) (query : Query) (clusterId namespaceUid bucketStart : String) :
    List (NodeRequests × Node) :=
  (idleJoined db query).filter fun row => row.1.clusterId = clusterId &&
    idleNamespaceUID = namespaceUid && row.1.bucketStart.rfc3339 = bucketStart

/-- **A measure that sums over the groups sums over the rows behind them.** -/
theorem sumAt_namespaceCosts {M : Type*} [AddCommMonoid M] {g : NamespaceCost → M} {δ : Joined → M}
    {ε : NodeRequests × Node → M}
    (hδ : ∀ k l, g (allocatedRow (normalizeAllocationOptions options) k l).scan = (l.map δ).sum)
    (hε : ∀ k l, g (idleRow (normalizeAllocationOptions options) k l).scan = (l.map ε).sum) :
    sumAt g clusterId namespaceUid bucketStart (namespaceCosts db query options) =
      ((joinedAt db query clusterId namespaceUid bucketStart).map δ).sum +
        ((idleJoinedAt db query clusterId namespaceUid bucketStart).map ε).sum := by
  have hsum : sumAt g clusterId namespaceUid bucketStart (namespaceCosts db query options) =
      (((allocated db query (normalizeAllocationOptions options) ++
        idle db query (normalizeAllocationOptions options)).filter
          (isAt clusterId namespaceUid bucketStart ∘ CostRow.scan)).map (g ∘ CostRow.scan)).sum := by
    rw [sumAt, namespaceCosts, List.filter_map, List.map_map]
    exact (((List.mergeSort_perm _ _).filter _).map _).sum_eq
  rw [hsum, List.filter_append, List.map_append, List.sum_append, allocated, idle,
    sum_groupBy (q := fun k => k.clusterId = clusterId && k.namespaceUid = namespaceUid &&
        k.bucketStart.rfc3339 = bucketStart) (fun _ _ => rfl) (fun k _ => hδ k _),
    sum_groupBy (q := fun k => k.clusterId = clusterId && idleNamespaceUID = namespaceUid &&
        k.bucketStart.rfc3339 = bucketStart) (fun _ _ => rfl) (fun k _ => hε k _)]
  rfl

/-! ### Looking up partners -/

def nodeOf (db : Tables) (row : Usage) : Option Node :=
  db.currentNode.find? (onNode row.tenantId row.clusterId row.nodeUid)

def namespaceOf (db : Tables) (row : Usage) : Option Namespace :=
  db.currentNamespace.find? (onNamespace row)

def nodeRequestsOf (db : Tables) (query : Query) (row : Usage) : Option NodeRequests :=
  (nodeRequests db query).find? (onNodeRequests row)

def clusterRequestsOf (db : Tables) (query : Query) (row : Usage) : Option ClusterRequests :=
  (clusterRequests db query).find? (onClusterRequests row)

/-- What a row of `usage` is joined with, when it is. -/
def joinOf (db : Tables) (query : Query) (row : Usage) : Option Joined :=
  (nodeRequestsOf db query row).bind fun node =>
    (clusterRequestsOf db query row).bind fun cluster =>
      (nodeOf db row).map fun current => ((((row, node), cluster), current), namespaceOf db row)

/-! ### Groups -/

/-- The rows that the query groups for a row of `usage`, of `node_requests` and of
`cluster_requests`. -/
def metricsOf (db : Tables) (query : Query) (key : UsageKey) : List ContainerMetric :=
  (selected db query).filter fun row => row.usageKey = key

def usageOfNode (db : Tables) (query : Query) (hour : NodeHour) : List Usage :=
  (usage db query).filter fun row => row.nodeHour = hour

def usageOfCluster (db : Tables) (query : Query) (hour : ClusterHour) : List Usage :=
  (usage db query).filter fun row => row.clusterHour = hour

/-- The requested CPU of a node-hour and of a cluster-hour. -/
def nodeTotal (db : Tables) (query : Query) (hour : NodeHour) : UInt64 :=
  ((usageOfNode db query hour).map (·.cpuRequestCoreMilliseconds)).sum

def clusterTotal (db : Tables) (query : Query) (hour : ClusterHour) : UInt64 :=
  ((usageOfCluster db query hour).map (·.cpuRequestCoreMilliseconds)).sum

theorem mem_usage {row : Usage} : row ∈ usage db query ↔ ∃ metric ∈ selected db query, row =
    ⟨metric.usageKey, ((metricsOf db query metric.usageKey).map (·.cpuRequestCoreMilliseconds)).sum,
      ((metricsOf db query metric.usageKey).map
        fun other => other.networkRxBytes + other.networkTxBytes).sum⟩ :=
  mem_groupBy

/-- A row of `node_requests` is the group of its node-hour in `usage`. -/
theorem mem_nodeRequests {node : NodeRequests} : node ∈ nodeRequests db query ↔
    node.nodeCpuRequestCoreMilliseconds > 0 ∧
      ∃ row ∈ usage db query, node = ⟨row.nodeHour, nodeTotal db query row.nodeHour⟩ := by
  rw [nodeRequests, List.mem_filter, mem_groupBy, decide_eq_true_eq, and_comm]
  rfl

theorem startOfHour_usage {row : Usage} (hrow : row ∈ usage db query) :
    row.bucketStart.startOfHour = row.bucketStart := by
  obtain ⟨metric, -, rfl⟩ := mem_usage.mp hrow
  rfl

/-- A row of `usage` with the text of an hour is of that hour. -/
theorem bucketStart_of_text {row : Usage} {t : UTC} (hrow : row ∈ usage db query)
    (h : row.bucketStart.rfc3339 = t.startOfHour.rfc3339) : row.bucketStart = t.startOfHour := by
  rw [← startOfHour_usage hrow] at h ⊢
  exact UTC.startOfHour_eq_of_rfc3339 h

theorem tenant_usage {row : Usage} (hrow : row ∈ usage db query) : row.tenantId = query.tenantId := by
  obtain ⟨metric, hmetric, rfl⟩ := mem_usage.mp hrow
  have hwhere := (List.mem_filter.mp hmetric).2
  simp only [metricWhere, Bool.and_eq_true, decide_eq_true_eq] at hwhere
  exact hwhere.1.1.1.1

/-- A row of `usage`, and one of `node_requests`, is determined by its key. -/
theorem usage_ext {row row' : Usage} (hrow : row ∈ usage db query) (hrow' : row' ∈ usage db query)
    (h : row.toUsageKey = row'.toUsageKey) : row = row' := by
  obtain ⟨metric, -, rfl⟩ := mem_usage.mp hrow
  obtain ⟨metric', -, rfl⟩ := mem_usage.mp hrow'
  rw [show metric.usageKey = metric'.usageKey from h]

theorem nodeRequests_ext {node node' : NodeRequests} (hnode : node ∈ nodeRequests db query)
    (hnode' : node' ∈ nodeRequests db query) (h : node.toNodeHour = node'.toNodeHour) :
    node = node' := by
  obtain ⟨-, row, -, rfl⟩ := mem_nodeRequests.mp hnode
  obtain ⟨-, row', -, rfl⟩ := mem_nodeRequests.mp hnode'
  rw [show row.nodeHour = row'.nodeHour from h]

theorem onNodeRequests_eq (row : Usage) (node : NodeRequests) : onNodeRequests row node =
    decide (node.toNodeHour = ⟨row.tenantId, row.clusterId, row.nodeUid, row.bucketStart⟩) := by
  obtain ⟨⟨tenantId, clusterId, nodeUid, bucketStart⟩, total⟩ := node
  simp only [onNodeRequests, NodeHour.mk.injEq, eq_comm, Bool.decide_and, Bool.and_assoc]

theorem onClusterRequests_eq (row : Usage) (cluster : ClusterRequests) :
    onClusterRequests row cluster =
      decide (cluster.toClusterHour = ⟨row.tenantId, row.clusterId, row.bucketStart⟩) := by
  obtain ⟨⟨tenantId, clusterId, bucketStart⟩, total⟩ := cluster
  simp only [onClusterRequests, ClusterHour.mk.injEq, eq_comm, Bool.decide_and, Bool.and_assoc]

theorem onNode_eq (tenantId clusterId nodeUid : String) (node : Node) :
    onNode tenantId clusterId nodeUid node = decide (node.object = (tenantId, clusterId, nodeUid)) := by
  simp only [onNode, Row.object, Prod.mk.injEq, eq_comm, Bool.decide_and, Bool.and_assoc]

theorem onNamespace_eq (row : Usage) (ns : Namespace) : onNamespace row ns =
    decide (ns.object = (row.tenantId, row.clusterId, row.namespaceUid)) := by
  simp only [onNamespace, Row.object, Prod.mk.injEq, eq_comm, Bool.decide_and, Bool.and_assoc]

/-- A row of `usage` finds the totals of its node-hour and of its cluster-hour,
unless they are 0. -/
theorem nodeRequestsOf_eq {row : Usage} (hrow : row ∈ usage db query) :
    nodeRequestsOf db query row = if nodeTotal db query row.nodeHour > 0 then
      some ⟨row.nodeHour, nodeTotal db query row.nodeHour⟩ else none := by
  rw [nodeRequestsOf, ← List.head?_filter, nodeRequests, List.filter_comm,
    filter_groupBy (k := row.nodeHour) (fun k l => ?_) ⟨row, hrow, rfl⟩]
  · rw [List.filter_cons, ← usageOfNode, ← nodeTotal]
    by_cases hpos : nodeTotal db query row.nodeHour > 0
    · rw [if_pos hpos, if_pos (decide_eq_true hpos)]
      rfl
    · rw [if_neg hpos, if_neg (by rwa [decide_eq_true_eq])]
      rfl
  · rw [onNodeRequests_eq, Usage.nodeHour, startOfHour_usage hrow]

theorem clusterRequestsOf_eq {row : Usage} (hrow : row ∈ usage db query) :
    clusterRequestsOf db query row = if clusterTotal db query row.clusterHour > 0 then
      some ⟨row.clusterHour, clusterTotal db query row.clusterHour⟩ else none := by
  rw [clusterRequestsOf, ← List.head?_filter, clusterRequests, List.filter_comm,
    filter_groupBy (k := row.clusterHour) (fun k l => ?_) ⟨row, hrow, rfl⟩]
  · rw [List.filter_cons, ← usageOfCluster, ← clusterTotal]
    by_cases hpos : clusterTotal db query row.clusterHour > 0
    · rw [if_pos hpos, if_pos (decide_eq_true hpos)]
      rfl
    · rw [if_neg hpos, if_neg (by rwa [decide_eq_true_eq])]
      rfl
  · rw [onClusterRequests_eq]
    rfl

/-- The views have at most one row for an object that is used. -/
structure Unique (db : Tables) (query : Query) : Prop where
  node : ∀ row ∈ usage db query,
    (db.currentNode.filter (onNode row.tenantId row.clusterId row.nodeUid)).length ≤ 1
  ns : ∀ row ∈ usage db query, (db.currentNamespace.filter (onNamespace row)).length ≤ 1

theorem nodeRequests_unique (row : Usage) :
    ((nodeRequests db query).filter (onNodeRequests row)).length ≤ 1 := by
  refine (List.filter_sublist.filter _).length_le.trans ?_
  refine length_filter_groupBy_le fun a _ b _ l l' ha hb => ?_
  rw [onNodeRequests_eq, decide_eq_true_eq] at ha hb
  exact ha.trans hb.symm

theorem clusterRequests_unique (row : Usage) :
    ((clusterRequests db query).filter (onClusterRequests row)).length ≤ 1 := by
  refine (List.filter_sublist.filter _).length_le.trans ?_
  refine length_filter_groupBy_le fun a _ b _ l l' ha hb => ?_
  rw [onClusterRequests_eq, decide_eq_true_eq] at ha hb
  exact ha.trans hb.symm

theorem withRequests_eq : withRequests db query = (usage db query).filterMap fun row =>
    (nodeRequestsOf db query row).bind fun node =>
      (clusterRequestsOf db query row).map fun cluster => ((row, node), cluster) := by
  rw [withRequests, innerJoin_eq_filterMap fun row _ => nodeRequests_unique row,
    innerJoin_eq_filterMap fun row _ => clusterRequests_unique row.1, List.filterMap_filterMap]
  congr 1
  funext row
  rw [nodeRequestsOf]
  cases (nodeRequests db query).find? (onNodeRequests row) <;> rfl

theorem usage_of_withRequests {row : (Usage × NodeRequests) × ClusterRequests}
    (h : row ∈ withRequests db query) : row.1.1 ∈ usage db query := by
  rw [withRequests_eq, List.mem_filterMap] at h
  obtain ⟨used, hused, he⟩ := h
  obtain ⟨node, -, he⟩ := Option.bind_eq_some_iff.mp he
  obtain ⟨cluster, -, rfl⟩ := Option.map_eq_some_iff.mp he
  exact hused

/-- **Each row of `usage` is joined with one row of each table, or not at all.** -/
theorem joined_eq (h : Unique db query) :
    joined db query = (usage db query).filterMap (joinOf db query) := by
  have hnode : innerJoin (fun row node => onNode row.1.1.tenantId row.1.1.clusterId row.1.1.nodeUid
      node) (withRequests db query) db.currentNode = (withRequests db query).filterMap fun row =>
        (db.currentNode.find? (onNode row.1.1.tenantId row.1.1.clusterId row.1.1.nodeUid)).map
          fun node => (row, node) :=
    innerJoin_eq_filterMap fun row hrow => h.node row.1.1 (usage_of_withRequests hrow)
  rw [joined, leftJoin_eq_map fun row hrow => ?_, hnode, withRequests_eq, List.filterMap_filterMap,
    List.map_filterMap]
  · congr 1
    funext row
    rw [joinOf]
    cases nodeRequestsOf db query row with
    | none => rfl
    | some node =>
      cases clusterRequestsOf db query row with
      | none => rfl
      | some cluster =>
        rw [nodeOf]
        cases h : db.currentNode.find? (onNode row.tenantId row.clusterId row.nodeUid) with
        | none => simp [h]
        | some current => simp [h, namespaceOf]
  · rw [hnode, List.mem_filterMap] at hrow
    obtain ⟨left, hleft, he⟩ := hrow
    obtain ⟨current, -, rfl⟩ := Option.map_eq_some_iff.mp he
    exact h.ns _ (usage_of_withRequests hleft)

theorem joinOf_usage {row : Usage} {partners : Joined} (h : joinOf db query row = some partners) :
    partners.usage = row := by
  obtain ⟨node, -, h⟩ := Option.bind_eq_some_iff.mp h
  obtain ⟨cluster, -, h⟩ := Option.bind_eq_some_iff.mp h
  obtain ⟨current, -, rfl⟩ := Option.map_eq_some_iff.mp h
  rfl

theorem idleJoined_eq (h : Unique db query) :
    idleJoined db query = (nodeRequests db query).filterMap fun row =>
      (db.currentNode.find? (onNode row.tenantId row.clusterId row.nodeUid)).map
        fun node => (row, node) := by
  refine innerJoin_eq_filterMap fun node hnode => ?_
  obtain ⟨-, row, hrow, rfl⟩ := mem_nodeRequests.mp hnode
  exact h.node row hrow

/-- **A measure of the rows about a namespace and an hour**, over the rows of `usage`
and over the node-hours. -/
theorem sumAt_rows {M : Type*} [AddCommMonoid M] (h : Unique db query) {g : NamespaceCost → M}
    {δ : Joined → M} {ε : NodeRequests × Node → M}
    (hδ : ∀ k l, g (allocatedRow (normalizeAllocationOptions options) k l).scan = (l.map δ).sum)
    (hε : ∀ k l, g (idleRow (normalizeAllocationOptions options) k l).scan = (l.map ε).sum) :
    sumAt g clusterId namespaceUid bucketStart (namespaceCosts db query options) =
      (((usage db query).filter fun row => row.clusterId = clusterId &&
        row.namespaceUid = namespaceUid && row.bucketStart.rfc3339 = bucketStart).map fun row =>
          ((joinOf db query row).map δ).getD 0).sum +
      (((nodeRequests db query).filter fun node => node.clusterId = clusterId &&
        idleNamespaceUID = namespaceUid && node.bucketStart.rfc3339 = bucketStart).map fun node =>
          ((db.currentNode.find? (onNode node.tenantId node.clusterId node.nodeUid)).map
            fun current => ε (node, current)).getD 0).sum := by
  rw [sumAt_namespaceCosts hδ hε, joinedAt, joined_eq h, idleJoinedAt, idleJoined_eq h,
    sum_filterMap (q := fun row : Usage => row.clusterId = clusterId &&
      row.namespaceUid = namespaceUid && row.bucketStart.rfc3339 = bucketStart) δ
      fun row partners hjoin => by rw [joinOf_usage hjoin],
    sum_filterMap (q := fun node : NodeRequests => node.clusterId = clusterId &&
      idleNamespaceUID = namespaceUid && node.bucketStart.rfc3339 = bucketStart) ε
      fun node pair hpair => by
        obtain ⟨current, -, rfl⟩ := Option.map_eq_some_iff.mp hpair
        rfl]
  simp only [Option.map_map, Function.comp_def]

end Allocation
end KubeCost
