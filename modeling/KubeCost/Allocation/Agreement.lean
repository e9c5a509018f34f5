/-
# The query and the engine agree

`NamespaceCosts` answers from the query alone, while `allocateCosts` is what the
tests run. On every comparable content of the tables both give the same figures for
every namespace and hour (`namespaceCosts_eq_allocateCosts`).

Both sides are sums over the rows of `usage` and over the node-hours: what a row adds
is the same (`figures_row`), the engine's totals by node are the rows of
`node_requests` (`entries_perm`), and so is their idle cost (`idleCost_row`).
-/
import KubeCost.Allocation.Lookup
import KubeCost.Allocation.Usage

namespace KubeCost
namespace Allocation

open Keyed Relational Inventory

variable {db : Tables} {query : Query} {options : AllocationOptions} {row row' : Usage}

/-! ### Figures -/

abbrev Figures := UInt64 × UInt64 × ℚ × ℚ × ℚ × ℚ × ℚ

/-- The figures of a row: CPU, network, weight, and the direct, idle, network and
control-plane costs. -/
def figures (item : NamespaceCost) : Figures :=
  (item.cpuRequestCoreMilliseconds, item.networkBytes, item.allocationWeight, item.directCost,
    item.idleCost, item.networkCost, item.controlPlaneCost)

/-- What a request adds to the figures, and what idle cost adds. -/
def requestFigures (options : AllocationOptions) (requests : List NodeNamespaceRequest)
    (r : NodeNamespaceRequest) : Figures :=
  (r.cpuRequestCoreMilliseconds, r.networkBytes, nodeWeight requests r,
    options.nodeHourlyCostUSD * nodeWeight requests r, 0,
    bytesToGiB r.networkBytes * options.networkCostPerGiBUSD,
    options.controlPlaneHourlyCostUSD * controlPlaneWeight requests r)

def idleFigures (cost : ℚ) : Figures := (0, 0, 0, 0, cost, 0, 0)

/-- What a joined row adds to the figures of its group. -/
def joinedFigures (options : AllocationOptions) (row : Joined) : Figures :=
  (row.usage.cpuRequestCoreMilliseconds, row.usage.networkBytes, weight row,
    options.nodeHourlyCostUSD * weight row, 0,
    float64 row.usage.networkBytes / 1073741824 * options.networkCostPerGiBUSD,
    options.controlPlaneHourlyCostUSD * (float64 row.usage.cpuRequestCoreMilliseconds /
      float64 row.clusterRequests.clusterCpuRequestCoreMilliseconds))

theorem raises_figures (requests : List NodeNamespaceRequest) (r : NodeNamespaceRequest) :
    Raises figures (addRequest options requests r) (requestFigures options requests r) := by
  intro o
  cases o <;> simp [figures, addRequest, requestFigures, emptyItem]

theorem raises_figures_idle (requests : List NodeNamespaceRequest) (e : (_ : String) × UInt64) :
    Raises figures (addIdle options requests e) (idleFigures (idleCost options requests e)) := by
  intro o
  cases o <;> simp [figures, addIdle, idleFigures, emptyIdleItem]

theorem figures_allocatedRow (key : NamespaceHour) (rows : List Joined) :
    figures (allocatedRow options key rows).scan =
      (rows.map fun row => joinedFigures options row).sum := by
  simp only [joinedFigures, sum_prodMk, List.map_const', List.sum_replicate, nsmul_zero]
  rfl

theorem figures_idleRow (key : ClusterHour) (rows : List (NodeRequests × Node)) :
    figures (idleRow options key rows).scan =
      (rows.map fun row => idleFigures (idleShare options row)).sum := by
  simp only [idleFigures, Prod.mk_zero_zero, sum_prodMk, List.map_const', List.sum_replicate, nsmul_zero]
  rfl

/-! ### Both sides, request by request and node by node -/

/-- The entry of the engine's totals that a row of `node_requests` stands for. -/
def nodeEntry (node : NodeRequests) : (_ : String) × UInt64 :=
  ⟨node.tenantId ++ "\x00" ++ (node.clusterId ++ "\x00" ++
    (node.nodeUid ++ "\x00" ++ node.bucketStart.rfc3339)), node.nodeCpuRequestCoreMilliseconds⟩

theorem nodeEntry_row (hrow : row ∈ usage db query) (total : UInt64) :
    nodeEntry ⟨row.nodeHour, total⟩ = ⟨nodeBucketKey (usageRequest db row), total⟩ := by
  simp only [nodeEntry, Usage.nodeHour, startOfHour_usage hrow, nodeBucketKey, usageRequest]

theorem tenant_perm {requests : List NodeNamespaceRequest}
    (hperm : requests.Perm (usageRequests db query)) : ∀ r ∈ requests, r.tenantId = query.tenantId := by
  intro r hr
  obtain ⟨row, hrow, rfl⟩ := List.mem_map.mp (hperm.mem_iff.mp hr)
  exact tenant_usage hrow

namespace Comparable

variable {requests : List NodeNamespaceRequest}

theorem figures_row (h : Comparable db query) (hperm : requests.Perm (usageRequests db query))
    (hrow : row ∈ usage db query) :
    ((joinOf db query row).map (joinedFigures options)).getD 0 =
      requestFigures options requests (usageRequest db row) := by
  obtain ⟨node, -, hnode⟩ := h.nodeOf_some hrow
  have hcontrol : controlPlaneWeight requests (usageRequest db row) =
      float64 row.cpuRequestCoreMilliseconds /
        float64 (clusterTotal db query row.clusterHour) := by
    rw [controlPlaneWeight, h.read_clusterTotals hperm hrow]
    exact if_pos (h.clusterTotal_pos hrow)
  rw [joinOf, nodeRequestsOf_eq hrow, if_pos (h.nodeTotal_pos hrow), clusterRequestsOf_eq hrow,
    if_pos (h.clusterTotal_pos hrow), hnode]
  simp only [Option.bind_some, Option.map_some, Option.getD_some, joinedFigures, requestFigures,
    hcontrol, nodeWeight, h.float64_denominator hperm hrow hnode]
  rfl

theorem lookup_nodeTotals (h : Comparable db query) (hperm : requests.Perm (usageRequests db query))
    (hrow : row ∈ usage db query) :
    (nodeTotals requests).lookup (nodeBucketKey (usageRequest db row)) =
      some (nodeTotal db query row.nodeHour) := by
  have hmem : nodeBucketKey (usageRequest db row) ∈ nodeTotals requests :=
    mem_totalsBy.mpr ⟨_, hperm.mem_iff.mpr (List.mem_map_of_mem hrow), h.counted hrow, rfl⟩
  obtain ⟨total, htotal⟩ := Option.isSome_iff_exists.mp (AList.lookup_isSome.mpr hmem)
  have hread := h.read_nodeTotals hperm hrow
  rw [read, htotal, Option.getD_some] at hread
  rw [htotal, hread]

theorem nodup_nodeEntry (h : Comparable db query) :
    ((nodeRequests db query).map nodeEntry).Nodup := by
  have hnd : ((nodeRequests db query).map NodeRequests.toNodeHour).Nodup :=
    (List.filter_sublist.map _).nodup (nodup_groupBy fun _ _ => rfl)
  refine List.Nodup.map_on (fun a ha b hb hab => ?_) hnd.of_map
  obtain ⟨-, row, hrow, rfl⟩ := mem_nodeRequests.mp ha
  obtain ⟨-, row', hrow', rfl⟩ := mem_nodeRequests.mp hb
  rw [nodeEntry_row hrow, nodeEntry_row hrow'] at hab
  rw [(h.nodeKey_iff hrow hrow').mp (Sigma.mk.inj hab).1]

/-- The engine's totals by node are the rows of `node_requests`. -/
theorem entries_perm (h : Comparable db query) (hperm : requests.Perm (usageRequests db query)) :
    (nodeTotals requests).entries.Perm ((nodeRequests db query).map nodeEntry) := by
  refine (List.perm_ext_iff_of_nodup (AList.nodupKeys _).nodup h.nodup_nodeEntry).mpr fun e => ?_
  rw [← AList.mem_lookup_iff, List.mem_map, Option.mem_def]
  constructor
  · intro he
    have hk : e.1 ∈ nodeTotals requests :=
      AList.lookup_isSome.mp (Option.isSome_iff_exists.mpr ⟨_, he⟩)
    obtain ⟨r, hr, -, hkey⟩ := mem_totalsBy.mp hk
    obtain ⟨row, hrow, rfl⟩ := List.mem_map.mp (hperm.mem_iff.mp hr)
    refine ⟨_, mem_nodeRequests.mpr ⟨h.nodeTotal_pos hrow, row, hrow, rfl⟩, ?_⟩
    rw [← hkey, h.lookup_nodeTotals hperm hrow, Option.some.injEq] at he
    rw [nodeEntry_row hrow, he, hkey]
  · rintro ⟨node, hnode, rfl⟩
    obtain ⟨-, row, hrow, rfl⟩ := mem_nodeRequests.mp hnode
    rw [nodeEntry_row hrow]
    exact h.lookup_nodeTotals hperm hrow

/-- The idle cost of a node-hour is the same on both sides. -/
theorem idleCost_row (h : Comparable db query) (hperm : requests.Perm (usageRequests db query))
    (hrow : row ∈ usage db query) {node : Node} (hnode : nodeOf db row = some node) :
    idleCost options requests
        ⟨nodeBucketKey (usageRequest db row), nodeTotal db query row.nodeHour⟩ =
      idleShare options (⟨row.nodeHour, nodeTotal db query row.nodeHour⟩, node) := by
  have he : ⟨nodeBucketKey (usageRequest db row), nodeTotal db query row.nodeHour⟩ ∈
      (nodeTotals requests).entries :=
    AList.mem_lookup_iff.mp (h.lookup_nodeTotals hperm hrow)
  have hidle := float64_idle he
  rw [h.float64_denominator hperm hrow hnode] at hidle
  have hle : 0 ≤ greatestCapacity node ⟨row.nodeHour, nodeTotal db query row.nodeHour⟩ -
      float64 (nodeTotal db query row.nodeHour) := sub_nonneg.mpr (le_max_right _ _)
  rw [idleCost, idleShare, max_eq_left hle, hidle, h.float64_denominator hperm hrow hnode,
    mul_div_assoc]

/-- An idle cost is kept under the cluster and the hour of its node. -/
theorem idleKey_iff (h : Comparable db query) (hperm : requests.Perm (usageRequests db query))
    (hrow : row ∈ usage db query) {clusterId namespaceUid bucketStart : String}
    (hc : NulFree clusterId) (hn : NulFree namespaceUid) :
    idleKey requests ⟨nodeBucketKey (usageRequest db row), nodeTotal db query row.nodeHour⟩ =
        rowKey query.tenantId clusterId namespaceUid bucketStart ↔
      row.clusterId = clusterId ∧ idleNamespaceUID = namespaceUid ∧
        row.bucketStart.rfc3339 = bucketStart := by
  have he : ⟨nodeBucketKey (usageRequest db row), nodeTotal db query row.nodeHour⟩ ∈
      (nodeTotals requests).entries :=
    AList.mem_lookup_iff.mp (h.lookup_nodeTotals hperm hrow)
  obtain ⟨first, hmem, hfirst, hkey⟩ := firstNodeRequest_some he
  obtain ⟨other, hother, rfl⟩ := List.mem_map.mp (hperm.mem_iff.mp hmem)
  have hsame := (h.nodeKey_iff hother hrow).mp hkey
  simp only [Usage.nodeHour, NodeHour.mk.injEq, startOfHour_usage hother, startOfHour_usage hrow]
    at hsame
  have hid : idleKey requests ⟨nodeBucketKey (usageRequest db row), nodeTotal db query row.nodeHour⟩ =
      rowKey query.tenantId row.clusterId idleNamespaceUID row.bucketStart.rfc3339 := by
    rw [idleKey, hfirst, ← hsame.2.1, ← hsame.2.2.2, ← tenant_usage hother]
    rfl
  have hids := h.ids
  have hmem' : usageRequest db row ∈ usageRequests db query := List.mem_map_of_mem hrow
  rw [hid]
  exact rowKey_inj (tenant_usage hrow ▸ hids.tenant _ hmem') (hids.cluster _ hmem') hc (by decide) hn

section Sums

variable {clusterId namespaceUid bucketStart : String}

/-- The figures of the query, over the requests and over the node-hours. -/
theorem sumAt_query (h : Comparable db query) (hperm : requests.Perm (usageRequests db query)) :
    sumAt figures clusterId namespaceUid bucketStart (namespaceCosts db query options) =
      (((usage db query).filter fun row => row.clusterId = clusterId &&
        row.namespaceUid = namespaceUid && row.bucketStart.rfc3339 = bucketStart).map fun row =>
          requestFigures (normalizeAllocationOptions options) requests (usageRequest db row)).sum +
      (((nodeRequests db query).filter fun node => node.clusterId = clusterId &&
        idleNamespaceUID = namespaceUid && node.bucketStart.rfc3339 = bucketStart).map fun node =>
          idleFigures (idleCost (normalizeAllocationOptions options) requests
            (nodeEntry node))).sum := by
  rw [sumAt_rows h.unique figures_allocatedRow figures_idleRow]
  congr 2
  · refine List.map_congr_left fun row hrow => ?_
    exact h.figures_row hperm (List.mem_filter.mp hrow).1
  · refine List.map_congr_left fun node hnode => ?_
    obtain ⟨-, row, hrow, rfl⟩ := mem_nodeRequests.mp (List.mem_filter.mp hnode).1
    obtain ⟨current, -, hcurrent⟩ := h.nodeOf_some hrow
    rw [nodeEntry_row hrow, h.idleCost_row hperm hrow hcurrent]
    rw [nodeOf] at hcurrent
    simp only [Usage.nodeHour, hcurrent, Option.map_some, Option.getD_some]

/-- The figures of the engine, over the same. -/
theorem sumAt_engine (h : Comparable db query) (hperm : requests.Perm (usageRequests db query))
    {nodes : Order ((_ : String) × UInt64)} {rows : Order NamespaceCost}
    (hc : NulFree clusterId) (hn : NulFree namespaceUid) :
    sumAt figures clusterId namespaceUid bucketStart (allocateCosts nodes rows requests options) =
      (((usage db query).filter fun row => row.clusterId = clusterId &&
        row.namespaceUid = namespaceUid && row.bucketStart.rfc3339 = bucketStart).map fun row =>
          requestFigures (normalizeAllocationOptions options) requests (usageRequest db row)).sum +
      (((nodeRequests db query).filter fun node => node.clusterId = clusterId &&
        idleNamespaceUID = namespaceUid && node.bucketStart.rfc3339 = bucketStart).map fun node =>
          idleFigures (idleCost (normalizeAllocationOptions options) requests
            (nodeEntry node))).sum := by
  have hids : Ids requests := h.ids_perm hperm
  have hwrap := h.noWrap_node hperm
  rw [sumAt_allocateCosts hids (tenant_perm hperm) hc hn (fun _ => rfl)
    (raises_figures requests) (raises_figures_idle requests)]
  congr 1
  · -- every request is charged, and is kept under its own ids
    rw [((hperm.filter _).map _).sum_eq, usageRequests, List.filter_map, List.map_map]
    congr 2
    refine List.filter_congr fun row hrow => ?_
    have hmem : usageRequest db row ∈ usageRequests db query := List.mem_map_of_mem hrow
    rw [Function.comp_apply, charged_eq_counted hids hwrap (hperm.mem_iff.mpr hmem),
      h.counted hrow, Bool.true_and, Bool.eq_iff_iff, decide_eq_true_eq, ← tenant_usage hrow]
    simp only [Bool.and_eq_true, decide_eq_true_eq, and_assoc]
    exact rowKey_inj (h.ids.tenant _ hmem) (h.ids.cluster _ hmem) hc (h.ids.namespaceUid _ hmem) hn
  · -- a node-hour without idle cost adds nothing
    rw [← List.filter_filter, sum_filter_of_zero fun e he hskip => ?_,
      (((h.entries_perm hperm).filter _).map _).sum_eq, List.filter_map, List.map_map]
    · congr 2
      refine List.filter_congr fun node hnode => ?_
      obtain ⟨-, row, hrow, rfl⟩ := mem_nodeRequests.mp hnode
      rw [Function.comp_apply, nodeEntry_row hrow, Bool.eq_iff_iff, decide_eq_true_eq,
        h.idleKey_iff hperm hrow hc hn]
      simp only [Bool.and_eq_true, decide_eq_true_eq, and_assoc, Usage.nodeHour,
        startOfHour_usage hrow]
    · rw [idleCost_skipped hwrap (List.mem_filter.mp he).1 hskip]
      rfl

/-- The query has at most one row about a namespace and an hour. -/
theorem length_allocated_at (h : Comparable db query) : ((allocated db query options).filter
    (isAt clusterId namespaceUid bucketStart ∘ CostRow.scan)).length ≤ 1 := by
  refine length_filter_groupBy_le fun a ha b hb l l' hpa hpb => ?_
  rw [joined_eq h.unique, List.mem_filterMap] at ha hb
  obtain ⟨row, hrow, hjoin⟩ := ha
  obtain ⟨row', hrow', hjoin'⟩ := hb
  simp only [Function.comp_apply, isAt, CostRow.scan, allocatedRow, Joined.namespaceHour,
    joinOf_usage hjoin, joinOf_usage hjoin', Bool.and_eq_true, decide_eq_true_eq] at hpa hpb
  rw [Joined.namespaceHour, Joined.namespaceHour, joinOf_usage hjoin, joinOf_usage hjoin',
    tenant_usage hrow, tenant_usage hrow', hpa.1.1, hpb.1.1, hpa.1.2, hpb.1.2,
    bucketStart_eq hrow hrow' (hpa.2.trans hpb.2.symm)]

theorem length_idle_at (h : Comparable db query) : ((idle db query options).filter
    (isAt clusterId namespaceUid bucketStart ∘ CostRow.scan)).length ≤ 1 := by
  refine length_filter_groupBy_le fun a ha b hb l l' hpa hpb => ?_
  rw [idleJoined_eq h.unique, List.mem_filterMap] at ha hb
  obtain ⟨node, hnode, hpair⟩ := ha
  obtain ⟨node', hnode', hpair'⟩ := hb
  obtain ⟨current, -, rfl⟩ := Option.map_eq_some_iff.mp hpair
  obtain ⟨current', -, rfl⟩ := Option.map_eq_some_iff.mp hpair'
  obtain ⟨-, row, hrow, rfl⟩ := mem_nodeRequests.mp hnode
  obtain ⟨-, row', hrow', rfl⟩ := mem_nodeRequests.mp hnode'
  simp only [Function.comp_apply, isAt, CostRow.scan, idleRow, NodeRequests.clusterHour,
    Usage.nodeHour, startOfHour_usage hrow, startOfHour_usage hrow', Bool.and_eq_true,
    decide_eq_true_eq] at hpa hpb
  simp only [NodeRequests.clusterHour, Usage.nodeHour, startOfHour_usage hrow', tenant_usage hrow,
    tenant_usage hrow', hpa.1.1, hpb.1.1, bucketStart_eq hrow hrow' (hpa.2.trans hpb.2.symm)]

theorem length_query_at (h : Comparable db query) : ((namespaceCosts db query options).filter
    (isAt clusterId namespaceUid bucketStart)).length ≤ 1 := by
  rw [namespaceCosts, List.filter_map, List.length_map, namespaceCostSQL,
    ((List.mergeSort_perm _ _).filter _).length_eq, List.filter_append, List.length_append]
  by_cases hidle : namespaceUid = idleNamespaceUID
  · -- no namespace has the idle uid
    have hnone : (allocated db query (normalizeAllocationOptions options)).filter
        (isAt clusterId namespaceUid bucketStart ∘ CostRow.scan) = [] := by
      refine List.filter_eq_nil_iff.mpr fun cost hcost hat => ?_
      obtain ⟨partners, hpartners, rfl⟩ := mem_groupBy.mp hcost
      rw [joined_eq h.unique, List.mem_filterMap] at hpartners
      obtain ⟨row, hrow, hjoin⟩ := hpartners
      obtain ⟨metric, hmetric, rfl⟩ := mem_usage.mp hrow
      simp only [Function.comp_apply, isAt, CostRow.scan, allocatedRow, Joined.namespaceHour,
        joinOf_usage hjoin, Bool.and_eq_true, decide_eq_true_eq] at hat
      exact h.notIdle metric hmetric (hat.1.2.trans hidle)
    rw [hnone, List.length_nil, Nat.zero_add]
    exact h.length_idle_at
  · have hnone : (idle db query (normalizeAllocationOptions options)).filter
        (isAt clusterId namespaceUid bucketStart ∘ CostRow.scan) = [] := by
      refine List.filter_eq_nil_iff.mpr fun cost hcost hat => hidle ?_
      obtain ⟨pair, -, rfl⟩ := mem_groupBy.mp hcost
      simp only [Function.comp_apply, isAt, CostRow.scan, idleRow, Bool.and_eq_true,
        decide_eq_true_eq] at hat
      exact hat.1.2.symm
    rw [hnone, List.length_nil, Nat.add_zero]
    exact h.length_allocated_at

end Sums

end Comparable

/-- **The query and the engine agree.** On comparable tables, for any options and any
order of the requests and of the engine's maps: each side has at most one row about a
namespace and an hour, and the figures of that row, or zeros where there is none, are
the same. -/
theorem namespaceCosts_eq_allocateCosts (h : Comparable db query) (options : AllocationOptions)
    {requests : List NodeNamespaceRequest} (hperm : requests.Perm (usageRequests db query))
    (nodes : Order ((_ : String) × UInt64)) (rows : Order NamespaceCost)
    {clusterId namespaceUid : String} (hc : NulFree clusterId) (hn : NulFree namespaceUid)
    (bucketStart : String) :
    ((namespaceCosts db query options).filter
      (isAt clusterId namespaceUid bucketStart)).length ≤ 1 ∧
    ((allocateCosts nodes rows requests options).filter
      (isAt clusterId namespaceUid bucketStart)).length ≤ 1 ∧
    sumAt figures clusterId namespaceUid bucketStart (namespaceCosts db query options) =
      sumAt figures clusterId namespaceUid bucketStart
        (allocateCosts nodes rows requests options) := by
  refine ⟨h.length_query_at, length_allocateCosts_at (h.ids_perm hperm) (tenant_perm hperm) hc hn, ?_⟩
  rw [h.sumAt_query hperm, h.sumAt_engine hperm hc hn]

/-! ### Two namespaces on one node -/

def plainTables : Tables where
  containerMetrics := plainMetrics
  currentNode := [plainNode]
  currentNamespace := []

theorem comparable_plainTables : Comparable plainTables plainQuery where
  tenant := by decide
  cluster := by decide
  node := by decide
  namespaceUid := by decide
  named := by decide
  notIdle := by decide
  oneNode := by decide
  oneNamespace := fun _ => Nat.zero_le 1
  requested := fun hour => by
    refine Nat.lt_of_le_of_lt ((List.filter_sublist.map _).sum_le_sum fun _ _ => Nat.zero_le _) ?_
    decide
  allocatable := by decide

theorem namespaceCosts_eq_allocateCosts_plainTables :
    sumAt figures "c" "a" "2026-01-01T00:00:00Z"
      (namespaceCosts plainTables plainQuery ⟨2, 1, 0⟩) = (900, 0, 1 / 4, 1 / 2, 0, 0, 1 / 3) := by
  rw [(namespaceCosts_eq_allocateCosts comparable_plainTables ⟨2, 1, 0⟩
    (List.Perm.refl (usageRequests plainTables plainQuery)) ⟨id, fun _ => .refl _⟩
    ⟨id, fun _ => .refl _⟩ (by decide) (by decide) _).2.2,
    sumAt_allocateCosts comparable_plainTables.ids (tenant_perm (.refl _)) (by decide) (by decide)
      (fun _ => rfl) (raises_figures _) (raises_figures_idle _)]
  decide +kernel

end Allocation
end KubeCost
