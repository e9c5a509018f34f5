/-
# Usage as requests

The rows of `usage` are the requests that the engine would see (`usageRequest`). On
tables in which the selected usage names known nodes and no total wraps around
(`Comparable`), the engine's totals and denominators are the rows that the query
joins: `read_nodeTotals`, `read_clusterTotals`, `float64_denominator`.
-/
import KubeCost.Allocation.Conservation
import KubeCost.Allocation.Rows

namespace KubeCost
namespace Allocation

open Keyed Relational Inventory

/-- The request that a row of `usage` stands for. -/
def usageRequest (db : Tables) (row : Usage) : NodeNamespaceRequest where
  tenantId := row.tenantId
  clusterId := row.clusterId
  nodeUid := row.nodeUid
  namespaceUid := row.namespaceUid
  namespaceName := ((namespaceOf db row).map (·.columns.namespaceName)).getD ""
  bucketStart := row.bucketStart
  cpuRequestCoreMilliseconds := row.cpuRequestCoreMilliseconds
  networkBytes := row.networkBytes
  nodeAllocatableMillicores := ((nodeOf db row).map (·.columns.allocatableCpuMillicores)).getD 0

/-- One request for each group of the selected usage. -/
def usageRequests (db : Tables) (query : Query) : List NodeNamespaceRequest :=
  (usage db query).map (usageRequest db)

def ContainerMetric.clusterHour (row : ContainerMetric) : ClusterHour :=
  ⟨row.tenantId, row.clusterId, row.bucketStart.startOfHour⟩

/-- The contents of the tables that the query and the engine are compared on. A
total of the CPU requests is a sum over part of a cluster-hour; the CPU that a node of
a selected row can allocate in an hour is a `uint64` in the engine. -/
structure Comparable (db : Tables) (query : Query) : Prop where
  tenant : ∀ row ∈ selected db query, NulFree row.tenantId
  cluster : ∀ row ∈ selected db query, NulFree row.clusterId
  node : ∀ row ∈ selected db query, NulFree row.nodeUid
  namespaceUid : ∀ row ∈ selected db query, NulFree row.namespaceUid
  named : ∀ row ∈ selected db query, row.nodeUid ≠ ""
  notIdle : ∀ row ∈ selected db query, row.namespaceUid ≠ idleNamespaceUID
  oneNode : ∀ row ∈ selected db query,
    (db.currentNode.filter (onNode row.tenantId row.clusterId row.nodeUid)).length = 1
  oneNamespace : ∀ object, (db.currentNamespace.filter fun ns => ns.object = object).length ≤ 1
  requested : ∀ hour, (((selected db query).filter fun row => row.clusterHour = hour).map
    (·.cpuRequestCoreMilliseconds.toNat)).sum < 2 ^ 64
  allocatable : ∀ row ∈ selected db query, ∀ node ∈ db.currentNode,
    onNode row.tenantId row.clusterId row.nodeUid node = true →
      node.columns.allocatableCpuMillicores.toNat * 3600 < 2 ^ 64

variable {db : Tables} {query : Query} {options : AllocationOptions} {row row' : Usage}

/-! ### Rows of `usage` -/

/-- Hours with one text are one hour. -/
theorem bucketStart_eq (hrow : row ∈ usage db query) (hrow' : row' ∈ usage db query)
    (h : row.bucketStart.rfc3339 = row'.bucketStart.rfc3339) : row.bucketStart = row'.bucketStart := by
  rw [← startOfHour_usage hrow'] at h ⊢
  exact bucketStart_of_text hrow h

theorem float64_maxUint64 (a b : UInt64) :
    float64 (maxUint64 a b) = max (float64 a) (float64 b) := by
  rw [maxUint64]
  split
  · rename_i hlt
    rw [max_eq_left]
    exact Nat.cast_le.mpr (UInt64.lt_iff_toNat_lt.mp hlt).le
  · rename_i hle
    rw [max_eq_right]
    exact Nat.cast_le.mpr (UInt64.le_iff_toNat_le.mp (UInt64.not_lt.mp hle))

namespace Comparable

/-- A group of the metrics lies within its cluster-hour, so its total does not wrap. -/
theorem toNat_metricsOf (h : Comparable db query) (key : UsageKey) :
    ((metricsOf db query key).map ContainerMetric.cpuRequestCoreMilliseconds).sum.toNat =
      ((metricsOf db query key).map (·.cpuRequestCoreMilliseconds.toNat)).sum := by
  have hlt : ((metricsOf db query key).map (·.cpuRequestCoreMilliseconds.toNat)).sum < 2 ^ 64 := by
    refine Nat.lt_of_le_of_lt ?_ (h.requested ⟨key.tenantId, key.clusterId, key.bucketStart⟩)
    refine ((List.monotone_filter_right _ fun row hrow => ?_).map _).sum_le_sum
      fun _ _ => Nat.zero_le _
    rw [decide_eq_true_eq] at hrow ⊢
    rw [← hrow]
    rfl
  rw [toNat_sum (by rw [List.map_map]; exact hlt), List.map_map]
  rfl

/-- The requests of a cluster-hour, and of a node-hour, do not wrap in `usage` either. -/
theorem clusterHour_lt (h : Comparable db query) (hour : ClusterHour) :
    ((usageOfCluster db query hour).map (·.cpuRequestCoreMilliseconds.toNat)).sum < 2 ^ 64 := by
  have hsum : ((usageOfCluster db query hour).map (·.cpuRequestCoreMilliseconds.toNat)).sum =
      (((selected db query).filter fun row => row.clusterHour = hour).map
        (·.cpuRequestCoreMilliseconds.toNat)).sum :=
    sum_groupBy (q := fun key => (⟨key.tenantId, key.clusterId, key.bucketStart⟩ : ClusterHour) =
      hour) (fun _ _ => rfl) fun key _ => h.toNat_metricsOf key
  rw [hsum]
  exact h.requested hour

theorem nodeHour_lt (h : Comparable db query) (hour : NodeHour) :
    ((usageOfNode db query hour).map (·.cpuRequestCoreMilliseconds.toNat)).sum < 2 ^ 64 := by
  have hwithin : usageOfNode db query hour = (usageOfCluster db query
      ⟨hour.tenantId, hour.clusterId, hour.bucketStart⟩).filter fun row => row.nodeHour = hour := by
    rw [usageOfNode, usageOfCluster, List.filter_filter]
    refine List.filter_congr fun row hrow => ?_
    rw [← Bool.decide_and, decide_eq_decide, iff_self_and]
    rintro rfl
    rw [Usage.clusterHour, Usage.nodeHour, startOfHour_usage hrow]
  rw [hwithin]
  exact Nat.lt_of_le_of_lt ((List.filter_sublist.map _).sum_le_sum fun _ _ => Nat.zero_le _)
    (h.clusterHour_lt _)

theorem cpu_pos (h : Comparable db query) (hrow : row ∈ usage db query) :
    0 < row.cpuRequestCoreMilliseconds.toNat := by
  obtain ⟨metric, hmetric, rfl⟩ := mem_usage.mp hrow
  have hpos : 0 < metric.cpuRequestCoreMilliseconds.toNat := by
    have hwhere := (List.mem_filter.mp hmetric).2
    simp only [metricWhere, Bool.and_eq_true, decide_eq_true_eq] at hwhere
    exact UInt64.lt_iff_toNat_lt.mp hwhere.1.2
  rw [h.toNat_metricsOf]
  refine Nat.lt_of_lt_of_le hpos (List.single_le_sum (fun _ _ => Nat.zero_le _) _ ?_)
  exact List.mem_map_of_mem (f := fun row : ContainerMetric => row.cpuRequestCoreMilliseconds.toNat)
    (List.mem_filter.mpr ⟨hmetric, decide_eq_true rfl⟩)

theorem ids (h : Comparable db query) : Ids (usageRequests db query) := by
  refine ⟨fun r hr => ?_, fun r hr => ?_, fun r hr => ?_, fun r hr => ?_⟩ <;>
    obtain ⟨row, hrow, rfl⟩ := List.mem_map.mp hr <;>
    obtain ⟨metric, hmetric, rfl⟩ := mem_usage.mp hrow
  · exact h.tenant metric hmetric
  · exact h.cluster metric hmetric
  · exact h.node metric hmetric
  · exact h.namespaceUid metric hmetric

theorem ids_perm {requests : List NodeNamespaceRequest} (h : Comparable db query)
    (hperm : requests.Perm (usageRequests db query)) : Ids requests :=
  h.ids.perm hperm.symm

theorem counted (h : Comparable db query) (hrow : row ∈ usage db query) :
    Allocation.counted (usageRequest db row) = true := by
  have hpos := h.cpu_pos hrow
  have hnode : row.nodeUid ≠ "" := by
    obtain ⟨metric, hmetric, rfl⟩ := mem_usage.mp hrow
    exact h.named metric hmetric
  have hcpu : row.cpuRequestCoreMilliseconds ≠ 0 := by
    intro h0
    rw [h0] at hpos
    exact absurd hpos (by decide)
  simp only [Allocation.counted, usageRequest, hnode, hcpu, decide_false, Bool.or_false,
    Bool.not_false]

theorem unique (h : Comparable db query) : Unique db query := by
  refine ⟨fun row hrow => ?_, fun row _ => ?_⟩
  · obtain ⟨metric, hmetric, rfl⟩ := mem_usage.mp hrow
    exact Nat.le_of_eq (h.oneNode metric hmetric)
  · refine Nat.le_trans (Nat.le_of_eq ?_)
      (h.oneNamespace (row.tenantId, row.clusterId, row.namespaceUid))
    congr 1
    exact List.filter_congr fun ns _ => onNamespace_eq row ns

theorem nodeOf_some (h : Comparable db query) (hrow : row ∈ usage db query) :
    ∃ node ∈ db.currentNode, nodeOf db row = some node := by
  have hone : (db.currentNode.filter (onNode row.tenantId row.clusterId row.nodeUid)).length = 1 := by
    obtain ⟨metric, hmetric, rfl⟩ := mem_usage.mp hrow
    exact h.oneNode metric hmetric
  obtain ⟨node, hnode⟩ := List.length_eq_one_iff.mp hone
  have hmem : node ∈ db.currentNode.filter (onNode row.tenantId row.clusterId row.nodeUid) := by
    rw [hnode]
    exact List.mem_singleton_self node
  refine ⟨node, (List.mem_filter.mp hmem).1, ?_⟩
  rw [nodeOf, ← List.head?_filter, hnode]
  rfl

/-! ### Keys and totals -/

theorem nodeKey_iff (h : Comparable db query) (hrow : row ∈ usage db query)
    (hrow' : row' ∈ usage db query) :
    nodeBucketKey (usageRequest db row) = nodeBucketKey (usageRequest db row') ↔
      row.nodeHour = row'.nodeHour := by
  rw [nodeBucketKey_inj h.ids (List.mem_map_of_mem hrow) (List.mem_map_of_mem hrow')]
  simp only [nodeFields, usageRequest, Usage.nodeHour, Prod.mk.injEq, NodeHour.mk.injEq,
    startOfHour_usage hrow, startOfHour_usage hrow']
  constructor
  · rintro ⟨h₁, h₂, h₃, h₄⟩
    exact ⟨h₁, h₂, h₃, bucketStart_eq hrow hrow' h₄⟩
  · rintro ⟨h₁, h₂, h₃, h₄⟩
    exact ⟨h₁, h₂, h₃, by rw [h₄]⟩

theorem clusterKey_iff (h : Comparable db query) (hrow : row ∈ usage db query)
    (hrow' : row' ∈ usage db query) :
    clusterBucketKey (usageRequest db row) = clusterBucketKey (usageRequest db row') ↔
      row.clusterHour = row'.clusterHour := by
  rw [clusterBucketKey_inj h.ids (List.mem_map_of_mem hrow) (List.mem_map_of_mem hrow')]
  simp only [clusterFields, usageRequest, Usage.clusterHour, Prod.mk.injEq, ClusterHour.mk.injEq]
  constructor
  · rintro ⟨h₁, h₂, h₃⟩
    exact ⟨h₁, h₂, bucketStart_eq hrow hrow' h₃⟩
  · rintro ⟨h₁, h₂, h₃⟩
    exact ⟨h₁, h₂, by rw [h₃]⟩

section Requests

variable {requests : List NodeNamespaceRequest} {key : NodeNamespaceRequest → String}

/-- The CPU requests that the engine counts at a key are those of a part of `usage`. -/
theorem cpuAt_perm {κ : Type*} [DecidableEq κ] (h : Comparable db query)
    (hperm : requests.Perm (usageRequests db query)) {part : Usage → κ}
    (hpart : ∀ other ∈ usage db query,
      key (usageRequest db other) = key (usageRequest db row) ↔ part other = part row) :
    (cpuAt key requests (key (usageRequest db row))).Perm
      (((usage db query).filter fun other => part other = part row).map
        (·.cpuRequestCoreMilliseconds)) := by
  have hmap : cpuAt key (usageRequests db query) (key (usageRequest db row)) =
      ((usage db query).filter fun other => part other = part row).map
        (·.cpuRequestCoreMilliseconds) := by
    rw [cpuAt, usageRequests, List.filter_map, List.map_map]
    congr 1
    refine List.filter_congr fun other hother => ?_
    rw [Function.comp_apply, h.counted hother, Bool.true_and, decide_eq_decide]
    exact hpart other hother
  rw [← hmap]
  exact (hperm.filter _).map _

theorem read_nodeTotals (h : Comparable db query) (hperm : requests.Perm (usageRequests db query))
    (hrow : row ∈ usage db query) :
    read (nodeTotals requests) (nodeBucketKey (usageRequest db row)) =
      nodeTotal db query row.nodeHour := by
  rw [nodeTotals, read_totalsBy]
  exact (h.cpuAt_perm hperm fun other hother => h.nodeKey_iff hother hrow).sum_eq

theorem read_clusterTotals (h : Comparable db query)
    (hperm : requests.Perm (usageRequests db query)) (hrow : row ∈ usage db query) :
    read (clusterTotals requests) (clusterBucketKey (usageRequest db row)) =
      clusterTotal db query row.clusterHour := by
  rw [clusterTotals, read_totalsBy]
  exact (h.cpuAt_perm hperm fun other hother => h.clusterKey_iff hother hrow).sum_eq

/-- No total of the engine wraps when no part of `usage` does. -/
theorem noWrap {κ : Type*} [DecidableEq κ] (h : Comparable db query)
    (hperm : requests.Perm (usageRequests db query)) {part : Usage → κ}
    (hpart : ∀ row ∈ usage db query, ∀ other ∈ usage db query,
      key (usageRequest db other) = key (usageRequest db row) ↔ part other = part row)
    (hlt : ∀ row ∈ usage db query, (((usage db query).filter fun other => part other = part row).map
      (·.cpuRequestCoreMilliseconds.toNat)).sum < 2 ^ 64) : NoWrap key requests := by
  intro k
  by_cases hk : ∃ row ∈ usage db query, key (usageRequest db row) = k
  · obtain ⟨row, hrow, rfl⟩ := hk
    rw [((h.cpuAt_perm hperm (hpart row hrow)).map UInt64.toNat).sum_eq, List.map_map]
    exact hlt row hrow
  · have hnone : cpuAt key requests k = [] := by
      rw [cpuAt, List.filter_eq_nil_iff.mpr fun r hr hkey => hk ?_, List.map_nil]
      obtain ⟨row, hrow, rfl⟩ := List.mem_map.mp (hperm.mem_iff.mp hr)
      exact ⟨row, hrow, of_decide_eq_true (Bool.and_eq_true_iff.mp hkey).2⟩
    rw [hnone]
    exact Nat.two_pow_pos 64

theorem noWrap_node (h : Comparable db query) (hperm : requests.Perm (usageRequests db query)) :
    NoWrap nodeBucketKey requests :=
  h.noWrap hperm (fun _ hrow _ hother => h.nodeKey_iff hother hrow) fun _ _ => h.nodeHour_lt _

theorem total_pos {l : List Usage} (h : Comparable db query) (hmem : row ∈ l)
    (hrow : row ∈ usage db query)
    (hlt : (l.map (·.cpuRequestCoreMilliseconds.toNat)).sum < 2 ^ 64) :
    (l.map (·.cpuRequestCoreMilliseconds)).sum > 0 := by
  refine UInt64.lt_iff_toNat_lt.mpr ?_
  rw [toNat_sum (by rw [List.map_map]; exact hlt), List.map_map]
  exact Nat.lt_of_lt_of_le (h.cpu_pos hrow) (List.single_le_sum (fun _ _ => Nat.zero_le _) _
    (List.mem_map_of_mem (f := fun row : Usage => row.cpuRequestCoreMilliseconds.toNat) hmem))

theorem nodeTotal_pos (h : Comparable db query) (hrow : row ∈ usage db query) :
    nodeTotal db query row.nodeHour > 0 :=
  h.total_pos (List.mem_filter.mpr ⟨hrow, decide_eq_true rfl⟩) hrow (h.nodeHour_lt _)

theorem clusterTotal_pos (h : Comparable db query) (hrow : row ∈ usage db query) :
    clusterTotal db query row.clusterHour > 0 :=
  h.total_pos (List.mem_filter.mpr ⟨hrow, decide_eq_true rfl⟩) hrow (h.clusterHour_lt _)

/-- Both sides know the same CPU of a node. -/
theorem read_nodeAllocatable (h : Comparable db query)
    (hperm : requests.Perm (usageRequests db query)) (hrow : row ∈ usage db query) :
    read (nodeAllocatable requests) (nodeBucketKey (usageRequest db row)) =
      (usageRequest db row).nodeAllocatableMillicores * 3600 := by
  have hmem : nodeBucketKey (usageRequest db row) ∈ nodeAllocatable requests :=
    mem_collect.mpr (.inr ⟨_, hperm.mem_iff.mpr (List.mem_map_of_mem hrow), h.counted hrow, rfl⟩)
  obtain ⟨a, ha⟩ := Option.isSome_iff_exists.mp (AList.lookup_isSome.mpr hmem)
  -- the requests of a node-hour agree, so the maximum is what each of them says
  have hall : ∀ k a, (nodeAllocatable requests).lookup k = some a → ∀ row ∈ usage db query,
      nodeBucketKey (usageRequest db row) = k →
      a = (usageRequest db row).nodeAllocatableMillicores * 3600 := by
    refine forall_collect (fun r hr o ho row hrow hkey => ?_) fun k a ha => ?_
    · obtain ⟨other, hother, rfl⟩ := List.mem_map.mp (hperm.mem_iff.mp hr)
      have hsame : (usageRequest db other).nodeAllocatableMillicores =
          (usageRequest db row).nodeAllocatableMillicores := by
        have hnode := (h.nodeKey_iff hrow hother).mp hkey
        simp only [Usage.nodeHour, NodeHour.mk.injEq] at hnode
        simp only [usageRequest, nodeOf, hnode]
      rw [hsame]
      cases o with
      | none =>
        show (if (usageRequest db row).nodeAllocatableMillicores * 3600 > 0 then
          (usageRequest db row).nodeAllocatableMillicores * 3600 else 0) = _
        split
        · rfl
        · rename_i hle
          exact (UInt64.le_zero_iff.mp (UInt64.not_lt.mp hle)).symm
      | some a =>
        rw [Option.getD_some, ho a rfl row hrow hkey, ite_self]
    · rw [AList.lookup_empty] at ha
      cases ha
  rw [read, ha, hall _ a ha row hrow rfl]
  rfl

theorem float64_denominator (h : Comparable db query)
    (hperm : requests.Perm (usageRequests db query)) (hrow : row ∈ usage db query) {node : Node}
    (hnode : nodeOf db row = some node) :
    float64 (denominator requests (nodeBucketKey (usageRequest db row))) =
      greatestCapacity node ⟨row.nodeHour, nodeTotal db query row.nodeHour⟩ := by
  have hmem : node ∈ db.currentNode := List.mem_of_find?_eq_some hnode
  have hproduct : float64 (node.columns.allocatableCpuMillicores * 3600) =
      float64 node.columns.allocatableCpuMillicores * 3600 := by
    have hlt : node.columns.allocatableCpuMillicores.toNat * 3600 < 2 ^ 64 := by
      obtain ⟨metric, hmetric, rfl⟩ := mem_usage.mp hrow
      exact h.allocatable metric hmetric node hmem (List.find?_some hnode)
    rw [float64, UInt64.toNat_mul, float64]
    show (((_ * 3600) % 2 ^ 64 : ℕ) : ℚ) = _
    rw [Nat.mod_eq_of_lt hlt, Nat.cast_mul]
    rfl
  have hallocatable : (usageRequest db row).nodeAllocatableMillicores =
      node.columns.allocatableCpuMillicores := by
    rw [usageRequest, hnode]
    rfl
  rw [denominator, h.read_nodeTotals hperm hrow, h.read_nodeAllocatable hperm hrow, hallocatable,
    float64_maxUint64, hproduct, greatestCapacity, max_comm]

end Requests

end Comparable

end Allocation
end KubeCost
