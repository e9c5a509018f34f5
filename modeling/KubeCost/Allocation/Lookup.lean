/-
# The row of a namespace and an hour

`allocateCosts` keeps its rows under the text of their tenant, cluster, namespace and
hour. With NUL-free ids the text determines them, so there is at most one row about a
namespace and an hour, and a measure of it sums over the requests and the node-hours
that were put there (`sum_filter_allocateCosts`). For requests of one tenant the tenant
need not be asked for (`length_allocateCosts_at`, `sumAt_allocateCosts`).
-/
import KubeCost.Allocation.Conservation

namespace KubeCost
namespace Allocation

open Keyed

variable {options : AllocationOptions} {requests : List NodeNamespaceRequest}
  {nodes : Order ((_ : String) × UInt64)} {rows : Order NamespaceCost}
  {tenantId clusterId namespaceUid bucketStart : String}

/-- The key that a row is kept under. -/
def rowKey (tenantId clusterId namespaceUid bucketStart : String) : String :=
  tenantId ++ "\x00" ++ (clusterId ++ "\x00" ++ (namespaceUid ++ "\x00" ++ bucketStart))

theorem rowKey_eq_iff {tenantId' clusterId' namespaceUid' bucketStart' : String} (ht : NulFree tenantId)
    (ht' : NulFree tenantId') (hc : NulFree clusterId) (hc' : NulFree clusterId')
    (hn : NulFree namespaceUid) (hn' : NulFree namespaceUid') :
    rowKey tenantId clusterId namespaceUid bucketStart =
        rowKey tenantId' clusterId' namespaceUid' bucketStart' ↔
      tenantId = tenantId' ∧ clusterId = clusterId' ∧ namespaceUid = namespaceUid' ∧
        bucketStart = bucketStart' := by
  constructor
  · intro h
    obtain ⟨h₁, h⟩ := joined_inj ht ht' h
    obtain ⟨h₂, h⟩ := joined_inj hc hc' h
    exact ⟨h₁, h₂, joined_inj hn hn' h⟩
  · rintro ⟨rfl, rfl, rfl, rfl⟩
    rfl

/-- The keys of one tenant. -/
theorem rowKey_inj {clusterId' namespaceUid' bucketStart' : String} (ht : NulFree tenantId)
    (hc : NulFree clusterId) (hc' : NulFree clusterId') (hn : NulFree namespaceUid)
    (hn' : NulFree namespaceUid') :
    rowKey tenantId clusterId namespaceUid bucketStart =
        rowKey tenantId clusterId' namespaceUid' bucketStart' ↔
      clusterId = clusterId' ∧ namespaceUid = namespaceUid' ∧ bucketStart = bucketStart' := by
  rw [rowKey_eq_iff ht ht hc hc' hn hn', eq_self_iff_true, true_and]

/-- The row is about the tenant, the namespace and the hour. -/
def isFor (tenantId clusterId namespaceUid bucketStart : String) (row : NamespaceCost) : Bool :=
  row.tenantId = tenantId && isAt clusterId namespaceUid bucketStart row

/-- A measure of the rows about a tenant's namespace and an hour. -/
def sumFor {M : Type*} [AddCommMonoid M] (g : NamespaceCost → M)
    (tenantId clusterId namespaceUid bucketStart : String) (rows : List NamespaceCost) : M :=
  ((rows.filter (isFor tenantId clusterId namespaceUid bucketStart)).map g).sum

/-- The row is kept under its own ids. -/
structure KeptAt (requests : List NodeNamespaceRequest) (k : String) (item : NamespaceCost) : Prop where
  key : k = rowKey item.tenantId item.clusterId item.namespaceUid item.bucketStart
  tenant : ∃ r ∈ requests, item.tenantId = r.tenantId
  cluster : NulFree item.clusterId
  ns : NulFree item.namespaceUid

/-- A node-hour of the totals has a first request. -/
theorem firstNodeRequest_some {e : (_ : String) × UInt64} (he : e ∈ (nodeTotals requests).entries) :
    ∃ r ∈ requests, firstNodeRequest e.1 requests = some r ∧ nodeBucketKey r = e.1 := by
  obtain ⟨r, hr, -, hk⟩ := mem_totalsBy.mp (entry_mem he)
  have hsome : (firstNodeRequest e.1 requests).isSome = true :=
    List.find?_isSome.mpr ⟨r, hr, decide_eq_true hk⟩
  obtain ⟨first, hfirst⟩ := Option.isSome_iff_exists.mp hsome
  exact ⟨first, List.mem_of_find?_eq_some hfirst, hfirst,
    of_decide_eq_true (List.find?_some (p := fun r => decide (nodeBucketKey r = e.1)) hfirst)⟩

theorem keptAt_byNamespace (hids : Ids requests) : ∀ k item,
    (byNamespace options nodes requests).lookup k = some item → KeptAt requests k item := by
  have hidle : NulFree idleNamespaceUID := by decide
  refine forall_collect (fun e he o ho => ?_) (forall_collect (fun r hr o ho => ?_) fun k a ha => ?_)
  · obtain ⟨r, hr, hfirst, -⟩ := firstNodeRequest_some ((nodes.perm _).mem_iff.mp he)
    cases o with
    | none =>
      refine ⟨?_, ⟨r, hr, ?_⟩, ?_, hidle⟩
      · rw [idleKey, hfirst]
        simp only [addIdle, Option.getD_none, hfirst, emptyIdleItem, Option.map_some,
          Option.getD_some, idleNamespaceBucketKey, rowKey]
      · simp only [addIdle, Option.getD_none, hfirst, emptyIdleItem, Option.map_some,
          Option.getD_some]
      · simp only [addIdle, Option.getD_none, hfirst, emptyIdleItem, Option.map_some,
          Option.getD_some]
        exact hids.cluster r hr
    | some item =>
      obtain ⟨hkey, ht, hc, hn⟩ := ho item rfl
      exact ⟨hkey, ht, hc, hn⟩
  · cases o with
    | none => exact ⟨rfl, ⟨r, hr, rfl⟩, hids.cluster r hr, hids.namespaceUid r hr⟩
    | some item =>
      obtain ⟨hkey, ht, hc, hn⟩ := ho item rfl
      exact ⟨hkey, ht, hc, hn⟩
  · rw [AList.lookup_empty] at ha
    cases ha

section Kept

variable {p : NamespaceCost → Bool} {k : String}
  (hp : ∀ k' item, KeptAt requests k' item → (p item = true ↔ k' = k))
  (hfinish : p ∘ finish = p) (hids : Ids requests)

include hp hfinish hids

/-- The rows a key stands for are what is kept under it. -/
theorem filter_allocateCosts : ((allocateCosts nodes rows requests options).filter p).Perm
    (((byNamespace (normalizeAllocationOptions options) nodes requests).lookup k).toList.map
      finish) := by
  have hvalues := filter_values (m := byNamespace (normalizeAllocationOptions options) nodes requests)
    fun k' item hitem => hp k' item (keptAt_byNamespace hids k' item hitem)
  rw [← hvalues, allocateCosts]
  refine ((List.mergeSort_perm _ _).filter _).trans ?_
  rw [List.filter_map, hfinish]
  exact ((rows.perm _).filter _).map _

/-- **A measure of the row sums over the requests and the node-hours of its key.** -/
theorem sum_filter_allocateCosts {M : Type*} [AddCommMonoid M] {g : NamespaceCost → M}
    {δ : NodeNamespaceRequest → M} {ε : (_ : String) × UInt64 → M}
    (hg : ∀ item, g (finish item) = g item)
    (hδ : ∀ r, Raises g (addRequest (normalizeAllocationOptions options) requests r) (δ r))
    (hε : ∀ e, Raises g (addIdle (normalizeAllocationOptions options) requests e) (ε e)) :
    (((allocateCosts nodes rows requests options).filter p).map g).sum =
      ((requests.filter fun r => charged requests r &&
        decide (namespaceBucketKey r = k)).map δ).sum +
      (((nodeTotals requests).entries.filter fun e => hasIdle requests e &&
        decide (idleKey requests e = k)).map ε).sum := by
  have hvalue : (((allocateCosts nodes rows requests options).filter p).map g).sum =
      valueAt g k (byNamespace (normalizeAllocationOptions options) nodes requests) := by
    rw [((filter_allocateCosts hp hfinish hids).map g).sum_eq, valueAt]
    cases (byNamespace _ nodes requests).lookup _ with
    | none => rfl
    | some item => simp [hg]
  rw [hvalue, byNamespace, valueAt_collect hε, namespaceRows, valueAt_collect hδ, valueAt_empty,
    zero_add]
  congr 1
  exact (((nodes.perm _).filter _).map ε).sum_eq

end Kept

theorem isFor_iff (hids : Ids requests) (ht : NulFree tenantId) (hc : NulFree clusterId)
    (hn : NulFree namespaceUid) (k : String) (item : NamespaceCost) (h : KeptAt requests k item) :
    isFor tenantId clusterId namespaceUid bucketStart item = true ↔
      k = rowKey tenantId clusterId namespaceUid bucketStart := by
  obtain ⟨rfl, ⟨r, hr, htenant⟩, hc', hn'⟩ := h
  rw [rowKey_eq_iff (htenant ▸ hids.tenant r hr) ht hc' hc hn' hn]
  simp only [isFor, isAt, Bool.and_eq_true, decide_eq_true_eq, and_assoc]

/-! ### Requests of one tenant -/

section At

variable (hids : Ids requests) (htenant : ∀ r ∈ requests, r.tenantId = tenantId)
  (hc : NulFree clusterId) (hn : NulFree namespaceUid)

include hids htenant hc hn

theorem isAt_iff (k : String) (item : NamespaceCost) (h : KeptAt requests k item) :
    isAt clusterId namespaceUid bucketStart item = true ↔
      k = rowKey tenantId clusterId namespaceUid bucketStart := by
  obtain ⟨r, hr, hitem⟩ := h.tenant
  rw [← htenant r hr, ← isFor_iff hids (hids.tenant r hr) hc hn k item h, isFor, hitem,
    decide_eq_true rfl, Bool.true_and]

theorem length_allocateCosts_at : ((allocateCosts nodes rows requests options).filter
    (isAt clusterId namespaceUid bucketStart)).length ≤ 1 := by
  rw [(filter_allocateCosts (isAt_iff hids htenant hc hn) rfl hids).length_eq, List.length_map]
  cases (byNamespace _ nodes requests).lookup _ <;> simp

theorem sumAt_allocateCosts {M : Type*} [AddCommMonoid M] {g : NamespaceCost → M}
    {δ : NodeNamespaceRequest → M} {ε : (_ : String) × UInt64 → M}
    (hg : ∀ item, g (finish item) = g item)
    (hδ : ∀ r, Raises g (addRequest (normalizeAllocationOptions options) requests r) (δ r))
    (hε : ∀ e, Raises g (addIdle (normalizeAllocationOptions options) requests e) (ε e)) :
    sumAt g clusterId namespaceUid bucketStart (allocateCosts nodes rows requests options) =
      ((requests.filter fun r => charged requests r && decide (namespaceBucketKey r =
        rowKey tenantId clusterId namespaceUid bucketStart)).map δ).sum +
      (((nodeTotals requests).entries.filter fun e => hasIdle requests e &&
        decide (idleKey requests e = rowKey tenantId clusterId namespaceUid bucketStart)).map
          ε).sum :=
  sum_filter_allocateCosts (isAt_iff hids htenant hc hn) rfl hids hg hδ hε

end At

end Allocation
end KubeCost
