/-
# The rows do not depend on an order

`allocateCosts` reads the requests one after the other, takes the first request of a
node for the ids of its idle row, and visits two maps in whatever order Go gives. With
NUL-free ids, one tenant, and one name for each namespace and hour, none of this shows
in the result: what two requests of one key add commutes, so the maps have the same
lookups (`lookup_byNamespace_perm`), and the rows are sorted by a rank that no two of
them share (`sorted_allocateCosts`).

Sums of `uint64` commute also where they wrap, so no bound on the requests is asked for.
-/
import Mathlib.Data.Prod.Lex
import Mathlib.Data.String.Basic
import KubeCost.Allocation.Lookup

namespace KubeCost
namespace Allocation

open Keyed

/-- Requests of one tenant with NUL-free ids; a namespace has one name in an hour. The
hour of a request is the text that its row shows. -/
structure Regular (tenantId : String) (requests : List NodeNamespaceRequest) : Prop where
  ids : Ids requests
  tenant : ∀ r ∈ requests, r.tenantId = tenantId
  name : ∀ r ∈ requests, ∀ r' ∈ requests, r.clusterId = r'.clusterId →
    r.namespaceUid = r'.namespaceUid → r.bucketStart.rfc3339 = r'.bucketStart.rfc3339 →
    r.namespaceName = r'.namespaceName

variable {tenantId : String} {options : AllocationOptions}
  {requests requests' : List NodeNamespaceRequest}
  {nodes nodes' : Order ((_ : String) × UInt64)} {rows rows' : Order NamespaceCost}

theorem Regular.perm (h : Regular tenantId requests) (hperm : requests.Perm requests') :
    Regular tenantId requests' where
  ids := h.ids.perm hperm
  tenant r hr := h.tenant r (hperm.mem_iff.mpr hr)
  name r hr r' hr' := h.name r (hperm.mem_iff.mpr hr) r' (hperm.mem_iff.mpr hr')

/-! ### The totals -/

theorem lookup_totalsBy_perm (hperm : requests.Perm requests') (key : NodeNamespaceRequest → String)
    (k : String) : (totalsBy key requests).lookup k = (totalsBy key requests').lookup k := by
  refine lookup_collect_perm hperm (fun x _ y _ _ o => ?_) (fun _ => rfl) k
  show o.getD 0 + _ + _ = o.getD 0 + _ + _
  exact add_right_comm _ _ _

theorem maxUint64_left_comm (a b c : UInt64) :
    maxUint64 a (maxUint64 b c) = maxUint64 b (maxUint64 a c) := by
  unfold maxUint64
  rw [← UInt64.toNat_inj]
  simp only [gt_iff_lt, UInt64.lt_iff_toNat_lt]
  split_ifs <;> omega

theorem lookup_nodeAllocatable_perm (hperm : requests.Perm requests') (k : String) :
    (nodeAllocatable requests).lookup k = (nodeAllocatable requests').lookup k :=
  lookup_collect_perm hperm (fun _ _ _ _ _ _ => maxUint64_left_comm _ _ _) (fun _ => rfl) k

theorem denominator_perm (hperm : requests.Perm requests') :
    denominator requests = denominator requests' := by
  funext k
  simp only [denominator, read, nodeTotals, lookup_totalsBy_perm hperm,
    lookup_nodeAllocatable_perm hperm]

theorem charged_perm (hperm : requests.Perm requests') : charged requests = charged requests' := by
  funext r
  simp only [charged, denominator_perm hperm]

theorem hasIdle_perm (hperm : requests.Perm requests') : hasIdle requests = hasIdle requests' := by
  funext e
  simp only [hasIdle, denominator_perm hperm]

theorem controlPlaneWeight_perm (hperm : requests.Perm requests') :
    controlPlaneWeight requests = controlPlaneWeight requests' := by
  funext r
  unfold controlPlaneWeight clusterTotals read
  rw [lookup_totalsBy_perm hperm]

theorem addRequest_perm (hperm : requests.Perm requests') :
    addRequest options requests = addRequest options requests' := by
  funext r o
  unfold addRequest nodeWeight
  rw [denominator_perm hperm, controlPlaneWeight_perm hperm]

theorem entries_nodeTotals_perm (hperm : requests.Perm requests') :
    (nodeTotals requests).entries.Perm (nodeTotals requests').entries :=
  entries_perm_of_lookup (lookup_totalsBy_perm hperm nodeBucketKey)

/-! ### The rows of the requests -/

/-- Two requests that start from the same row may change places. -/
theorem addRequest_comm {x y : NodeNamespaceRequest} (h : emptyItem x = emptyItem y)
    (o : Option NamespaceCost) :
    addRequest options requests y (some (addRequest options requests x o)) =
      addRequest options requests x (some (addRequest options requests y o)) := by
  simp only [addRequest, Option.getD_some, h]
  generalize o.getD (emptyItem y) = item
  simp only [NamespaceCost.mk.injEq, true_and, and_true]
  refine ⟨add_right_comm _ _ _, add_right_comm _ _ _, add_right_comm _ _ _, add_right_comm _ _ _,
    add_right_comm _ _ _, add_right_comm _ _ _, ?_, add_right_comm _ _ _⟩
  split_ifs
  · exact add_right_comm _ _ _
  · rfl
  · rfl
  · rfl

theorem Regular.emptyItem_eq (h : Regular tenantId requests) {x y : NodeNamespaceRequest}
    (hx : x ∈ requests) (hy : y ∈ requests) (hk : namespaceBucketKey x = namespaceBucketKey y) :
    emptyItem x = emptyItem y := by
  obtain ⟨ht, hc, hn, hb⟩ := (rowKey_eq_iff (h.ids.tenant x hx) (h.ids.tenant y hy)
    (h.ids.cluster x hx) (h.ids.cluster y hy) (h.ids.namespaceUid x hx)
    (h.ids.namespaceUid y hy)).mp hk
  simp only [emptyItem, ht, hc, hn, hb, h.name x hx y hy hc hn hb]

theorem Regular.lookup_namespaceRows_perm (h : Regular tenantId requests)
    (hperm : requests.Perm requests') (k : String) :
    (namespaceRows options requests).lookup k = (namespaceRows options requests').lookup k := by
  unfold namespaceRows
  rw [← charged_perm hperm, ← addRequest_perm hperm]
  exact lookup_collect_perm hperm
    (fun x hx y hy hk => addRequest_comm (h.emptyItem_eq hx hy hk)) (fun _ => rfl) k

/-! ### The idle rows -/

/-- The ids of a node's idle row are those of any of its requests. -/
theorem emptyIdleItem_eq (hids : Ids requests) {e : (_ : String) × UInt64}
    (he : e ∈ (nodeTotals requests).entries) {r : NodeNamespaceRequest} (hr : r ∈ requests)
    (hk : nodeBucketKey r = e.1) :
    emptyIdleItem (firstNodeRequest e.1 requests) = emptyIdleItem (some r) ∧
      idleKey requests e = idleNamespaceBucketKey r := by
  obtain ⟨first, hmem, hfirst, hkey⟩ := firstNodeRequest_some he
  have hfields := (nodeBucketKey_inj hids hmem hr).mp (hkey.trans hk.symm)
  simp only [nodeFields, Prod.mk.injEq] at hfields
  obtain ⟨ht, hc, -, hb⟩ := hfields
  rw [idleKey, hfirst]
  simp only [emptyIdleItem, idleNamespaceBucketKey, Option.map_some, Option.getD_some, ht, hc, hb,
    and_self]

/-- A node of the totals shows the same idle row in any order of the requests. -/
theorem idleRow_perm (hids : Ids requests) (hperm : requests.Perm requests')
    {e : (_ : String) × UInt64} (he : e ∈ (nodeTotals requests).entries) :
    emptyIdleItem (firstNodeRequest e.1 requests) = emptyIdleItem (firstNodeRequest e.1 requests') ∧
      idleKey requests e = idleKey requests' e := by
  obtain ⟨r, hr, -, hk⟩ := firstNodeRequest_some he
  obtain ⟨hitem, hkey⟩ := emptyIdleItem_eq hids he hr hk
  obtain ⟨hitem', hkey'⟩ := emptyIdleItem_eq (hids.perm hperm)
    ((entries_nodeTotals_perm hperm).mem_iff.mp he) (hperm.mem_iff.mp hr) hk
  exact ⟨hitem.trans hitem'.symm, hkey.trans hkey'.symm⟩

theorem addIdle_perm (hids : Ids requests) (hperm : requests.Perm requests')
    {e : (_ : String) × UInt64} (he : e ∈ (nodeTotals requests).entries) :
    addIdle options requests e = addIdle options requests' e := by
  funext o
  unfold addIdle idleCost
  rw [(idleRow_perm hids hperm he).1, denominator_perm hperm]

/-- Two nodes whose idle cost goes to one row show the same idle row. -/
theorem emptyIdleItem_of_idleKey (hids : Ids requests) {e e' : (_ : String) × UInt64}
    (he : e ∈ (nodeTotals requests).entries) (he' : e' ∈ (nodeTotals requests).entries)
    (hk : idleKey requests e = idleKey requests e') :
    emptyIdleItem (firstNodeRequest e.1 requests) =
      emptyIdleItem (firstNodeRequest e'.1 requests) := by
  obtain ⟨r, hr, -, hr₁⟩ := firstNodeRequest_some he
  obtain ⟨r', hr', -, hr₁'⟩ := firstNodeRequest_some he'
  obtain ⟨hitem, hkey⟩ := emptyIdleItem_eq hids he hr hr₁
  obtain ⟨hitem', hkey'⟩ := emptyIdleItem_eq hids he' hr' hr₁'
  have hidle : NulFree idleNamespaceUID := by decide
  obtain ⟨ht, hc, -, hb⟩ := (rowKey_eq_iff (hids.tenant r hr) (hids.tenant r' hr')
    (hids.cluster r hr) (hids.cluster r' hr') hidle hidle).mp (hkey.symm.trans (hk.trans hkey'))
  rw [hitem, hitem']
  simp only [emptyIdleItem, Option.map_some, Option.getD_some, ht, hc, hb]

/-- Two nodes that start from the same row may change places. -/
theorem addIdle_comm {e e' : (_ : String) × UInt64}
    (h : emptyIdleItem (firstNodeRequest e.1 requests) =
      emptyIdleItem (firstNodeRequest e'.1 requests)) (o : Option NamespaceCost) :
    addIdle options requests e' (some (addIdle options requests e o)) =
      addIdle options requests e (some (addIdle options requests e' o)) := by
  simp only [addIdle, Option.getD_some, h, add_right_comm]

/-- **The map of rows does not depend on an order.** -/
theorem Regular.lookup_byNamespace_perm (h : Regular tenantId requests)
    (hperm : requests.Perm requests') (k : String) :
    (byNamespace options nodes requests).lookup k =
      (byNamespace options nodes' requests').lookup k := by
  have hvisit : ∀ e ∈ nodes.visit (nodeTotals requests).entries, e ∈ (nodeTotals requests).entries :=
    fun e he => (nodes.perm _).mem_iff.mp he
  have hentries : (nodes.visit (nodeTotals requests).entries).Perm
      (nodes'.visit (nodeTotals requests').entries) :=
    (nodes.perm _).trans ((entries_nodeTotals_perm hperm).trans (nodes'.perm _).symm)
  have hbodies : byNamespace options nodes' requests' =
      collect (hasIdle requests) (idleKey requests) (addIdle options requests)
        (nodes'.visit (nodeTotals requests').entries) (namespaceRows options requests') := by
    unfold byNamespace
    refine collect_congr (fun e _ => ?_) (fun e he => ?_) (fun e he => ?_) _
    · rw [hasIdle_perm hperm]
    · exact (idleRow_perm h.ids hperm (hvisit e (hentries.mem_iff.mpr he))).2.symm
    · exact (addIdle_perm h.ids hperm (hvisit e (hentries.mem_iff.mpr he))).symm
  rw [hbodies]
  exact lookup_collect_perm hentries
    (fun e he e' he' hk => addIdle_comm
      (emptyIdleItem_of_idleKey h.ids (hvisit e he) (hvisit e' he') hk))
    (h.lookup_namespaceRows_perm hperm) k

/-! ### The sort -/

/-- What `less` compares. -/
def rank (row : NamespaceCost) : String ×ₗ String ×ₗ String :=
  toLex (row.bucketStart, toLex (row.clusterId, row.namespaceUid))

theorem less_iff {a b : NamespaceCost} : less a b = true ↔ rank a < rank b := by
  unfold less rank
  rw [Prod.Lex.toLex_lt_toLex, Prod.Lex.toLex_lt_toLex]
  by_cases hb : a.bucketStart = b.bucketStart
  · by_cases hc : a.clusterId = b.clusterId
    · simp [hb, hc]
    · simp [hb, hc]
  · simp [hb]

theorem pairwise_mergeSort_rank (l : List NamespaceCost) :
    (l.mergeSort fun a b => !less b a).Pairwise fun a b => rank a ≤ rank b := by
  have hle : ∀ a b, (!less b a) = true ↔ rank a ≤ rank b := fun a b => by
    rw [Bool.not_eq_true', ← not_lt, ← less_iff, Bool.not_eq_true]
  refine (List.pairwise_mergeSort (fun a b c hab hbc => ?_) (fun a b => ?_) l).imp (hle _ _).mp
  · exact (hle a c).mpr (((hle a b).mp hab).trans ((hle b c).mp hbc))
  · rw [Bool.or_eq_true, hle, hle]
    exact le_total _ _

theorem Regular.nodup_rank (h : Regular tenantId requests) :
    ((values (byNamespace options nodes requests)).map rank).Nodup := by
  refine List.pairwise_map.mpr (pairwise_values fun k a k' a' ha ha' hne hrank => hne ?_)
  obtain ⟨rfl, ⟨r, hr, ht⟩, -, -⟩ := keptAt_byNamespace h.ids k a ha
  obtain ⟨rfl, ⟨r', hr', ht'⟩, -, -⟩ := keptAt_byNamespace h.ids k' a' ha'
  simp only [rank, EmbeddingLike.apply_eq_iff_eq, Prod.mk.injEq] at hrank
  rw [ht, ht', h.tenant r hr, h.tenant r' hr', hrank.1, hrank.2.1, hrank.2.2]

/-- The rows stand in strictly increasing rank. -/
theorem Regular.sorted_allocateCosts (h : Regular tenantId requests) :
    (allocateCosts nodes rows requests options).Pairwise fun a b => rank a < rank b := by
  have hnodup : ((allocateCosts nodes rows requests options).map rank).Nodup := by
    refine (((List.mergeSort_perm _ _).trans ((rows.perm _).map finish)).map rank).nodup_iff.mpr ?_
    rw [List.map_map]
    exact h.nodup_rank
  refine ((pairwise_mergeSort_rank _).and (List.pairwise_map.mp hnodup)).imp ?_
  rintro a b ⟨hle, hne⟩
  exact lt_of_le_of_ne hle hne

theorem Regular.perm_allocateCosts (h : Regular tenantId requests)
    (hperm : requests.Perm requests') : (allocateCosts nodes rows requests options).Perm
      (allocateCosts nodes' rows' requests' options) := by
  have hvalues : (values (byNamespace (normalizeAllocationOptions options) nodes requests)).Perm
      (values (byNamespace (normalizeAllocationOptions options) nodes' requests')) := by
    unfold values
    exact (entries_perm_of_lookup (h.lookup_byNamespace_perm hperm)).map Sigma.snd
  refine (List.mergeSort_perm _ _).trans (List.Perm.trans ?_ (List.mergeSort_perm _ _).symm)
  exact ((rows.perm _).trans (hvalues.trans (rows'.perm _).symm)).map finish

/-- **Order independence.** For requests of one tenant with NUL-free ids and one name for
each namespace and hour: every order of the requests, and every order in which the maps
are visited, gives the same rows. There is at most one row for a cluster, a namespace and
an hour, and the rows stand in strictly increasing order of hour, cluster and namespace. -/
theorem allocateCosts_order_independent (nodes nodes' : Order ((_ : String) × UInt64))
    (rows rows' : Order NamespaceCost) (options : AllocationOptions)
    (h : Regular tenantId requests) (hperm : requests.Perm requests') :
    allocateCosts nodes rows requests options = allocateCosts nodes' rows' requests' options ∧
    ((allocateCosts nodes rows requests options).map fun row =>
      (row.clusterId, row.namespaceUid, row.bucketStart)).Nodup ∧
    (allocateCosts nodes rows requests options).Pairwise fun a b =>
      toLex (a.bucketStart, toLex (a.clusterId, a.namespaceUid)) <
        toLex (b.bucketStart, toLex (b.clusterId, b.namespaceUid)) := by
  have h' : Regular tenantId requests' := h.perm hperm
  refine ⟨?_, ?_, h.sorted_allocateCosts⟩
  · exact (h.perm_allocateCosts hperm).eq_of_pairwise
      (fun a b _ _ hab hba => absurd (hab.trans hba) (lt_irrefl _)) h.sorted_allocateCosts
      h'.sorted_allocateCosts
  · refine List.pairwise_map.mpr (h.sorted_allocateCosts.imp fun {a b} hlt hids => ?_)
    simp only [Prod.mk.injEq] at hids
    refine absurd hlt (not_lt_of_ge (le_of_eq ?_))
    simp only [rank, hids]

/-- Two namespaces on one node, read in both orders. -/
theorem allocateCosts_order_independent_plainRequests :
    allocateCosts .listed .listed plainRequests ⟨2, 1, 0⟩ =
      allocateCosts (.of List.reverse) (.of List.reverse) plainRequests.reverse ⟨2, 1, 0⟩ := by
  have hregular : Regular "t" plainRequests :=
    ⟨⟨by decide, by decide, by decide, by decide⟩, by decide, by decide⟩
  exact (allocateCosts_order_independent _ _ _ _ _ hregular plainRequests.reverse_perm.symm).1

end Allocation
end KubeCost
