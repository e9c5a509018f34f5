/-
# Every price is allocated once

The rows of `allocateCosts` share out exactly one node price for each node-hour
with a CPU request and one control-plane price for each such cluster-hour, and
the allocated cost of a row is the sum of its parts (`allocateCosts_conserves`).

The two loops over the requests must agree on which requests count
(`charged_eq_counted`); then the direct shares of a node-hour and its idle share
add up to one, and so do the control-plane shares of a cluster-hour.
-/
import Mathlib.Algebra.BigOperators.Ring.Finset
import Mathlib.Algebra.BigOperators.Ring.List
import Mathlib.Algebra.Order.BigOperators.Group.List
import Mathlib.Algebra.Order.Field.Rat
import Mathlib.Data.Finset.Card
import Mathlib.Tactic.FieldSimp
import Mathlib.Tactic.Ring
import KubeCost.Allocation.Engine

namespace KubeCost
namespace Allocation

open Keyed

variable {options : AllocationOptions} {requests : List NodeNamespaceRequest}
  {nodes : Order ((_ : String) × UInt64)} {rows : Order NamespaceCost}
  {key : NodeNamespaceRequest → String} {k : String}

/-! ### Sums of `uint64` -/

/-- The CPU requests that the totals count at a key. -/
def cpuAt (key : NodeNamespaceRequest → String) (requests : List NodeNamespaceRequest) (k : String) :
    List UInt64 :=
  (requests.filter fun r => counted r && decide (key r = k)).map (·.cpuRequestCoreMilliseconds)

/-- No total of a key wraps around. -/
def NoWrap (key : NodeNamespaceRequest → String) (requests : List NodeNamespaceRequest) : Prop :=
  ∀ k, ((cpuAt key requests k).map UInt64.toNat).sum < 2 ^ 64

/-- No total wraps when all the CPU requests together do not. -/
theorem noWrap_of_sum_lt
    (h : (requests.map fun r => r.cpuRequestCoreMilliseconds.toNat).sum < 2 ^ 64) :
    NoWrap key requests := by
  intro k
  refine Nat.lt_of_le_of_lt ?_ h
  rw [cpuAt, List.map_map]
  exact (List.filter_sublist.map _).sum_le_sum fun _ _ => Nat.zero_le _

theorem toNat_sum : ∀ {l : List UInt64}, (l.map UInt64.toNat).sum < 2 ^ 64 →
    l.sum.toNat = (l.map UInt64.toNat).sum
  | [], _ => rfl
  | a :: l, h => by
    rw [List.map_cons, List.sum_cons] at h
    rw [List.sum_cons, List.map_cons, List.sum_cons, UInt64.toNat_add,
      toNat_sum (by omega), Nat.mod_eq_of_lt h]

theorem float64_sum {l : List UInt64} (h : (l.map UInt64.toNat).sum < 2 ^ 64) :
    float64 l.sum = (l.map float64).sum := by
  rw [float64, toNat_sum h, Nat.cast_list_sum, List.map_map]
  rfl

theorem read_eq_valueAt (m : Map String UInt64) (k : String) : read m k = valueAt id k m := by
  rw [read, valueAt, Option.map_id_fun]
  rfl

theorem read_totalsBy (key : NodeNamespaceRequest → String) (requests : List NodeNamespaceRequest)
    (k : String) : read (totalsBy key requests) k = (cpuAt key requests k).sum := by
  have hf : ∀ r : NodeNamespaceRequest, Raises id
      (fun o : Option UInt64 => o.getD 0 + r.cpuRequestCoreMilliseconds)
      r.cpuRequestCoreMilliseconds := by
    intro r o
    rw [Option.map_id_fun]
    rfl
  rw [read_eq_valueAt, totalsBy, valueAt_collect hf, valueAt_empty, zero_add]
  rfl

theorem float64_total (h : NoWrap key requests) (k : String) :
    float64 (read (totalsBy key requests) k) = ((cpuAt key requests k).map float64).sum := by
  rw [read_totalsBy, float64_sum (h k)]

/-! ### Which requests count -/

theorem mem_totalsBy : k ∈ totalsBy key requests ↔ ∃ r ∈ requests, counted r = true ∧ key r = k := by
  rw [totalsBy, mem_collect]
  exact or_iff_right (AList.notMem_empty k)

theorem counted_pos {r : NodeNamespaceRequest} (h : counted r = true) :
    0 < r.cpuRequestCoreMilliseconds.toNat := by
  simp only [counted, Bool.not_eq_true', Bool.or_eq_false_iff, decide_eq_false_iff_not] at h
  refine Nat.pos_of_ne_zero fun h0 => h.2 ?_
  exact UInt64.toNat_inj.mp h0

/-- A counted request makes its total positive. -/
theorem total_pos (h : NoWrap key requests) {r : NodeNamespaceRequest} (hr : r ∈ requests)
    (hc : counted r = true) : 0 < (read (totalsBy key requests) (key r)).toNat := by
  have hmem : r.cpuRequestCoreMilliseconds ∈ cpuAt key requests (key r) := by
    refine List.mem_map_of_mem (List.mem_filter.mpr ⟨hr, ?_⟩)
    simp only [hc, Bool.true_and, decide_true]
  rw [read_totalsBy, toNat_sum (h _)]
  exact Nat.lt_of_lt_of_le (counted_pos hc)
    (List.single_le_sum (fun _ _ => Nat.zero_le _) _ (List.mem_map_of_mem hmem))

theorem le_maxUint64_left (a b : UInt64) : a.toNat ≤ (maxUint64 a b).toNat := by
  unfold maxUint64
  split
  · exact Nat.le_refl _
  · rename_i h
    exact UInt64.le_iff_toNat_le.mp (UInt64.not_lt.mp h)

/-- The ids of the requests contain no NUL byte. -/
structure Ids (requests : List NodeNamespaceRequest) : Prop where
  tenant : ∀ r ∈ requests, NulFree r.tenantId
  cluster : ∀ r ∈ requests, NulFree r.clusterId
  node : ∀ r ∈ requests, NulFree r.nodeUid
  namespaceUid : ∀ r ∈ requests, NulFree r.namespaceUid

theorem Ids.perm {requests' : List NodeNamespaceRequest} (h : Ids requests)
    (hperm : requests.Perm requests') : Ids requests' where
  tenant r hr := h.tenant r (hperm.mem_iff.mpr hr)
  cluster r hr := h.cluster r (hperm.mem_iff.mpr hr)
  node r hr := h.node r (hperm.mem_iff.mpr hr)
  namespaceUid r hr := h.namespaceUid r (hperm.mem_iff.mpr hr)

/-- The fields of `nodeBucketKey`, and of `clusterBucketKey`. -/
def nodeFields (r : NodeNamespaceRequest) : String × String × String × String :=
  (r.tenantId, r.clusterId, r.nodeUid, r.bucketStart.rfc3339)

def clusterFields (r : NodeNamespaceRequest) : String × String × String :=
  (r.tenantId, r.clusterId, r.bucketStart.rfc3339)

theorem nodeBucketKey_inj (h : Ids requests) {r r' : NodeNamespaceRequest} (hr : r ∈ requests)
    (hr' : r' ∈ requests) : nodeBucketKey r = nodeBucketKey r' ↔ nodeFields r = nodeFields r' := by
  constructor
  · intro hk
    obtain ⟨h₁, hk⟩ := joined_inj (h.tenant r hr) (h.tenant r' hr') hk
    obtain ⟨h₂, hk⟩ := joined_inj (h.cluster r hr) (h.cluster r' hr') hk
    obtain ⟨h₃, h₄⟩ := joined_inj (h.node r hr) (h.node r' hr') hk
    simp only [nodeFields, h₁, h₂, h₃, h₄]
  · intro hf
    simp only [nodeFields, Prod.mk.injEq] at hf
    simp only [nodeBucketKey, hf]

theorem clusterBucketKey_inj (h : Ids requests) {r r' : NodeNamespaceRequest} (hr : r ∈ requests)
    (hr' : r' ∈ requests) :
    clusterBucketKey r = clusterBucketKey r' ↔ clusterFields r = clusterFields r' := by
  constructor
  · intro hk
    obtain ⟨h₁, hk⟩ := joined_inj (h.tenant r hr) (h.tenant r' hr') hk
    obtain ⟨h₂, h₃⟩ := joined_inj (h.cluster r hr) (h.cluster r' hr') hk
    simp only [clusterFields, h₁, h₂, h₃]
  · intro hf
    simp only [clusterFields, Prod.mk.injEq] at hf
    simp only [clusterBucketKey, hf]

/-- A node-hour with a counted request has a denominator. -/
theorem denominator_pos (h : NoWrap nodeBucketKey requests) (hk : k ∈ nodeTotals requests) :
    0 < (denominator requests k).toNat := by
  obtain ⟨r, hr, hc, rfl⟩ := mem_totalsBy.mp hk
  exact Nat.lt_of_lt_of_le (total_pos h hr hc) (le_maxUint64_left _ _)

theorem lookup_nodeAllocatable_none (hk : ¬ k ∈ nodeTotals requests) :
    (nodeAllocatable requests).lookup k = none := by
  refine AList.lookup_eq_none.mpr fun h => hk ?_
  rw [nodeAllocatable, mem_collect] at h
  exact mem_totalsBy.mpr (h.resolve_left (AList.notMem_empty k))

/-- A node-hour without a counted request has none. -/
theorem denominator_zero (hk : ¬ k ∈ nodeTotals requests) : denominator requests k = 0 := by
  have h₁ : (nodeTotals requests).lookup k = none := AList.lookup_eq_none.mpr hk
  rw [denominator, read, read, h₁, lookup_nodeAllocatable_none hk]
  rfl

/-- **Both loops skip the same requests.** -/
theorem charged_eq_counted (hids : Ids requests) (h : NoWrap nodeBucketKey requests)
    {r : NodeNamespaceRequest} (hr : r ∈ requests) : charged requests r = counted r := by
  by_cases hk : nodeBucketKey r ∈ nodeTotals requests
  · -- some counted request has this key, so the node id is not empty
    obtain ⟨r', hr', hc', hkey⟩ := mem_totalsBy.mp hk
    have hnode : r.nodeUid ≠ "" := by
      have hf := (nodeBucketKey_inj hids hr' hr).mp hkey
      simp only [nodeFields, Prod.mk.injEq] at hf
      simp only [counted, Bool.not_eq_true', Bool.or_eq_false_iff, decide_eq_false_iff_not] at hc'
      rw [← hf.2.2.1]
      exact hc'.1
    have hden : denominator requests (nodeBucketKey r) ≠ 0 := by
      intro h0
      have := denominator_pos h hk
      rw [h0] at this
      exact absurd this (by decide)
    simp only [charged, counted, hnode, hden, decide_false, Bool.false_or]
  · have hnc : counted r = false := by
      by_contra hne
      exact hk (mem_totalsBy.mpr ⟨r, hr, Bool.eq_true_of_not_eq_false hne, rfl⟩)
    rw [hnc, charged, denominator_zero hk]
    rfl

/-! ### Sums over the rows -/

/-- A measure that `finish` does not touch sums up over the map of rows. -/
theorem sum_allocateCosts {g : NamespaceCost → ℚ} (hg : ∀ item, g (finish item) = g item) :
    ((allocateCosts nodes rows requests options).map g).sum =
      total g (byNamespace (normalizeAllocationOptions options) nodes requests) := by
  have hfin : g ∘ finish = g := funext hg
  have hperm := ((List.mergeSort_perm ((rows.visit (values
    (byNamespace (normalizeAllocationOptions options) nodes requests))).map finish)
    (fun a b => !less b a)).map g).sum_eq
  rw [allocateCosts, hperm, List.map_map, hfin, total]
  exact ((rows.perm _).map g).sum_eq

/-- What the two loops add to a measure of the rows. -/
theorem total_byNamespace {g : NamespaceCost → ℚ} {δ : NodeNamespaceRequest → ℚ}
    {ε : (_ : String) × UInt64 → ℚ} (hδ : ∀ r, Raises g (addRequest options requests r) (δ r))
    (hε : ∀ e, Raises g (addIdle options requests e) (ε e)) :
    total g (byNamespace options nodes requests) =
      ((requests.filter (charged requests)).map δ).sum +
        (((nodeTotals requests).entries.filter (hasIdle requests)).map ε).sum := by
  rw [byNamespace, total_collect hε, namespaceRows, total_collect hδ, total_empty, zero_add]
  congr 1
  exact (((nodes.perm _).filter _).map ε).sum_eq

theorem raises_direct (r : NodeNamespaceRequest) : Raises NamespaceCost.directCost
    (addRequest options requests r) (options.nodeHourlyCostUSD * nodeWeight requests r) := by
  intro o
  cases o <;> rfl

theorem raises_controlPlane (r : NodeNamespaceRequest) : Raises NamespaceCost.controlPlaneCost
    (addRequest options requests r)
    (options.controlPlaneHourlyCostUSD * controlPlaneWeight requests r) := by
  intro o
  cases o <;> rfl

/-- The second loop leaves the idle cost alone, the third everything but it. -/
theorem raises_idle_request (r : NodeNamespaceRequest) :
    Raises NamespaceCost.idleCost (addRequest options requests r) 0 := by
  intro o
  cases o <;> exact (add_zero _).symm

theorem raises_idle (e : (_ : String) × UInt64) : Raises NamespaceCost.idleCost
    (addIdle options requests e) (idleCost options requests e) := by
  intro o
  cases o <;> rfl

theorem raises_direct_idle (e : (_ : String) × UInt64) :
    Raises NamespaceCost.directCost (addIdle options requests e) 0 := by
  intro o
  cases o <;> exact (add_zero _).symm

theorem raises_controlPlane_idle (e : (_ : String) × UInt64) :
    Raises NamespaceCost.controlPlaneCost (addIdle options requests e) 0 := by
  intro o
  cases o <;> exact (add_zero _).symm

/-! ### Shares -/

/-- The items that a test drops may as well be there when they add nothing. -/
theorem sum_filter_of_zero {α M : Type*} [AddCommMonoid M] {p : α → Bool} {f : α → M} :
    ∀ {l : List α},
    (∀ x ∈ l, p x = false → f x = 0) → ((l.filter p).map f).sum = (l.map f).sum
  | [], _ => rfl
  | x :: l, h => by
    have ih := sum_filter_of_zero fun y hy => h y (List.mem_cons_of_mem _ hy)
    by_cases hx : p x = true
    · rw [List.filter_cons_of_pos hx, List.map_cons, List.sum_cons, ih, List.map_cons,
        List.sum_cons]
    · rw [List.filter_cons_of_neg hx, ih, List.map_cons, List.sum_cons,
        h x List.mem_cons_self (Bool.eq_false_of_not_eq_true hx), zero_add]

theorem entry_eq_read {e : (_ : String) × UInt64} (he : e ∈ (totalsBy key requests).entries) :
    e.2 = read (totalsBy key requests) e.1 := by
  rw [read, AList.mem_lookup_iff.mpr he]
  rfl

/-- The shares of the requests in something of their key are the shares of the
key's total. -/
theorem sum_shares (h : NoWrap key requests) (d : String → ℚ) :
    ((requests.filter counted).map fun r =>
      float64 r.cpuRequestCoreMilliseconds / d (key r)).sum =
    ((totalsBy key requests).entries.map fun e => float64 e.2 / d e.1).sum := by
  have hkeys : ∀ r ∈ requests.filter counted, key r ∈ (totalsBy key requests).keys := by
    intro r hr
    obtain ⟨hr, hc⟩ := List.mem_filter.mp hr
    exact AList.mem_keys.mp (mem_totalsBy.mpr ⟨r, hr, hc, rfl⟩)
  rw [← sum_groups key _ (AList.keys_nodup _) hkeys, AList.keys, List.keys, List.map_map]
  congr 1
  refine List.map_congr_left fun e he => ?_
  calc (((requests.filter counted).filter fun r => key r = e.1).map fun r =>
        float64 r.cpuRequestCoreMilliseconds / d (key r)).sum
      = (((requests.filter counted).filter fun r => key r = e.1).map fun r =>
          (d e.1)⁻¹ * float64 r.cpuRequestCoreMilliseconds).sum := by
        congr 1
        refine List.map_congr_left fun r hr => ?_
        rw [of_decide_eq_true (List.mem_filter.mp hr).2, div_eq_inv_mul]
    _ = (d e.1)⁻¹ * ((cpuAt key requests e.1).map float64).sum := by
        rw [List.sum_map_mul_left, cpuAt, List.map_map, List.filter_filter]
        congr 3
        refine List.filter_congr fun r _ => ?_
        exact Bool.and_comm _ _
    _ = float64 e.2 / d e.1 := by
        rw [← float64_total h, ← entry_eq_read he, div_eq_inv_mul]

theorem entry_mem {e : (_ : String) × UInt64} (he : e ∈ (totalsBy key requests).entries) :
    e.1 ∈ totalsBy key requests :=
  AList.mem_keys.mpr (List.mem_map_of_mem he)

theorem entry_le_denominator {e : (_ : String) × UInt64}
    (he : e ∈ (nodeTotals requests).entries) : e.2.toNat ≤ (denominator requests e.1).toNat := by
  rw [entry_eq_read he]
  exact le_maxUint64_left _ _

/-- The idle cost of a node-hour that the third loop skips would be nothing. -/
theorem idleCost_skipped (h : NoWrap nodeBucketKey requests) {e : (_ : String) × UInt64}
    (he : e ∈ (nodeTotals requests).entries) (hs : hasIdle requests e = false) :
    idleCost options requests e = 0 := by
  have hpos := denominator_pos h (entry_mem he)
  have hle := entry_le_denominator he
  simp only [hasIdle, Bool.not_eq_false', Bool.or_eq_true, decide_eq_true_eq] at hs
  rcases hs with hs | hs
  · rw [hs] at hpos
    exact absurd hpos (by decide)
  · have heq : e.2 = denominator requests e.1 :=
      UInt64.toNat_inj.mp (Nat.le_antisymm hle (UInt64.le_iff_toNat_le.mp hs))
    rw [idleCost, heq]
    simp [float64]

theorem float64_idle {e : (_ : String) × UInt64} (he : e ∈ (nodeTotals requests).entries) :
    float64 (denominator requests e.1 - e.2) =
      float64 (denominator requests e.1) - float64 e.2 := by
  rw [float64, UInt64.toNat_sub_of_le _ _ (UInt64.le_iff_toNat_le.mpr (entry_le_denominator he)),
    Nat.cast_sub (entry_le_denominator he)]
  rfl

/-- The requested and the idle part of a node-hour are the whole of it. -/
theorem node_share (h : NoWrap nodeBucketKey requests) {e : (_ : String) × UInt64}
    (he : e ∈ (nodeTotals requests).entries) :
    options.nodeHourlyCostUSD * (float64 e.2 / float64 (denominator requests e.1)) +
      idleCost options requests e = options.nodeHourlyCostUSD := by
  have hpos := denominator_pos h (entry_mem he)
  have hne : float64 (denominator requests e.1) ≠ 0 := by
    rw [float64]
    exact_mod_cast Nat.pos_iff_ne_zero.mp hpos
  rw [idleCost, float64_idle he]
  field_simp
  ring

theorem sum_replicate {α : Type*} {l : List α} {f : α → ℚ} {b : ℚ} (h : ∀ x ∈ l, f x = b) :
    (l.map f).sum = b * l.length := by
  rw [List.map_congr_left h, List.map_const', List.sum_replicate, nsmul_eq_mul, mul_comm]

theorem sum_direct_idle (hids : Ids requests) (h : NoWrap nodeBucketKey requests) :
    total NamespaceCost.directCost (byNamespace options nodes requests) +
      total NamespaceCost.idleCost (byNamespace options nodes requests) =
    options.nodeHourlyCostUSD * (nodeTotals requests).entries.length := by
  have hfilter : requests.filter (charged requests) = requests.filter counted :=
    List.filter_congr fun r hr => charged_eq_counted hids h hr
  have hzero : ∀ {α : Type} (l : List α), (l.map fun _ => (0 : ℚ)).sum = 0 := fun l => by simp
  rw [total_byNamespace raises_direct raises_direct_idle,
    total_byNamespace raises_idle_request raises_idle, hfilter, hzero, hzero, add_zero, zero_add,
    List.sum_map_mul_left,
    sum_filter_of_zero fun e he hs => idleCost_skipped h he hs]
  have hshares : ((requests.filter counted).map (nodeWeight requests)).sum =
      ((nodeTotals requests).entries.map fun e =>
        float64 e.2 / float64 (denominator requests e.1)).sum :=
    sum_shares h fun k => float64 (denominator requests k)
  rw [hshares, ← List.sum_map_mul_left, ← List.sum_map_add]
  exact sum_replicate fun e he => node_share h he

theorem sum_controlPlane (hids : Ids requests) (hn : NoWrap nodeBucketKey requests)
    (h : NoWrap clusterBucketKey requests) :
    total NamespaceCost.controlPlaneCost (byNamespace options nodes requests) =
      options.controlPlaneHourlyCostUSD * (clusterTotals requests).entries.length := by
  have hfilter : requests.filter (charged requests) = requests.filter counted :=
    List.filter_congr fun r hr => charged_eq_counted hids hn hr
  have hweight : ((requests.filter counted).map (controlPlaneWeight requests)).sum =
      ((requests.filter counted).map fun r => float64 r.cpuRequestCoreMilliseconds /
        float64 (read (clusterTotals requests) (clusterBucketKey r))).sum := by
    congr 1
    refine List.map_congr_left fun r hr => ?_
    obtain ⟨hr, hc⟩ := List.mem_filter.mp hr
    have hpos : read (clusterTotals requests) (clusterBucketKey r) > 0 :=
      UInt64.lt_iff_toNat_lt.mpr (total_pos h hr hc)
    exact if_pos hpos
  rw [total_byNamespace raises_controlPlane raises_controlPlane_idle, hfilter,
    List.sum_map_mul_left, hweight,
    sum_shares h fun k => float64 (read (clusterTotals requests) k)]
  rw [sum_replicate (b := 0) (l := List.filter _ _) fun _ _ => rfl, zero_mul, add_zero]
  congr 1
  rw [sum_replicate (b := 1) fun e he => ?_, one_mul]
  · rfl
  · obtain ⟨r, hr, hc, hk⟩ := mem_totalsBy.mp (entry_mem he)
    have hpos := total_pos h hr hc
    rw [hk] at hpos
    rw [clusterTotals, ← entry_eq_read he]
    rw [← entry_eq_read he] at hpos
    refine div_self ?_
    rw [float64]
    exact_mod_cast Nat.pos_iff_ne_zero.mp hpos

/-! ### Counting keys -/

theorem card_map_congr {ι κ κ' : Type*} [DecidableEq κ] [DecidableEq κ'] (f : ι → κ) (g : ι → κ') :
    ∀ {xs : List ι}, (∀ x ∈ xs, ∀ y ∈ xs, f x = f y ↔ g x = g y) →
    (xs.map f).toFinset.card = (xs.map g).toFinset.card
  | [], _ => rfl
  | x :: xs, h => by
    have ih := card_map_congr f g fun y hy z hz =>
      h y (List.mem_cons_of_mem _ hy) z (List.mem_cons_of_mem _ hz)
    have hmem : f x ∈ (xs.map f).toFinset ↔ g x ∈ (xs.map g).toFinset := by
      simp only [List.mem_toFinset, List.mem_map]
      constructor
      · rintro ⟨y, hy, he⟩
        exact ⟨y, hy, (h y (List.mem_cons_of_mem _ hy) x List.mem_cons_self).mp he⟩
      · rintro ⟨y, hy, he⟩
        exact ⟨y, hy, (h y (List.mem_cons_of_mem _ hy) x List.mem_cons_self).mpr he⟩
    rw [List.map_cons, List.toFinset_cons, List.map_cons, List.toFinset_cons,
      Finset.card_insert_eq_ite, Finset.card_insert_eq_ite, ih]
    exact if_congr hmem rfl rfl

/-- The totals have one entry for each key of a counted request. -/
theorem entries_length {κ : Type*} [DecidableEq κ] (fields : NodeNamespaceRequest → κ)
    (hinj : ∀ r ∈ requests, ∀ r' ∈ requests, key r = key r' ↔ fields r = fields r') :
    (totalsBy key requests).entries.length =
      ((requests.filter counted).map fields).toFinset.card := by
  have hkeys : (totalsBy key requests).keys.toFinset = ((requests.filter counted).map key).toFinset := by
    ext k
    rw [List.mem_toFinset, ← AList.mem_keys, mem_totalsBy, List.mem_toFinset, List.mem_map]
    constructor
    · rintro ⟨r, hr, hc, hk⟩
      exact ⟨r, List.mem_filter.mpr ⟨hr, hc⟩, hk⟩
    · rintro ⟨r, hr, hk⟩
      exact ⟨r, (List.mem_filter.mp hr).1, (List.mem_filter.mp hr).2, hk⟩
  calc (totalsBy key requests).entries.length
      = (totalsBy key requests).keys.length := by rw [AList.keys, List.keys, List.length_map]
    _ = (totalsBy key requests).keys.toFinset.card :=
        (List.toFinset_card_of_nodup (AList.keys_nodup _)).symm
    _ = ((requests.filter counted).map key).toFinset.card := by rw [hkeys]
    _ = _ := card_map_congr key fields fun r hr r' hr' =>
        hinj r (List.mem_filter.mp hr).1 r' (List.mem_filter.mp hr').1

/-! ### The parts of a row -/

/-- The allocated cost is the sum of the parts. -/
def Adds (item : NamespaceCost) : Prop :=
  item.allocatedCost =
    item.directCost + item.idleCost + item.networkCost + item.controlPlaneCost

theorem adds_addRequest {r : NodeNamespaceRequest} {o : Option NamespaceCost}
    (h : ∀ item, o = some item → Adds item) : Adds (addRequest options requests r o) := by
  have hitem : Adds (o.getD (emptyItem r)) := by
    cases o with
    | none => simp [Adds, emptyItem]
    | some item => exact h item rfl
  simp only [Adds, addRequest] at hitem ⊢
  rw [hitem]
  ring

theorem adds_addIdle {e : (_ : String) × UInt64} {o : Option NamespaceCost}
    (h : ∀ item, o = some item → Adds item) : Adds (addIdle options requests e o) := by
  have hitem : Adds (o.getD (emptyIdleItem (firstNodeRequest e.1 requests))) := by
    cases o with
    | none => simp [Adds, emptyIdleItem]
    | some item => exact h item rfl
  simp only [Adds, addIdle] at hitem ⊢
  rw [hitem]
  ring

theorem adds_byNamespace : ∀ item ∈ values (byNamespace options nodes requests), Adds item := by
  intro item hitem
  obtain ⟨k, hk⟩ := mem_values.mp hitem
  refine forall_collect (P := fun _ => Adds) (fun _ _ _ => adds_addIdle) ?_ k item hk
  refine forall_collect (P := fun _ => Adds) (fun _ _ _ => adds_addRequest) fun k a hk => ?_
  rw [AList.lookup_empty] at hk
  cases hk

/-- **Cost conservation.** For requests with NUL-free ids and CPU totals that do
not wrap, in whatever order the maps are visited: every row's allocated cost is
the sum of its parts, direct and idle cost add up to one node price for each
node-hour with a counted request, and the control-plane cost adds up to one
control-plane price for each such cluster-hour. -/
theorem allocateCosts_conserves (nodes : Order ((_ : String) × UInt64)) (rows : Order NamespaceCost)
    (options : AllocationOptions) (hids : Ids requests) (hnode : NoWrap nodeBucketKey requests)
    (hcluster : NoWrap clusterBucketKey requests) :
    (∀ item ∈ allocateCosts nodes rows requests options, item.allocatedCost =
      item.directCost + item.idleCost + item.networkCost + item.controlPlaneCost) ∧
    ((allocateCosts nodes rows requests options).map fun item =>
      item.directCost + item.idleCost).sum =
      (normalizeAllocationOptions options).nodeHourlyCostUSD *
        ((requests.filter counted).map nodeFields).toFinset.card ∧
    ((allocateCosts nodes rows requests options).map NamespaceCost.controlPlaneCost).sum =
      (normalizeAllocationOptions options).controlPlaneHourlyCostUSD *
        ((requests.filter counted).map clusterFields).toFinset.card := by
  refine ⟨fun item hitem => ?_, ?_, ?_⟩
  · rw [allocateCosts, List.mem_mergeSort] at hitem
    obtain ⟨item', hmem, rfl⟩ := List.mem_map.mp hitem
    exact adds_byNamespace item' ((rows.perm _).mem_iff.mp hmem)
  · rw [List.sum_map_add, sum_allocateCosts (fun _ => rfl), sum_allocateCosts (fun _ => rfl),
      sum_direct_idle hids hnode, nodeTotals,
      entries_length nodeFields fun r hr r' hr' => nodeBucketKey_inj hids hr hr']
  · rw [sum_allocateCosts (fun _ => rfl), sum_controlPlane hids hnode hcluster, clusterTotals,
      entries_length clusterFields fun r hr r' hr' => clusterBucketKey_inj hids hr hr']

/-! ### Two namespaces on one node -/

/-- Two namespaces request a quarter and a half of one node for an hour. -/
def plainRequests : List NodeNamespaceRequest :=
  [⟨"t", "c", "n", "a", "a", UTC.newYear, 900, 0, 1⟩, ⟨"t", "c", "n", "b", "b", UTC.newYear, 1800, 0, 1⟩]

theorem allocateCosts_conserves_plainRequests :
    ((allocateCosts ⟨id, fun _ => .refl _⟩ ⟨id, fun _ => .refl _⟩ plainRequests ⟨2, 1, 0⟩).map
      fun item => item.directCost + item.idleCost).sum = 2 ∧
    ((allocateCosts ⟨id, fun _ => .refl _⟩ ⟨id, fun _ => .refl _⟩ plainRequests ⟨2, 1, 0⟩).map
      NamespaceCost.controlPlaneCost).sum = 1 := by
  have hids : Ids plainRequests := ⟨by decide, by decide, by decide, by decide⟩
  obtain ⟨-, h₁, h₂⟩ := allocateCosts_conserves ⟨id, fun _ => .refl _⟩ ⟨id, fun _ => .refl _⟩
    ⟨2, 1, 0⟩ hids (noWrap_of_sum_lt (by decide)) (noWrap_of_sum_lt (by decide))
  have hnode : ((plainRequests.filter counted).map nodeFields).toFinset.card = 1 := by decide
  have hcluster : ((plainRequests.filter counted).map clusterFields).toFinset.card = 1 := by decide
  have hopts : normalizeAllocationOptions ⟨2, 1, 0⟩ = ⟨2, 1, 0⟩ := by decide
  rw [hopts, hnode, Nat.cast_one, mul_one] at h₁
  rw [hopts, hcluster, Nat.cast_one, mul_one] at h₂
  exact ⟨h₁, h₂⟩

end Allocation
end KubeCost
