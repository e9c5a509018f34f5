/-
# Who pays for the network

Network cost is meant to be charged to the namespace that generated the bytes. The
engine adds it in the loop that skips the requests without CPU, so the bytes of such a
request are charged to no one. `network_conserved_iff` says when nothing is lost: the
network is free, or the requests on a node that ask for no CPU sent nothing.
-/
import KubeCost.Allocation.Lookup

namespace KubeCost
namespace Allocation

open Keyed

variable {options : AllocationOptions} {requests : List NodeNamespaceRequest}
  {nodes : Order ((_ : String) × UInt64)} {rows : Order NamespaceCost}
  {tenantId clusterId namespaceUid bucketStart : String}

/-! ### The specification -/

/-- The request ran on a node. -/
def attached (request : NodeNamespaceRequest) : Bool := request.nodeUid ≠ ""

/-- The bytes of the requests that ran on a node. -/
def trafficBytes (requests : List NodeNamespaceRequest) : ℕ :=
  ((requests.filter attached).map fun r => r.networkBytes.toNat).sum

/-- The request is one of the namespace and the hour. -/
def isOf (tenantId clusterId namespaceUid bucketStart : String) (request : NodeNamespaceRequest) :
    Bool :=
  request.tenantId = tenantId && request.clusterId = clusterId &&
    request.namespaceUid = namespaceUid && request.bucketStart.rfc3339 = bucketStart

/-- The rows charge all the bytes, and each namespace-hour those of its own requests. -/
structure NetworkConserved (costPerGiB : ℚ) (requests : List NodeNamespaceRequest)
    (result : List NamespaceCost) : Prop where
  total : (result.map (·.networkCost)).sum = costPerGiB * trafficBytes requests / 2 ^ 30
  own : ∀ tenantId clusterId namespaceUid bucketStart, NulFree tenantId → NulFree clusterId →
    NulFree namespaceUid →
    sumFor (·.networkCost) tenantId clusterId namespaceUid bucketStart result =
      costPerGiB * trafficBytes (requests.filter
        (isOf tenantId clusterId namespaceUid bucketStart)) / 2 ^ 30

/-! ### What is charged -/

/-- The bytes of the requests that the engine counts. -/
def countedBytes (requests : List NodeNamespaceRequest) : ℕ :=
  ((requests.filter counted).map fun r => r.networkBytes.toNat).sum

theorem raises_network (r : NodeNamespaceRequest) : Raises NamespaceCost.networkCost
    (addRequest options requests r) (bytesToGiB r.networkBytes * options.networkCostPerGiBUSD) := by
  intro o
  cases o <;> rfl

theorem raises_network_idle (e : (_ : String) × UInt64) :
    Raises NamespaceCost.networkCost (addIdle options requests e) 0 := by
  intro o
  cases o <;> exact (add_zero _).symm

theorem sum_charges (costPerGiB : ℚ) (l : List NodeNamespaceRequest) :
    (l.map fun r => bytesToGiB r.networkBytes * costPerGiB).sum =
      costPerGiB * ((l.map fun r => r.networkBytes.toNat).sum : ℕ) / 2 ^ 30 := by
  induction l with
  | nil => simp
  | cons r l ih =>
    rw [List.map_cons, List.sum_cons, ih, List.map_cons, List.sum_cons, Nat.cast_add, bytesToGiB,
      float64]
    ring

theorem namespaceBucketKey_iff (hids : Ids requests) (ht : NulFree tenantId)
    (hc : NulFree clusterId) (hn : NulFree namespaceUid) {r : NodeNamespaceRequest}
    (hr : r ∈ requests) :
    namespaceBucketKey r = rowKey tenantId clusterId namespaceUid bucketStart ↔
      isOf tenantId clusterId namespaceUid bucketStart r = true := by
  have hkey : namespaceBucketKey r =
      rowKey r.tenantId r.clusterId r.namespaceUid r.bucketStart.rfc3339 := rfl
  rw [hkey, rowKey_eq_iff (hids.tenant r hr) ht (hids.cluster r hr) hc (hids.namespaceUid r hr) hn]
  simp only [isOf, Bool.and_eq_true, decide_eq_true_eq, and_assoc]

section Charged

variable (hids : Ids requests) (hnode : NoWrap nodeBucketKey requests)

include hids hnode

/-- The rows charge the counted bytes. -/
theorem sum_networkCost : ((allocateCosts nodes rows requests options).map (·.networkCost)).sum =
    (normalizeAllocationOptions options).networkCostPerGiBUSD * countedBytes requests / 2 ^ 30 := by
  have hfilter : requests.filter (charged requests) = requests.filter counted :=
    List.filter_congr fun r hr => charged_eq_counted hids hnode hr
  rw [sum_allocateCosts fun _ => rfl, total_byNamespace raises_network raises_network_idle, hfilter,
    sum_charges, List.map_const', List.sum_replicate, nsmul_zero, add_zero]
  rfl

/-- A namespace-hour is charged the counted bytes of its own requests. -/
theorem sumFor_networkCost (ht : NulFree tenantId) (hc : NulFree clusterId)
    (hn : NulFree namespaceUid) :
    sumFor (·.networkCost) tenantId clusterId namespaceUid bucketStart
        (allocateCosts nodes rows requests options) =
      (normalizeAllocationOptions options).networkCostPerGiBUSD * countedBytes (requests.filter
        (isOf tenantId clusterId namespaceUid bucketStart)) / 2 ^ 30 := by
  have hfilter : (requests.filter fun r => charged requests r && decide (namespaceBucketKey r =
      rowKey tenantId clusterId namespaceUid bucketStart)) =
      (requests.filter (isOf tenantId clusterId namespaceUid bucketStart)).filter counted := by
    rw [List.filter_filter]
    refine List.filter_congr fun r hr => ?_
    have hkey : decide (namespaceBucketKey r =
        rowKey tenantId clusterId namespaceUid bucketStart) =
        isOf tenantId clusterId namespaceUid bucketStart r := by
      rw [Bool.eq_iff_iff, decide_eq_true_iff, namespaceBucketKey_iff hids ht hc hn hr]
    rw [charged_eq_counted hids hnode hr, hkey]
  rw [sumFor, sum_filter_allocateCosts (isFor_iff hids ht hc hn) rfl hids (fun _ => rfl)
    raises_network raises_network_idle, hfilter, sum_charges, List.map_const', List.sum_replicate,
    nsmul_zero, add_zero]
  rfl

end Charged

/-! ### What is lost -/

/-- The requests on a node that ask for no CPU sent nothing. -/
def SilentWithoutCpu (requests : List NodeNamespaceRequest) : Prop :=
  ∀ r ∈ requests, r.nodeUid ≠ "" → r.cpuRequestCoreMilliseconds = 0 → r.networkBytes = 0

theorem countedBytes_cons (r : NodeNamespaceRequest) (l : List NodeNamespaceRequest) :
    countedBytes (r :: l) = (if counted r then r.networkBytes.toNat else 0) + countedBytes l := by
  by_cases h : counted r = true <;> simp [countedBytes, h]

theorem trafficBytes_cons (r : NodeNamespaceRequest) (l : List NodeNamespaceRequest) :
    trafficBytes (r :: l) = (if attached r then r.networkBytes.toNat else 0) + trafficBytes l := by
  by_cases h : attached r = true <;> simp [trafficBytes, h]

theorem attached_of_counted {r : NodeNamespaceRequest} (h : counted r = true) : attached r = true := by
  simp only [counted, Bool.not_eq_true', Bool.or_eq_false_iff, decide_eq_false_iff_not] at h
  exact decide_eq_true h.1

theorem countedBytes_le : ∀ l : List NodeNamespaceRequest, countedBytes l ≤ trafficBytes l
  | [] => Nat.le_refl 0
  | r :: l => by
    have ih := countedBytes_le l
    rw [countedBytes_cons, trafficBytes_cons]
    by_cases h : counted r = true
    · rw [if_pos h, if_pos (attached_of_counted h)]
      omega
    · rw [if_neg h]
      omega

/-- Nothing is lost exactly when the skipped requests sent nothing. -/
theorem countedBytes_eq_iff : ∀ l : List NodeNamespaceRequest,
    countedBytes l = trafficBytes l ↔ SilentWithoutCpu l
  | [] => iff_of_true rfl fun _ hr => absurd hr List.not_mem_nil
  | r :: l => by
    have ih := countedBytes_eq_iff l
    have hle := countedBytes_le l
    rw [SilentWithoutCpu, List.forall_mem_cons, ← SilentWithoutCpu, ← ih, countedBytes_cons,
      trafficBytes_cons]
    by_cases hcounted : counted r = true
    · have hcpu : r.cpuRequestCoreMilliseconds ≠ 0 := fun h0 => by
        simp [counted, h0] at hcounted
      rw [if_pos hcounted, if_pos (attached_of_counted hcounted), Nat.add_left_cancel_iff]
      exact (and_iff_right fun _ h0 => absurd h0 hcpu).symm
    · by_cases hnode : attached r = true
      · -- on a node and not counted: the request asks for no CPU
        have hcpu : r.cpuRequestCoreMilliseconds = 0 := by
          simpa [counted, of_decide_eq_true hnode] using hcounted
        have hbytes : r.networkBytes = 0 ↔ r.networkBytes.toNat = 0 := UInt64.toNat_inj.symm
        rw [if_neg hcounted, if_pos hnode, forall_prop_of_true (of_decide_eq_true hnode),
          forall_prop_of_true hcpu, hbytes]
        omega
      · have hempty : r.nodeUid = "" := by
          simpa [attached] using hnode
        rw [if_neg hcounted, if_neg hnode, Nat.zero_add, Nat.zero_add]
        exact (and_iff_right fun h => absurd hempty h).symm

theorem silentWithoutCpu_filter (p : NodeNamespaceRequest → Bool) (h : SilentWithoutCpu requests) :
    SilentWithoutCpu (requests.filter p) :=
  fun r hr => h r (List.mem_of_mem_filter hr)

theorem normalized_network_zero :
    (normalizeAllocationOptions options).networkCostPerGiBUSD = 0 ↔
      options.networkCostPerGiBUSD = 0 := by
  unfold normalizeAllocationOptions
  dsimp only
  split
  · rename_i h
    exact iff_of_false (by decide +kernel) (ne_of_lt h)
  · rfl

/-- **The network is charged in full, to those who used it, exactly when it is free or
the requests on a node that ask for no CPU sent nothing.** -/
theorem network_conserved_iff (nodes : Order ((_ : String) × UInt64)) (rows : Order NamespaceCost)
    (requests : List NodeNamespaceRequest) (options : AllocationOptions) (hids : Ids requests)
    (hnode : NoWrap nodeBucketKey requests) :
    NetworkConserved (normalizeAllocationOptions options).networkCostPerGiBUSD requests
        (allocateCosts nodes rows requests options) ↔
      options.networkCostPerGiBUSD = 0 ∨ SilentWithoutCpu requests := by
  rw [← normalized_network_zero]
  constructor
  · intro h
    have htotal := h.total
    rw [sum_networkCost hids hnode, div_left_inj' (by norm_num), mul_eq_mul_left_iff] at htotal
    rcases htotal with hbytes | hfree
    · exact .inr ((countedBytes_eq_iff requests).mp (Nat.cast_injective hbytes))
    · exact .inl hfree
  · rintro (hfree | hsilent)
    · refine ⟨?_, fun t c n b ht hc hn => ?_⟩
      · rw [sum_networkCost hids hnode, hfree, zero_mul, zero_mul]
      · rw [sumFor_networkCost hids hnode ht hc hn, hfree, zero_mul, zero_mul]
    · refine ⟨?_, fun t c n b ht hc hn => ?_⟩
      · rw [sum_networkCost hids hnode, (countedBytes_eq_iff _).mpr hsilent]
      · rw [sumFor_networkCost hids hnode ht hc hn,
          (countedBytes_eq_iff _).mpr (silentWithoutCpu_filter _ hsilent)]

/-- Both namespaces of a node ask for CPU, and one of them sends a GiB. -/
def talkingRequests : List NodeNamespaceRequest :=
  [⟨"t", "c", "n", "a", "a", UTC.newYear, 900, 1073741824, 1⟩,
    ⟨"t", "c", "n", "b", "b", UTC.newYear, 1800, 0, 1⟩]

theorem network_conserved_talkingRequests :
    ((allocateCosts ⟨id, fun _ => .refl _⟩ ⟨id, fun _ => .refl _⟩ talkingRequests ⟨2, 1, 3⟩).map
      (·.networkCost)).sum = 3 := by
  have hids : Ids talkingRequests := ⟨by decide, by decide, by decide, by decide⟩
  have hsilent : SilentWithoutCpu talkingRequests := by
    unfold SilentWithoutCpu
    decide
  have h := (network_conserved_iff ⟨id, fun _ => .refl _⟩ ⟨id, fun _ => .refl _⟩ talkingRequests
    ⟨2, 1, 3⟩ hids (noWrap_of_sum_lt (by decide))).mpr (.inr hsilent)
  have hopts : normalizeAllocationOptions ⟨2, 1, 3⟩ = ⟨2, 1, 3⟩ := by decide
  have hbytes : trafficBytes talkingRequests = 2 ^ 30 := by decide
  rw [h.total, hopts, hbytes]
  norm_num

/-- Namespace `b` asks for no CPU and sends a GiB. -/
def freeTraffic : List NodeNamespaceRequest :=
  [⟨"t", "c", "n", "a", "a", UTC.newYear, 900, 0, 1⟩,
    ⟨"t", "c", "n", "b", "b", UTC.newYear, 0, 1073741824, 1⟩]

/-- **A GiB that no one pays for.** -/
theorem network_uncharged : trafficBytes freeTraffic = 2 ^ 30 ∧
    ((allocateCosts ⟨id, fun _ => .refl _⟩ ⟨id, fun _ => .refl _⟩ freeTraffic ⟨2, 1, 3⟩).map
      (·.networkCost)).sum = 0 ∧
    ¬ NetworkConserved (normalizeAllocationOptions ⟨2, 1, 3⟩).networkCostPerGiBUSD freeTraffic
      (allocateCosts ⟨id, fun _ => .refl _⟩ ⟨id, fun _ => .refl _⟩ freeTraffic ⟨2, 1, 3⟩) := by
  have hids : Ids freeTraffic := ⟨by decide, by decide, by decide, by decide⟩
  have hbytes : trafficBytes freeTraffic = 2 ^ 30 := by decide
  have hsum : ((allocateCosts ⟨id, fun _ => .refl _⟩ ⟨id, fun _ => .refl _⟩ freeTraffic
      ⟨2, 1, 3⟩).map (·.networkCost)).sum = 0 := by
    have hcounted : countedBytes freeTraffic = 0 := by decide
    rw [sum_networkCost hids (noWrap_of_sum_lt (by decide)), hcounted, Nat.cast_zero, mul_zero,
      zero_div]
  refine ⟨hbytes, hsum, fun h => ?_⟩
  have hopts : normalizeAllocationOptions ⟨2, 1, 3⟩ = ⟨2, 1, 3⟩ := by decide
  have htotal := h.total
  rw [hsum, hbytes, hopts] at htotal
  norm_num at htotal

end Allocation
end KubeCost
