/-
# What the engine can return

`Engine.generate` visits its map in any order, and `sort.Slice` may leave samples of one
hour, and recommendations that its order does not tell apart, in any order. So the engine
may return several lists for the same samples. `returns_iff` says which: choose an
arrangement of the samples of every target, by the start of their buckets; the result has
the recommendations for these arrangements, each once, in the order of their savings.

A recommendation is made from a few numbers of the arrangement, its `Basis`
(`recommend_cons`).
-/
import Mathlib.Data.String.Basic
import KubeCost.Recommendations.Engine

namespace KubeCost
namespace Recommendations

open Keyed

/-! ### Sorting -/

section Sorting

variable {α : Type} {less : α → α → Bool} {l : List α}

theorem sortSlice_perm (order : Order α) : (sortSlice order less l).Perm l :=
  (List.perm_insertionSort _ _).trans (order.perm l)

/-- Elements that are visited in their order stay as they are. -/
theorem sortSlice_eq {order : Order α} (h : (order.visit l).Pairwise fun a b => less b a = false) :
    sortSlice order less l = order.visit l := h.insertionSort_eq

theorem pairwise_sortSlice (order : Order α)
    (htotal : ∀ a b : α, less b a = false ∨ less a b = false)
    (htrans : ∀ a b c : α, less b a = false → less c b = false → less c a = false) :
    (sortSlice order less l).Pairwise fun a b => less b a = false := by
  have : Std.Total fun a b : α => less b a = false := ⟨htotal⟩
  have : IsTrans α fun a b => less b a = false := ⟨htrans⟩
  exact List.pairwise_insertionSort _ _

end Sorting

/-- The comparison of `generate`'s first `sort.Slice`. -/
def earlier (a b : Sample) : Bool := a.bucketStart < b.bucketStart

/-- The samples in an order that `sort.Slice` may leave them in. -/
structure Arranged (samples arrangement : List Sample) : Prop where
  perm : arrangement.Perm samples
  sorted : arrangement.Pairwise fun a b => earlier b a = false

theorem arranged_sortSlice (order : Order Sample) (samples : List Sample) :
    Arranged samples (sortSlice order earlier samples) where
  perm := sortSlice_perm order
  sorted := by
    apply pairwise_sortSlice
    · intro a b
      simp only [earlier, decide_eq_false_iff_not, not_lt]
      exact le_total _ _
    · intro a b c
      simp only [earlier, decide_eq_false_iff_not, not_lt]
      exact le_trans

/-- `a` may stand before `b`: it saves more, or as much with ids that are not greater. -/
theorem Recommendation.less_eq_false {a b : Recommendation} : b.less a = false ↔
    b.estimatedMonthlySavingsUSD < a.estimatedMonthlySavingsUSD ∨
      b.estimatedMonthlySavingsUSD = a.estimatedMonthlySavingsUSD ∧
        (a.clusterId < b.clusterId ∨ a.clusterId = b.clusterId ∧ a.scopeId ≤ b.scopeId) := by
  unfold Recommendation.less
  split
  · rename_i hsavings
    rw [decide_eq_false_iff_not, not_lt, hsavings.le_iff_lt]
    exact ⟨.inl, fun h => h.resolve_right fun h => hsavings h.1⟩
  · rename_i hsavings
    rw [not_not] at hsavings
    have hnot : ¬ b.estimatedMonthlySavingsUSD < a.estimatedMonthlySavingsUSD := hsavings.not_lt
    split
    · rename_i hcluster
      rw [decide_eq_false_iff_not, not_lt, hcluster.symm.le_iff_lt]
      exact ⟨fun h => .inr ⟨hsavings, .inl h⟩,
        fun h => (h.resolve_left hnot).2.resolve_right fun h => hcluster h.1.symm⟩
    · rename_i hcluster
      rw [not_not] at hcluster
      rw [decide_eq_false_iff_not, not_lt]
      exact ⟨fun h => .inr ⟨hsavings, .inr ⟨hcluster.symm, h⟩⟩,
        fun h => ((h.resolve_left hnot).2.resolve_left hcluster.symm.not_lt).2⟩

theorem Recommendation.less_total (a b : Recommendation) : b.less a = false ∨ a.less b = false := by
  simp only [Recommendation.less_eq_false]
  rcases lt_trichotomy a.estimatedMonthlySavingsUSD b.estimatedMonthlySavingsUSD with h | h | h
  · exact .inr (.inl h)
  · rcases lt_trichotomy a.clusterId b.clusterId with hc | hc | hc
    · exact .inl (.inr ⟨h.symm, .inl hc⟩)
    · exact (le_total a.scopeId b.scopeId).imp (fun hi => .inr ⟨h.symm, .inr ⟨hc, hi⟩⟩)
        fun hi => .inr ⟨h, .inr ⟨hc.symm, hi⟩⟩
    · exact .inr (.inr ⟨h, .inl hc⟩)
  · exact .inl (.inl h)

theorem Recommendation.less_trans (a b c : Recommendation) (hab : b.less a = false)
    (hbc : c.less b = false) : c.less a = false := by
  rw [Recommendation.less_eq_false] at hab hbc ⊢
  rcases hab with hab | ⟨hab, hab'⟩
  · rcases hbc with hbc | ⟨hbc, _⟩
    · exact .inl (hbc.trans hab)
    · exact .inl (hbc ▸ hab)
  · rcases hbc with hbc | ⟨hbc, hbc'⟩
    · exact .inl (hab ▸ hbc)
    · refine .inr ⟨hbc.trans hab, ?_⟩
      rcases hab' with hab' | ⟨hab', hab''⟩
      · rcases hbc' with hbc' | ⟨hbc', _⟩
        · exact .inl (hab'.trans hbc')
        · exact .inl (hbc' ▸ hab')
      · rcases hbc' with hbc' | ⟨hbc', hbc''⟩
        · exact .inl (hab' ▸ hbc')
        · exact .inr ⟨hab'.trans hbc', hab''.trans hbc''⟩

/-! ### Targets -/

/-- The samples of a target that count. -/
def targetSamples (samples : List Sample) (key : String) : List Sample :=
  samples.filter fun sample => sample.counted && decide (targetKey sample = key)

/-- The key of the target of a recommendation. -/
def Recommendation.targetKey (r : Recommendation) : String :=
  r.tenantId ++ "\x00" ++ (r.clusterId ++ "\x00" ++ (r.scopeType ++ "\x00" ++ r.scopeId))

theorem lookup_byTarget (samples : List Sample) (key : String) : (byTarget samples).lookup key =
    if targetSamples samples key = [] then none else some (targetSamples samples key) := by
  rw [byTarget, lookup_collect_append]
  rfl

theorem mem_values_byTarget {samples group : List Sample} : group ∈ values (byTarget samples) ↔
    group ≠ [] ∧ ∃ key, targetSamples samples key = group := by
  rw [mem_values]
  constructor
  · rintro ⟨key, hkey⟩
    rw [lookup_byTarget] at hkey
    split at hkey
    · cases hkey
    · rename_i hne
      rw [Option.some.injEq] at hkey
      exact ⟨hkey ▸ hne, key, hkey⟩
  · rintro ⟨hne, key, rfl⟩
    exact ⟨key, by rw [lookup_byTarget, if_neg hne]⟩

/-! ### One target -/

/-- What a recommendation is made from. -/
structure Basis where
  tenantId : String
  clusterId : String
  scopeType : String
  scopeId : String
  cpuP95 : ℕ
  memoryP99 : ℕ
  current : Configuration
  sampleCount : ℕ
deriving DecidableEq

/-- The basis of arranged samples, of which `first` is the first. -/
def basis (first : Sample) (samples : List Sample) : Basis where
  tenantId := first.tenantId
  clusterId := first.clusterId
  scopeType := first.scopeType
  scopeId := first.scopeId
  cpuP95 := percentile (samples.map fun sample =>
    averageMillicores sample.cpuUsageCoreMS sample.bucketSeconds) (95 / 100)
  memoryP99 := percentile (samples.map fun sample =>
    averageBytes sample.memoryWorkingSetBytes sample.bucketSeconds) (99 / 100)
  current := currentConfiguration samples
  sampleCount := samples.length

namespace Basis

variable (e : Engine) (basis : Basis)

def cpuRequest : ℕ :=
  maxUint64 e.config.minCPUMillicores (ceilUint64 (basis.cpuP95 * e.config.cpuRequestHeadroom))

def memoryRequest : ℕ :=
  maxUint64 e.config.minMemoryBytes (ceilUint64 (basis.memoryP99 * e.config.memoryRequestHeadroom))

def savings : ℚ :=
  e.estimatedMonthlySavings basis.current.cpuRequest (basis.cpuRequest e)
    basis.current.memoryRequest (basis.memoryRequest e)

/-- There are enough samples, requests that are known, some usage, and something to save. -/
def Worth : Prop :=
  e.config.minimumSampleCount ≤ basis.sampleCount ∧ basis.current.cpuRequest ≠ 0 ∧
    basis.current.memoryRequest ≠ 0 ∧ (basis.cpuP95 ≠ 0 ∨ basis.memoryP99 ≠ 0) ∧ 0 < basis.savings e

instance : Decidable (basis.Worth e) := inferInstanceAs (Decidable (_ ∧ _))

def recommendation (query : Query) : Recommendation where
  tenantId := basis.tenantId
  clusterId := basis.clusterId
  scopeType := basis.scopeType
  scopeId := basis.scopeId
  analysisWindowStart := query.endTime - e.config.analysisWindow
  analysisWindowEnd := query.endTime
  cpuUsageP95Millicores := basis.cpuP95
  memoryWorkingSetP99Bytes := basis.memoryP99
  currentCPURequestMillicores := basis.current.cpuRequest
  recommendedCPURequestMillicores := basis.cpuRequest e
  currentMemoryRequestBytes := basis.current.memoryRequest
  recommendedMemoryRequestBytes := basis.memoryRequest e
  currentCPULimitMillicores := basis.current.cpuLimit
  recommendedCPULimitMillicores := maxUint64 (basis.cpuRequest e)
    (ceilUint64 (basis.cpuRequest e * e.config.cpuLimitMultiplier))
  currentMemoryLimitBytes := basis.current.memoryLimit
  recommendedMemoryLimitBytes := maxUint64 (basis.memoryRequest e)
    (ceilUint64 (basis.memoryRequest e * e.config.memoryLimitMultiplier))
  estimatedMonthlySavingsUSD := basis.savings e
  sampleCount := basis.sampleCount
  computationVersion := computationVersionV1

variable {e basis}

/-- Savings come from a request that gets smaller. -/
theorem smaller_of_savings_pos (h : 0 < basis.savings e) :
    basis.cpuRequest e < basis.current.cpuRequest ∨
      basis.memoryRequest e < basis.current.memoryRequest := by
  by_contra hno
  rw [not_or, not_lt, not_lt] at hno
  have hzero : basis.savings e = 0 := by
    simp only [savings, Engine.estimatedMonthlySavings, positiveDelta, if_pos hno.1, if_pos hno.2]
    norm_num [roundMoney, mathRound]
  exact absurd h (hzero ▸ lt_irrefl _)

end Basis

variable {e : Engine} {query : Query} {samples arrangement : List Sample} {r : Recommendation}

/-- **What is recommended for arranged samples.** -/
theorem recommend_cons (first : Sample) (rest : List Sample) : e.recommend (first :: rest) query =
    if (basis first (first :: rest)).Worth e
    then some ((basis first (first :: rest)).recommendation e query) else none := by
  -- the exits of the source, in its order
  have hexits : ∀ b, b = basis first (first :: rest) → e.recommend (first :: rest) query =
      if (b.sampleCount : ℤ) < e.config.minimumSampleCount then none
      else if b.current.cpuRequest = 0 ∨ b.current.memoryRequest = 0 ∨
        (b.cpuP95 = 0 ∧ b.memoryP99 = 0) then none
      else if b.savings e ≤ 0 then none else some (b.recommendation e query) := by
    rintro _ rfl
    rfl
  rw [hexits _ rfl]
  generalize basis first (first :: rest) = b
  by_cases hworth : b.Worth e
  · rw [if_pos hworth]
    obtain ⟨hcount, hcpu, hmemory, husage, hsavings⟩ := hworth
    have hknown : ¬ (b.current.cpuRequest = 0 ∨ b.current.memoryRequest = 0 ∨
        (b.cpuP95 = 0 ∧ b.memoryP99 = 0)) := by
      rintro (h | h | ⟨h, h'⟩)
      · exact hcpu h
      · exact hmemory h
      · exact husage.elim (fun hne => hne h) fun hne => hne h'
    rw [if_neg (not_lt.mpr hcount), if_neg hknown, if_neg (not_le.mpr hsavings)]
  · rw [if_neg hworth]
    split
    · rfl
    · rename_i hcount
      split
      · rfl
      · rename_i hknown
        rw [not_or, not_or, not_and_or] at hknown
        obtain ⟨hcpu, hmemory, husage⟩ := hknown
        split
        · rfl
        · rename_i hsavings
          exact absurd ⟨not_lt.mp hcount, hcpu, hmemory, husage, not_le.mp hsavings⟩ hworth

/-- What is recommended for the samples of a target is about the target. -/
theorem targetKey_of_recommend {key : String} (hkey : ∀ s ∈ arrangement, targetKey s = key)
    (h : e.recommend arrangement query = some r) : r.targetKey = key := by
  cases arrangement with
  | nil => cases h
  | cons first rest =>
    rw [recommend_cons, Option.ite_none_right_eq_some] at h
    obtain ⟨-, h⟩ := h
    obtain rfl := Option.some.inj h
    exact hkey first List.mem_cons_self

/-! ### All targets -/

/-- The engine returns the list for some order of its map and some outcomes of its sorts. -/
def Returns (e : Engine) (samples : List Sample) (query : Query) (l : List Recommendation) : Prop :=
  ∃ orders, e.generate orders samples query = l

/-- The recommendations before they are sorted. -/
def unsorted (e : Engine) (orders : Orders) (samples : List Sample) (query : Query) :
    List Recommendation :=
  (orders.targets.visit (values (byTarget samples))).filterMap fun group =>
    e.recommend (sortSlice orders.samples earlier group) query

theorem generate_eq (orders : Orders) : e.generate orders samples query =
    sortSlice orders.recommendations Recommendation.less (unsorted e orders samples query) := rfl

theorem targetKey_of_mem {key : String} {s : Sample} (h : s ∈ targetSamples samples key) :
    targetKey s = key := by
  rw [targetSamples, List.mem_filter, Bool.and_eq_true, decide_eq_true_eq] at h
  exact h.2.2

theorem Arranged.targetKey {key : String} (h : Arranged (targetSamples samples key) arrangement) :
    ∀ s ∈ arrangement, Recommendations.targetKey s = key :=
  fun _ hs => targetKey_of_mem (h.perm.mem_iff.mp hs)

/-- **What is recommended for each target.** -/
theorem mem_unsorted (orders : Orders) : r ∈ unsorted e orders samples query ↔
    e.recommend (sortSlice orders.samples earlier (targetSamples samples r.targetKey)) query = some r := by
  rw [unsorted, List.mem_filterMap]
  constructor
  · rintro ⟨group, hgroup, hr⟩
    rw [(orders.targets.perm _).mem_iff, mem_values_byTarget] at hgroup
    obtain ⟨-, key, rfl⟩ := hgroup
    rwa [targetKey_of_recommend (arranged_sortSlice _ _).targetKey hr]
  · intro hr
    refine ⟨_, ?_, hr⟩
    rw [(orders.targets.perm _).mem_iff, mem_values_byTarget]
    refine ⟨fun hnil => ?_, _, rfl⟩
    have hperm := (arranged_sortSlice orders.samples (targetSamples samples r.targetKey)).perm
    rw [hnil] at hr hperm
    rw [hperm.eq_nil] at hr
    cases hr

/-- No target has two recommendations. -/
theorem nodup_unsorted (orders : Orders) : (unsorted e orders samples query).Nodup := by
  rw [unsorted, ((orders.targets.perm _).filterMap _).nodup_iff, values, List.Nodup,
    List.pairwise_filterMap, List.pairwise_map]
  have hkeys := List.nodupKeys_iff_pairwise.mp (byTarget samples).nodupKeys
  refine hkeys.imp_of_mem fun {entry entry'} hentry hentry' hne r hr r' hr' heq => hne ?_
  have key_eq : ∀ entry ∈ (byTarget samples).entries, ∀ r,
      e.recommend (sortSlice orders.samples earlier entry.2) query = some r → entry.1 = r.targetKey := by
    intro entry hentry r hr
    have hlookup := AList.mem_lookup_iff.mpr hentry
    rw [lookup_byTarget, Option.mem_def, Option.ite_none_left_eq_some] at hlookup
    rw [← Option.some.inj hlookup.2] at hr
    exact (targetKey_of_recommend (arranged_sortSlice _ _).targetKey hr).symm
  rw [key_eq entry hentry r hr, key_eq entry' hentry' r' hr', heq]

/-- The recommendations for an arrangement of every target. -/
structure Listing (e : Engine) (query : Query) (arrangement : String → List Sample)
    (l : List Recommendation) : Prop where
  nodup : l.Nodup
  sorted : l.Pairwise fun a b => b.less a = false
  mem_iff : ∀ r, r ∈ l ↔ e.recommend (arrangement r.targetKey) query = some r

theorem listing_generate (orders : Orders) : Listing e query
    (fun key => sortSlice orders.samples earlier (targetSamples samples key))
    (e.generate orders samples query) where
  nodup := (sortSlice_perm _).nodup_iff.mpr (nodup_unsorted orders)
  sorted := pairwise_sortSlice _ Recommendation.less_total Recommendation.less_trans
  mem_iff _ := (sortSlice_perm _).mem_iff.trans (mem_unsorted orders)

/-- The basis of one of the targets, its samples arranged as the orders have it. -/
def BasisOf (orders : Orders) (samples : List Sample) (b : Basis) : Prop :=
  ∃ key first rest, sortSlice orders.samples earlier (targetSamples samples key) = first :: rest ∧
    b = basis first (first :: rest)

/-- **The recommendations that are returned.** -/
theorem mem_generate_iff (orders : Orders) : r ∈ e.generate orders samples query ↔
    ∃ b, BasisOf orders samples b ∧ b.Worth e ∧ b.recommendation e query = r := by
  rw [(listing_generate orders).mem_iff]
  constructor
  · intro hr
    cases hsorted : sortSlice orders.samples earlier (targetSamples samples r.targetKey) with
    | nil =>
      rw [hsorted] at hr
      cases hr
    | cons first rest =>
      rw [hsorted, recommend_cons, Option.ite_none_right_eq_some] at hr
      exact ⟨_, ⟨_, first, rest, hsorted, rfl⟩, hr.1, Option.some.inj hr.2⟩
  · rintro ⟨_, ⟨key, first, rest, hsorted, rfl⟩, hworth, rfl⟩
    have hr : e.recommend (sortSlice orders.samples earlier (targetSamples samples key)) query =
        some ((basis first (first :: rest)).recommendation e query) := by
      rw [hsorted, recommend_cons, if_pos hworth]
    rwa [targetKey_of_recommend (arranged_sortSlice _ _).targetKey hr]

/-- Every choice of arrangements is one that the sorts may make. -/
theorem exists_order {arrangement : String → List Sample}
    (h : ∀ key, Arranged (targetSamples samples key) (arrangement key)) :
    ∃ order : Order Sample, ∀ key,
      sortSlice order earlier (targetSamples samples key) = arrangement key := by
  -- the samples of a target are known by the key of the first of them
  let visit (group : List Sample) : List Sample :=
    (group.head?.map fun s => arrangement (targetKey s)).getD []
  refine ⟨Order.of visit, fun key => ?_⟩
  have hvisit : visit (targetSamples samples key) = arrangement key := by
    cases hgroup : targetSamples samples key with
    | nil => exact (List.perm_nil.mp (hgroup ▸ (h key).perm)).symm
    | cons s rest =>
      have hs : targetKey s = key := targetKey_of_mem (hgroup ▸ List.mem_cons_self)
      exact congrArg arrangement hs
  have hof : (Order.of visit).visit (targetSamples samples key) = arrangement key := by
    rw [Order.visit_of (hvisit ▸ (h key).perm), hvisit]
  rw [sortSlice_eq (hof ▸ (h key).sorted), hof]

theorem exists_listing {arrangement : String → List Sample}
    (h : ∀ key, Arranged (targetSamples samples key) (arrangement key)) :
    ∃ l, Listing e query arrangement l := by
  obtain ⟨order, horder⟩ := exists_order h
  have hlisting : Listing e query (fun key => sortSlice order earlier (targetSamples samples key))
      (e.generate ⟨Order.listed, order, Order.listed⟩ samples query) :=
    listing_generate ⟨Order.listed, order, Order.listed⟩
  rw [funext horder] at hlisting
  exact ⟨_, hlisting⟩

/-- **What the engine can return.** -/
theorem returns_iff {l : List Recommendation} : Returns e samples query l ↔
    ∃ arrangement : String → List Sample,
      (∀ key, Arranged (targetSamples samples key) (arrangement key)) ∧
      Listing e query arrangement l := by
  constructor
  · rintro ⟨orders, rfl⟩
    exact ⟨_, fun key => arranged_sortSlice _ _, listing_generate orders⟩
  · rintro ⟨arrangement, harranged, hlisting⟩
    obtain ⟨order, horder⟩ := exists_order harranged
    let orders : Orders := ⟨Order.listed, order, Order.of fun _ => l⟩
    have hperm : l.Perm (unsorted e orders samples query) := by
      rw [List.perm_ext_iff_of_nodup hlisting.nodup (nodup_unsorted orders)]
      intro r
      rw [hlisting.mem_iff, mem_unsorted, horder]
    have hvisit : orders.recommendations.visit (unsorted e orders samples query) = l :=
      Order.visit_of hperm
    refine ⟨orders, ?_⟩
    rw [generate_eq, sortSlice_eq (hvisit ▸ hlisting.sorted), hvisit]

/-- What may be recommended for samples of one target. -/
def Outcome (e : Engine) (query : Query) (samples : List Sample) (o : Option Recommendation) : Prop :=
  ∃ arrangement, Arranged samples arrangement ∧ e.recommend arrangement query = o

variable {samples' : List Sample}

theorem Returns.of_outcome (h : ∀ key o, Outcome e query (targetSamples samples key) o →
    Outcome e query (targetSamples samples' key) o) {l : List Recommendation}
    (hl : Returns e samples query l) : Returns e samples' query l := by
  obtain ⟨arrangement, harranged, hlisting⟩ := returns_iff.mp hl
  choose arrangement' harranged' heq using fun key => h key _ ⟨arrangement key, harranged key, rfl⟩
  refine returns_iff.mpr ⟨arrangement', harranged', hlisting.nodup, hlisting.sorted, fun r => ?_⟩
  rw [hlisting.mem_iff, heq]

/-- A listing has what is recommended for one of its targets. -/
theorem Listing.recommend_eq {arrangement arrangement' : String → List Sample}
    {l : List Recommendation} (h : Listing e query arrangement l)
    (h' : Listing e query arrangement' l)
    (harranged : ∀ key, Arranged (targetSamples samples key) (arrangement key))
    (harranged' : ∀ key, Arranged (targetSamples samples' key) (arrangement' key)) (key : String) :
    e.recommend (arrangement' key) query = e.recommend (arrangement key) query := by
  ext r
  constructor
  · intro hr
    obtain rfl := targetKey_of_recommend (harranged' key).targetKey hr
    exact (h.mem_iff r).mp ((h'.mem_iff r).mpr hr)
  · intro hr
    obtain rfl := targetKey_of_recommend (harranged key).targetKey hr
    exact (h'.mem_iff r).mp ((h.mem_iff r).mpr hr)

theorem Outcome.of_returns (h : ∀ l, Returns e samples query l → Returns e samples' query l)
    {key : String} {o : Option Recommendation} (ho : Outcome e query (targetSamples samples key) o) :
    Outcome e query (targetSamples samples' key) o := by
  obtain ⟨chosen, hchosen, rfl⟩ := ho
  -- arrange the samples of the target as chosen, and those of the others somehow
  obtain ⟨arrangement, hkey, harranged⟩ : ∃ arrangement : String → List Sample,
      arrangement key = chosen ∧ ∀ k, Arranged (targetSamples samples k) (arrangement k) := by
    refine ⟨Function.update (fun k => sortSlice Order.listed earlier (targetSamples samples k))
      key chosen, Function.update_self _ _ _, fun k => ?_⟩
    by_cases hk : k = key
    · subst hk
      rwa [Function.update_self]
    · rw [Function.update_of_ne hk]
      exact arranged_sortSlice _ _
  obtain ⟨l, hlisting⟩ : ∃ l, Listing e query arrangement l := exists_listing harranged
  obtain ⟨arrangement', harranged', hlisting'⟩ :=
    returns_iff.mp (h l (returns_iff.mpr ⟨arrangement, harranged, hlisting⟩))
  refine ⟨arrangement' key, harranged' key, ?_⟩
  rw [hlisting.recommend_eq hlisting' harranged harranged', hkey]

/-- **The engine cannot tell two lists of samples apart** exactly if it cannot for any
target. -/
theorem returns_congr_iff : (∀ l, Returns e samples query l ↔ Returns e samples' query l) ↔
    ∀ key o, Outcome e query (targetSamples samples key) o ↔
      Outcome e query (targetSamples samples' key) o := by
  constructor
  · exact fun h key o => ⟨.of_returns fun l => (h l).mp, .of_returns fun l => (h l).mpr⟩
  · exact fun h l => ⟨.of_outcome fun key o => (h key o).mp, .of_outcome fun key o => (h key o).mpr⟩

end Recommendations
end KubeCost
