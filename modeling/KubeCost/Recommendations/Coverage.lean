/-
# What the recommended requests cover

The recommended CPU request is above the average use in 95 of 100 samples of the target,
and the recommended memory request above that in 99 of 100 (`generate_covers`). It rests on
`percentile`, which is the least value that enough of the values do not exceed
(`percentile_isLeast_of`), and on roundings that all go up.
-/
import KubeCost.Recommendations.Results

namespace KubeCost
namespace Recommendations

/-! ### Places in a sorted list -/

section Sorted

variable {α : Type*} [LinearOrder α] {l : List α} {i : ℕ}

/-- The elements up to a place do not exceed the one at the place. -/
theorem lt_countP_getElem (h : l.Pairwise (· ≤ ·)) (hi : i < l.length) :
    i < l.countP fun a => decide (a ≤ l[i]) := by
  have htake : (l.take (i + 1)).countP (fun a => decide (a ≤ l[i])) = i + 1 := by
    rw [List.countP_eq_length.mpr, List.length_take, Nat.min_eq_left hi]
    intro a ha
    obtain ⟨j, hj, rfl⟩ := List.mem_take_iff_getElem.mp ha
    rw [decide_eq_true_eq]
    rcases Nat.lt_or_ge j i with hlt | hge
    · exact List.pairwise_iff_getElem.mp h j i _ _ hlt
    · have heq : j = i := by omega
      subst heq
      exact le_rfl
  calc i < (l.take (i + 1)).countP fun a => decide (a ≤ l[i]) := by rw [htake]; exact i.lt_succ_self
    _ ≤ l.countP fun a => decide (a ≤ l[i]) := (List.take_sublist (i + 1) l).countP_le

/-- Only elements before a place are below the one at the place. -/
theorem countP_le_of_lt_getElem (h : l.Pairwise (· ≤ ·)) (hi : i < l.length) {x : α}
    (hx : x < l[i]) : l.countP (fun a => decide (a ≤ x)) ≤ i := by
  have hdrop : (l.drop i).countP (fun a => decide (a ≤ x)) = 0 := by
    refine List.countP_eq_zero.mpr fun a ha => ?_
    rw [decide_eq_true_eq, not_le]
    obtain ⟨j, hj, rfl⟩ := List.mem_drop_iff_getElem.mp ha
    refine lt_of_lt_of_le hx ?_
    rcases Nat.eq_zero_or_pos j with rfl | hpos
    · exact le_rfl
    · exact List.pairwise_iff_getElem.mp h i (i + j) _ _ (by omega)
  calc l.countP (fun a => decide (a ≤ x))
      = (l.take i).countP (fun a => decide (a ≤ x)) + (l.drop i).countP fun a => decide (a ≤ x) := by
        rw [← List.countP_append, List.take_append_drop]
    _ = (l.take i).countP fun a => decide (a ≤ x) := by rw [hdrop, Nat.add_zero]
    _ ≤ (l.take i).length := List.countP_le_length
    _ ≤ i := List.length_take_le i l

end Sorted

/-! ### Percentiles -/

variable {v : List ℕ} {q : ℚ}

/-- The rank is that of one of the values, so the index is not clamped. -/
theorem rank_bounds (hne : v ≠ []) (hpos : 0 < q) (hle : q ≤ 1) :
    1 ≤ ⌈q * v.length⌉ ∧ ⌈q * v.length⌉ ≤ v.length := by
  have hlength : (0 : ℚ) < v.length := Nat.cast_pos.mpr (List.length_pos_of_ne_nil hne)
  constructor
  · exact Int.one_le_ceil_iff.mpr (mul_pos hpos hlength)
  · refine Int.ceil_le.mpr ?_
    rw [Int.cast_natCast]
    exact mul_le_of_le_one_left hlength.le hle

theorem percentile_eq (hne : v ≠ []) (hpos : 0 < q) (hle : q ≤ 1) :
    ∃ (i : ℕ) (hi : i < (v.insertionSort (· ≤ ·)).length), (i : ℤ) + 1 = ⌈q * v.length⌉ ∧
      percentile v q = (v.insertionSort (· ≤ ·))[i] := by
  obtain ⟨hone, hlength⟩ := rank_bounds hne hpos hle
  have hsorted : (v.insertionSort (· ≤ ·)).length = v.length := List.length_insertionSort _ _
  obtain ⟨i, hi⟩ : ∃ i : ℕ, (i : ℤ) + 1 = ⌈q * v.length⌉ :=
    ⟨(⌈q * v.length⌉ - 1).toNat, by rw [Int.toNat_of_nonneg (by omega)]; omega⟩
  have hlt : i < (v.insertionSort (· ≤ ·)).length := by omega
  refine ⟨i, hlt, hi, ?_⟩
  unfold percentile
  simp only [hsorted, ← hi, add_sub_cancel_right]
  rw [if_neg (by omega), if_neg (by omega), Int.toNat_natCast, List.getElem?_eq_getElem hlt,
    Option.getD_some]

/-- **The percentile is the least value that the quantile of the values does not exceed.** -/
theorem percentile_isLeast_of (hne : v ≠ []) (hpos : 0 < q) (hle : q ≤ 1) :
    IsLeast {x | x ∈ v ∧ ⌈q * v.length⌉ ≤ v.countP fun a => decide (a ≤ x)} (percentile v q) := by
  obtain ⟨i, hi, hrank, heq⟩ := percentile_eq hne hpos hle
  have hperm : (v.insertionSort (· ≤ ·)).Perm v := List.perm_insertionSort _ _
  have hsorted : (v.insertionSort (· ≤ ·)).Pairwise (· ≤ ·) := List.pairwise_insertionSort _ _
  rw [heq]
  refine ⟨⟨hperm.mem_iff.mp (List.getElem_mem hi), ?_⟩, ?_⟩
  · have hcount := lt_countP_getElem hsorted hi
    rw [hperm.countP_eq] at hcount
    omega
  · rintro x ⟨-, hx⟩
    by_contra hlt
    have hcount := countP_le_of_lt_getElem hsorted hi (not_le.mp hlt)
    rw [hperm.countP_eq] at hcount
    omega

/-- Enough samples use at most what is not below the percentile of their rounded uses. -/
theorem le_countP_of_percentile_le {l own : List Sample} {f : Sample → ℕ} {use : Sample → ℚ} {n : ℕ}
    (hperm : l.Perm own) (hne : l ≠ []) (hpos : 0 < q) (hle : q ≤ 1)
    (hround : ∀ s ∈ own, f s ≤ n → use s ≤ n) (h : percentile (l.map f) q ≤ n) :
    ⌈q * own.length⌉ ≤ own.countP fun s => decide (use s ≤ n) := by
  obtain ⟨⟨-, hcount⟩, -⟩ := percentile_isLeast_of (v := l.map f) (by simpa using hne) hpos hle
  rw [List.length_map, List.countP_map, hperm.length_eq, hperm.countP_eq] at hcount
  refine hcount.trans (Int.ofNat_le.mpr (List.countP_mono_left fun s hs hfs => ?_))
  exact decide_eq_true (hround s hs ((of_decide_eq_true hfs).trans h))

/-! ### Roundings -/

theorem ceilDiv_le_iff {value divisor n : ℕ} (hd : 0 < divisor) :
    ceilDiv value divisor ≤ n ↔ value ≤ n * divisor := by
  unfold ceilDiv
  split
  · rename_i hzero
    simp [hzero]
  · rw [Nat.succ_le_iff, Nat.div_lt_iff_lt_mul hd]
    omega

/-- The average is rounded up, so whole numbers are above it and the exact average alike. -/
theorem averageMillicores_le_iff {usage seconds n : ℕ} (hs : 0 < seconds) :
    averageMillicores usage seconds ≤ n ↔ (usage : ℚ) / seconds ≤ n := by
  rw [averageMillicores, if_neg (Nat.pos_iff_ne_zero.mp hs), ceilDiv_le_iff hs,
    div_le_iff₀ (Nat.cast_pos.mpr hs)]
  exact_mod_cast Iff.rfl

theorem averageBytes_le_iff {usage seconds n : ℕ} (hs : 0 < seconds) :
    averageBytes usage seconds ≤ n ↔ (usage : ℚ) / seconds ≤ n :=
  averageMillicores_le_iff hs

theorem le_ceilUint64_mul {p : ℕ} {factor : ℚ} (h : 1 ≤ factor) : p ≤ ceilUint64 (p * factor) := by
  have hp : (p : ℚ) ≤ p * factor := le_mul_of_one_le_right (Nat.cast_nonneg p) h
  unfold ceilUint64
  split
  · rename_i hzero
    exact_mod_cast hp.trans hzero
  · have hceil : (p : ℤ) ≤ ⌈(p : ℚ) * factor⌉ := by
      have := hp.trans (Int.le_ceil _)
      exact_mod_cast this
    omega

theorem le_maxUint64_left (a b : ℕ) : a ≤ maxUint64 a b := by
  unfold maxUint64
  split
  · exact le_rfl
  · rename_i h
    exact not_lt.mp h

theorem le_maxUint64_right (a b : ℕ) : b ≤ maxUint64 a b := by
  unfold maxUint64
  split
  · rename_i h
    exact h.le
  · exact le_rfl

theorem maxUint64_le {m n k : ℕ} (hm : m ≤ k) (hn : n ≤ k) : maxUint64 m n ≤ k := by
  unfold maxUint64
  split
  · exact hm
  · exact hn

theorem Basis.cpuP95_le {e : Engine} (h : 1 ≤ e.config.cpuRequestHeadroom) (b : Basis) :
    b.cpuP95 ≤ b.cpuRequest e :=
  (le_ceilUint64_mul h).trans (le_maxUint64_right _ _)

theorem Basis.memoryP99_le {e : Engine} (h : 1 ≤ e.config.memoryRequestHeadroom) (b : Basis) :
    b.memoryP99 ≤ b.memoryRequest e :=
  (le_ceilUint64_mul h).trans (le_maxUint64_right _ _)

/-! ### The samples of a recommendation -/

/-- The ids of the samples contain no NUL byte. Their scope types may be any text. -/
structure Ids (samples : List Sample) : Prop where
  tenant : ∀ s ∈ samples, NulFree s.tenantId
  cluster : ∀ s ∈ samples, NulFree s.clusterId
  scope : ∀ s ∈ samples, NulFree s.scopeId

/-- The sample is of the target of the recommendation and covers some time. -/
def Sample.isOf (r : Recommendation) (s : Sample) : Bool :=
  s.tenantId = r.tenantId && s.clusterId = r.clusterId && s.scopeType = r.scopeType &&
    s.scopeId = r.scopeId && 0 < s.bucketSeconds

variable {e : Engine} {orders : Orders} {samples : List Sample} {query : Query} {r : Recommendation}

theorem targetKey_eq_iff {s s' : Sample} (hids : Ids samples) (hs : s ∈ samples)
    (hs' : s' ∈ samples) : targetKey s = targetKey s' ↔ s.tenantId = s'.tenantId ∧
      s.clusterId = s'.clusterId ∧ s.scopeType = s'.scopeType ∧ s.scopeId = s'.scopeId := by
  constructor
  · intro h
    obtain ⟨ht, h⟩ := joined_inj (hids.tenant s hs) (hids.tenant s' hs') h
    obtain ⟨hc, h⟩ := joined_inj (hids.cluster s hs) (hids.cluster s' hs') h
    exact ⟨ht, hc, joined_inj_last (hids.scope s hs) (hids.scope s' hs') h⟩
  · rintro ⟨ht, hc, hst, hsi⟩
    rw [targetKey, ht, hc, hst, hsi, ← targetKey]

/-- The samples with the key of a counted sample are those of its target. -/
theorem targetSamples_eq (hids : Ids samples) {key : String} {first : Sample}
    (hfirst : first ∈ targetSamples samples key) (hr : r.tenantId = first.tenantId ∧
      r.clusterId = first.clusterId ∧ r.scopeType = first.scopeType ∧ r.scopeId = first.scopeId) :
    targetSamples samples key = samples.filter (Sample.isOf r) := by
  have hkey : targetKey first = key := targetKey_of_mem hfirst
  obtain ⟨hmem, hfirst⟩ := List.mem_filter.mp hfirst
  have hscope : first.scopeId ≠ "" := by
    intro hempty
    simp [Sample.counted, hempty] at hfirst
  refine List.filter_congr fun s hs => ?_
  rw [Bool.eq_iff_iff, ← hkey, Bool.and_eq_true, decide_eq_true_eq, targetKey_eq_iff hids hs hmem]
  simp only [Sample.isOf, Sample.counted, hr, Bool.and_eq_true, decide_eq_true_eq, Bool.not_eq_true',
    Bool.or_eq_false_iff, decide_eq_false_iff_not, ← Nat.pos_iff_ne_zero]
  constructor
  · rintro ⟨⟨hsec, -⟩, ht, hc, hst, hsi⟩
    exact ⟨⟨⟨⟨ht, hc⟩, hst⟩, hsi⟩, hsec⟩
  · rintro ⟨⟨⟨⟨ht, hc⟩, hst⟩, hsi⟩, hsec⟩
    exact ⟨⟨hsec, hsi ▸ hscope⟩, ht, hc, hst, hsi⟩

/-- **Coverage.** Each recommendation is made from at least the minimum number of samples of
its target. Its CPU request is at least the average CPU use of 95 of 100 of them, its memory
request at least the average memory use of 99 of 100; no request is below its floor, and no
limit is below its request. A percentile is the least of the values that the quantile of the
values does not exceed. -/
theorem generate_covers (e : Engine) (orders : Orders) (samples : List Sample) (query : Query)
    (hids : Ids samples) (hcpu : 1 ≤ e.config.cpuRequestHeadroom)
    (hmemory : 1 ≤ e.config.memoryRequestHeadroom) :
    (∀ r ∈ e.generate orders samples query,
      e.config.minimumSampleCount ≤ (samples.filter (Sample.isOf r)).length ∧
      ⌈(95 / 100 : ℚ) * (samples.filter (Sample.isOf r)).length⌉ ≤
        (samples.filter (Sample.isOf r)).countP (fun s =>
          decide ((s.cpuUsageCoreMS : ℚ) / s.bucketSeconds ≤ r.recommendedCPURequestMillicores)) ∧
      ⌈(99 / 100 : ℚ) * (samples.filter (Sample.isOf r)).length⌉ ≤
        (samples.filter (Sample.isOf r)).countP (fun s =>
          decide ((s.memoryWorkingSetBytes : ℚ) / s.bucketSeconds ≤ r.recommendedMemoryRequestBytes)) ∧
      e.config.minCPUMillicores ≤ r.recommendedCPURequestMillicores ∧
      e.config.minMemoryBytes ≤ r.recommendedMemoryRequestBytes ∧
      r.recommendedCPURequestMillicores ≤ r.recommendedCPULimitMillicores ∧
      r.recommendedMemoryRequestBytes ≤ r.recommendedMemoryLimitBytes) ∧
    ∀ (v : List ℕ) (q : ℚ), v ≠ [] → 0 < q → q ≤ 1 →
      IsLeast {x | x ∈ v ∧ ⌈q * v.length⌉ ≤ v.countP fun a => decide (a ≤ x)} (percentile v q) := by
  refine ⟨fun r hr => ?_, fun v q => percentile_isLeast_of⟩
  obtain ⟨_, ⟨key, first, rest, hsorted, rfl⟩, hworth, rfl⟩ := (mem_generate_iff orders).mp hr
  have hperm : (first :: rest).Perm (targetSamples samples key) := hsorted ▸ sortSlice_perm _
  have hown := targetSamples_eq (r := (basis first (first :: rest)).recommendation e query) hids
    (hperm.mem_iff.mp List.mem_cons_self) ⟨rfl, rfl, rfl, rfl⟩
  rw [hown] at hperm
  have hseconds : ∀ s ∈ samples.filter
      (Sample.isOf ((basis first (first :: rest)).recommendation e query)), 0 < s.bucketSeconds := by
    intro s hs
    have h := (List.mem_filter.mp hs).2
    rw [Sample.isOf, Bool.and_eq_true, decide_eq_true_eq] at h
    exact h.2
  refine ⟨?_, ?_, ?_, le_maxUint64_left _ _, le_maxUint64_left _ _, le_maxUint64_left _ _,
    le_maxUint64_left _ _⟩
  · rw [← hperm.length_eq]
    exact hworth.1
  · exact le_countP_of_percentile_le hperm (List.cons_ne_nil _ _) (by norm_num) (by norm_num)
      (fun s hs => (averageMillicores_le_iff (hseconds s hs)).mp)
      (Basis.cpuP95_le hcpu (basis first (first :: rest)))
  · exact le_countP_of_percentile_le hperm (List.cons_ne_nil _ _) (by norm_num) (by norm_num)
      (fun s hs => (averageBytes_le_iff (hseconds s hs)).mp)
      (Basis.memoryP99_le hmemory (basis first (first :: rest)))

/-! ### A day of one container -/

/-- An hour of a container that asks for a core and uses more of it each hour. -/
def risingHour (hour : ℕ) : Sample where
  tenantId := "t"
  clusterId := "c"
  scopeType := "container"
  scopeId := "p/main"
  bucketStart := hour * Instant.hour
  bucketSeconds := 3600
  cpuUsageCoreMS := 10 * hour * 3600
  cpuRequestCoreMS := 1000 * 3600
  cpuLimitCoreMS := 0
  memoryWorkingSetBytes := 1073741824 * 3600
  memoryRequestBytes := 1073741824 * 3600
  memoryLimitBytes := 0

theorem generate_covers_risingDay :
    ∃ r ∈ (newEngine {}).generate ⟨.listed, .listed, .listed⟩ ((List.range 24).map risingHour)
        ⟨"t", "", 0⟩,
      ⌈(95 / 100 : ℚ) * (((List.range 24).map risingHour).filter (Sample.isOf r)).length⌉ ≤
        (((List.range 24).map risingHour).filter (Sample.isOf r)).countP fun s =>
          decide ((s.cpuUsageCoreMS : ℚ) / s.bucketSeconds ≤ r.recommendedCPURequestMillicores) := by
  have hne : (newEngine {}).generate ⟨.listed, .listed, .listed⟩ ((List.range 24).map risingHour)
      ⟨"t", "", 0⟩ ≠ [] := by
    decide +kernel
  have hids : Ids ((List.range 24).map risingHour) := ⟨by decide, by decide, by decide⟩
  obtain ⟨r, hr⟩ := List.exists_mem_of_ne_nil _ hne
  obtain ⟨-, hcovered, -⟩ := (generate_covers (newEngine {}) _ _ _ hids (by decide +kernel)
    (by decide +kernel)).1 r hr
  exact ⟨r, hr, hcovered⟩

end Recommendations
end KubeCost
