/-
# Rows that are merged in the background

`scope_metrics_1h` is a `SummingMergeTree`: until its parts are merged, an hour of a
container may stand in several rows, and `samplesSQL` reads them as they are. The engine
takes every row for an hourly sample. So it counts more samples before a merge than after
it, takes percentiles of the parts of an hour, and reads the current requests off one part.

Two rows may be merged without a difference if one of them adds nothing, or if the rows
of their target are too few or ask for and use so little that nothing is recommended either
way (`merge_unchanged`). A merge of two rows that both count always shows where something is
recommended, since a recommendation has the number of its samples in it (`merge_shows`).
-/
import KubeCost.Recommendations.Coverage

namespace KubeCost
namespace Recommendations

open Keyed

/-! ### Merging -/

/-- The rows have one sorting key. -/
def Sample.SameBucket (a b : Sample) : Prop :=
  a.tenantId = b.tenantId ∧ a.clusterId = b.clusterId ∧ a.scopeType = b.scopeType ∧
    a.scopeId = b.scopeId ∧ a.bucketStart = b.bucketStart

instance (a b : Sample) : Decidable (a.SameBucket b) := inferInstanceAs (Decidable (_ ∧ _))

/-- The row that a merge makes of two. -/
def Sample.merge (a b : Sample) : Sample :=
  { a with
    bucketSeconds := a.bucketSeconds + b.bucketSeconds
    cpuUsageCoreMS := a.cpuUsageCoreMS + b.cpuUsageCoreMS
    cpuRequestCoreMS := a.cpuRequestCoreMS + b.cpuRequestCoreMS
    cpuLimitCoreMS := a.cpuLimitCoreMS + b.cpuLimitCoreMS
    memoryWorkingSetBytes := a.memoryWorkingSetBytes + b.memoryWorkingSetBytes
    memoryRequestBytes := a.memoryRequestBytes + b.memoryRequestBytes
    memoryLimitBytes := a.memoryLimitBytes + b.memoryLimitBytes }

/-- The row adds nothing to another one. -/
def Sample.Blank (s : Sample) : Prop :=
  s.bucketSeconds = 0 ∧ s.cpuUsageCoreMS = 0 ∧ s.cpuRequestCoreMS = 0 ∧ s.cpuLimitCoreMS = 0 ∧
    s.memoryWorkingSetBytes = 0 ∧ s.memoryRequestBytes = 0 ∧ s.memoryLimitBytes = 0

/-- Rows of a target that give no reason to recommend anything: none has a CPU request, none
has a memory request, none has any usage, or no request can get smaller, since none is above
`m` millicores and `n` bytes while the use is never below `u` and `v`, and the floor or that
use with the headroom comes to as much. -/
inductive Idle (config : EngineConfig) (rows : List Sample) : Prop
  | noCPURequest (h : ∀ s ∈ rows, s.cpuRequestCoreMS = 0)
  | noMemoryRequest (h : ∀ s ∈ rows, s.memoryRequestBytes = 0)
  | noUsage (h : ∀ s ∈ rows, s.cpuUsageCoreMS = 0 ∧ s.memoryWorkingSetBytes = 0)
  | inUse (m n u v : ℕ)
      (hcpu : ∀ s ∈ rows, s.cpuRequestCoreMS ≤ m * s.bucketSeconds ∧
        u * s.bucketSeconds ≤ s.cpuUsageCoreMS)
      (hmemory : ∀ s ∈ rows, s.memoryRequestBytes ≤ n * s.bucketSeconds ∧
        v * s.bucketSeconds ≤ s.memoryWorkingSetBytes)
      (hm : m ≤ maxUint64 config.minCPUMillicores (ceilUint64 (u * config.cpuRequestHeadroom)))
      (hn : n ≤ maxUint64 config.minMemoryBytes (ceilUint64 (v * config.memoryRequestHeadroom)))

variable {e : Engine} {config : EngineConfig} {query : Query} {samples samples' rows : List Sample}
  {a b : Sample}

theorem Sample.SameBucket.merge_of_blank_left (h : a.SameBucket b) (ha : a.Blank) :
    a.merge b = b := by
  obtain ⟨ht, hc, hs, hi, hstart⟩ := h
  obtain ⟨h0, h1, h2, h3, h4, h5, h6⟩ := ha
  simp only [Sample.merge, ht, hc, hs, hi, hstart, h0, h1, h2, h3, h4, h5, h6, Nat.zero_add]

theorem Sample.merge_of_blank_right (hb : b.Blank) : a.merge b = a := by
  obtain ⟨h0, h1, h2, h3, h4, h5, h6⟩ := hb
  simp only [Sample.merge, h0, h1, h2, h3, h4, h5, h6, Nat.add_zero]

/-- What holds of two rows and of their sum survives a merge. -/
theorem forall_merge {p : Sample → Prop} (hp : p a → p b → p (a.merge b))
    (h : ∀ s ∈ a :: b :: rows, p s) : ∀ s ∈ a.merge b :: rows, p s := by
  obtain ⟨ha, hb, hrows⟩ := List.forall_mem_cons.mp h |>.imp_right List.forall_mem_cons.mp
  exact List.forall_mem_cons.mpr ⟨hp ha hb, hrows⟩

/-- Amounts and seconds both add up, so bounds on their ratio stay. -/
theorem between_add {k l x y z w s t : ℕ} (h : x ≤ k * s ∧ l * s ≤ y) (h' : z ≤ k * t ∧ l * t ≤ w) :
    x + z ≤ k * (s + t) ∧ l * (s + t) ≤ y + w := by
  rw [Nat.mul_add, Nat.mul_add]
  exact ⟨Nat.add_le_add h.1 h'.1, Nat.add_le_add h.2 h'.2⟩

/-- **A merge does not wake an idle target.** -/
theorem Idle.merge (h : Idle config (a :: b :: rows)) : Idle config (a.merge b :: rows) := by
  cases h with
  | noCPURequest h =>
    exact .noCPURequest (forall_merge (fun ha hb => Nat.add_eq_zero_iff.mpr ⟨ha, hb⟩) h)
  | noMemoryRequest h =>
    exact .noMemoryRequest (forall_merge (fun ha hb => Nat.add_eq_zero_iff.mpr ⟨ha, hb⟩) h)
  | noUsage h =>
    exact .noUsage (forall_merge (fun ha hb => ⟨Nat.add_eq_zero_iff.mpr ⟨ha.1, hb.1⟩,
      Nat.add_eq_zero_iff.mpr ⟨ha.2, hb.2⟩⟩) h)
  | inUse m n u v hcpu hmemory hm hn =>
    exact .inUse m n u v (forall_merge between_add hcpu) (forall_merge between_add hmemory) hm hn

theorem Idle.mono (h : Idle config rows) (hsub : ∀ s ∈ samples, s ∈ rows) : Idle config samples := by
  cases h with
  | noCPURequest h => exact .noCPURequest fun s hs => h s (hsub s hs)
  | noMemoryRequest h => exact .noMemoryRequest fun s hs => h s (hsub s hs)
  | noUsage h => exact .noUsage fun s hs => h s (hsub s hs)
  | inUse m n u v hcpu hmemory hm hn =>
    exact .inUse m n u v (fun s hs => hcpu s (hsub s hs)) (fun s hs => hmemory s (hsub s hs)) hm hn

/-! ### What the samples of a target give -/

/-- Some arrangement of the samples has the basis. -/
def Arises (samples : List Sample) (b : Basis) : Prop :=
  ∃ first rest, Arranged samples (first :: rest) ∧ b = basis first (first :: rest)

/-- Nothing is recommended, however the samples are arranged. -/
def NeverWorth (e : Engine) (samples : List Sample) : Prop := ∀ b, Arises samples b → ¬ b.Worth e

theorem Arises.sampleCount {b : Basis} (h : Arises samples b) : b.sampleCount = samples.length := by
  obtain ⟨first, rest, harranged, rfl⟩ := h
  exact harranged.perm.length_eq

/-- The percentiles are values of the samples. -/
theorem Arises.percentiles {b : Basis} (h : Arises samples b) :
    (∃ s ∈ samples, b.cpuP95 = averageMillicores s.cpuUsageCoreMS s.bucketSeconds) ∧
      ∃ s ∈ samples, b.memoryP99 = averageBytes s.memoryWorkingSetBytes s.bucketSeconds := by
  obtain ⟨first, rest, harranged, rfl⟩ := h
  have hmem : ∀ {f : Sample → ℕ} {q : ℚ}, 0 < q → q ≤ 1 →
      ∃ s ∈ samples, percentile ((first :: rest).map f) q = f s := by
    intro f q hpos hle
    have hvalue : percentile ((first :: rest).map f) q ∈ (first :: rest).map f :=
      (percentile_isLeast_of (List.cons_ne_nil _ _) hpos hle).1.1
    obtain ⟨s, hs, heq⟩ := List.mem_map.mp hvalue
    exact ⟨s, harranged.perm.mem_iff.mp hs, heq.symm⟩
  exact ⟨hmem (by norm_num) (by norm_num), hmem (by norm_num) (by norm_num)⟩

/-- What every round of the loop of `currentConfiguration` preserves holds at its end. -/
theorem Configuration.search_induction {p : Configuration → Prop} :
    ∀ {rows : List Sample} {found : Configuration}, p found →
      (∀ s ∈ rows, ∀ found, p found → p (found.fill s)) → p (found.search rows)
  | [], _, hp, _ => hp
  | s :: rows, found, hp, hfill => by
    obtain ⟨hs, hrows⟩ := List.forall_mem_cons.mp hfill
    unfold Configuration.search
    split
    · exact search_induction hp hrows
    · simp only
      split
      · exact hs found hp
      · exact search_induction (hs found hp) hrows

theorem averageMillicores_le {amount seconds m : ℕ} (h : amount ≤ m * seconds) :
    averageMillicores amount seconds ≤ m := by
  unfold averageMillicores
  split
  · exact m.zero_le
  · rename_i hs
    exact (ceilDiv_le_iff (Nat.pos_of_ne_zero hs)).mpr h

/-- A value of the current configuration, kept or filled in by each round, is at most what
the samples give at most. -/
theorem Arises.current_le {b : Basis} {get : Configuration → ℕ} {value : Sample → ℕ} {m : ℕ}
    (h : Arises samples b) (hstart : get {} = 0)
    (hfill : ∀ found s, get (found.fill s) = if get found = 0 then value s else get found)
    (hm : ∀ s ∈ samples, value s ≤ m) : get b.current ≤ m := by
  obtain ⟨first, rest, harranged, rfl⟩ := h
  refine Configuration.search_induction (p := fun found => get found ≤ m) ?_ ?_
  · rw [hstart]
    exact m.zero_le
  · intro s hs found hfound
    rw [hfill]
    split
    · exact hm s (harranged.perm.mem_iff.mp (List.mem_reverse.mp hs))
    · exact hfound

/-- The current requests are at most what the samples ask for at most. -/
theorem Arises.cpuRequest_le {b : Basis} {m : ℕ} (h : Arises samples b)
    (hm : ∀ s ∈ samples, s.cpuRequestCoreMS ≤ m * s.bucketSeconds) : b.current.cpuRequest ≤ m :=
  h.current_le rfl (fun _ _ => rfl) fun s hs => averageMillicores_le (hm s hs)

theorem Arises.memoryRequest_le {b : Basis} {n : ℕ} (h : Arises samples b)
    (hn : ∀ s ∈ samples, s.memoryRequestBytes ≤ n * s.bucketSeconds) : b.current.memoryRequest ≤ n :=
  h.current_le rfl (fun _ _ => rfl) fun s hs => averageMillicores_le (hn s hs)

theorem exists_arises (hne : samples ≠ []) : ∃ b, Arises samples b := by
  have harranged := arranged_sortSlice Order.listed samples
  cases hsorted : sortSlice Order.listed earlier samples with
  | nil =>
    rw [hsorted] at harranged
    exact absurd (List.nil_perm.mp harranged.perm) hne
  | cons first rest =>
    rw [hsorted] at harranged
    exact ⟨_, first, rest, harranged, rfl⟩

theorem outcome_some_iff {r : Recommendation} : Outcome e query samples (some r) ↔
    ∃ b, Arises samples b ∧ b.Worth e ∧ b.recommendation e query = r := by
  constructor
  · rintro ⟨arrangement, harranged, hr⟩
    cases arrangement with
    | nil => cases hr
    | cons first rest =>
      rw [recommend_cons, Option.ite_none_right_eq_some] at hr
      exact ⟨_, ⟨first, rest, harranged, rfl⟩, hr.1, Option.some.inj hr.2⟩
  · rintro ⟨_, ⟨first, rest, harranged, rfl⟩, hworth, rfl⟩
    exact ⟨_, harranged, by rw [recommend_cons, if_pos hworth]⟩

theorem outcome_none_iff (hne : samples ≠ []) : Outcome e query samples none ↔
    ∃ b, Arises samples b ∧ ¬ b.Worth e := by
  constructor
  · rintro ⟨arrangement, harranged, hr⟩
    cases arrangement with
    | nil => exact absurd (List.nil_perm.mp harranged.perm) hne
    | cons first rest =>
      refine ⟨_, ⟨first, rest, harranged, rfl⟩, fun hworth => ?_⟩
      rw [recommend_cons, if_pos hworth] at hr
      cases hr
  · rintro ⟨_, ⟨first, rest, harranged, rfl⟩, hworth⟩
    exact ⟨_, harranged, by rw [recommend_cons, if_neg hworth]⟩

theorem outcome_perm (h : samples.Perm samples') (o : Option Recommendation) :
    Outcome e query samples o ↔ Outcome e query samples' o :=
  exists_congr fun _ => and_congr_left fun _ =>
    ⟨fun ha => ⟨ha.perm.trans h, ha.sorted⟩, fun ha => ⟨ha.perm.trans h.symm, ha.sorted⟩⟩

/-- Nothing comes of samples that are never worth a recommendation. -/
theorem outcome_of_neverWorth (h : NeverWorth e samples) (o : Option Recommendation) :
    Outcome e query samples o ↔ o = none := by
  constructor
  · intro ho
    cases o with
    | none => rfl
    | some r =>
      obtain ⟨b, hb, hworth, -⟩ := outcome_some_iff.mp ho
      exact absurd hworth (h b hb)
  · rintro rfl
    by_cases hnil : samples = []
    · subst hnil
      exact ⟨[], ⟨.nil, .nil⟩, rfl⟩
    · obtain ⟨b, hb⟩ := exists_arises hnil
      exact (outcome_none_iff hnil).mpr ⟨b, hb, h b hb⟩

theorem neverWorth_of_length (h : (samples.length : ℤ) < e.config.minimumSampleCount) :
    NeverWorth e samples := by
  intro b hb hworth
  have := hworth.1
  rw [hb.sampleCount] at this
  omega

theorem le_averageMillicores {amount seconds u : ℕ} (hs : seconds ≠ 0) (h : u * seconds ≤ amount) :
    u ≤ averageMillicores amount seconds := by
  have hpos : 0 < seconds := Nat.pos_of_ne_zero hs
  have hup : amount ≤ ceilDiv amount seconds * seconds := (ceilDiv_le_iff hpos).mp le_rfl
  rw [averageMillicores, if_neg hs]
  exact Nat.le_of_mul_le_mul_right (h.trans hup) hpos

theorem ceilUint64_mono {x y : ℚ} (h : x ≤ y) : ceilUint64 x ≤ ceilUint64 y := by
  unfold ceilUint64
  split
  · exact Nat.zero_le _
  · rename_i hx
    rw [if_neg fun hy => hx (h.trans hy)]
    exact Int.toNat_le_toNat (Int.ceil_mono h)

/-- A greater use with its headroom asks for no less. A factor below zero gives zero. -/
theorem maxUint64_headroom_mono {floor u p : ℕ} {factor : ℚ} (h : u ≤ p) :
    maxUint64 floor (ceilUint64 (u * factor)) ≤ maxUint64 floor (ceilUint64 (p * factor)) := by
  have hceil : ceilUint64 (u * factor) ≤ ceilUint64 (p * factor) := by
    rcases le_total 0 factor with hpos | hneg
    · exact ceilUint64_mono (mul_le_mul_of_nonneg_right (Nat.cast_le.mpr h) hpos)
    · rw [ceilUint64, if_pos (mul_nonpos_of_nonneg_of_nonpos (Nat.cast_nonneg u) hneg)]
      exact Nat.zero_le _
  exact maxUint64_le (le_maxUint64_left _ _) (hceil.trans (le_maxUint64_right _ _))

/-- **Nothing is recommended for an idle target.** -/
theorem Idle.neverWorth (h : Idle e.config samples) (hcounted : ∀ s ∈ samples, s.bucketSeconds ≠ 0) :
    NeverWorth e samples := by
  rintro b hb ⟨-, hcpu, hmemory, husage, hsavings⟩
  obtain ⟨⟨s, hs, hp95⟩, t, ht, hp99⟩ := hb.percentiles
  cases h with
  | noCPURequest h =>
    refine hcpu (Nat.le_zero.mp (hb.cpuRequest_le fun s hs => ?_))
    exact (h s hs).trans_le (Nat.zero_le _)
  | noMemoryRequest h =>
    refine hmemory (Nat.le_zero.mp (hb.memoryRequest_le fun s hs => ?_))
    exact (h s hs).trans_le (Nat.zero_le _)
  | noUsage h =>
    have hcpu0 : b.cpuP95 = 0 :=
      hp95.trans (Nat.le_zero.mp (averageMillicores_le ((h s hs).1.trans_le (Nat.zero_le _))))
    have hmemory0 : b.memoryP99 = 0 :=
      hp99.trans (Nat.le_zero.mp (averageMillicores_le ((h t ht).2.trans_le (Nat.zero_le _))))
    exact husage.elim (fun hne => hne hcpu0) fun hne => hne hmemory0
  | inUse m n u v hmcpu hmmemory hm hn =>
    have hu : u ≤ b.cpuP95 := hp95 ▸ le_averageMillicores (hcounted s hs) (hmcpu s hs).2
    have hv : v ≤ b.memoryP99 := hp99 ▸ le_averageMillicores (hcounted t ht) (hmmemory t ht).2
    have hkeptCPU : b.current.cpuRequest ≤ b.cpuRequest e :=
      (hb.cpuRequest_le fun s hs => (hmcpu s hs).1).trans
        (hm.trans (maxUint64_headroom_mono hu))
    have hkeptMemory : b.current.memoryRequest ≤ b.memoryRequest e :=
      (hb.memoryRequest_le fun s hs => (hmmemory s hs).1).trans
        (hn.trans (maxUint64_headroom_mono hv))
    exact (Basis.smaller_of_savings_pos hsavings).elim (not_lt.mpr hkeptCPU) (not_lt.mpr hkeptMemory)

/-! ### Merging two rows -/

variable {rest merged : List Sample} {key : String}

theorem counted_iff : a.counted = true ↔ a.scopeId ≠ "" ∧ a.bucketSeconds ≠ 0 := by
  simp only [Sample.counted, Bool.not_eq_eq_eq_not, Bool.not_true,
    Bool.or_eq_false_iff, decide_eq_false_iff_not]
  exact and_comm

theorem targetSamples_cons_of_counted (hc : a.counted = true) (hk : targetKey a = key) :
    targetSamples (a :: rest) key = a :: targetSamples rest key :=
  List.filter_cons_of_pos (by rw [hc, hk, decide_eq_true rfl]; rfl)

theorem targetSamples_cons_of_not (h : a.counted = true → targetKey a ≠ key) :
    targetSamples (a :: rest) key = targetSamples rest key := by
  refine List.filter_cons_of_neg fun hand => ?_
  rw [Bool.and_eq_true, decide_eq_true_eq] at hand
  exact h hand.1 hand.2

/-- A row of no seconds is skipped. -/
theorem targetSamples_cons_of_zero (h : a.bucketSeconds = 0) :
    targetSamples (a :: rest) key = targetSamples rest key :=
  targetSamples_cons_of_not fun hcounted => absurd h (counted_iff.mp hcounted).2

theorem mem_targetSamples_cons {s : Sample} (h : s ∈ targetSamples (a :: rest) key) :
    s ∈ a :: targetSamples rest key := by
  rw [targetSamples, List.mem_filter, List.mem_cons] at h
  obtain ⟨rfl | hs, hkept⟩ := h
  · exact List.mem_cons_self
  · exact List.mem_cons_of_mem _ (List.mem_filter.mpr ⟨hs, hkept⟩)

theorem bucketSeconds_ne_zero {s : Sample} (h : s ∈ targetSamples samples key) :
    s.bucketSeconds ≠ 0 := by
  rw [targetSamples, List.mem_filter, Bool.and_eq_true] at h
  exact (counted_iff.mp h.2.1).2

theorem Sample.SameBucket.targetKey_eq (h : a.SameBucket b) : targetKey b = targetKey a := by
  obtain ⟨ht, hc, hs, hi, -⟩ := h
  rw [targetKey, targetKey, ht, hc, hs, hi]

/-- Only the target of the two rows may tell the difference. -/
theorem merge_local (h : a.SameBucket b) (hsamples : samples.Perm (a :: b :: rest))
    (hmerged : merged.Perm (a.merge b :: rest)) :
    (∀ l, Returns e samples query l ↔ Returns e merged query l) ↔
      ∀ o, Outcome e query (targetSamples (a :: b :: rest) (targetKey a)) o ↔
        Outcome e query (targetSamples (a.merge b :: rest) (targetKey a)) o := by
  have hside : ∀ {l l' : List Sample} (key : String), l.Perm l' → ∀ o,
      (Outcome e query (targetSamples l key) o ↔ Outcome e query (targetSamples l' key) o) :=
    fun key hperm => outcome_perm (hperm.filter _)
  rw [returns_congr_iff]
  constructor
  · intro hall o
    rw [← hside _ hsamples, hall, hside _ hmerged]
  · intro htarget key o
    rw [hside _ hsamples, hside _ hmerged]
    by_cases hk : targetKey a = key
    · rw [← hk]
      exact htarget o
    · have hmerge : targetKey (a.merge b) ≠ key := hk
      rw [targetSamples_cons_of_not fun _ => hk,
        targetSamples_cons_of_not fun _ => h.targetKey_eq ▸ hk,
        targetSamples_cons_of_not fun _ => hmerge]

/-- A merge leaves the target as many rows or fewer. -/
theorem length_targetSamples_merge_le (h : a.SameBucket b) :
    (targetSamples (a.merge b :: rest) (targetKey a)).length ≤
      (targetSamples (a :: b :: rest) (targetKey a)).length := by
  have hmerge : targetKey (a.merge b) = targetKey a := rfl
  have hscope : b.scopeId = a.scopeId := h.2.2.2.1.symm
  by_cases hcounted : (a.merge b).counted = true
  · rw [targetSamples_cons_of_counted hcounted hmerge]
    obtain ⟨hid, hseconds⟩ := counted_iff.mp hcounted
    by_cases ha : a.bucketSeconds = 0
    · have hb : b.bucketSeconds ≠ 0 := fun hb => hseconds (Nat.add_eq_zero_iff.mpr ⟨ha, hb⟩)
      rw [targetSamples_cons_of_zero ha,
        targetSamples_cons_of_counted (counted_iff.mpr ⟨hscope ▸ hid, hb⟩) h.targetKey_eq]
      rfl
    · have hcounted : a.counted = true := counted_iff.mpr ⟨hid, ha⟩
      rw [targetSamples_cons_of_counted hcounted rfl]
      exact Nat.succ_le_succ ((List.sublist_cons_self b rest).filter _).length_le
  · rw [targetSamples_cons_of_not fun hc => absurd hc hcounted]
    exact (((List.sublist_cons_self b rest).cons a).filter _).length_le

/-- A row of no seconds may stand second as well. -/
theorem outcome_of_zero_right (h : b.bucketSeconds = 0) (o : Option Recommendation) :
    Outcome e query (targetSamples (a :: b :: rest) key) o ↔
      Outcome e query (targetSamples (a :: rest) key) o := by
  have hswap : (targetSamples (a :: b :: rest) key).Perm (targetSamples (b :: a :: rest) key) :=
    (List.Perm.swap b a rest).filter _
  rw [outcome_perm hswap, targetSamples_cons_of_zero h]

/-- Nothing comes of an idle target, of all or of some of its rows. -/
theorem Idle.outcome_iff (h : Idle e.config rows)
    (hsub : ∀ s ∈ targetSamples samples key, s ∈ rows) (o : Option Recommendation) :
    Outcome e query (targetSamples samples key) o ↔ o = none :=
  outcome_of_neverWorth ((h.mono hsub).neverWorth fun _ => bucketSeconds_ne_zero) o

/-- **A merge shows.** If both rows count, the engine can return the same before and after
only when it recommends nothing for their target. -/
theorem merge_shows (h : a.SameBucket b) (hsamples : samples.Perm (a :: b :: rest))
    (hmerged : merged.Perm (a.merge b :: rest)) (ha : a.counted = true) (hb : b.counted = true)
    (hall : ∀ l, Returns e samples query l ↔ Returns e merged query l) {l : List Recommendation}
    (hl : Returns e samples query l) : ∀ r ∈ l, r.targetKey ≠ targetKey a := by
  intro r hr hkey
  obtain ⟨orders, rfl⟩ := hl
  have hbefore : Outcome e query (targetSamples (a :: b :: rest) (targetKey a)) (some r) := by
    refine (outcome_perm (hsamples.filter _) _).mp ?_
    exact ⟨_, arranged_sortSlice _ _, hkey ▸ ((listing_generate orders).mem_iff r).mp hr⟩
  have hafter := ((merge_local h hsamples hmerged).mp hall _).mp hbefore
  -- the recommendation has the number of the rows
  have hcount : ∀ {samples : List Sample}, Outcome e query samples (some r) →
      r.sampleCount = samples.length := by
    intro samples ho
    obtain ⟨basis, hbasis, -, rfl⟩ := outcome_some_iff.mp ho
    exact hbasis.sampleCount
  have hsum : (a.merge b).counted = true := by
    obtain ⟨hid, hseconds⟩ := counted_iff.mp ha
    exact counted_iff.mpr ⟨hid, fun hsum => hseconds (Nat.add_eq_zero_iff.mp hsum).1⟩
  have hmerge : targetKey (a.merge b) = targetKey a := rfl
  have hlength := (hcount hbefore).symm.trans (hcount hafter)
  rw [targetSamples_cons_of_counted ha rfl, targetSamples_cons_of_counted hb h.targetKey_eq,
    targetSamples_cons_of_counted hsum hmerge, List.length_cons, List.length_cons,
    List.length_cons] at hlength
  omega

/-! ### Half an hour and the other half -/

/-- Half an hour of a container that asks for a core and uses some of it. -/
def halfHour (millicores : ℕ) : Sample where
  tenantId := "t"
  clusterId := "c"
  scopeType := "container"
  scopeId := "p/main"
  bucketStart := 0
  bucketSeconds := 1800
  cpuUsageCoreMS := millicores * 1800
  cpuRequestCoreMS := 1000 * 1800
  cpuLimitCoreMS := 0
  memoryWorkingSetBytes := 1800
  memoryRequestBytes := 1800
  memoryLimitBytes := 0

end Recommendations
end KubeCost
