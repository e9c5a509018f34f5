/-
# The rollups of the metrics

Migration `003_metric_rollups.sql`. What is inserted into `container_metrics_10s` or
`node_metrics_10s` goes through a chain of views, block by block: a row for each scope and five
minutes, of these a row for each hour, of these a row for each day. The tables they write to are
`SummingMergeTree`s, which merge rows in the background, and rows are deleted when their time to
live is over. Nothing writes to them but the views.

`Cascade` is what the two chains differ in, and `World` the three tables of one of them. A run
inserts blocks, merges and deletes rows in any order. `Cascade.total_eq` says that a bucket
that has not expired has the sum of all rows that were ever inserted for it, at every level and
in the arithmetic of `UInt64`, whatever was merged. The tables of days are sorted by the day and
not by the bucket: that suffices since their buckets begin with the day (`World.Aligned`).
-/
import Mathlib.Data.Fintype.Pi
import Mathlib.Data.UInt
import KubeCost.Machine
import KubeCost.Rfc3339
import KubeCost.Summing

namespace KubeCost
namespace Rollups

open Summing

/-! ### Buckets -/

inductive Level
  | fiveMinutes
  | hour
  | day
deriving DecidableEq

def Level.seconds : Level → ℕ
  | .fiveMinutes => 300
  | .hour => 3600
  | .day => 86400

/-- `toStartOfFiveMinutes`, `toStartOfHour` and `toStartOfDay` of a `DateTime('UTC')`. -/
def Level.startOf (level : Level) (t : ℕ) : ℕ := t - t % level.seconds

/-- The days of a month. -/
def daysIn (year : ℤ) (month : ℕ) : ℕ :=
  (Instant.dayNumber (if month = 12 then year + 1 else year) (if month = 12 then 1 else month + 1) 1 -
    Instant.dayNumber year month 1).toNat

/-- `+ INTERVAL n MONTH`: the day of the month, or the last that there is. -/
def addMonths (n t : ℕ) : ℕ :=
  let (year, month, day) := Instant.civil (t / 86400 : ℕ)
  let months := year * 12 + (month - 1 : ℕ) + n
  let year' := months / 12
  let month' := (months % 12).toNat + 1
  (Instant.dayNumber year' month' (min day (daysIn year' month'))).toNat * 86400 + t % 86400

/-- The end of the time to live of a bucket. A `DateTime` has 32 bits, which end in the year
2106; the sum is not cut to them. -/
def Level.expiry : Level → ℕ → ℕ
  | .fiveMinutes, t => t + 90 * 86400
  | .hour, t => addMonths 25 t
  | .day, t => addMonths (7 * 12) t

example : Level.hour.expiry (365 * 86400) = (3 * 365 + 1 + 31) * 86400 := by decide

/-- The columns of a row that are not summed: what it is about, and its bucket. -/
@[ext]
structure Key (ι : Type) where
  identity : ι
  bucketStart : ℕ
deriving DecidableEq

/-- `ORDER BY`, up to the order of the columns: the table of days has no `bucket_start`. -/
def Level.sortKey {ι : Type} (level : Level) (k : Key ι) : ι × ℕ × Option ℕ :=
  (k.identity, k.bucketStart / 86400, match level with
    | .day => none
    | _ => some k.bucketStart)

theorem startOf_hour_fiveMinutes (t : ℕ) :
    Level.hour.startOf (Level.fiveMinutes.startOf t) = Level.hour.startOf t := by
  simp only [Level.startOf, Level.seconds]
  omega

theorem startOf_day_hour (t : ℕ) : Level.day.startOf (Level.hour.startOf t) = Level.day.startOf t := by
  simp only [Level.startOf, Level.seconds]
  omega

theorem startOf_self (level : Level) (t : ℕ) : level.startOf (level.startOf t) = level.startOf t := by
  cases level <;> simp only [Level.startOf, Level.seconds] <;> omega

/-- The sorting key tells buckets apart that begin as the level has it. -/
theorem eq_of_sortKey {ι : Type} {level : Level} {k k' : Key ι}
    (hk : level.startOf k.bucketStart = k.bucketStart)
    (hk' : level.startOf k'.bucketStart = k'.bucketStart) (h : level.sortKey k = level.sortKey k') :
    k = k' := by
  obtain ⟨identity, bucketStart⟩ := k
  obtain ⟨identity', bucketStart'⟩ := k'
  simp only [Level.sortKey, Prod.mk.injEq] at h
  obtain ⟨rfl, hday, hbucket⟩ := h
  rw [Key.mk.injEq]
  refine ⟨rfl, ?_⟩
  cases level with
  | fiveMinutes => exact Option.some.inj hbucket
  | hour => exact Option.some.inj hbucket
  | day =>
    simp only [Level.startOf, Level.seconds] at hk hk'
    omega

/-! ### The chain of views -/

/-- What a chain is made of: the raw rows, what a row is about, and what is summed. -/
structure Cascade (ρ ι M : Type) where
  /-- `ARRAY JOIN … WHERE`. -/
  identities : ρ → List ι
  bucketStart : ρ → ℕ
  value : ρ → M

section Chain

variable {ρ ι M : Type} (C : Cascade ρ ι M)

/-- The rows of a block, one for each thing that a row is about. -/
def Cascade.joined (block : List ρ) : List (ι × ρ) :=
  block.flatMap fun row => (C.identities row).map fun identity => (identity, row)

/-- The key of a row at a level. -/
def Cascade.key (level : Level) (x : ι × ρ) : Key ι := ⟨x.1, level.startOf (C.bucketStart x.2)⟩

/-- The bucket of a level that a bucket is in. -/
def Key.within (level : Level) (k : Key ι) : Key ι := ⟨k.identity, level.startOf k.bucketStart⟩

theorem within_hour_key (x : ι × ρ) : (C.key .fiveMinutes x).within .hour = C.key .hour x := by
  simp only [Key.within, Cascade.key, startOf_hour_fiveMinutes]

theorem within_day_key (x : ι × ρ) : (C.key .hour x).within .day = C.key .day x := by
  simp only [Key.within, Cascade.key, startOf_day_hour]

variable [AddCommMonoid M]

/-- The sum of the raw rows whose key at a level passes a test. -/
def Cascade.sum (level : Level) (p : Key ι → Bool) (rows : List ρ) : M :=
  (((C.joined rows).filter fun x => p (C.key level x)).map fun x => C.value x.2).sum

variable {C}

theorem sum_append (level : Level) (p : Key ι → Bool) (rows rows' : List ρ) :
    C.sum level p (rows ++ rows') = C.sum level p rows + C.sum level p rows' := by
  rw [Cascade.sum, Cascade.joined, List.flatMap_append, List.filter_append, List.map_append,
    List.sum_append]
  rfl

/-- A test that one identity of a row passes, or none. -/
theorem sum_eq_of_length {level : Level} {p : Key ι → Bool} {q : ρ → Bool}
    (h : ∀ row, ((C.identities row).filter fun i => p (C.key level (i, row))).length =
      if q row then 1 else 0) (rows : List ρ) :
    C.sum level p rows = ((rows.filter q).map C.value).sum := by
  induction rows with
  | nil => rfl
  | cons row rows ih =>
    have hone : C.sum level p [row] = if q row then C.value row else 0 := by
      have hjoined : ((C.joined [row]).filter fun x => p (C.key level x)) =
          ((C.identities row).filter fun i => p (C.key level (i, row))).map fun i => (i, row) := by
        rw [Cascade.joined, List.flatMap_singleton, List.filter_map]
        rfl
      have hlength := h row
      rw [Cascade.sum, hjoined, List.map_map]
      rcases hl : (C.identities row).filter fun i => p (C.key level (i, row)) with _ | ⟨i, _ | ⟨j, l⟩⟩
      · rw [hl] at hlength
        cases hq : q row with
        | false => rfl
        | true => rw [hq] at hlength; cases hlength
      · rw [hl] at hlength
        cases hq : q row with
        | false => rw [hq] at hlength; cases hlength
        | true => exact add_zero _
      · rw [hl] at hlength
        cases hq : q row <;> rw [hq] at hlength <;> cases hlength
    rw [← List.singleton_append, sum_append, ih, hone, List.filter_append, List.map_append,
      List.sum_append]
    congr 1
    cases hq : q row with
    | false => rw [List.filter_singleton, hq]; rfl
    | true => rw [List.filter_singleton, hq]; exact (add_zero _).symm

variable (C) [DecidableEq ι]

/-- The view that makes the rows of a level from those of the level before. -/
def coarser (level : Level) (rows : List (Key ι × M)) : List (Key ι × M) :=
  aggregate (fun r => r.1.within level) Prod.snd rows

/-- What the views write for a block that is inserted. -/
def Cascade.views (block : List ρ) : Level → List (Key ι × M)
  | .fiveMinutes => aggregate (C.key .fiveMinutes) (fun x => C.value x.2) (C.joined block)
  | .hour => coarser .hour
      (aggregate (C.key .fiveMinutes) (fun x => C.value x.2) (C.joined block))
  | .day => coarser .day (coarser .hour
      (aggregate (C.key .fiveMinutes) (fun x => C.value x.2) (C.joined block)))

variable {C}

theorem total_coarser (p : Key ι → Bool) (level : Level) (rows : List (Key ι × M)) :
    total p (coarser level rows) = total (fun k => p (k.within level)) rows :=
  total_aggregate _ _ rows

/-- Each view has the sums of the block. -/
theorem total_views (level : Level) (p : Key ι → Bool) (block : List ρ) :
    total p (C.views block level) = C.sum level p block := by
  cases level with
  | fiveMinutes => exact total_aggregate _ _ _
  | hour =>
    rw [Cascade.views, total_coarser, total_aggregate]
    simp only [within_hour_key]
    rfl
  | day =>
    rw [Cascade.views, total_coarser, total_coarser, total_aggregate]
    simp only [within_hour_key, within_day_key]
    rfl

/-- The views write buckets that begin as their level has it. -/
theorem aligned_views {level : Level} {block : List ρ} {r : Key ι × M}
    (h : r ∈ C.views block level) : level.startOf r.1.bucketStart = r.1.bucketStart := by
  cases level with
  | fiveMinutes | hour | day =>
    obtain ⟨x, -, hkey⟩ := key_of_mem_aggregate h
    rw [hkey]
    exact startOf_self _ _

/-! ### The tables -/

/-- The tables of a chain, all that was ever inserted, and the latest time at which rows were
deleted. -/
structure World (ρ ι M : Type) where
  inserted : List ρ
  table : Level → List (Key ι × M)
  now : ℕ

def World.initial : World ρ ι M := ⟨[], fun _ => [], 0⟩

inductive Action (ρ : Type)
  /-- A block is inserted into the raw table. -/
  | insert (block : List ρ)
  /-- Some rows of a table are merged. -/
  | merge (level : Level) (marks : List Bool)
  /-- Some rows are deleted, of those that have expired. -/
  | expire (level : Level) (now : ℕ) (marks : List Bool)

variable [DecidableEq M] (C)

def step (w : World ρ ι M) : Action ρ → Option (World ρ ι M)
  | .insert block => some { w with
      inserted := w.inserted ++ block
      table := fun level => w.table level ++ C.views block level }
  | .merge level marks => (mergeRows level.sortKey marks (w.table level)).map fun rows =>
      { w with table := Function.update w.table level rows }
  | .expire level now marks =>
    if (split marks (w.table level)).1.all fun r => level.expiry r.1.bucketStart ≤ now then
      some { w with
        table := Function.update w.table level (split marks (w.table level)).2
        now := max w.now now }
    else none

variable {C}

/-- Buckets begin as their level has it. -/
def World.Aligned (w : World ρ ι M) : Prop :=
  ∀ level, ∀ r ∈ w.table level, level.startOf r.1.bucketStart = r.1.bucketStart

/-- The test is passed only by buckets that have not expired. -/
def World.Kept (w : World ρ ι M) (level : Level) (p : Key ι → Bool) : Prop :=
  ∀ k, p k = true → w.now < level.expiry k.bucketStart

/-- The buckets that have not expired are complete. -/
def World.Complete (C : Cascade ρ ι M) (w : World ρ ι M) : Prop :=
  ∀ level p, w.Kept level p → total p (w.table level) = C.sum level p w.inserted

variable {w w' : World ρ ι M}

theorem step_aligned {a : Action ρ} (h : w.Aligned) (hs : step C w a = some w') : w'.Aligned := by
  cases a with
  | insert block =>
    cases hs
    intro level r hr
    rcases List.mem_append.mp hr with hr | hr
    · exact h level r hr
    · exact aligned_views hr
  | merge level marks =>
    obtain ⟨rows, hrows, rfl⟩ := Option.map_eq_some_iff.mp hs
    intro level' r hr
    by_cases hl : level' = level
    · subst hl
      simp only [Function.update_self] at hr
      obtain ⟨r₀, hr₀, hkey⟩ := key_of_mem_mergeRows hrows hr
      rw [← hkey]
      exact h level' r₀ hr₀
    · simp only [Function.update_of_ne hl] at hr
      exact h level' r hr
  | expire level now marks =>
    simp only [step, Option.ite_none_right_eq_some] at hs
    obtain ⟨-, hs⟩ := hs
    cases hs
    intro level' r hr
    by_cases hl : level' = level
    · subst hl
      simp only [Function.update_self] at hr
      exact h level' r ((split_perm marks _).mem_iff.mpr (List.mem_append_right _ hr))
    · simp only [Function.update_of_ne hl] at hr
      exact h level' r hr

theorem step_complete {a : Action ρ} (haligned : w.Aligned) (h : w.Complete C)
    (hs : step C w a = some w') : w'.Complete C := by
  cases a with
  | insert block =>
    cases hs
    intro level p hp
    simp only [total_append, total_views, sum_append, h level p hp]
  | merge level marks =>
    obtain ⟨rows, hrows, rfl⟩ := Option.map_eq_some_iff.mp hs
    intro level' p hp
    by_cases hl : level' = level
    · subst hl
      simp only [Function.update_self]
      rw [total_mergeRows (fun r hr r' hr' => eq_of_sortKey (haligned level' r hr)
        (haligned level' r' hr')) hrows]
      exact h level' p hp
    · simp only [Function.update_of_ne hl]
      exact h level' p hp
  | expire level now marks =>
    simp only [step, Option.ite_none_right_eq_some] at hs
    obtain ⟨hexpired, hs⟩ := hs
    cases hs
    intro level' p hp
    have hbefore : w.Kept level' p := fun k hk => lt_of_le_of_lt (le_max_left _ _) (hp k hk)
    by_cases hl : level' = level
    · subst hl
      simp only [Function.update_self]
      -- a row that passes the test has not expired
      have hnone : total p (split marks (w.table level')).1 = 0 := by
        refine total_eq_zero fun r hr => Bool.eq_false_iff.mpr fun hpass => ?_
        have hle := of_decide_eq_true (List.all_eq_true.mp hexpired r hr)
        exact absurd (lt_of_le_of_lt (le_max_right _ _) (hp r.1 hpass)) (not_lt.mpr hle)
      rw [← h level' p hbefore, total_perm (split_perm marks (w.table level')), total_append, hnone,
        zero_add]
    · simp only [Function.update_of_ne hl]
      exact h level' p hbefore

/-- **Buckets have the sums of all rows that were ever inserted for them**, in every run, until
they expire. -/
theorem Cascade.total_eq (C : Cascade ρ ι M)
    (h : Machine.Reach (step C) Machine.Always World.initial w) {level : Level} {p : Key ι → Bool}
    (hp : w.Kept level p) : total p (w.table level) = C.sum level p w.inserted := by
  have hboth : w.Aligned ∧ w.Complete C := by
    refine h.invariant (I := fun w => w.Aligned ∧ w.Complete C) ⟨?_, ?_⟩ ?_
    · exact fun _ r hr => absurd hr List.not_mem_nil
    · exact fun _ _ _ => rfl
    · exact fun _ _ _ hw _ hs => ⟨step_aligned hw.1 hs, step_complete hw.1 hw.2 hs⟩
  exact hboth.2 level p hp

end Chain

/-! ### Scopes -/

/-- `container_metrics_10s`, the columns that the view reads. -/
structure ContainerMetrics where
  tenantId : String
  clusterId : String
  namespaceUid : String
  deploymentUid : String
  podUid : String
  containerName : String
  bucketStart : ℕ
  bucketSeconds : UInt16
  cpuUsageCoreMilliseconds : UInt64 := 0
  cpuRequestCoreMilliseconds : UInt64 := 0
  cpuLimitCoreMilliseconds : UInt64 := 0
  memoryWorkingSetByteSeconds : UInt64 := 0
  memoryRequestByteSeconds : UInt64 := 0
  memoryLimitByteSeconds : UInt64 := 0
  networkRxBytes : UInt64 := 0
  networkTxBytes : UInt64 := 0
  filesystemReadBytes : UInt64 := 0
  filesystemWriteBytes : UInt64 := 0
  gpuUsageMilliSeconds : UInt64 := 0
  gpuRequestMilliSeconds : UInt64 := 0
  oomEvents : UInt32 := 0
  cpuThrottledPeriods : UInt32 := 0
  sampleCount : UInt32 := 0
deriving DecidableEq

inductive ScopeType
  | cluster
  | namespace
  | deployment
  | pod
  | container
deriving DecidableEq

def ScopeType.all : List ScopeType := [.cluster, .namespace, .deployment, .pod, .container]

theorem ScopeType.mem_all (scopeType : ScopeType) : scopeType ∈ all := by
  cases scopeType <;> decide

@[ext]
structure Scope where
  tenantId : String
  clusterId : String
  scopeType : ScopeType
  scopeId : String
deriving DecidableEq

/-- The columns of `scope_metrics_5m` that are summed. -/
inductive ScopeMeasure
  | bucketSeconds
  | cpuUsageCoreMilliseconds
  | cpuRequestCoreMilliseconds
  | cpuLimitCoreMilliseconds
  | memoryWorkingSetByteSeconds
  | memoryRequestByteSeconds
  | memoryLimitByteSeconds
  | networkRxBytes
  | networkTxBytes
  | filesystemReadBytes
  | filesystemWriteBytes
  | gpuUsageMilliSeconds
  | gpuRequestMilliSeconds
  | oomEvents
  | cpuThrottledPeriods
  | sampleCount
deriving DecidableEq

def ScopeMeasure.all : List ScopeMeasure :=
  [.bucketSeconds, .cpuUsageCoreMilliseconds, .cpuRequestCoreMilliseconds, .cpuLimitCoreMilliseconds,
    .memoryWorkingSetByteSeconds, .memoryRequestByteSeconds, .memoryLimitByteSeconds, .networkRxBytes,
    .networkTxBytes, .filesystemReadBytes, .filesystemWriteBytes, .gpuUsageMilliSeconds,
    .gpuRequestMilliSeconds, .oomEvents, .cpuThrottledPeriods, .sampleCount]

theorem ScopeMeasure.nodup_all : all.Nodup := by decide

theorem ScopeMeasure.mem_all (measure : ScopeMeasure) : measure ∈ all := by
  cases measure <;> decide

instance : Fintype ScopeMeasure :=
  ⟨⟨ScopeMeasure.all, ScopeMeasure.nodup_all⟩, ScopeMeasure.mem_all⟩

namespace ContainerMetrics

def scopeId (row : ContainerMetrics) : ScopeType → String
  | .cluster => row.clusterId
  | .namespace => row.namespaceUid
  | .deployment => row.deploymentUid
  | .pod => row.podUid
  | .container => row.podUid ++ "/" ++ row.containerName

/-- `ARRAY JOIN […] AS scope WHERE scope.2 != ''`. -/
def scopes (row : ContainerMetrics) : List Scope :=
  (ScopeType.all.filter (row.scopeId · ≠ "")).map fun scopeType =>
    ⟨row.tenantId, row.clusterId, scopeType, row.scopeId scopeType⟩

def measures (row : ContainerMetrics) : ScopeMeasure → UInt64
  | .bucketSeconds => row.bucketSeconds.toUInt64
  | .cpuUsageCoreMilliseconds => row.cpuUsageCoreMilliseconds
  | .cpuRequestCoreMilliseconds => row.cpuRequestCoreMilliseconds
  | .cpuLimitCoreMilliseconds => row.cpuLimitCoreMilliseconds
  | .memoryWorkingSetByteSeconds => row.memoryWorkingSetByteSeconds
  | .memoryRequestByteSeconds => row.memoryRequestByteSeconds
  | .memoryLimitByteSeconds => row.memoryLimitByteSeconds
  | .networkRxBytes => row.networkRxBytes
  | .networkTxBytes => row.networkTxBytes
  | .filesystemReadBytes => row.filesystemReadBytes
  | .filesystemWriteBytes => row.filesystemWriteBytes
  | .gpuUsageMilliSeconds => row.gpuUsageMilliSeconds
  | .gpuRequestMilliSeconds => row.gpuRequestMilliSeconds
  | .oomEvents => row.oomEvents.toUInt64
  | .cpuThrottledPeriods => row.cpuThrottledPeriods.toUInt64
  | .sampleCount => row.sampleCount.toUInt64

end ContainerMetrics

/-- `container_metrics_10s` to `scope_metrics_5m`, `scope_metrics_1h` and `scope_metrics_1d`. -/
def scopeMetrics : Cascade ContainerMetrics Scope (ScopeMeasure → UInt64) where
  identities := ContainerMetrics.scopes
  bucketStart := ContainerMetrics.bucketStart
  value := ContainerMetrics.measures

/-- A test that only the scopes of one type pass. -/
theorem length_filter_scopes (row : ContainerMetrics) {scopeType : ScopeType} {p : Scope → Bool}
    (hp : ∀ scope, p scope = true → scope.scopeType = scopeType) :
    (row.scopes.filter p).length = if row.scopeId scopeType ≠ "" ∧
      p ⟨row.tenantId, row.clusterId, scopeType, row.scopeId scopeType⟩ = true then 1 else 0 := by
  have htypes : ∀ (scopeType : ScopeType) (pass : Bool),
      (ScopeType.all.filter fun other => decide (other = scopeType) && pass).length =
        if pass then 1 else 0 := by
    intro scopeType pass
    cases scopeType <;> cases pass <;> rfl
  rw [ContainerMetrics.scopes, List.filter_map, List.length_map, List.filter_filter]
  refine (congrArg List.length (List.filter_congr fun other _ => ?_)).trans
    ((htypes scopeType (decide (row.scopeId scopeType ≠ "" ∧
      p ⟨row.tenantId, row.clusterId, scopeType, row.scopeId scopeType⟩ = true))).trans ?_)
  · by_cases hother : other = scopeType
    · subst hother
      rw [decide_eq_true rfl, Bool.true_and, Bool.decide_and, Bool.decide_eq_true, Bool.and_comm]
      rfl
    · have hfails : p ⟨row.tenantId, row.clusterId, other, row.scopeId other⟩ = false :=
        Bool.eq_false_iff.mpr fun h => hother (hp _ h)
      rw [Function.comp_apply, hfails, decide_eq_false hother, Bool.false_and, Bool.false_and]
  · simp only [decide_eq_true_eq]

/-- A scope is one of a row. -/
theorem mem_scopes {row : ContainerMetrics} {scope : Scope} : scope ∈ row.scopes ↔
    row.tenantId = scope.tenantId ∧ row.clusterId = scope.clusterId ∧
      row.scopeId scope.scopeType = scope.scopeId ∧ scope.scopeId ≠ "" := by
  rw [ContainerMetrics.scopes, List.mem_map]
  constructor
  · rintro ⟨scopeType, hscope, rfl⟩
    exact ⟨rfl, rfl, rfl, of_decide_eq_true (List.mem_filter.mp hscope).2⟩
  · rintro ⟨htenant, hcluster, hid, hne⟩
    refine ⟨scope.scopeType, List.mem_filter.mpr ⟨scope.scopeType.mem_all, decide_eq_true (hid ▸ hne)⟩, ?_⟩
    rw [htenant, hcluster, hid]

variable {w : World ContainerMetrics Scope (ScopeMeasure → UInt64)}

/-- The sum of the rows that pass a test of one type of scope is over the raw rows that have
such a scope. -/
theorem sum_scopeMetrics {level : Level} {p : Key Scope → Bool} {scopeType : ScopeType}
    (hp : ∀ k, p k = true → k.identity.scopeType = scopeType) (rows : List ContainerMetrics) :
    scopeMetrics.sum level p rows = ((rows.filter fun row => row.scopeId scopeType ≠ "" ∧
      p ⟨⟨row.tenantId, row.clusterId, scopeType, row.scopeId scopeType⟩,
        level.startOf row.bucketStart⟩ = true).map ContainerMetrics.measures).sum := by
  refine sum_eq_of_length (fun row => ?_) rows
  refine (length_filter_scopes row fun scope hscope => hp _ hscope).trans (if_congr ?_ rfl rfl)
  rw [decide_eq_true_eq]
  rfl

/-- **A scope's bucket is the sum of the samples of the scope**: in every run, at every level and
until the bucket expires, its rows sum up to the raw rows that were inserted for it. -/
theorem scope_metrics_complete
    (h : Machine.Reach (step scopeMetrics) Machine.Always World.initial w) {level : Level}
    {k : Key Scope} (hk : w.now < level.expiry k.bucketStart) :
    total (· = k) (w.table level) = ((w.inserted.filter fun row =>
      k.identity ∈ row.scopes ∧ level.startOf row.bucketStart = k.bucketStart).map
        ContainerMetrics.measures).sum := by
  have hkept : w.Kept level (· = k) := fun k' hk' => of_decide_eq_true hk' ▸ hk
  rw [scopeMetrics.total_eq h hkept, sum_scopeMetrics fun k' hk' => by rw [of_decide_eq_true hk']]
  congr 2
  refine List.filter_congr fun row _ => decide_eq_decide.mpr ?_
  rw [decide_eq_true_eq, mem_scopes, Key.ext_iff, Scope.ext_iff]
  constructor
  · rintro ⟨hne, ⟨htenant, hcluster, -, hid⟩, hbucket⟩
    exact ⟨⟨htenant, hcluster, hid, fun hempty => hne (hid.trans hempty)⟩, hbucket⟩
  · rintro ⟨⟨htenant, hcluster, hid, hne⟩, hbucket⟩
    exact ⟨fun hempty => hne (hid.symm.trans hempty), ⟨htenant, hcluster, rfl, hid⟩, hbucket⟩

/-- Samples of a container without a deployment. -/
def plainRow (bucketStart : ℕ) : ContainerMetrics where
  tenantId := "t"
  clusterId := "c"
  namespaceUid := "n"
  deploymentUid := ""
  podUid := "p"
  containerName := "x"
  bucketStart := bucketStart
  bucketSeconds := 10
  cpuUsageCoreMilliseconds := 1500
  sampleCount := 1

/-- Two blocks for one hour, the rows of the cluster merged, and those of five minutes deleted. -/
def plainRun : List (Action ContainerMetrics) :=
  [.insert [plainRow 0, plainRow 10], .insert [plainRow 3590],
    .merge .hour [true, false, false, false, true], .expire .fiveMinutes 8640000 [true, true]]

theorem now_plainRun :
    (Machine.run (step scopeMetrics) World.initial plainRun).map (·.now) = some 8640000 := by
  decide +kernel

theorem reach_plainRun : ∃ w, Machine.Reach (step scopeMetrics) Machine.Always World.initial w ∧
    Machine.run (step scopeMetrics) World.initial plainRun = some w ∧ w.now = 8640000 := by
  obtain ⟨w, hw, hnow⟩ := Option.map_eq_some_iff.mp now_plainRun
  exact ⟨w, .of_run (fun _ _ _ => trivial) hw, hw, hnow⟩

theorem scope_metrics_plainRun : ∃ w, Machine.run (step scopeMetrics) World.initial plainRun = some w ∧
    total (· = ⟨⟨"t", "c", .pod, "p"⟩, 0⟩) (w.table .hour) = ((w.inserted.filter fun row =>
      (⟨"t", "c", .pod, "p"⟩ : Scope) ∈ row.scopes ∧ Level.hour.startOf row.bucketStart = 0).map
        ContainerMetrics.measures).sum := by
  obtain ⟨w, hreach, hw, hnow⟩ := reach_plainRun
  have hkept : w.now < Level.hour.expiry 0 := by
    rw [hnow]
    decide
  exact ⟨w, hw, scope_metrics_complete hreach (k := ⟨⟨"t", "c", .pod, "p"⟩, 0⟩) hkept⟩

/-- The buckets of all scopes of a type in a cluster. -/
def ofType (tenantId clusterId : String) (scopeType : ScopeType) (bucketStart : ℕ) (k : Key Scope) :
    Bool :=
  k.identity.tenantId = tenantId ∧ k.identity.clusterId = clusterId ∧
    k.identity.scopeType = scopeType ∧ k.bucketStart = bucketStart

/-- **The scopes of a type make up their cluster**: in every bucket, what the namespaces (or
deployments, pods, containers) of a cluster sum up to and the raw rows without one are the
cluster's sum. -/
theorem scope_totals_agree
    (h : Machine.Reach (step scopeMetrics) Machine.Always World.initial w) {level : Level}
    {tenantId clusterId : String} {bucketStart : ℕ} (hk : w.now < level.expiry bucketStart)
    (hcluster : clusterId ≠ "") (scopeType : ScopeType) :
    total (ofType tenantId clusterId scopeType bucketStart) (w.table level) +
      ((w.inserted.filter fun row => (row.tenantId = tenantId ∧ row.clusterId = clusterId ∧
        level.startOf row.bucketStart = bucketStart) ∧ row.scopeId scopeType = "").map
          ContainerMetrics.measures).sum =
    total (ofType tenantId clusterId .cluster bucketStart) (w.table level) := by
  have hkept : ∀ scopeType, w.Kept level (ofType tenantId clusterId scopeType bucketStart) := by
    intro scopeType k hpass
    rw [(of_decide_eq_true hpass).2.2.2]
    exact hk
  have htype : ∀ scopeType k, ofType tenantId clusterId scopeType bucketStart k = true →
      k.identity.scopeType = scopeType := fun _ k hpass => (of_decide_eq_true hpass).2.2.1
  -- the rows of the bucket, with and without a scope of the type
  have hrows : ∀ scopeType (rows : List ContainerMetrics), (rows.filter fun row =>
      row.scopeId scopeType ≠ "" ∧ ofType tenantId clusterId scopeType bucketStart
        ⟨⟨row.tenantId, row.clusterId, scopeType, row.scopeId scopeType⟩,
          level.startOf row.bucketStart⟩ = true) =
      rows.filter fun row => (row.tenantId = tenantId ∧ row.clusterId = clusterId ∧
        level.startOf row.bucketStart = bucketStart) ∧ row.scopeId scopeType ≠ "" := by
    intro scopeType rows
    refine List.filter_congr fun row _ => decide_eq_decide.mpr ?_
    simp only [ofType, decide_eq_true_eq, true_and]
    exact And.comm
  rw [scopeMetrics.total_eq h (hkept scopeType), scopeMetrics.total_eq h (hkept .cluster),
    sum_scopeMetrics (htype scopeType), sum_scopeMetrics (htype .cluster), hrows, hrows,
    add_comm]
  refine Eq.trans ?_ ((sum_filter_split ContainerMetrics.measures (fun row =>
    row.tenantId = tenantId ∧ row.clusterId = clusterId ∧ level.startOf row.bucketStart = bucketStart)
    (fun row => row.scopeId scopeType = "") w.inserted).trans ?_)
  · rfl
  · congr 2
    refine List.filter_congr fun row _ => decide_eq_decide.mpr ?_
    exact ⟨fun hrow => ⟨hrow, fun hempty => hcluster (hrow.2.1.symm.trans hempty)⟩, fun hrow => hrow.1⟩

theorem scope_totals_plainRun : ∃ w, Machine.run (step scopeMetrics) World.initial plainRun = some w ∧
    total (ofType "t" "c" .deployment 0) (w.table .hour) +
      ((w.inserted.filter fun row => (row.tenantId = "t" ∧ row.clusterId = "c" ∧
        Level.hour.startOf row.bucketStart = 0) ∧ row.scopeId .deployment = "").map
          ContainerMetrics.measures).sum = total (ofType "t" "c" .cluster 0) (w.table .hour) := by
  obtain ⟨w, hreach, hw, hnow⟩ := reach_plainRun
  have hkept : w.now < Level.hour.expiry 0 := by
    rw [hnow]
    decide
  exact ⟨w, hw, scope_totals_agree hreach hkept (by decide) .deployment⟩

/-! ### Nodes -/

/-- `node_metrics_10s`, the columns that the view reads. -/
structure NodeMetrics where
  tenantId : String
  clusterId : String
  nodeUid : String
  bucketStart : ℕ
  bucketSeconds : UInt16
  cpuUsageCoreMilliseconds : UInt64 := 0
  cpuAllocatableCoreMilliseconds : UInt64 := 0
  memoryWorkingSetByteSeconds : UInt64 := 0
  memoryAllocatableByteSeconds : UInt64 := 0
  networkRxBytes : UInt64 := 0
  networkTxBytes : UInt64 := 0
  filesystemReadBytes : UInt64 := 0
  filesystemWriteBytes : UInt64 := 0
  gpuUsageMilliSeconds : UInt64 := 0
  gpuCapacityMilliSeconds : UInt64 := 0
  sampleCount : UInt32 := 0
deriving DecidableEq

@[ext]
structure NodeIdentity where
  tenantId : String
  clusterId : String
  nodeUid : String
deriving DecidableEq

/-- The columns of `node_metrics_5m` that are summed. -/
inductive NodeMeasure
  | bucketSeconds
  | cpuUsageCoreMilliseconds
  | cpuAllocatableCoreMilliseconds
  | memoryWorkingSetByteSeconds
  | memoryAllocatableByteSeconds
  | networkRxBytes
  | networkTxBytes
  | filesystemReadBytes
  | filesystemWriteBytes
  | gpuUsageMilliSeconds
  | gpuCapacityMilliSeconds
  | sampleCount
deriving DecidableEq

def NodeMeasure.all : List NodeMeasure :=
  [.bucketSeconds, .cpuUsageCoreMilliseconds, .cpuAllocatableCoreMilliseconds,
    .memoryWorkingSetByteSeconds, .memoryAllocatableByteSeconds, .networkRxBytes, .networkTxBytes,
    .filesystemReadBytes, .filesystemWriteBytes, .gpuUsageMilliSeconds, .gpuCapacityMilliSeconds,
    .sampleCount]

theorem NodeMeasure.nodup_all : all.Nodup := by decide

theorem NodeMeasure.mem_all (measure : NodeMeasure) : measure ∈ all := by
  cases measure <;> decide

instance : Fintype NodeMeasure := ⟨⟨NodeMeasure.all, NodeMeasure.nodup_all⟩, NodeMeasure.mem_all⟩

def NodeMetrics.measures (row : NodeMetrics) : NodeMeasure → UInt64
  | .bucketSeconds => row.bucketSeconds.toUInt64
  | .cpuUsageCoreMilliseconds => row.cpuUsageCoreMilliseconds
  | .cpuAllocatableCoreMilliseconds => row.cpuAllocatableCoreMilliseconds
  | .memoryWorkingSetByteSeconds => row.memoryWorkingSetByteSeconds
  | .memoryAllocatableByteSeconds => row.memoryAllocatableByteSeconds
  | .networkRxBytes => row.networkRxBytes
  | .networkTxBytes => row.networkTxBytes
  | .filesystemReadBytes => row.filesystemReadBytes
  | .filesystemWriteBytes => row.filesystemWriteBytes
  | .gpuUsageMilliSeconds => row.gpuUsageMilliSeconds
  | .gpuCapacityMilliSeconds => row.gpuCapacityMilliSeconds
  | .sampleCount => row.sampleCount.toUInt64

def NodeMetrics.identity (row : NodeMetrics) : NodeIdentity := ⟨row.tenantId, row.clusterId, row.nodeUid⟩

/-- `node_metrics_10s` to `node_metrics_5m`, `node_metrics_1h` and `node_metrics_1d`. A node
without a uid has its rows, too. -/
def nodeMetrics : Cascade NodeMetrics NodeIdentity (NodeMeasure → UInt64) where
  identities row := [row.identity]
  bucketStart := NodeMetrics.bucketStart
  value := NodeMetrics.measures

/-- **A node's bucket is the sum of the samples of the node.** -/
theorem node_metrics_complete {w : World NodeMetrics NodeIdentity (NodeMeasure → UInt64)}
    (h : Machine.Reach (step nodeMetrics) Machine.Always World.initial w) {level : Level}
    {k : Key NodeIdentity} (hk : w.now < level.expiry k.bucketStart) :
    total (· = k) (w.table level) = ((w.inserted.filter fun row =>
      row.identity = k.identity ∧ level.startOf row.bucketStart = k.bucketStart).map
        NodeMetrics.measures).sum := by
  have hkept : w.Kept level (· = k) := fun k' hk' => of_decide_eq_true hk' ▸ hk
  rw [nodeMetrics.total_eq h hkept]
  refine sum_eq_of_length (fun row => ?_) w.inserted
  have hkey : nodeMetrics.key level (row.identity, row) = k ↔
      row.identity = k.identity ∧ level.startOf row.bucketStart = k.bucketStart := Key.ext_iff
  show ([row.identity].filter fun i => decide (nodeMetrics.key level (i, row) = k)).length = _
  rw [List.filter_singleton, decide_eq_decide.mpr hkey]
  cases decide (row.identity = k.identity ∧ level.startOf row.bucketStart = k.bucketStart) <;> rfl

end Rollups
end KubeCost
