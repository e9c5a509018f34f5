/-
# The data quality of a tenant

`services/query/repository.go` counts, for each cluster, the metric facts of the two
sources and takes their latest bucket (`dataQuality`), and `summarizeDataQuality` of
`services/query/server.go` makes one status of it. `status_fresh_iff` says what a fresh
summary means: every signal is fresh by whole seconds, and each of the two sources has a
signal of some cluster.

So a source that one cluster lacks is not missed when another cluster has it, and an age
is compared with the window only after it was cut to whole seconds. `fresh_summary_iff`
says when a fresh summary still means that every cluster is fresh: when there is only one
cluster and every latest bucket is within the window.

The seconds of a duration are a `float64`, which may round an age up to the next second
(`wholeSeconds`). The text of a duration is a parameter.
-/
import Mathlib.Algebra.Order.Field.Rat
import Mathlib.Data.Prod.Lex
import Mathlib.Data.Rat.Floor
import Mathlib.Data.String.Basic
import KubeCost.Relational
import KubeCost.Time

namespace KubeCost
namespace Analytics

open Relational

/-! ### Signals -/

inductive DataStatus
  | fresh
  | stale
  | empty
deriving DecidableEq

/-- A signal; the repository leaves the last four fields to the summary. -/
structure DataQualitySignal where
  source : String
  grain : String
  clusterId : String
  recordCount : ℕ
  latestBucketStart : Option Instant
  latestIngestedAt : Option Instant
  freshnessSeconds : Option ℤ := none
  status : Option DataStatus := none
  warning : String := ""
  expectedFreshnessLimit : String := ""
deriving DecidableEq

/-- The columns of `container_metrics_10s` and `node_metrics_10s` that the query reads. -/
structure MetricFact where
  tenantId : String
  clusterId : String
  bucketStart : Instant
  ingestedAt : Instant

structure MetricTables where
  containerMetrics : List MetricFact
  nodeMetrics : List MetricFact

structure DataQualityQuery where
  tenantId : String
  clusterId : String

/-- `tenantWhere`. -/
def tenantWhere (query : DataQualityQuery) (fact : MetricFact) : Bool :=
  fact.tenantId = query.tenantId && (query.clusterId = "" || fact.clusterId = query.clusterId)

def containerSource : String := "container_metrics_10s"

def nodeSource : String := "node_metrics_10s"

/-- The sources that the summary expects, in the order of its loop. -/
def expectedSources : List String := [containerSource, nodeSource]

/-- The subquery of `dataQualitySQL`: the facts with their source and grain. -/
def sourcedFacts (tables : MetricTables) (query : DataQualityQuery) :
    List ((String × String) × MetricFact) :=
  ((tables.containerMetrics.filter (tenantWhere query)).map fun fact =>
      ((containerSource, "10s"), fact)) ++
    (tables.nodeMetrics.filter (tenantWhere query)).map fun fact => ((nodeSource, "10s"), fact)

/-- `max` of a column. -/
def latestOf (times : List Instant) : Instant := times.max?.getD 0

/-- A row of `dataQualitySQL`, as `DataQuality` scans it. -/
def scanSignal (key : String × String × String) (facts : List ((String × String) × MetricFact)) :
    DataQualitySignal where
  source := key.1
  grain := key.2.1
  clusterId := key.2.2
  recordCount := facts.length
  latestBucketStart :=
    if facts.length > 0 then some (latestOf (facts.map (·.2.bucketStart))) else none
  latestIngestedAt :=
    if facts.length > 0 then some (latestOf (facts.map (·.2.ingestedAt))) else none

/-- `ORDER BY cluster_id, source`. -/
def bySource (a b : DataQualitySignal) : Bool :=
  toLex (a.clusterId, a.source) ≤ toLex (b.clusterId, b.source)

/-- `Repository.DataQuality`, when the database answers. -/
def dataQuality (tables : MetricTables) (query : DataQualityQuery) : List DataQualitySignal :=
  (groupBy (fun fact => (fact.1.1, fact.1.2, fact.2.clusterId)) scanSignal
    (sourcedFacts tables query)).mergeSort bySource

/-! ### Seconds -/

/-- The nearest whole number, of two the even one. -/
def roundEven (q : ℚ) : ℤ :=
  if q - ⌊q⌋ < 1 / 2 ∨ q - ⌊q⌋ = 1 / 2 ∧ ⌊q⌋ % 2 = 0 then ⌊q⌋ else ⌊q⌋ + 1

/-- The exponent of the last of 53 bits of a positive number. -/
def lastBit (q : ℚ) : ℤ :=
  let exponent : ℤ := q.num.toNat.log2 - q.den.log2
  if q < 2 ^ exponent then exponent - 53 else exponent - 52

/-- The nearest `float64`. The seconds of a duration are in the range of the normal numbers,
so there are always 53 bits. -/
def float64 (q : ℚ) : ℚ :=
  if q < 0 then -(roundEven (-q / 2 ^ lastBit (-q)) * 2 ^ lastBit (-q))
  else roundEven (q / 2 ^ lastBit q) * 2 ^ lastBit q

/-- `Duration.Seconds`: the quotient and the sum are rounded. -/
def seconds (d : Instant) : ℚ :=
  float64 (float64 (Int.tdiv d 1000000000) + float64 (float64 (Int.tmod d 1000000000) / 1000000000))

/-- `int64(d.Seconds())`. -/
def wholeSeconds (d : Instant) : ℤ := Int.tdiv (seconds d).num (seconds d).den

-- the last nanosecond of a second is lost once the sum has 25 bits before the point
example : wholeSeconds 16777215999999999 = 16777215 ∧ wholeSeconds 16777216999999999 = 16777217 ∧
    wholeSeconds (-1500000000) = -1 := by decide +kernel

/-! ### The summary -/

structure QualitySummary where
  status : DataStatus
  estimatedPercent : ℕ
  missingScopes : List String := []
  warnings : List String := []
  freshnessWindowSecs : ℤ
deriving DecidableEq

structure DataQualityResult where
  tenantId : String
  clusterId : String
  generatedAt : Instant
  dataThrough : Option Instant := none
  computationVersion : String
  signals : List DataQualitySignal := []
  quality : QualitySummary
deriving DecidableEq

/-- The age of a bucket in whole seconds. -/
def freshnessOf (now latest : Instant) : ℤ :=
  if wholeSeconds (now.sub latest) < 0 then 0 else wholeSeconds (now.sub latest)

/-- The warning is added and the status is no longer fresh. -/
def QualitySummary.warn (quality : QualitySummary) (warning : String) : QualitySummary :=
  { quality with status := .stale, warnings := quality.warnings ++ [warning] }

/-- One round of the loop over the signals; `format` is `Duration.String`. -/
def summarizeSignal (format : Instant → String) (now window : Instant) (result : DataQualityResult)
    (signal : DataQualitySignal) : DataQualityResult :=
  let signal := { signal with expectedFreshnessLimit := format window }
  match (if signal.recordCount = 0 then none else signal.latestBucketStart) with
  | none =>
    { result with
      quality := result.quality.warn (signal.source ++ " has no metric facts")
      signals := result.signals ++
        [{ signal with status := some .empty, warning := "no metric facts found" }] }
  | some latest =>
    let freshness := freshnessOf now latest
    let signal := { signal with freshnessSeconds := some freshness }
    let dataThrough := match result.dataThrough with
      | none => latest
      | some through => if latest < through then latest else through
    if freshness * 1000000000 > window then
      { result with
        quality := result.quality.warn (signal.source ++ " is stale")
        dataThrough := some dataThrough
        signals := result.signals ++ [{ signal with
          status := some .stale, warning := "latest metric bucket is outside freshness window" }] }
    else
      { result with
        dataThrough := some dataThrough
        signals := result.signals ++ [{ signal with status := some .fresh }] }

/-- One round of the loop over the expected sources. -/
def summarizeSource (seen : List String) (result : DataQualityResult) (source : String) :
    DataQualityResult :=
  if source ∈ seen then result
  else
    { result with
      quality := { result.quality.warn (source ++ " has no metric facts") with
        estimatedPercent := 50
        missingScopes := result.quality.missingScopes ++ [source] } }

/-- What the summary starts from. -/
def initialResult (tenantID clusterID : String) (now window : Instant) : DataQualityResult where
  tenantId := tenantID
  clusterId := clusterID
  generatedAt := now
  computationVersion := "data-quality-v1"
  quality :=
    { status := .fresh, estimatedPercent := 100, freshnessWindowSecs := wholeSeconds window }

def summarizeDataQuality (format : Instant → String) (tenantID clusterID : String)
    (now window : Instant) (signals : List DataQualitySignal) : DataQualityResult :=
  let result := initialResult tenantID clusterID now window
  if signals.length = 0 then
    { result with
      quality := { result.quality with
        status := .empty
        estimatedPercent := 0
        missingScopes := ["container_metrics_10s", "node_metrics_10s"]
        warnings := ["no metric facts found for tenant scope"] } }
  else
    expectedSources.foldl (summarizeSource (signals.map (·.source)))
      (signals.foldl (summarizeSignal format now window) result)

/-! ### What fresh means -/

variable {format : Instant → String} {tenantID clusterID : String} {now window : Instant}
  {signals : List DataQualitySignal} {s t : DataQualitySignal}

/-- The signal counts as fresh: it has facts, the latest within the window by whole seconds. -/
def IsFresh (now window : Instant) (signal : DataQualitySignal) : Prop :=
  signal.recordCount ≠ 0 ∧ ∃ latest, signal.latestBucketStart = some latest ∧
    freshnessOf now latest * 1000000000 ≤ window

/-- A loop that asks the same of every element. -/
theorem foldl_fresh {α : Type} {step : DataQualityResult → α → DataQualityResult} {p : α → Prop}
    (h : ∀ result a, (step result a).quality.status = .fresh ↔
      result.quality.status = .fresh ∧ p a) :
    ∀ (l : List α) (result : DataQualityResult), (l.foldl step result).quality.status = .fresh ↔
      result.quality.status = .fresh ∧ ∀ a ∈ l, p a
  | [], result => by simp
  | a :: l, result => by
    rw [List.foldl_cons, foldl_fresh h l, h, List.forall_mem_cons, and_assoc]

theorem summarizeSignal_fresh (result : DataQualityResult) (signal : DataQualitySignal) :
    (summarizeSignal format now window result signal).quality.status = .fresh ↔
      result.quality.status = .fresh ∧ IsFresh now window signal := by
  unfold summarizeSignal IsFresh
  by_cases hcount : signal.recordCount = 0
  · simp [hcount, QualitySummary.warn]
  · cases hlatest : signal.latestBucketStart with
    | none => simp [hcount, QualitySummary.warn]
    | some latest =>
      by_cases hage : freshnessOf now latest * 1000000000 > window
      · simp [hcount, hage, QualitySummary.warn]
      · simp [hcount, hage, not_lt.mp hage]

theorem summarizeSource_fresh (seen : List String) (result : DataQualityResult) (source : String) :
    (summarizeSource seen result source).quality.status = .fresh ↔
      result.quality.status = .fresh ∧ source ∈ seen := by
  unfold summarizeSource
  by_cases h : source ∈ seen
  · simp [h]
  · simp [h, QualitySummary.warn]

/-- **A fresh summary**: every signal is fresh, and each source has a signal of some cluster. -/
theorem status_fresh_iff :
    (summarizeDataQuality format tenantID clusterID now window signals).quality.status = .fresh ↔
      (∀ s ∈ signals, IsFresh now window s) ∧
        ∀ source ∈ expectedSources, ∃ s ∈ signals, s.source = source := by
  unfold summarizeDataQuality
  cases signals with
  | nil =>
    constructor
    · intro h
      cases h
    · rintro ⟨-, hseen⟩
      obtain ⟨s, hs, -⟩ := hseen containerSource List.mem_cons_self
      exact absurd hs List.not_mem_nil
  | cons first rest =>
    simp only [List.length_cons, Nat.succ_ne_zero, if_false]
    rw [foldl_fresh (summarizeSource_fresh _), foldl_fresh summarizeSignal_fresh]
    simp only [initialResult, true_and, List.mem_map]

/-! ### Every cluster -/

/-- The lists that the repository returns: at most one signal for a source and a cluster. -/
structure Returnable (signals : List DataQualitySignal) : Prop where
  sources : ∀ s ∈ signals, s.source ∈ expectedSources
  distinct : (signals.map fun s => (s.source, s.clusterId)).Nodup

theorem mem_sourcedFacts {tables : MetricTables} {query : DataQualityQuery}
    {fact : (String × String) × MetricFact} (h : fact ∈ sourcedFacts tables query) :
    fact.1.1 ∈ expectedSources ∧ fact.1.2 = "10s" ∧ tenantWhere query fact.2 = true := by
  rcases List.mem_append.mp h with h | h
  · obtain ⟨f, hf, rfl⟩ := List.mem_map.mp h
    exact ⟨List.mem_cons_self, rfl, (List.mem_filter.mp hf).2⟩
  · obtain ⟨f, hf, rfl⟩ := List.mem_map.mp h
    exact ⟨List.mem_cons_of_mem _ List.mem_cons_self, rfl, (List.mem_filter.mp hf).2⟩

theorem mem_dataQuality {tables : MetricTables} {query : DataQualityQuery}
    (h : s ∈ dataQuality tables query) : s.source ∈ expectedSources ∧ s.grain = "10s" ∧
      (query.clusterId ≠ "" → s.clusterId = query.clusterId) := by
  obtain ⟨fact, hfact, rfl⟩ := mem_groupBy.mp ((List.mergeSort_perm _ _).mem_iff.mp h)
  obtain ⟨hsource, hgrain, hwhere⟩ := mem_sourcedFacts hfact
  refine ⟨hsource, hgrain, fun hfilter => ?_⟩
  simp only [tenantWhere, Bool.and_eq_true, Bool.or_eq_true, decide_eq_true_eq] at hwhere
  exact hwhere.2.resolve_left hfilter

/-- **The repository returns such lists.** -/
theorem dataQuality_returnable (tables : MetricTables) (query : DataQualityQuery) :
    Returnable (dataQuality tables query) where
  sources := fun _ h => (mem_dataQuality h).1
  distinct := by
    have hkeys : ((dataQuality tables query).map fun s => (s.source, s.grain, s.clusterId)).Nodup := by
      refine ((List.mergeSort_perm _ _).map _).nodup_iff.mpr ?_
      exact nodup_groupBy fun _ _ => rfl
    refine List.pairwise_map.mpr ((List.pairwise_map.mp hkeys).imp_of_mem ?_)
    intro a b ha hb hne heq
    obtain ⟨-, hgrain, -⟩ := mem_dataQuality ha
    obtain ⟨-, hgrain', -⟩ := mem_dataQuality hb
    rw [Prod.mk.injEq] at heq
    exact hne (by rw [heq.1, heq.2, hgrain, hgrain'])

/-- Every cluster of the list has facts of both sources, the latest within the window. -/
def EveryClusterFresh (now window : Instant) (signals : List DataQualitySignal) : Prop :=
  ∀ s ∈ signals, ∀ source ∈ expectedSources, ∃ s' ∈ signals, s'.clusterId = s.clusterId ∧
    s'.source = source ∧ s'.recordCount ≠ 0 ∧
    ∃ latest, s'.latestBucketStart = some latest ∧ now - latest ≤ window

/-- Without one of the signals of a cluster that keeps the other the summary is not fresh. -/
def EachNeeded (format : Instant → String) (tenantID clusterID : String) (now window : Instant)
    (signals : List DataQualitySignal) : Prop :=
  ∀ s ∈ signals, (∃ s' ∈ signals, s'.clusterId = s.clusterId ∧ s'.source ≠ s.source) →
    (summarizeDataQuality format tenantID clusterID now window (signals.erase s)).quality.status ≠
      .fresh

/-- The signals are of one cluster. -/
def OneCluster (signals : List DataQualitySignal) : Prop :=
  ∀ s ∈ signals, ∀ t ∈ signals, s.clusterId = t.clusterId

/-- Every latest bucket is within the window. -/
def WithinWindow (now window : Instant) (signals : List DataQualitySignal) : Prop :=
  ∀ s ∈ signals, ∀ latest, s.latestBucketStart = some latest → now - latest ≤ window

theorem Returnable.eq_of_mem (h : Returnable signals) (hs : s ∈ signals) (ht : t ∈ signals)
    (hsource : s.source = t.source) (hcluster : s.clusterId = t.clusterId) : s = t :=
  List.inj_on_of_nodup_map h.distinct hs ht (by simp only [hsource, hcluster])

theorem Returnable.nodup (h : Returnable signals) : signals.Nodup := h.distinct.of_map

/-- With two clusters, a signal that another cluster has too is not missed. -/
theorem not_eachNeeded
    (hfresh : ∀ s ∈ signals, IsFresh now window s) (hevery : EveryClusterFresh now window signals)
    (hs : s ∈ signals) (ht : t ∈ signals) (hne : s.clusterId ≠ t.clusterId) :
    ¬ EachNeeded format tenantID clusterID now window signals := by
  obtain ⟨a, ha, hacluster, hasource, -⟩ := hevery s hs containerSource List.mem_cons_self
  obtain ⟨b, hb, hbcluster, hbsource, -⟩ := hevery s hs nodeSource
    (List.mem_cons_of_mem _ List.mem_cons_self)
  obtain ⟨c, hc, hccluster, hcsource, -⟩ := hevery t ht containerSource List.mem_cons_self
  have hdistinct : b.source ≠ a.source := by
    rw [hasource, hbsource]
    decide
  intro hneeded
  refine hneeded a ha ⟨b, hb, hbcluster.trans hacluster.symm, hdistinct⟩ (status_fresh_iff.mpr ⟨?_, ?_⟩)
  · exact fun r hr => hfresh r (List.mem_of_mem_erase hr)
  · -- the node metrics of the cluster stay, and the other cluster has container metrics
    have hb' : b ∈ signals.erase a := (List.mem_erase_of_ne fun h => hdistinct (by rw [h])).mpr hb
    have hc' : c ∈ signals.erase a := (List.mem_erase_of_ne fun h => hne (by
      rw [← hacluster, ← h, hccluster])).mpr hc
    intro source hsource
    rcases List.mem_pair.mp hsource with rfl | rfl
    · exact ⟨c, hc', hcsource⟩
    · exact ⟨b, hb', hbsource⟩

/-- **When a fresh summary means that every cluster is fresh.** For every tenant, cluster
filter, window, instant and list that the repository can return: both sources of every
cluster of a fresh summary are fresh and none of them can go unnoticed, exactly if some
signal is not fresh, or one of the sources has no signal at all, or there is one cluster
and its latest buckets are within the window. -/
theorem fresh_summary_iff (format : Instant → String) (tenantID clusterID : String)
    (now window : Instant) (signals : List DataQualitySignal) (h : Returnable signals) :
    ((summarizeDataQuality format tenantID clusterID now window signals).quality.status = .fresh →
      EveryClusterFresh now window signals ∧
        EachNeeded format tenantID clusterID now window signals) ↔
    ((∃ s ∈ signals, ¬ IsFresh now window s) ∨
      (∃ source ∈ expectedSources, ∀ s ∈ signals, s.source ≠ source) ∨
      OneCluster signals ∧ WithinWindow now window signals) := by
  constructor
  · intro hclaim
    by_cases hfresh : ∀ s ∈ signals, IsFresh now window s
    · by_cases hseen : ∀ source ∈ expectedSources, ∃ s ∈ signals, s.source = source
      · obtain ⟨hevery, hneeded⟩ := hclaim (status_fresh_iff.mpr ⟨hfresh, hseen⟩)
        refine .inr (.inr ⟨fun s hs t ht => ?_, fun s hs latest hlatest => ?_⟩)
        · by_contra hne
          exact not_eachNeeded hfresh hevery hs ht hne hneeded
        · obtain ⟨s', hs', hcluster, hsource, -, latest', hlatest', hage⟩ :=
            hevery s hs s.source (h.sources s hs)
          obtain rfl := h.eq_of_mem hs' hs hsource hcluster
          obtain rfl := Option.some.inj (hlatest'.symm.trans hlatest)
          exact hage
      · push Not at hseen
        exact .inr (.inl hseen)
    · push Not at hfresh
      exact .inl hfresh
  · intro hwhen hstatus
    obtain ⟨hfresh, hseen⟩ := status_fresh_iff.mp hstatus
    -- the first two cases are those of a summary that is not fresh
    have hcluster : OneCluster signals ∧ WithinWindow now window signals := by
      rcases hwhen with ⟨s, hs, hnot⟩ | ⟨source, hsource, hnone⟩ | hcluster
      · exact absurd (hfresh s hs) hnot
      · obtain ⟨s, hs, heq⟩ := hseen source hsource
        exact absurd heq (hnone s hs)
      · exact hcluster
    obtain ⟨hone, hwindow⟩ := hcluster
    constructor
    · intro s hs source hsource
      obtain ⟨s', hs', rfl⟩ := hseen source hsource
      obtain ⟨hcount, latest, hlatest, -⟩ := hfresh s' hs'
      exact ⟨s', hs', hone s' hs' s hs, rfl, hcount, latest, hlatest, hwindow s' hs' latest hlatest⟩
    · intro s hs _ hrest
      -- the only signal of its source is gone
      obtain ⟨s', hs', hsource⟩ := (status_fresh_iff.mp hrest).2 s.source (h.sources s hs)
      obtain ⟨hne, hs'⟩ := h.nodup.mem_erase_iff.mp hs'
      exact hne (h.eq_of_mem hs' hs hsource (hone s' hs' s hs))

/-- A lookup for one cluster has signals of that cluster only. -/
theorem dataQuality_oneCluster (tables : MetricTables) {query : DataQualityQuery}
    (hfilter : query.clusterId ≠ "") : OneCluster (dataQuality tables query) := by
  intro s hs t ht
  rw [(mem_dataQuality hs).2.2 hfilter, (mem_dataQuality ht).2.2 hfilter]

/-! ### A cluster behind another -/

/-- A signal with one fact, just now. -/
def signalOf (source clusterId : String) : DataQualitySignal :=
  ⟨source, "10s", clusterId, 1, some 0, some 0, none, none, "", ""⟩

theorem signalOf_withinWindow (source clusterId : String) : ∀ latest,
    (signalOf source clusterId).latestBucketStart = some latest → 0 - latest ≤ 600000000000 := by
  intro latest h
  obtain rfl := Option.some.inj h
  decide

/-- A fresh summary of one cluster. -/
theorem fresh_summary_iff_single :
    Returnable [signalOf containerSource "a", signalOf nodeSource "a"] ∧
    EveryClusterFresh 0 600000000000 [signalOf containerSource "a", signalOf nodeSource "a"] := by
  have hreturnable : Returnable [signalOf containerSource "a", signalOf nodeSource "a"] :=
    ⟨by decide, by decide⟩
  have hone : OneCluster [signalOf containerSource "a", signalOf nodeSource "a"] := by
    unfold OneCluster
    decide
  have hwindow : WithinWindow 0 600000000000
      [signalOf containerSource "a", signalOf nodeSource "a"] := by
    intro s hs
    rcases List.mem_pair.mp hs with rfl | rfl <;> exact signalOf_withinWindow _ _
  exact ⟨hreturnable, ((fresh_summary_iff (fun _ => "10m0s") "t" "" 0 600000000000 _
    hreturnable).mpr (.inr (.inr ⟨hone, hwindow⟩)) (by decide +kernel)).1⟩

/-- One cluster has container metrics only and the other node metrics only. -/
def maskingTables : MetricTables := ⟨[⟨"t", "a", 0, 0⟩], [⟨"t", "b", 0, 0⟩]⟩

theorem dataQuality_maskingTables : dataQuality maskingTables ⟨"t", ""⟩ =
    [signalOf containerSource "a", signalOf nodeSource "b"] := by
  have hgroups : groupBy (fun fact => (fact.1.1, fact.1.2, fact.2.clusterId)) scanSignal
      (sourcedFacts maskingTables ⟨"t", ""⟩) =
      [signalOf containerSource "a", signalOf nodeSource "b"] := by decide +kernel
  rw [dataQuality, hgroups]
  exact List.mergeSort_of_pairwise (by decide)

/-- **The summary is fresh, though neither cluster has both sources.** -/
theorem fresh_masks_missing :
    (summarizeDataQuality (fun _ => "10m0s") "t" "" 0 600000000000
      (dataQuality maskingTables ⟨"t", ""⟩)).quality.status = .fresh ∧
    ¬ EveryClusterFresh 0 600000000000 (dataQuality maskingTables ⟨"t", ""⟩) := by
  rw [dataQuality_maskingTables]
  refine ⟨by decide +kernel, fun hevery => ?_⟩
  obtain ⟨s, hs, hcluster, hsource, -⟩ := hevery (signalOf containerSource "a") List.mem_cons_self
    nodeSource (List.mem_cons_of_mem _ List.mem_cons_self)
  rcases List.mem_pair.mp hs with rfl | rfl
  · exact absurd hsource (by decide)
  · exact absurd hcluster (by decide)

end Analytics
end KubeCost
