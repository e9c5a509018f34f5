/-
# The recommendation table

`services/recommendations/facts.go`, its `SaveRecommendations`, and the table
`kube_cost.recommendation` of migration 005: the engine's recommendations are written
as facts in status `open`, whose version is the time they are saved at. The table is
a `ReplacingMergeTree(version)`; `select` is the query by which the workflow service
reads a recommendation.

A new row changes only what is read of its own recommendation
(`select_append_of_ne`). With the target of the row that is read, it is not seen when
its version is lower (`select_append_of_lower`) and is read from then on when it is not
(`select_append_of_le`).
-/
import KubeCost.Hash
import KubeCost.Recommendations.Engine
import KubeCost.Replacing

namespace KubeCost
namespace Recommendations

open Replacing

/-! ### Facts -/

/-- The values of the column `status`. The code knows the first six. -/
inductive Status
  | opened
  | acknowledged
  | approved
  | rejected
  | suppressed
  | executing
  | other (text : String)
deriving DecidableEq

/-- The text of a status in the table and in messages. -/
def Status.text : Status → String
  | .opened => "open"
  | .acknowledged => "acknowledged"
  | .approved => "approved"
  | .rejected => "rejected"
  | .suppressed => "suppressed"
  | .executing => "executing"
  | .other text => text

/-- `recommendationFact`, and the workflow service's `Recommendation`. The four decimals
are exact rationals in both; the workflow service carries them as their texts. -/
structure Fact where
  tenantId : String
  recommendationId : String
  clusterId : String
  namespaceUid : String := ""
  targetKind : String
  targetUid : String
  recommendationType : String
  safetyClass : String
  status : Status
  analysisWindowStart : Instant
  analysisWindowEnd : Instant
  generatedAt : Instant
  expiresAt : Instant
  currentConfiguration : String
  proposedConfiguration : String
  evidence : String
  currency : String
  monthlyGrossSavings : ℚ
  monthlyNetSavings : ℚ
  confidence : ℚ
  riskScore : ℚ
  policyVersion : String := ""
  modelVersion : String
  computationVersion : String
  version : ℕ
deriving DecidableEq

def defaultRecommendationTTL : Instant := 30 * 24 * Instant.hour

def recommendationId (recommendation : Recommendation) : String :=
  Hash.uuidSHA1 (recommendation.tenantId ++ "\x00" ++ (recommendation.clusterId ++ "\x00" ++
    (recommendation.scopeType ++ "\x00" ++ (recommendation.scopeId ++ "\x00" ++
      (recommendation.analysisWindowStart.rfc3339Nano ++ "\x00" ++
        (recommendation.analysisWindowEnd.rfc3339Nano ++ "\x00" ++
          recommendation.computationVersion))))))

/-- `json.Marshal` of a map of numbers; the keys come sorted. -/
def marshalNumbers (fields : List (String × ℕ)) : String :=
  "\x7b" ++ String.intercalate "," (fields.map fun field =>
    "\"" ++ field.1 ++ "\":" ++ toString field.2) ++ "\x7d"

/-- The body of the loop of `recommendationFacts`; the marshalling of numbers does not
fail. -/
def fact (generatedAt : Instant) (recommendation : Recommendation) : Fact where
  tenantId := recommendation.tenantId
  recommendationId := recommendationId recommendation
  clusterId := recommendation.clusterId
  targetKind := recommendation.scopeType
  targetUid := recommendation.scopeId
  recommendationType := "rightsizing"
  safetyClass := "review_required"
  status := .opened
  analysisWindowStart := recommendation.analysisWindowStart
  analysisWindowEnd := recommendation.analysisWindowEnd
  generatedAt := generatedAt
  expiresAt := generatedAt + defaultRecommendationTTL
  currentConfiguration := marshalNumbers
    [("cpu_limit_millicores", recommendation.currentCPULimitMillicores),
      ("cpu_request_millicores", recommendation.currentCPURequestMillicores),
      ("memory_limit_bytes", recommendation.currentMemoryLimitBytes),
      ("memory_request_bytes", recommendation.currentMemoryRequestBytes)]
  proposedConfiguration := marshalNumbers
    [("cpu_limit_millicores", recommendation.recommendedCPULimitMillicores),
      ("cpu_request_millicores", recommendation.recommendedCPURequestMillicores),
      ("memory_limit_bytes", recommendation.recommendedMemoryLimitBytes),
      ("memory_request_bytes", recommendation.recommendedMemoryRequestBytes)]
  evidence := marshalNumbers
    [("cpu_usage_p95_millicores", recommendation.cpuUsageP95Millicores),
      ("memory_working_set_p99_bytes", recommendation.memoryWorkingSetP99Bytes),
      ("sample_count", recommendation.sampleCount)]
  currency := "USD"
  monthlyGrossSavings := recommendation.estimatedMonthlySavingsUSD
  monthlyNetSavings := recommendation.estimatedMonthlySavingsUSD
  confidence := 70 / 100
  riskScore := 30 / 100
  modelVersion := computationVersionV1
  computationVersion := recommendation.computationVersion
  version := generatedAt.unixNano

def recommendationFacts (recommendations : List Recommendation) (generatedAt : Instant) :
    List Fact :=
  recommendations.map (fact generatedAt)

/-- What is left of a fact in the columns: `DateTime` keeps the seconds of the window,
`DateTime64(3)` the milliseconds of the other times. -/
def Fact.row (fact : Fact) : Fact :=
  { fact with
    analysisWindowStart := fact.analysisWindowStart.truncate 1000000000
    analysisWindowEnd := fact.analysisWindowEnd.truncate 1000000000
    generatedAt := fact.generatedAt.truncate 1000000
    expiresAt := fact.expiresAt.truncate 1000000 }

/-- The errors of the driver while a batch is written. -/
structure BatchFaults where
  prepare : Option String := none
  append : Option String := none
  send : Option String := none
deriving DecidableEq

/-- A batch is written when none of its steps fails. -/
def BatchFaults.attempts (faults : BatchFaults) (what : String) : Except String Unit := do
  attempt ("prepare " ++ what ++ " batch") faults.prepare
  attempt ("append " ++ what ++ " row") faults.append
  attempt ("send " ++ what ++ " batch") faults.send

/-- `SaveRecommendations`: the table after it. -/
def saveRecommendations (faults : BatchFaults) (now : Instant)
    (recommendations : List Recommendation) (table : List Fact) : Except String (List Fact) := do
  if recommendations = [] then
    .ok table
  else
    faults.attempts "recommendation"
    .ok (table ++ (recommendationFacts recommendations now).map Fact.row)

/-- A run of the worker (`main.go`): its configuration, what `Samples` returns, and the
two times at which it reads the clock. -/
structure WorkerRun where
  tenantId : String
  clusterId : String
  config : EngineConfig
  orders : Orders
  now : Instant
  samples : Query → Instant → Except String (List Sample)
  savedAt : Instant
  faults : BatchFaults := {}

def WorkerRun.recommendations (run : WorkerRun) : Except String (List Recommendation) :=
  (newEngine run.config).recommendations run.orders run.now run.samples
    { tenantId := run.tenantId, clusterId := run.clusterId }

/-- The table after the run, which ends at its first error. -/
def WorkerRun.save (run : WorkerRun) (table : List Fact) :
    Except String (List Fact) := do
  let recommendations ← run.recommendations
  saveRecommendations run.faults run.savedAt recommendations table

/-- The rows that the run writes when the database works. -/
def WorkerRun.rows (run : WorkerRun) : List Fact :=
  match run.recommendations with
  | .error _ => []
  | .ok recommendations => (recommendationFacts recommendations run.savedAt).map Fact.row

/-! ### The table -/

/-- `ORDER BY` of the table. -/
def Fact.sortingKey (row : Fact) : String × String × String × String × String × String :=
  (row.tenantId, row.clusterId, row.recommendationType, row.targetKind, row.targetUid,
    row.recommendationId)

/-- `ReplacingMergeTree(version)`. -/
def byVersion (a b : Fact) : Bool := a.version ≤ b.version

/-- `WHERE tenant_id = ? AND recommendation_id = ?`. -/
def Fact.isAbout (tenantId recommendationId : String) (row : Fact) : Bool :=
  row.tenantId = tenantId && row.recommendationId = recommendationId

/-- `ORDER BY generated_at DESC`. -/
def Fact.newerFirst (a b : Fact) : Prop := b.generatedAt ≤ a.generatedAt

instance : DecidableRel Fact.newerFirst := fun a b =>
  inferInstanceAs (Decidable (b.generatedAt ≤ a.generatedAt))

/-- `recommendationSelectSQL`. -/
def select (table : List Fact) (tenantId recommendationId : String) : Option Fact :=
  (((final Fact.sortingKey byVersion table).filter (Fact.isAbout tenantId recommendationId)).insertionSort
    Fact.newerFirst).head?

variable {table table' : List Fact} {t id : String} {row new : Fact}

/-! ### What a run writes -/

/-- A batch is written when the driver has no error. -/
theorem attempts_eq_ok {faults : BatchFaults} {what : String} {u : Unit} :
    faults.attempts what = .ok u ↔ faults = {} := by
  obtain ⟨prepare, append, send⟩ := faults
  rw [BatchFaults.attempts, check_bind_ok, check_bind_ok, attempt_eq_ok, attempt_eq_ok,
    attempt_eq_ok, BatchFaults.mk.injEq]

theorem save_eq_ok {run : WorkerRun} (h : run.save table = .ok table') :
    table' = table ++ run.rows := by
  obtain ⟨recommendations, hrec, hsave⟩ := bind_eq_ok.mp h
  rw [WorkerRun.rows, hrec]
  rw [saveRecommendations] at hsave
  split at hsave
  case isTrue hnil =>
    cases hsave
    rw [hnil]
    exact (List.append_nil _).symm
  case isFalse =>
    obtain ⟨-, h⟩ := check_bind_ok.mp hsave
    cases h
    rfl

/-- The worker writes rows in status open, at the version of its clock. -/
theorem mem_rows {run : WorkerRun} (h : row ∈ run.rows) :
    row.status = .opened ∧ row.version = run.savedAt.unixNano := by
  rw [WorkerRun.rows] at h
  split at h
  · exact absurd h List.not_mem_nil
  · obtain ⟨f, hf, rfl⟩ := List.mem_map.mp h
    obtain ⟨recommendation, -, rfl⟩ := List.mem_map.mp hf
    exact ⟨rfl, rfl⟩

/-! ### What is read -/

theorem isAbout_eq_true : row.isAbout t id = true ↔ row.tenantId = t ∧ row.recommendationId = id := by
  rw [Fact.isAbout, Bool.and_eq_true, decide_eq_true_eq, decide_eq_true_eq]

theorem isAbout_self (row : Fact) : row.isAbout row.tenantId row.recommendationId = true :=
  isAbout_eq_true.mpr ⟨rfl, rfl⟩

/-- The sorting key ends with the recommendation. -/
theorem isAbout_congr (h : row.sortingKey = new.sortingKey) (t id : String) :
    row.isAbout t id = new.isAbout t id := by
  simp only [Fact.sortingKey, Prod.mk.injEq] at h
  simp only [Fact.isAbout, h]

theorem mem_final_of_select (h : select table t id = some row) :
    row ∈ final Fact.sortingKey byVersion table ∧ row.isAbout t id = true := by
  have hmem := List.mem_of_mem_head? (Option.mem_def.mpr h)
  exact List.mem_filter.mp ((List.mem_insertionSort _).mp hmem)

theorem mem_of_select (h : select table t id = some row) : row ∈ table :=
  mem_of_mem_final (mem_final_of_select h).1

theorem isAbout_of_select (h : select table t id = some row) : row.isAbout t id = true :=
  (mem_final_of_select h).2

/-- **A row changes only what is read of its own recommendation.** -/
theorem select_append_of_ne (h : new.isAbout t id = false) :
    select (table ++ [new]) t id = select table t id := by
  have hkey : ∀ row : Fact, row.sortingKey = new.sortingKey → row.isAbout t id = false :=
    fun row hrow => (isAbout_congr hrow t id).trans h
  rw [select, final_append, filter_place_of_ne hkey]
  rfl

/-- **A row with a lower version is not seen.** -/
theorem select_append_of_lower (h : select table t id = some row)
    (hkey : new.sortingKey = row.sortingKey) (hlt : new.version < row.version) :
    select (table ++ [new]) t id = some row := by
  have hfind := find?_of_mem_final (mem_final_of_select h).1
  have hplace : place Fact.sortingKey byVersion new (final Fact.sortingKey byVersion table) =
      final Fact.sortingKey byVersion table := by
    rw [← hkey] at hfind
    exact place_of_higher hfind (decide_eq_false (by omega))
  rw [select, final_append, hplace]
  exact h

/-- **A row with no lower version takes the place of the one that is read.** The new row
keeps the time of generation, so the rows stay in their order. -/
theorem select_append_of_le (h : select table t id = some row)
    (hkey : new.sortingKey = row.sortingKey) (hgen : new.generatedAt = row.generatedAt)
    (hle : row.version ≤ new.version) : select (table ++ [new]) t id = some new := by
  obtain ⟨hmem, -⟩ := mem_final_of_select h
  let g : Fact → Fact := fun r => if r.sortingKey = new.sortingKey then new else r
  have hplace : place Fact.sortingKey byVersion new (final Fact.sortingKey byVersion table) =
      (final Fact.sortingKey byVersion table).map g :=
    place_eq_map nodup_final hmem hkey.symm (decide_eq_true hle)
  have habout : ∀ r : Fact, (g r).isAbout t id = r.isAbout t id := by
    intro r
    by_cases hr : r.sortingKey = new.sortingKey
    · rw [show g r = new from if_pos hr, isAbout_congr hr]
    · rw [show g r = r from if_neg hr]
  have htime : ∀ r ∈ final Fact.sortingKey byVersion table, (g r).generatedAt = r.generatedAt := by
    intro r hr
    by_cases hrk : r.sortingKey = new.sortingKey
    · have hrow : r = row := by
        have h₁ := find?_of_mem_final hr
        rw [hrk, hkey, find?_of_mem_final hmem] at h₁
        exact (Option.some.inj h₁).symm
      rw [show g r = new from if_pos hrk, hgen, hrow]
    · rw [show g r = r from if_neg hrk]
  have hfilter : ((final Fact.sortingKey byVersion table).map g).filter (Fact.isAbout t id) =
      ((final Fact.sortingKey byVersion table).filter (Fact.isAbout t id)).map g := by
    rw [List.filter_map]
    exact congrArg _ (List.filter_congr fun r _ => habout r)
  rw [select, final_append, hplace, hfilter,
    ← List.map_insertionSort Fact.newerFirst Fact.newerFirst g, List.head?_map]
  · rw [select] at h
    rw [h, Option.map_some, show g row = new from if_pos hkey.symm]
  · intro a ha b hb
    rw [Fact.newerFirst, Fact.newerFirst, htime a (List.mem_filter.mp ha).1,
      htime b (List.mem_filter.mp hb).1]

end Recommendations
end KubeCost
