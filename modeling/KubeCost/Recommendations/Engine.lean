/-
# The rightsizing engine

`services/recommendations/engine.go`: `generate` groups the hourly samples by
container and makes of each group with enough samples at most one recommendation,
from the 95th percentile of its CPU use and the 99th of its memory use. `float64` is
read as an exact rational and `uint64` as ℕ: the engine divides, multiplies by small
factors and takes differences of `uint64`s, and adds none up.

Go visits a map in any order, and `sort.Slice` may put equal elements in any order:
both are parameters (`Orders`).
-/
import Mathlib.Algebra.Order.Field.Rat
import Mathlib.Data.List.Sort
import Mathlib.Data.Rat.Floor
import KubeCost.Checks
import KubeCost.Keyed
import KubeCost.Text
import KubeCost.Time

namespace KubeCost
namespace Recommendations

open Keyed

/-! ### Types -/

structure Query where
  tenantId : String
  clusterId : String := ""
  endTime : Instant := Instant.zero
deriving DecidableEq

structure Sample where
  tenantId : String
  clusterId : String
  scopeType : String
  scopeId : String
  bucketStart : Instant
  bucketSeconds : ℕ
  cpuUsageCoreMS : ℕ
  cpuRequestCoreMS : ℕ
  cpuLimitCoreMS : ℕ
  memoryWorkingSetBytes : ℕ
  memoryRequestBytes : ℕ
  memoryLimitBytes : ℕ
deriving DecidableEq

structure Recommendation where
  tenantId : String
  clusterId : String
  scopeType : String
  scopeId : String
  analysisWindowStart : Instant
  analysisWindowEnd : Instant
  cpuUsageP95Millicores : ℕ
  memoryWorkingSetP99Bytes : ℕ
  currentCPURequestMillicores : ℕ
  recommendedCPURequestMillicores : ℕ
  currentMemoryRequestBytes : ℕ
  recommendedMemoryRequestBytes : ℕ
  currentCPULimitMillicores : ℕ
  recommendedCPULimitMillicores : ℕ
  currentMemoryLimitBytes : ℕ
  recommendedMemoryLimitBytes : ℕ
  estimatedMonthlySavingsUSD : ℚ
  sampleCount : ℕ
  computationVersion : String
deriving DecidableEq

structure EngineConfig where
  analysisWindow : Instant := 0
  cpuRequestHeadroom : ℚ := 0
  memoryRequestHeadroom : ℚ := 0
  cpuLimitMultiplier : ℚ := 0
  memoryLimitMultiplier : ℚ := 0
  minCPUMillicores : ℕ := 0
  minMemoryBytes : ℕ := 0
  cpuCoreHourUSD : ℚ := 0
  memoryGiBHourUSD : ℚ := 0
  minimumSampleCount : ℤ := 0
deriving DecidableEq

def defaultAnalysisWindow : Instant := 30 * 24 * Instant.hour
def defaultCPURequestHeadroom : ℚ := 115 / 100
def defaultMemoryRequestHeadroom : ℚ := 120 / 100
def defaultCPULimitMultiplier : ℚ := 2
def defaultMemoryLimitMultiplier : ℚ := 3 / 2
def defaultMinCPUMillicores : ℕ := 10
def defaultMinMemoryBytes : ℕ := 64 * 1024 * 1024
def defaultMonthlyHours : ℚ := 730
def defaultCPUCoreHourUSD : ℚ := 3 / 100
def defaultMemoryGiBHourUSD : ℚ := 4 / 1000
def computationVersionV1 : String := "optimization-v1-cpu-p95-memory-p99"

/-- The order in which the engine visits its map, and those in which `sort.Slice` leaves
equal samples and equal recommendations. -/
structure Orders where
  targets : Order (List Sample)
  samples : Order Sample
  recommendations : Order Recommendation

/-- `sort.Slice`, which is not stable: what a stable sort makes of the elements in some
order. -/
def sortSlice {α : Type} (order : Order α) (less : α → α → Bool) (l : List α) : List α :=
  (order.visit l).insertionSort fun a b => less b a = false

/-! ### Configuration and query -/

/-- `if x <= 0 { x = fallback }`. -/
def positiveOr {α : Type} [LE α] [Zero α] [DecidableLE α] (fallback x : α) : α :=
  if x ≤ 0 then fallback else x

def normalizeConfig (config : EngineConfig) : EngineConfig where
  analysisWindow := positiveOr defaultAnalysisWindow config.analysisWindow
  cpuRequestHeadroom := positiveOr defaultCPURequestHeadroom config.cpuRequestHeadroom
  memoryRequestHeadroom := positiveOr defaultMemoryRequestHeadroom config.memoryRequestHeadroom
  cpuLimitMultiplier := positiveOr defaultCPULimitMultiplier config.cpuLimitMultiplier
  memoryLimitMultiplier := positiveOr defaultMemoryLimitMultiplier config.memoryLimitMultiplier
  minCPUMillicores := positiveOr defaultMinCPUMillicores config.minCPUMillicores
  minMemoryBytes := positiveOr defaultMinMemoryBytes config.minMemoryBytes
  cpuCoreHourUSD := positiveOr defaultCPUCoreHourUSD config.cpuCoreHourUSD
  memoryGiBHourUSD := positiveOr defaultMemoryGiBHourUSD config.memoryGiBHourUSD
  minimumSampleCount := positiveOr 24 config.minimumSampleCount

def errInvalidQuery : String := "invalid optimization query"

def normalizeQuery (query : Query) (now window : Instant) : Except String Query := do
  let tenantId := trimSpace query.tenantId
  rejectIf (tenantId = "") (errInvalidQuery ++ ": tenant_id is required")
  rejectIf (window ≤ 0) (errInvalidQuery ++ ": analysis window must be positive")
  .ok
    { tenantId
      clusterId := trimSpace query.clusterId
      endTime :=
        if query.endTime = Instant.zero then Instant.truncate now Instant.hour
        else query.endTime }

/-! ### Numbers -/

def ceilDiv (value divisor : ℕ) : ℕ := if value = 0 then 0 else (value - 1) / divisor + 1

def averageMillicores (coreMilliseconds seconds : ℕ) : ℕ :=
  if seconds = 0 then 0 else ceilDiv coreMilliseconds seconds

def averageBytes (byteSeconds seconds : ℕ) : ℕ :=
  if seconds = 0 then 0 else ceilDiv byteSeconds seconds

def ceilUint64 (value : ℚ) : ℕ := if value ≤ 0 then 0 else ⌈value⌉.toNat

def maxUint64 (left right : ℕ) : ℕ := if left > right then left else right

def positiveDelta (current recommended : ℕ) : ℕ :=
  if current ≤ recommended then 0 else current - recommended

/-- `math.Round`, halves away from zero. -/
def mathRound (value : ℚ) : ℤ := if 0 ≤ value then ⌊value + 1 / 2⌋ else ⌈value - 1 / 2⌉

def roundMoney (value : ℚ) : ℚ := mathRound (value * 1000000) / 1000000

/-- `percentile`, by the nearest rank. -/
def percentile (values : List ℕ) (quantile : ℚ) : ℕ :=
  let sorted := values.insertionSort (· ≤ ·)
  let index := ⌈quantile * sorted.length⌉ - 1
  let index := if index < 0 then 0 else index
  let index := if (sorted.length : ℤ) ≤ index then (sorted.length : ℤ) - 1 else index
  -- there is no value at the index only when there are no values: the source returns 0
  (sorted[index.toNat]?).getD 0

/-! ### One target -/

structure Configuration where
  cpuRequest : ℕ := 0
  memoryRequest : ℕ := 0
  cpuLimit : ℕ := 0
  memoryLimit : ℕ := 0
deriving DecidableEq

/-- The body of the loop of `currentConfiguration`: a sample gives the values that no
later sample gave. -/
def Configuration.fill (found : Configuration) (sample : Sample) : Configuration where
  cpuRequest := if found.cpuRequest = 0
    then averageMillicores sample.cpuRequestCoreMS sample.bucketSeconds else found.cpuRequest
  memoryRequest := if found.memoryRequest = 0
    then averageBytes sample.memoryRequestBytes sample.bucketSeconds else found.memoryRequest
  cpuLimit := if found.cpuLimit = 0
    then averageMillicores sample.cpuLimitCoreMS sample.bucketSeconds else found.cpuLimit
  memoryLimit := if found.memoryLimit = 0
    then averageBytes sample.memoryLimitBytes sample.bucketSeconds else found.memoryLimit

/-- The loop of `currentConfiguration`; the samples come the latest first. -/
def Configuration.search (found : Configuration) : List Sample → Configuration
  | [] => found
  | sample :: earlier =>
    if sample.bucketSeconds = 0 then search found earlier
    else
      let found := found.fill sample
      if found.cpuRequest > 0 ∧ found.memoryRequest > 0 ∧ found.cpuLimit > 0 ∧ found.memoryLimit > 0
      then found
      else search found earlier

def currentConfiguration (samples : List Sample) : Configuration :=
  Configuration.search {} samples.reverse

structure Engine where
  config : EngineConfig

def newEngine (config : EngineConfig) : Engine := ⟨normalizeConfig config⟩

def Engine.estimatedMonthlySavings (e : Engine) (currentCPU recommendedCPU currentMemory
    recommendedMemory : ℕ) : ℚ :=
  let cpuSavings := (positiveDelta currentCPU recommendedCPU : ℚ) / 1000 *
    e.config.cpuCoreHourUSD * defaultMonthlyHours
  let memorySavings := (positiveDelta currentMemory recommendedMemory : ℚ) / 1073741824 *
    e.config.memoryGiBHourUSD * defaultMonthlyHours
  roundMoney (cpuSavings + memorySavings)

/-- `recommend`, `none` where the source returns false. It is only called with the
samples of a target, of which there is at least one. -/
def Engine.recommend (e : Engine) (samples : List Sample) (query : Query) : Option Recommendation :=
  match samples with
  | [] => none
  | first :: _ =>
    if (samples.length : ℤ) < e.config.minimumSampleCount then none
    else
      let cpuP95 := percentile (samples.map fun sample =>
        averageMillicores sample.cpuUsageCoreMS sample.bucketSeconds) (95 / 100)
      let memoryP99 := percentile (samples.map fun sample =>
        averageBytes sample.memoryWorkingSetBytes sample.bucketSeconds) (99 / 100)
      let current := currentConfiguration samples
      if current.cpuRequest = 0 ∨ current.memoryRequest = 0 ∨ (cpuP95 = 0 ∧ memoryP99 = 0) then none
      else
        let cpuRequest := maxUint64 e.config.minCPUMillicores
          (ceilUint64 (cpuP95 * e.config.cpuRequestHeadroom))
        let memoryRequest := maxUint64 e.config.minMemoryBytes
          (ceilUint64 (memoryP99 * e.config.memoryRequestHeadroom))
        let savings := e.estimatedMonthlySavings current.cpuRequest cpuRequest
          current.memoryRequest memoryRequest
        if savings ≤ 0 then none
        else some
          { tenantId := first.tenantId
            clusterId := first.clusterId
            scopeType := first.scopeType
            scopeId := first.scopeId
            analysisWindowStart := query.endTime - e.config.analysisWindow
            analysisWindowEnd := query.endTime
            cpuUsageP95Millicores := cpuP95
            memoryWorkingSetP99Bytes := memoryP99
            currentCPURequestMillicores := current.cpuRequest
            recommendedCPURequestMillicores := cpuRequest
            currentMemoryRequestBytes := current.memoryRequest
            recommendedMemoryRequestBytes := memoryRequest
            currentCPULimitMillicores := current.cpuLimit
            recommendedCPULimitMillicores :=
              maxUint64 cpuRequest (ceilUint64 (cpuRequest * e.config.cpuLimitMultiplier))
            currentMemoryLimitBytes := current.memoryLimit
            recommendedMemoryLimitBytes :=
              maxUint64 memoryRequest (ceilUint64 (memoryRequest * e.config.memoryLimitMultiplier))
            estimatedMonthlySavingsUSD := savings
            sampleCount := samples.length
            computationVersion := computationVersionV1 }

/-! ### All targets -/

def targetKey (sample : Sample) : String :=
  sample.tenantId ++ "\x00" ++ (sample.clusterId ++ "\x00" ++
    (sample.scopeType ++ "\x00" ++ sample.scopeId))

/-- The samples that `generate` does not skip. -/
def Sample.counted (sample : Sample) : Bool := !(sample.bucketSeconds = 0 || sample.scopeId = "")

def byTarget (samples : List Sample) : Map String (List Sample) :=
  collect Sample.counted targetKey (fun sample group => group.getD [] ++ [sample]) samples ∅

/-- The greatest savings come first. -/
def Recommendation.less (a b : Recommendation) : Bool :=
  if a.estimatedMonthlySavingsUSD ≠ b.estimatedMonthlySavingsUSD then
    a.estimatedMonthlySavingsUSD > b.estimatedMonthlySavingsUSD
  else if a.clusterId ≠ b.clusterId then a.clusterId < b.clusterId
  else a.scopeId < b.scopeId

def Engine.generate (e : Engine) (orders : Orders) (samples : List Sample) (query : Query) :
    List Recommendation :=
  let groups := orders.targets.visit (values (byTarget samples))
  let recommendations := groups.filterMap fun group =>
    e.recommend (sortSlice orders.samples (fun a b => a.bucketStart < b.bucketStart) group) query
  sortSlice orders.recommendations Recommendation.less recommendations

/-- `Recommendations`; `samples` is what the repository's `Samples` returns. -/
def Engine.recommendations (e : Engine) (orders : Orders) (now : Instant)
    (samples : Query → Instant → Except String (List Sample)) (query : Query) :
    Except String (List Recommendation) := do
  let query ← normalizeQuery query now e.config.analysisWindow
  let samples ← samples query e.config.analysisWindow
  .ok (e.generate orders samples query)

end Recommendations
end KubeCost
