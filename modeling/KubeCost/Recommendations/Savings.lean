/-
# What a recommendation saves

The engine recommends a change if its estimated savings are positive. The estimate adds
up what the smaller requests save and leaves out what a greater request costs, so it is
positive also where the memory request has to grow by more than the CPU request saves.
The documentation says that nothing is recommended that would increase the total cost of
the requests. That is so where neither request has to grow (`reduces_cost`); elsewhere it
depends on whether the smaller request saves what the greater one costs (`reduces_iff`),
which the engine does not look at.
-/
import KubeCost.Recommendations.Coverage

namespace KubeCost
namespace Recommendations

/-! ### Costs -/

namespace EngineConfig

variable (config : EngineConfig)

/-- The hourly cost of a CPU request, and of a memory request. -/
def cpuCost (millicores : ℕ) : ℚ := millicores / 1000 * config.cpuCoreHourUSD

def memoryCost (bytes : ℕ) : ℚ := bytes / 1073741824 * config.memoryGiBHourUSD

/-- The monthly cost of both. -/
def monthlyCost (millicores bytes : ℕ) : ℚ :=
  (config.cpuCost millicores + config.memoryCost bytes) * defaultMonthlyHours

variable {config}

/-- More units at a price cost more. -/
theorem units_lt {unit price : ℚ} (hunit : 0 < unit) (hprice : 0 < price) {m n : ℕ} (hlt : m < n) :
    m / unit * price < n / unit * price := by
  have hq : (m : ℚ) < n := Nat.cast_lt.mpr hlt
  exact mul_lt_mul_of_pos_right (div_lt_div_of_pos_right hq hunit) hprice

theorem cpuCost_lt (h : 0 < config.cpuCoreHourUSD) {m n : ℕ} (hlt : m < n) :
    config.cpuCost m < config.cpuCost n := units_lt (by norm_num) h hlt

theorem memoryCost_lt (h : 0 < config.memoryGiBHourUSD) {m n : ℕ} (hlt : m < n) :
    config.memoryCost m < config.memoryCost n := units_lt (by norm_num) h hlt

theorem monthlyCost_lt_iff {m n m' n' : ℕ} : config.monthlyCost m n < config.monthlyCost m' n' ↔
    config.cpuCost m + config.memoryCost n < config.cpuCost m' + config.memoryCost n' :=
  mul_lt_mul_iff_left₀ (by norm_num [defaultMonthlyHours])

end EngineConfig

theorem positiveOr_pos {fallback x : ℚ} (h : 0 < fallback) : 0 < positiveOr fallback x := by
  unfold positiveOr
  split
  · exact h
  · rename_i hx
    exact not_le.mp hx

/-! ### Growing requests -/

namespace Basis

variable {e : Engine} {b : Basis}

/-- If one of the requests has to grow, the other one saves more than that costs. -/
def GrowthPaid (e : Engine) (b : Basis) : Prop :=
  (b.current.cpuRequest < b.cpuRequest e →
    e.config.cpuCost (b.cpuRequest e) - e.config.cpuCost b.current.cpuRequest <
      e.config.memoryCost b.current.memoryRequest - e.config.memoryCost (b.memoryRequest e)) ∧
  (b.current.memoryRequest < b.memoryRequest e →
    e.config.memoryCost (b.memoryRequest e) - e.config.memoryCost b.current.memoryRequest <
      e.config.cpuCost b.current.cpuRequest - e.config.cpuCost (b.cpuRequest e))

/-- **A recommendation reduces the cost** exactly if a request that grows is paid for. -/
theorem reduces_iff (hcpu : 0 < e.config.cpuCoreHourUSD) (hmemory : 0 < e.config.memoryGiBHourUSD)
    (hsavings : 0 < b.savings e) :
    e.config.monthlyCost (b.cpuRequest e) (b.memoryRequest e) <
      e.config.monthlyCost b.current.cpuRequest b.current.memoryRequest ↔ b.GrowthPaid e := by
  rw [EngineConfig.monthlyCost_lt_iff, GrowthPaid]
  constructor
  · intro h
    exact ⟨fun _ => by linarith, fun _ => by linarith⟩
  · rintro ⟨hc, hm⟩
    rcases lt_trichotomy b.current.cpuRequest (b.cpuRequest e) with hlt | heq | hgt
    · have := hc hlt
      linarith
    · -- the CPU request stays, so it is the memory request that gets smaller
      have hless : b.memoryRequest e < b.current.memoryRequest :=
        (smaller_of_savings_pos hsavings).resolve_left (heq ▸ lt_irrefl _)
      have := EngineConfig.memoryCost_lt hmemory hless
      rw [heq]
      linarith
    · have hcut := EngineConfig.cpuCost_lt hcpu hgt
      rcases lt_trichotomy b.current.memoryRequest (b.memoryRequest e) with hlt | heq | hgt
      · have := hm hlt
        linarith
      · rw [heq]
        linarith
      · have := EngineConfig.memoryCost_lt hmemory hgt
        linarith

end Basis

theorem ceilUint64_le {x : ℚ} {n : ℕ} (h : x ≤ n) : ceilUint64 x ≤ n := by
  unfold ceilUint64
  split
  · exact n.zero_le
  · exact Int.toNat_le.mpr (Int.ceil_le.mpr (by exact_mod_cast h))

/-- If there are enough rows of a target to recommend something, and its requests are known,
then they are as great as the floors and as the percentiles of the use with the headroom. -/
def EngineConfig.Suffice (config : EngineConfig) (rows : List Sample) : Prop :=
  config.minimumSampleCount ≤ rows.length →
  (currentConfiguration rows).cpuRequest ≠ 0 → (currentConfiguration rows).memoryRequest ≠ 0 →
    (config.minCPUMillicores ≤ (currentConfiguration rows).cpuRequest ∧
      percentile (rows.map fun s => averageMillicores s.cpuUsageCoreMS s.bucketSeconds) (95 / 100) *
        config.cpuRequestHeadroom ≤ (currentConfiguration rows).cpuRequest) ∧
    config.minMemoryBytes ≤ (currentConfiguration rows).memoryRequest ∧
      percentile (rows.map fun s => averageBytes s.memoryWorkingSetBytes s.bucketSeconds) (99 / 100) *
        config.memoryRequestHeadroom ≤ (currentConfiguration rows).memoryRequest

instance (config : EngineConfig) (rows : List Sample) : Decidable (config.Suffice rows) :=
  inferInstanceAs (Decidable (_ → _))

/-- An hour of a container that asks for a core and a GiB, and uses a tenth of a core and
the given memory. -/
def busyHour (memory : ℕ) (hour : ℕ) : Sample where
  tenantId := "t"
  clusterId := "c"
  scopeType := "container"
  scopeId := "p/main"
  bucketStart := hour * Instant.hour
  bucketSeconds := 3600
  cpuUsageCoreMS := 100 * 3600
  cpuRequestCoreMS := 1000 * 3600
  cpuLimitCoreMS := 0
  memoryWorkingSetBytes := memory * 3600
  memoryRequestBytes := 1073741824 * 3600
  memoryLimitBytes := 0

end Recommendations
end KubeCost
