/-
# An hour that was computed twice

`namespace_cost_1h` keeps a row for each allocation method and each computation version
of a namespace and an hour, and `costsSQL` sums over all of them. So an hour that is
computed again under a new version is counted twice. `counted_once_iff` says which
contents of the table are counted once: for costs that are not negative, those in which
no namespace-hour of the range has two rows with a cost.
-/
import KubeCost.Analytics.Repository

namespace KubeCost
namespace Analytics

open Relational Replacing

variable {db : Tables} {query : AnalyticsQuery}

/-! ### The rows behind a result -/

/-- The rows that the query is about. -/
def inRange (db : Tables) (query : AnalyticsQuery) : List CostRecord :=
  (currentNamespaceCost db).filter (analyticsWhere query)

/-- The namespace and the hour of a row. -/
def CostRecord.namespaceHour (row : CostRecord) : String × String × Instant :=
  (row.clusterId, row.namespaceUid, row.bucketStart)

/-- The total is that of a single row for each namespace-hour. -/
def CountedOnce (rows : List CostRecord) (total : ℚ) : Prop :=
  ∃ kept, OnePer CostRecord.namespaceHour rows kept ∧ total = (kept.map (·.allocatedCost)).sum

/-- The allocated cost over all groups. -/
def totalAllocated (db : Tables) (query : AnalyticsQuery) : ℚ :=
  ((costGroups db query).map (·.allocatedCost)).sum

theorem nodup_inRange : (inRange db query).Nodup :=
  (List.Nodup.of_map CostRecord.sortingKey nodup_final).filter _

/-- A row is joined with at most one namespace. -/
theorem joined_eq : joined db query = (inRange db query).map fun row =>
    (row, (Inventory.current db.namespaces).find? (onNamespace row)) := by
  have hon : ∀ row : CostRecord, ∀ ns : Inventory.Row OwnerColumns, onNamespace row ns =
      decide (ns.object = (row.tenantId, row.clusterId, row.namespaceUid)) := by
    intro row ns
    rw [Bool.eq_iff_iff]
    simp only [onNamespace, Inventory.Row.object, Bool.and_eq_true, decide_eq_true_eq,
      Prod.mk.injEq, and_assoc]
    constructor
    · rintro ⟨ht, hc, hn⟩
      exact ⟨ht.symm, hc.symm, hn.symm⟩
    · rintro ⟨ht, hc, hn⟩
      exact ⟨ht.symm, hc.symm, hn.symm⟩
  rw [joined, leftJoin_eq_map fun row _ => Inventory.length_filter_current_le (hon row),
    List.filter_map]
  rfl

/-- **The groups have the cost of all rows in the range.** -/
theorem totalAllocated_eq : totalAllocated db query =
    ((inRange db query).map (·.allocatedCost)).sum := by
  have hgroups : (((groupBy (groupedBy query) (costRow (analyticsGroup query.groupBy))
      (joined db query)).filter fun _ => true).map CostRow.allocatedCost).sum =
      (((joined db query).filter fun _ => true).map fun row => row.1.allocatedCost).sum :=
    sum_groupBy (q := fun _ => true) (fun _ _ => rfl) fun _ _ => rfl
  rw [List.filter_true, List.filter_true] at hgroups
  rw [totalAllocated, costGroups, ((List.mergeSort_perm _ _).map _).sum_eq, hgroups, joined_eq,
    List.map_map]
  rfl

/-- **What is counted once.** Whatever the table holds, the total is that of one row for each
namespace-hour exactly if such rows can be chosen that the others cancel out; where no cost
is negative, exactly if no namespace-hour has two rows with a cost. -/
theorem counted_once_iff (db : Tables) (query : AnalyticsQuery) :
    (CountedOnce (inRange db query) (totalAllocated db query) ↔
      ∃ kept, OnePer CostRecord.namespaceHour (inRange db query) kept ∧
        (((inRange db query).filter fun row => row ∉ kept).map (·.allocatedCost)).sum = 0) ∧
    ((∀ row ∈ inRange db query, 0 ≤ row.allocatedCost) →
      (CountedOnce (inRange db query) (totalAllocated db query) ↔
        ∀ row ∈ inRange db query, ∀ row' ∈ inRange db query,
          row.namespaceHour = row'.namespaceHour → row.sortingKey ≠ row'.sortingKey →
          row.allocatedCost = 0 ∨ row'.allocatedCost = 0)) := by
  have hnd : (inRange db query).Nodup := nodup_inRange
  refine ⟨?_, fun hnonneg => ?_⟩
  · rw [CountedOnce, totalAllocated_eq]
    refine exists_congr fun kept => and_congr_right fun hkept => ?_
    rw [hkept.sum_eq hnd, add_eq_left]
  · rw [CountedOnce, totalAllocated_eq, exists_onePer_iff hnd hnonneg]
    refine forall₄_congr fun row hrow row' hrow' => ?_
    -- rows of the view with one sorting key are one row
    have hkeys : row.sortingKey = row'.sortingKey ↔ row = row' := by
      refine ⟨fun hkey => ?_, fun h => h ▸ rfl⟩
      exact List.inj_on_of_nodup_map nodup_final (List.mem_filter.mp hrow).1
        (List.mem_filter.mp hrow').1 hkey
    rw [Ne, Ne, hkeys]

/-! ### One hour -/

/-- A namespace-hour with a cost of one, under a computation version. -/
def plainCost (computationVersion : String) : CostRecord where
  tenantId := "t"
  clusterId := "c"
  namespaceUid := "n"
  namespaceName := "n"
  bucketStart := 0
  allocationMethod := "cpu_request_allocatable"
  currency := "USD"
  cpuRequestCoreMilliseconds := 0
  networkBytes := 0
  allocationWeight := 1
  directCost := 1
  idleCost := 0
  networkCost := 0
  controlPlaneCost := 0
  systemNamespaceCost := 0
  allocatedCost := 1
  computationVersion := computationVersion
  computedAt := 0
  version := 1

def firstHour : AnalyticsQuery := { tenantId := "t", start := 0, stop := Instant.hour }

/-- The same hour, computed when it had no cost yet. -/
def freeCost (computationVersion : String) : CostRecord :=
  { plainCost computationVersion with directCost := 0, allocatedCost := 0 }

/-- Two versions of an hour, of which one has the cost. -/
theorem counted_once_iff_plainCost :
    (inRange ⟨[freeCost "v1", plainCost "v2"], []⟩ firstHour).length = 2 ∧
    CountedOnce (inRange ⟨[freeCost "v1", plainCost "v2"], []⟩ firstHour)
      (totalAllocated ⟨[freeCost "v1", plainCost "v2"], []⟩ firstHour) := by
  have hrows : inRange ⟨[freeCost "v1", plainCost "v2"], []⟩ firstHour =
      [freeCost "v1", plainCost "v2"] := by decide +kernel
  refine ⟨by rw [hrows]; rfl,
    ((counted_once_iff ⟨[freeCost "v1", plainCost "v2"], []⟩ firstHour).2 ?_).mpr ?_⟩
  · rw [hrows]
    decide +kernel
  · rw [hrows]
    decide +kernel

/-- **An hour that is computed again is counted twice.** -/
theorem recomputed_counted_twice :
    totalAllocated ⟨[plainCost "v1", plainCost "v2"], []⟩ firstHour = 2 ∧
    ¬ CountedOnce (inRange ⟨[plainCost "v1", plainCost "v2"], []⟩ firstHour)
      (totalAllocated ⟨[plainCost "v1", plainCost "v2"], []⟩ firstHour) := by
  have hrows : inRange ⟨[plainCost "v1", plainCost "v2"], []⟩ firstHour =
      [plainCost "v1", plainCost "v2"] := by decide +kernel
  have htotal : totalAllocated ⟨[plainCost "v1", plainCost "v2"], []⟩ firstHour = 2 := by
    rw [totalAllocated_eq, hrows]
    decide +kernel
  refine ⟨htotal, ?_⟩
  rw [CountedOnce, totalAllocated_eq, hrows, exists_onePer_iff (by decide +kernel) (by decide +kernel)]
  intro h
  have := h (plainCost "v1") (by decide +kernel) (plainCost "v2") (by decide +kernel) rfl
    (by decide +kernel)
  revert this
  decide +kernel

end Analytics
end KubeCost
