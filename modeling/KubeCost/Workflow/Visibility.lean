/-
# What a command that succeeds leaves to read

`ApplyCommand` writes the new row at the version `OccurredAt.UnixNano()`, whatever the
version of the row that it has read: that one may come from the clock of the
recommendations worker, or of an earlier command in the same tick. The table shows the
row with the greatest version, so the command is seen exactly if its clock is ahead of
the stored version (`visible_iff`).
-/
import KubeCost.Workflow.Failure

namespace KubeCost
namespace Workflow

open Recommendations

/-- The next read of the recommendation returns the status of the command, at a version
above that of the row before it. -/
def Visible (call : Call) (before : Fact) (db : Database) : Prop :=
  ∃ row, select db.recommendation call.command.tenantId call.command.recommendationId = some row ∧
    row.status = call.command.nextStatus ∧ before.version < row.version

variable {call : Call} {db db' : Database} {result : WorkflowResult} {current : Fact}

/-- A call that succeeds has accepted the row it read and has added its own. -/
theorem applyCommand_eq_ok (h : applyCommand call db = (.ok result, db')) :
    ∃ current, Accepts call db current ∧
      db'.recommendation = db.recommendation ++ [(plan call current).recommendation] := by
  have happlied := applied call db
  rw [h] at happlied
  cases happlied with
  | whole hacc hrows => exact ⟨_, hacc, hrows⟩

/-- **A successful command is visible exactly if its clock is ahead of the stored
version.** -/
theorem visible_iff (h : applyCommand call db = (.ok result, db'))
    (hcurrent : select db.recommendation call.command.tenantId call.command.recommendationId =
      some current) :
    Visible call current db' ↔ current.version < call.command.occurredAt.unixNano := by
  obtain ⟨read, hacc, hrows⟩ := applyCommand_eq_ok h
  obtain rfl : read = current := Option.some.inj (hacc.stored.symm.trans hcurrent)
  unfold Visible
  rw [hrows]
  rcases Nat.lt_or_ge call.command.occurredAt.unixNano read.version with hlt | hle
  · -- the new row ranks below the old one, which is read again
    rw [select_append_plan_of_lower hcurrent hlt, hcurrent]
    constructor
    · rintro ⟨row, hrow, hstatus, -⟩
      obtain rfl := Option.some.inj hrow
      exact absurd hstatus (transitionAllowed_ne hacc.allowed)
    · intro hgt
      omega
  · rw [select_append_of_le hcurrent (plan_sortingKey call read) (by rw [plan_recommendation])
      (by rwa [plan_version])]
    constructor
    · rintro ⟨row, hrow, -, hversion⟩
      obtain rfl := Option.some.inj hrow
      rwa [plan_version] at hversion
    · intro hgt
      exact ⟨_, rfl, by rw [plan_recommendation], by rwa [plan_version]⟩

/-! ### Two clocks -/

/-- The approval of the recommendation that a run of the worker has saved. -/
def approved (saved now : Instant) : Except CommandError WorkflowResult × Database :=
  applyCommand (plainCall .approve now 0) ⟨(plainRun saved).rows, []⟩

/-- The version and the status that are read in a table. -/
def readOf (table : List Fact) : Option (ℕ × Status) :=
  (select table "t" plainId).map fun row => (row.version, row.status)

/-- A service whose clock is two nanoseconds ahead of the worker's approves it. -/
theorem visible_iff_ahead : ∃ current result db,
    select (plainRun (plainHour + 1)).rows "t" plainId = some current ∧
    approved (plainHour + 1) (plainHour + 3) = (.ok result, db) ∧
    Visible (plainCall .approve (plainHour + 3) 0) current db := by
  have hread : readOf (plainRun (plainHour + 1)).rows = some (1767225600000000001, .opened) := by
    decide +kernel
  have hok : (approved (plainHour + 1) (plainHour + 3)).1.isOk = true := by decide +kernel
  obtain ⟨current, hcurrent, hrow⟩ := Option.map_eq_some_iff.mp hread
  obtain ⟨hversion, -⟩ := Prod.mk.inj hrow
  rcases h : approved (plainHour + 1) (plainHour + 3) with ⟨_ | result, db⟩
  · rw [h] at hok
    cases hok
  · refine ⟨current, result, db, hcurrent, rfl, (visible_iff h hcurrent).mpr ?_⟩
    rw [hversion]
    decide +kernel

/-- **An approval that nobody sees.** The clock of the service is a nanosecond behind the
one of the worker: the call succeeds, and the recommendation is open as before. -/
theorem approved_unseen : ∃ table current result db,
    (plainRun (plainHour + 2)).save [] = .ok table ∧ select table "t" plainId = some current ∧
    applyCommand (plainCall .approve (plainHour + 1) 0) ⟨table, []⟩ = (.ok result, db) ∧
    readOf db.recommendation = some (1767225600000000002, .opened) ∧
    ¬ Visible (plainCall .approve (plainHour + 1) 0) current db := by
  have hsave : (plainRun (plainHour + 2)).save [] = .ok (plainRun (plainHour + 2)).rows := by
    decide +kernel
  have hread : readOf (plainRun (plainHour + 2)).rows = some (1767225600000000002, .opened) := by
    decide +kernel
  have hafter : (approved (plainHour + 2) (plainHour + 1)).1.isOk = true ∧
      readOf (approved (plainHour + 2) (plainHour + 1)).2.recommendation =
        some (1767225600000000002, .opened) := by
    decide +kernel
  obtain ⟨current, hcurrent, -⟩ := Option.map_eq_some_iff.mp hread
  rcases h : approved (plainHour + 2) (plainHour + 1) with ⟨_ | result, db⟩
  · rw [h] at hafter
    cases hafter.1
  · rw [h] at hafter
    refine ⟨_, current, result, db, hsave, hcurrent, h, hafter.2, ?_⟩
    rintro ⟨row, hrow, hstatus, -⟩
    obtain ⟨row', hrow', hopen⟩ := Option.map_eq_some_iff.mp hafter.2
    obtain rfl : row = row' := Option.some.inj (hrow.symm.trans hrow')
    obtain ⟨-, hopened⟩ := Prod.mk.inj hopen
    rw [hopened] at hstatus
    cases hstatus

end Workflow
end KubeCost
