/-
# Expected versions

A command may carry the version of the recommendation that its sender has seen, and is
to be refused when the recommendation has changed since. The check and the insert are two
operations of the database: two calls that both read before either inserts are both
accepted (`approved_and_rejected`).

`at_most_one_accepted` is what the check does give: when no call reads between the read
and the insert of another, and every command is stamped later than the version it
carries, one of the calls at most is accepted and the others are refused.
-/
import KubeCost.Workflow.System

namespace KubeCost
namespace Workflow

open Recommendations Machine

/-- `ErrVersionConflict` or `ErrInvalidTransition`. -/
def Refused (e : CommandError) : Prop :=
  e = .versionConflict ∨ ∃ current next, e = .invalidTransition current next

/-- The call is between its read and its first insert. -/
def Phase.isPrepared : Phase → Bool
  | .prepared _ _ => true
  | _ => false

/-- The steps of calls on one recommendation that all carry one expected version, over a
database that works. -/
def Carries (t id : String) (v : ℕ) : Action → Prop
  | .read _ call => call.command.tenantId = t ∧ call.command.recommendationId = id ∧
      call.command.expectedVersion = v ∧ call.faults = {}
  | .insertRecommendation _ => True
  | .insertAction _ => True
  | .worker _ => False

/-- No call reads while another is between its read and its insert, and the command is
stamped later than the version. -/
def Apart (v : ℕ) (w : World) : Action → Prop
  | .read _ call => v < call.command.occurredAt.unixNano ∧ ∀ c, (w.calls c).isPrepared = false
  | _ => True

/-- A call that has not read yet, or was refused. -/
def Phase.Quiet : Phase → Prop
  | .idle => True
  | .done (.error e) => Refused e
  | _ => False

/-- How far the only call that is not quiet has come: until its insert the table is as the
call has read it, and afterwards the version is a later one. -/
def Progress (t id : String) (v : ℕ) (table : List Fact) (row : Fact) (db : Database) :
    Phase → Prop
  | .idle => db.recommendation = table
  | .prepared call result => db.recommendation = table ∧ result = plan call row ∧
      v < call.command.occurredAt.unixNano ∧ call.faults = {}
  | .inserted call _ => (∃ new, select db.recommendation t id = some new ∧ v < new.version) ∧
      call.faults = {}
  | .done (.ok _) => ∃ new, select db.recommendation t id = some new ∧ v < new.version
  | .done (.error e) => Refused e ∧ db.recommendation = table

/-- All calls but one are quiet. -/
def AllButOne (t id : String) (v : ℕ) (table : List Fact) (row : Fact) (w : World) : Prop :=
  ∃ c₀, (∀ c ≠ c₀, (w.calls c).Quiet) ∧ Progress t id v table row w.db (w.calls c₀)

variable {t id : String} {v : ℕ} {table : List Fact} {row : Fact} {w w' : World}
  {a : Action}

/-! ### The parts of a call on a database that works -/

/-- A call that reads a row is refused or goes on. -/
theorem refused_of_prepare {call : Call} {db : Database} {e : CommandError}
    (hworks : call.faults = {})
    (hsel : select db.recommendation call.command.tenantId call.command.recommendationId = some row)
    (h : prepare call db = .error e) : Refused e := by
  have hread : recommendation call.faults db.recommendation call.command.tenantId
      call.command.recommendationId = .ok row := by
    rw [recommendation_eq_ok, hworks]
    exact ⟨rfl, rfl, rfl, hsel⟩
  rw [prepare, hread] at h
  by_cases hversion : call.command.expectedVersion ≠ 0 ∧ call.command.expectedVersion ≠ row.version
  · simp only [bind, Except.bind, rejectIf, if_pos hversion, Except.error.injEq] at h
    exact .inl h.symm
  · by_cases hallowed : transitionAllowed row.status call.command.nextStatus = false
    · simp only [bind, Except.bind, rejectIf, if_neg hversion, if_pos hallowed,
        Except.error.injEq] at h
      exact .inr ⟨_, _, h.symm⟩
    · simp only [bind, Except.bind, rejectIf, if_neg hversion, if_neg hallowed, reduceCtorEq] at h

theorem insertRecommendation_works {call : Call} {db : Database} {e : CommandError}
    (hworks : call.faults = {}) : insertRecommendation call row db ≠ .error e := by
  rw [insertRecommendation_eq_ok.mpr ⟨by rw [hworks], rfl⟩]
  exact fun h => nomatch h

theorem insertAction_works {call : Call} {result : WorkflowResult} {db : Database} {e : CommandError}
    (hworks : call.faults = {}) : insertAction call result db ≠ .error e := by
  rw [insertAction_eq_ok.mpr ⟨by rw [hworks], by rw [hworks], rfl⟩]
  exact fun h => nomatch h

/-! ### One step -/

theorem quiet_set {c : ℕ} {phase : Phase} (h : ∀ c' ≠ c, (w.calls c').Quiet) :
    ∀ c' ≠ c, ((w.set c phase).calls c').Quiet := by
  intro c' hc
  rw [set_calls_of_ne hc]
  exact h c' hc

/-- While no call is on its way, the recommendation is as it was or has a later version. -/
theorem Progress.rest {db : Database} {phase : Phase} (h : Progress t id v table row db phase)
    (hnot : phase.isPrepared = false) : (phase.Quiet ∧ db.recommendation = table) ∨
      ∃ new, select db.recommendation t id = some new ∧ v < new.version := by
  match phase with
  | .idle => exact .inl ⟨trivial, h⟩
  | .prepared _ _ => cases hnot
  | .inserted _ _ => exact .inr h.1
  | .done (.ok _) => exact .inr h
  | .done (.error _) => exact .inl h

/-- The call that is not quiet is the one that makes progress. -/
theorem progress_of_not_quiet {c c₀ : ℕ} {phase : Phase}
    (hquiet : ∀ c ≠ c₀, (w.calls c).Quiet) (hprog : Progress t id v table row w.db (w.calls c₀))
    (here : w.calls c = phase) (hnot : ¬ phase.Quiet) :
    c = c₀ ∧ Progress t id v table row w.db phase := by
  by_cases hc : c = c₀
  · subst hc
    exact ⟨rfl, here ▸ hprog⟩
  · exact absurd (here ▸ hquiet c hc) hnot

/-- A call that is refused stays quiet. -/
theorem AllButOne.refuse {c : ℕ} {e : CommandError} (h : AllButOne t id v table row w)
    (idle : w.calls c = .idle) (he : Refused e) :
    AllButOne t id v table row (w.set c (.done (.error e))) := by
  obtain ⟨c₀, hquiet, hprog⟩ := h
  by_cases hc : c = c₀
  · subst hc
    rw [idle] at hprog
    exact ⟨c, quiet_set hquiet, by rw [set_calls_self]; exact ⟨he, hprog⟩⟩
  · refine ⟨c₀, fun c' hc' => ?_, by rw [set_calls_of_ne (Ne.symm hc)]; exact hprog⟩
    by_cases hcc : c' = c
    · rw [hcc, set_calls_self]
      exact he
    · rw [set_calls_of_ne hcc]
      exact hquiet c' hc'

/-- While no call is on its way, a row is read; it is the stored one or a later one. -/
theorem AllButOne.reads (hsel : select table t id = some row) (h : AllButOne t id v table row w)
    (hnobody : ∀ c, (w.calls c).isPrepared = false) :
    ∃ new, select w.db.recommendation t id = some new ∧
      (v < new.version ∨ new = row ∧ w.db.recommendation = table ∧ ∀ c, (w.calls c).Quiet) := by
  obtain ⟨c₀, hquiet, hprog⟩ := h
  rcases hprog.rest (hnobody c₀) with ⟨hq, htable⟩ | ⟨new, hnew, hlt⟩
  · refine ⟨row, by rw [htable, hsel], .inr ⟨rfl, htable, fun c => ?_⟩⟩
    by_cases hc : c = c₀
    · exact hc ▸ hq
    · exact hquiet c hc
  · exact ⟨new, hnew, .inl hlt⟩

/-- The first insert makes the version a later one. -/
theorem Progress.insert {db : Database} {call : Call} {result : WorkflowResult}
    (hsel : select table t id = some row) (hrow : row.version = v)
    (h : Progress t id v table row db (.prepared call result)) :
    Progress t id v table row
      { db with recommendation := db.recommendation ++ [result.recommendation] }
      (.inserted call result) := by
  obtain ⟨htable, rfl, hlt, hworks⟩ := h
  have hread : select (db.recommendation ++ [(plan call row).recommendation]) t id =
      some (plan call row).recommendation := by
    rw [htable]
    apply select_append_of_le hsel (plan_sortingKey call row)
    · rw [plan_recommendation]
    · rw [plan_version, hrow]
      omega
  exact ⟨⟨_, hread, by rwa [plan_version]⟩, hworks⟩

/-- **One step keeps all calls quiet but one.** -/
theorem AllButOne.step (hv : v ≠ 0) (hsel : select table t id = some row) (hrow : row.version = v)
    (h : AllButOne t id v table row w) (hok : Carries t id v a ∧ Apart v w a)
    (hstep : Step w a w') : AllButOne t id v table row w' := by
  have ⟨c₀, hquiet, hprog⟩ := h
  cases hstep with
  | refused idle error =>
    obtain ⟨⟨rfl, rfl, -, hworks⟩, -, hnobody⟩ := hok
    obtain ⟨new, hnew, -⟩ := h.reads hsel hnobody
    exact h.refuse idle (refused_of_prepare hworks hnew error)
  | @prepared c call result idle ok =>
    obtain ⟨⟨rfl, rfl, rfl, hworks⟩, hlater, hnobody⟩ := hok
    obtain ⟨current, hacc, hplan⟩ := prepare_eq_ok.mp ok
    obtain ⟨new, hnew, hread⟩ := h.reads hsel hnobody
    have hsame : new = current := Option.some.inj (hnew.symm.trans hacc.stored)
    subst hsame
    have hversion := hacc.version
    rcases hread with hlt | ⟨rfl, htable, hall⟩
    · -- the version has changed since, and the call would have been refused
      omega
    · refine ⟨c, quiet_set fun c' _ => hall c', ?_⟩
      rw [set_calls_self]
      exact ⟨htable, hplan.symm, hlater, hworks⟩
  | rowFailed here error =>
    obtain ⟨-, hown⟩ := progress_of_not_quiet hquiet hprog here not_false
    exact absurd error (insertRecommendation_works hown.2.2.2)
  | @rowInserted c call result here _ =>
    obtain ⟨rfl, hown⟩ := progress_of_not_quiet hquiet hprog here not_false
    exact ⟨c, quiet_set hquiet, by rw [set_calls_self]; exact hown.insert hsel hrow⟩
  | actionFailed here error =>
    obtain ⟨-, hown⟩ := progress_of_not_quiet hquiet hprog here not_false
    exact absurd error (insertAction_works hown.2)
  | @actionInserted c call result here =>
    obtain ⟨rfl, hown⟩ := progress_of_not_quiet hquiet hprog here not_false
    exact ⟨c, quiet_set hquiet, by rw [set_calls_self]; exact hown.1⟩
  | workerFailed => exact hok.1.elim
  | workerSaved => exact hok.1.elim

/-! ### Runs -/

/-- **At most one call is accepted.** In every run of calls that all carry the stored
version, when no call reads between the read and the insert of another and every command
is stamped later than the version: one of them at most returns success, and the others
return `ErrVersionConflict` or `ErrInvalidTransition`. -/
theorem at_most_one_accepted {w₀ w : World} {t id : String} {v : ℕ} {row : Fact}
    (hv : v ≠ 0) (hidle : ∀ c, w₀.calls c = .idle)
    (hsel : select w₀.db.recommendation t id = some row) (hrow : row.version = v)
    (hreach : Reach step (fun w a => Carries t id v a ∧ Apart v w a) w₀ w) :
    (∀ c c' result result', w.calls c = .done (.ok result) → w.calls c' = .done (.ok result') →
      c = c') ∧
    ∀ c e, w.calls c = .done (.error e) → Refused e := by
  have hstart : AllButOne t id v w₀.db.recommendation row w₀ :=
    ⟨0, fun c _ => by rw [hidle c]; trivial, by rw [hidle 0]; rfl⟩
  obtain ⟨c₀, hquiet, hprog⟩ := hreach.invariant hstart fun _ _ _ h hok hs =>
    h.step hv hsel hrow hok (step_cases hs)
  have howner : ∀ c result, w.calls c = .done (.ok result) → c = c₀ := fun c result hc =>
    Classical.byContradiction fun hne => by
      have hq := hquiet c hne
      rw [hc] at hq
      exact hq
  refine ⟨fun c c' result result' hc hc' => ?_, fun c e hc => ?_⟩
  · rw [howner c result hc, howner c' result' hc']
  · by_cases hne : c = c₀
    · subst hne
      rw [hc] at hprog
      exact hprog.1
    · have hq := hquiet c hne
      rwa [hc] at hq

/-! ### Two calls -/

def Phase.isAccepted : Phase → Bool
  | .done (.ok _) => true
  | _ => false

/-- An approval, and a rejection that comes after it with the same version. -/
theorem at_most_one_accepted_in_turn : ∃ row w,
    select ((plainRun (plainHour + 1)).rows) "t" plainId = some row ∧
    Reach step (fun w a => Carries "t" plainId 1767225600000000001 a ∧
        Apart 1767225600000000001 w a)
      ⟨⟨(plainRun (plainHour + 1)).rows, []⟩, fun _ => .idle⟩ w ∧
    (w.calls 0).isAccepted = true ∧ ∃ e, w.calls 1 = .done (.error e) ∧ Refused e := by
  have hstored : (select ((plainRun (plainHour + 1)).rows) "t" plainId).map
      (fun row => (row.version, row.status)) = some (1767225600000000001, .opened) := by decide +kernel
  obtain ⟨row, hsel, hrow⟩ := Option.map_eq_some_iff.mp hstored
  obtain ⟨hversion, hstatus⟩ := Prod.mk.inj hrow
  let w₀ : World := ⟨⟨(plainRun (plainHour + 1)).rows, []⟩, fun _ => .idle⟩
  let approve := plainCall .approve (plainHour + 2) 1767225600000000001
  let reject := plainCall .reject (plainHour + 3) 1767225600000000001
  let result := plan approve row
  have hplan : prepare approve w₀.db = .ok result :=
    prepare_eq_ok.mpr
      ⟨row, ⟨rfl, rfl, rfl, hsel, .inr hversion.symm, by rw [hstatus]; rfl⟩, rfl⟩
  let w₁ := w₀.set 0 (.prepared approve result)
  let w₂ := (w₁.withRows [result.recommendation]).set 0 (.inserted approve result)
  let w₃ := (w₂.withAction (actionRow approve.command result)).set 0 (.done (.ok result))
  let ok : World → Action → Prop := fun w a =>
    Carries "t" plainId 1767225600000000001 a ∧ Apart 1767225600000000001 w a
  have hreach₁ : Reach step ok w₀ w₁ := by
    refine Reach.refl.tail (a := .read 0 approve) ⟨⟨rfl, rfl, rfl, rfl⟩, by decide, fun _ => rfl⟩ ?_
    simp only [step, hplan, w₁, w₀]
  have hreach₂ : Reach step ok w₀ w₂ :=
    hreach₁.tail (a := .insertRecommendation 0) ⟨trivial, trivial⟩ rfl
  have hreach₃ : Reach step ok w₀ w₃ :=
    hreach₂.tail (a := .insertAction 0) ⟨trivial, trivial⟩ rfl
  have hread : select w₃.db.recommendation "t" plainId = some result.recommendation :=
    select_append_of_le hsel (plan_sortingKey approve row) (by rw [plan_recommendation])
      (by rw [plan_version, hversion]; decide)
  cases hprepare : prepare reject w₃.db with
  | ok other =>
    obtain ⟨current, hacc, -⟩ := prepare_eq_ok.mp hprepare
    have hcurrent : result.recommendation = current :=
      Option.some.inj (hread.symm.trans hacc.stored)
    have hexpected := hacc.version
    rw [← hcurrent, plan_version] at hexpected
    exact absurd hexpected (by decide)
  | error e =>
    have hreach : Reach step ok w₀ (w₃.set 1 (.done (.error e))) := by
      refine hreach₃.tail (a := .read 1 reject) ⟨⟨rfl, rfl, rfl, rfl⟩, by decide, fun c => ?_⟩ ?_
      · rcases c with _ | c <;> rfl
      · simp only [step, hprepare]
        rfl
    exact ⟨row, _, hsel, hreach, rfl, e, rfl,
      (at_most_one_accepted (by decide) (fun _ => rfl) hsel hversion hreach).2 1 e rfl⟩

/-- The steps of two calls that carry the version which the worker has written. -/
def together (first second : Handler) : List Action :=
  [.worker (plainRun (plainHour + 1)),
    .read 0 (plainCall first (plainHour + 2) 1767225600000000001),
    .read 1 (plainCall second (plainHour + 3) 1767225600000000001),
    .insertRecommendation 0, .insertRecommendation 1, .insertAction 0, .insertAction 1]

/-- **An approval and a rejection are both accepted against one version.** -/
theorem approved_and_rejected :
    (run step World.start (together .approve .reject)).map
      (fun w => ((w.calls 0).isAccepted, (w.calls 1).isAccepted)) = some (true, true) := by
  decide +kernel

end Workflow
end KubeCost
