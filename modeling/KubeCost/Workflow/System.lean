/-
# Concurrent commands and the worker

The workflow service and the recommendations worker over one database. A call of
`ApplyCommand` takes three steps, between which other calls and runs of the worker may
take theirs: it reads the recommendation and checks, it inserts the new row, it inserts
the action. A run of the worker writes its rows in one insert and reads nothing of the
database that the others write.

`Step` says what each step can do (`step_cases`); a call whose steps come one after the
other is `applyCommand` (`run_applyCommand`).
-/
import Mathlib.Logic.Function.Basic
import KubeCost.Machine
import KubeCost.Workflow.Repository

namespace KubeCost
namespace Workflow

open Recommendations

/-- How far a call of `ApplyCommand` has come. -/
inductive Phase
  | idle
  | prepared (call : Call) (result : WorkflowResult)
  | inserted (call : Call) (result : WorkflowResult)
  | done (returned : Except CommandError WorkflowResult)

structure World where
  db : Database
  calls : ℕ → Phase

/-- Empty tables, and no call. -/
def World.start : World := ⟨⟨[], []⟩, fun _ => .idle⟩

def World.set (w : World) (c : ℕ) (phase : Phase) : World :=
  { w with calls := Function.update w.calls c phase }

inductive Action
  | read (c : ℕ) (call : Call)
  | insertRecommendation (c : ℕ)
  | insertAction (c : ℕ)
  | worker (run : WorkerRun)

def step (w : World) : Action → Option World
  | .read c call =>
    match w.calls c with
    | .idle =>
      match prepare call w.db with
      | .error e => some (w.set c (.done (.error e)))
      | .ok result => some (w.set c (.prepared call result))
    | _ => none
  | .insertRecommendation c =>
    match w.calls c with
    | .prepared call result =>
      match insertRecommendation call result.recommendation w.db with
      | .error e => some (w.set c (.done (.error e)))
      | .ok db => some ({ w with db := db }.set c (.inserted call result))
    | _ => none
  | .insertAction c =>
    match w.calls c with
    | .inserted call result =>
      match insertAction call result w.db with
      | .error e => some (w.set c (.done (.error e)))
      | .ok db => some ({ w with db := db }.set c (.done (.ok result)))
    | _ => none
  | .worker run =>
    match run.save w.db.recommendation with
    | .error _ => some w
    | .ok table => some { w with db := { w.db with recommendation := table } }

/-! ### What a step can do -/

/-- The world after the row went into the recommendation table. -/
def World.withRows (w : World) (rows : List Fact) : World :=
  { w with db := { w.db with recommendation := w.db.recommendation ++ rows } }

/-- The world after the row went into the action table. -/
def World.withAction (w : World) (row : ActionRow) : World :=
  { w with db := { w.db with recommendationAction := w.db.recommendationAction ++ [row] } }

/-- The steps, each with its guard. -/
inductive Step (w : World) : Action → World → Prop
  | refused {c : ℕ} {call : Call} {e : CommandError} (idle : w.calls c = .idle)
      (error : prepare call w.db = .error e) : Step w (.read c call) (w.set c (.done (.error e)))
  | prepared {c : ℕ} {call : Call} {result : WorkflowResult} (idle : w.calls c = .idle)
      (ok : prepare call w.db = .ok result) :
      Step w (.read c call) (w.set c (.prepared call result))
  | rowFailed {c : ℕ} {call : Call} {result : WorkflowResult} {e : CommandError}
      (here : w.calls c = .prepared call result)
      (error : insertRecommendation call result.recommendation w.db = .error e) :
      Step w (.insertRecommendation c) (w.set c (.done (.error e)))
  | rowInserted {c : ℕ} {call : Call} {result : WorkflowResult}
      (here : w.calls c = .prepared call result) (works : call.faults.recommendation = {}) :
      Step w (.insertRecommendation c)
        ((w.withRows [result.recommendation]).set c (.inserted call result))
  | actionFailed {c : ℕ} {call : Call} {result : WorkflowResult} {e : CommandError}
      (here : w.calls c = .inserted call result)
      (error : insertAction call result w.db = .error e) :
      Step w (.insertAction c) (w.set c (.done (.error e)))
  | actionInserted {c : ℕ} {call : Call} {result : WorkflowResult}
      (here : w.calls c = .inserted call result) :
      Step w (.insertAction c)
        ((w.withAction (actionRow call.command result)).set c (.done (.ok result)))
  | workerFailed {run : WorkerRun} : Step w (.worker run) w
  | workerSaved {run : WorkerRun} : Step w (.worker run) (w.withRows (run.rows))

variable {w w' : World} {a : Action} {c c' : ℕ} {phase : Phase}

theorem step_cases (h : step w a = some w') : Step w a w' := by
  cases a with
  | read c call =>
    simp only [step] at h
    split at h
    case h_2 => cases h
    case h_1 hidle =>
      split at h <;> cases h
      · exact .refused hidle ‹_›
      · exact .prepared hidle ‹_›
  | insertRecommendation c =>
    simp only [step] at h
    split at h
    case h_2 => cases h
    case h_1 call result here =>
      split at h <;> cases h
      · exact .rowFailed here ‹_›
      · obtain ⟨works, rfl⟩ := insertRecommendation_eq_ok.mp ‹_›
        exact .rowInserted here works
  | insertAction c =>
    simp only [step] at h
    split at h
    case h_2 => cases h
    case h_1 call result here =>
      split at h <;> cases h
      · exact .actionFailed here ‹_›
      · obtain ⟨-, -, rfl⟩ := insertAction_eq_ok.mp ‹_›
        exact .actionInserted here
  | worker run =>
    simp only [step] at h
    split at h
    case h_1 =>
      cases h
      exact .workerFailed
    case h_2 table hsave =>
      cases h
      rw [save_eq_ok hsave]
      exact .workerSaved

@[simp] theorem set_calls_self : (w.set c phase).calls c = phase := Function.update_self ..

@[simp] theorem set_calls_of_ne (h : c' ≠ c) : (w.set c phase).calls c' = w.calls c' :=
  Function.update_of_ne h ..

/-- What is found at a call after a step of one of them. -/
theorem set_calls_cases {found : Phase} (h : (w.set c phase).calls c' = found) :
    (c' = c ∧ found = phase) ∨ (c' ≠ c ∧ w.calls c' = found) := by
  by_cases hc : c' = c
  · subst hc
    exact .inl ⟨rfl, h.symm.trans set_calls_self⟩
  · exact .inr ⟨hc, (set_calls_of_ne hc).symm.trans h⟩

/-! ### A call that nobody interrupts -/

/-- **The steps of a call, one after the other, are `ApplyCommand`.** -/
theorem run_applyCommand (call : Call) (idle : w.calls c = .idle) :
    ∃ steps, Machine.run step w steps =
      some ({ w with db := (applyCommand call w.db).2 }.set c (.done (applyCommand call w.db).1)) := by
  unfold applyCommand
  cases hprepare : prepare call w.db with
  | error e =>
    refine ⟨[.read c call], ?_⟩
    simp only [Machine.run, step, idle, hprepare]
    rfl
  | ok result =>
    cases hinsert : insertRecommendation call result.recommendation w.db with
    | error e =>
      refine ⟨[.read c call, .insertRecommendation c], ?_⟩
      simp [Machine.run, step, idle, hprepare, hinsert, World.set]
    | ok db =>
      refine ⟨[.read c call, .insertRecommendation c, .insertAction c], ?_⟩
      cases haction : insertAction call result db with
      | error e => simp [Machine.run, step, idle, hprepare, hinsert, haction, World.set]
      | ok db' => simp [Machine.run, step, idle, hprepare, hinsert, haction, World.set]

/-! ### A container, for examples -/

/-- The first hour of 2026. -/
def plainHour : Instant := 1767225600000000000

/-- An hour in which a container used a tenth of what it requests. -/
def plainSample : Sample where
  tenantId := "t"
  clusterId := "c"
  scopeType := "container"
  scopeId := "web"
  bucketStart := plainHour - Instant.hour
  bucketSeconds := 3600
  cpuUsageCoreMS := 360000
  cpuRequestCoreMS := 3600000
  cpuLimitCoreMS := 3600000
  memoryWorkingSetBytes := 360000000000
  memoryRequestBytes := 3600000000000
  memoryLimitBytes := 3600000000000

/-- A run of the worker over the sample, at a time. -/
def plainRun (now : Instant) : WorkerRun where
  tenantId := "t"
  clusterId := "c"
  config := { minimumSampleCount := 1, analysisWindow := Instant.hour }
  orders := ⟨.listed, .listed, .listed⟩
  now := now
  samples := fun _ _ => .ok [plainSample]
  savedAt := now

/-- The id of the recommendation that runs in that hour make. -/
def plainId : String := "16f85c86-bcf5-529f-a3d9-96df74523b74"

/-- A command on that recommendation. -/
def plainCall (handler : Handler) (now : Instant) (expectedVersion : ℕ) : Call where
  command := handler.command "t" plainId { expectedVersion } now
  actionId := "a"
  executionId := "e"

end Workflow
end KubeCost
