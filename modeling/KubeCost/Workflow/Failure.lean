/-
# Commands that fail half way

The row of the recommendation is written before the action, without a transaction: when
the second insert fails, `ApplyCommand` returns an error although the recommendation has
its new status. A request for execution then leaves a recommendation in status executing
whose request is nowhere recorded, and since no transition leads from executing to
executing it cannot be asked for again (`executing_without_request`).

`unchanged_iff_and_recorded` says when a failed call changes nothing: always, unless the
row was inserted, is the one that is read, and the action failed. As long as that does
not happen, every executing row has its request recorded (`Covered.step`).
-/
import KubeCost.Workflow.System

namespace KubeCost
namespace Workflow

open Recommendations Machine

/-! ### One call -/

/-- If the call returns an error, every recommendation reads as before and the actions are
those from before. -/
def Unchanged (call : Call) (db : Database) : Prop :=
  ∀ e, (applyCommand call db).1 = .error e →
    (∀ t id, select (applyCommand call db).2.recommendation t id = select db.recommendation t id) ∧
    (applyCommand call db).2.recommendationAction = db.recommendationAction

/-- The command is accepted and its row inserted, at a version that is read, and the
insert of the action fails. -/
def HalfApplied (call : Call) (db : Database) : Prop :=
  ∃ current, Accepts call db current ∧ call.faults.recommendation = {} ∧
    ¬ (call.faults.encode = none ∧ call.faults.action = {}) ∧
    current.version ≤ call.command.occurredAt.unixNano

variable {call : Call} {db : Database} {t id : String}

/-- An updated row with a lower version is not seen anywhere. -/
theorem select_append_plan_of_lower {table : List Fact} {current : Fact}
    (hsel : select table t id = some current)
    (hlt : call.command.occurredAt.unixNano < current.version) (t' id' : String) :
    select (table ++ [(plan call current).recommendation]) t' id' = select table t' id' := by
  by_cases habout : (plan call current).recommendation.isAbout t' id' = true
  · -- the row is about the recommendation that was read
    rw [isAbout_congr (plan_sortingKey call current)] at habout
    obtain ⟨rfl, rfl⟩ := isAbout_eq_true.mp habout
    obtain ⟨rfl, rfl⟩ := isAbout_eq_true.mp (isAbout_of_select hsel)
    rw [select_append_of_lower hsel (plan_sortingKey call current) (by rwa [plan_version]), hsel]
  · exact select_append_of_ne (Bool.eq_false_iff.mpr habout)

/-- An updated row with no lower version is read, with another status. -/
theorem select_append_plan_of_le {table : List Fact} {current : Fact}
    (hsel : select table t id = some current)
    (hallowed : transitionAllowed current.status call.command.nextStatus = true)
    (hle : current.version ≤ call.command.occurredAt.unixNano) :
    select (table ++ [(plan call current).recommendation]) t id ≠ select table t id := by
  rw [select_append_of_le hsel (plan_sortingKey call current) (by rw [plan_recommendation])
    (by rwa [plan_version]), hsel]
  intro h
  have hstatus := congrArg Fact.status (Option.some.inj h)
  rw [plan_recommendation] at hstatus
  exact transitionAllowed_ne hallowed hstatus.symm

/-- The database after the first insert of the call. -/
def Database.withRow (db : Database) (call : Call) (current : Fact) : Database :=
  { db with recommendation := db.recommendation ++ [(plan call current).recommendation] }

/-- What a call comes to: nothing, its row without the action, or both. -/
inductive Applied (call : Call) (db : Database) : Except CommandError WorkflowResult × Database → Prop
  | nothing (e : CommandError) : Applied call db (.error e, db)
  | half {current : Fact} (e : CommandError) (accepted : Accepts call db current)
      (works : call.faults.recommendation = {})
      (fails : ¬ (call.faults.encode = none ∧ call.faults.action = {})) :
      Applied call db (.error e, db.withRow call current)
  | whole {current : Fact} {db' : Database} (accepted : Accepts call db current)
      (rows : db'.recommendation = (db.withRow call current).recommendation) :
      Applied call db (.ok (plan call current), db')

theorem applied (call : Call) (db : Database) : Applied call db (applyCommand call db) := by
  unfold applyCommand
  cases hprepare : prepare call db with
  | error e => exact .nothing e
  | ok result =>
    obtain ⟨current, hacc, rfl⟩ := prepare_eq_ok.mp hprepare
    cases hrow : insertRecommendation call (plan call current).recommendation db with
    | error e =>
      simp only [hrow]
      exact .nothing e
    | ok db' =>
      obtain ⟨hworks, rfl⟩ := insertRecommendation_eq_ok.mp hrow
      cases haction : insertAction call (plan call current) (db.withRow call current) with
      | ok db' =>
        obtain ⟨-, -, hdb⟩ := insertAction_eq_ok.mp haction
        rw [Database.withRow] at haction
        simp only [hrow, haction]
        exact .whole hacc (by rw [← hdb])
      | error e =>
        have hfails : ¬ (call.faults.encode = none ∧ call.faults.action = {}) := fun ⟨h₁, h₂⟩ =>
          nomatch haction.symm.trans (insertAction_eq_ok.mpr ⟨h₁, h₂, rfl⟩)
        rw [Database.withRow] at haction
        simp only [hrow, haction]
        exact .half e hacc hworks hfails

/-- **A failed call has written nothing, or its row and no action.** -/
theorem applyCommand_failed {e : CommandError} (he : (applyCommand call db).1 = .error e) :
    (applyCommand call db).2 = db ∨ ∃ current, Accepts call db current ∧
      call.faults.recommendation = {} ∧ ¬ (call.faults.encode = none ∧ call.faults.action = {}) ∧
      (applyCommand call db).2 = db.withRow call current := by
  have h := applied call db
  generalize applyCommand call db = outcome at he h
  cases h with
  | nothing => exact .inl rfl
  | half _ hacc hworks hfails => exact .inr ⟨_, hacc, hworks, hfails, rfl⟩
  | whole => cases he

/-- A call whose action cannot be inserted fails and leaves its row. -/
theorem applyCommand_of_action_fails {current : Fact} (hacc : Accepts call db current)
    (hworks : call.faults.recommendation = {})
    (hfails : ¬ (call.faults.encode = none ∧ call.faults.action = {})) :
    ∃ e, applyCommand call db = (.error e, db.withRow call current) := by
  have hprepare : prepare call db = .ok (plan call current) := prepare_eq_ok.mpr ⟨current, hacc, rfl⟩
  have hrow : insertRecommendation call (plan call current).recommendation db =
      .ok (db.withRow call current) := insertRecommendation_eq_ok.mpr ⟨hworks, rfl⟩
  cases haction : insertAction call (plan call current) (db.withRow call current) with
  | ok db' =>
    obtain ⟨h₁, h₂, -⟩ := insertAction_eq_ok.mp haction
    exact absurd ⟨h₁, h₂⟩ hfails
  | error e => exact ⟨e, by simp only [applyCommand, hprepare, hrow, haction]⟩

/-- **A failed call changes nothing, unless it is half applied.** -/
theorem unchanged_iff (call : Call) (db : Database) : Unchanged call db ↔ ¬ HalfApplied call db := by
  constructor
  · rintro h ⟨current, hacc, hworks, hfails, hle⟩
    obtain ⟨e, happly⟩ := applyCommand_of_action_fails hacc hworks hfails
    obtain ⟨hread, -⟩ := h e (by rw [happly])
    rw [happly] at hread
    exact select_append_plan_of_le hacc.stored hacc.allowed hle (hread _ _)
  · intro h e he
    rcases applyCommand_failed he with hsame | ⟨current, hacc, hworks, hfails, hrow⟩
    · rw [hsame]
      exact ⟨fun _ _ => rfl, rfl⟩
    · -- the row was inserted, so by `h` its version is too low to be seen
      have hlt : call.command.occurredAt.unixNano < current.version :=
        Nat.lt_of_not_le fun hle => h ⟨current, hacc, hworks, hfails, hle⟩
      rw [hrow]
      exact ⟨select_append_plan_of_lower hacc.stored hlt, rfl⟩

/-! ### Runs -/

/-- The action has the execution request of the row in its details. -/
def ActionRow.Records (action : ActionRow) (row : Fact) : Prop :=
  action.tenantId = row.tenantId ∧ action.recommendationId = row.recommendationId ∧
    ∃ reference requestedAt, action.details.executionRequest =
      some (executionRequestFor row reference action.executionId requestedAt)

/-- The command is one of the four that the handlers make. -/
def FromHandler (command : WorkflowCommand) : Prop :=
  ∃ handler : Handler, command.action = handler.action ∧ command.nextStatus = handler.nextStatus

/-- The insert of the action does not fail. -/
def Phase.Completes : Phase → Prop
  | .inserted call _ => call.faults.encode = none ∧ call.faults.action = {}
  | _ => True

/-- Commands of the handlers, none of which fails after its row is inserted. -/
def Completes (w : World) : Action → Prop
  | .read _ call => FromHandler call.command
  | .insertAction c => (w.calls c).Completes
  | _ => True

/-- A handler's command that has read its recommendation. -/
def Planned (call : Call) (result : WorkflowResult) : Prop :=
  FromHandler call.command ∧ ∃ current,
    current.isAbout call.command.tenantId call.command.recommendationId = true ∧
    result = plan call current

def Phase.Planned : Phase → Prop
  | .prepared call result => Workflow.Planned call result
  | .inserted call result => Workflow.Planned call result
  | _ => True

/-- Every executing row has its request recorded, or a call is about to record it. -/
structure Covered (w : World) : Prop where
  planned : ∀ c, (w.calls c).Planned
  executing : ∀ row ∈ w.db.recommendation, row.status = .executing →
    (∃ action ∈ w.db.recommendationAction, action.Records row) ∨
      ∃ c call result, w.calls c = .inserted call result ∧ result.recommendation = row

variable {w w' : World} {a : Action}

/-- **The action of a command that leads to executing records the request.** -/
theorem Planned.records {result : WorkflowResult} (h : Planned call result)
    (hexec : result.recommendation.status = .executing) :
    (actionRow call.command result).Records result.recommendation := by
  obtain ⟨⟨handler, haction, hnext⟩, current, habout, rfl⟩ := h
  obtain ⟨ht, hid⟩ := isAbout_eq_true.mp habout
  have hexecute : call.command.action = .requestExecution := by
    rw [plan_recommendation, hnext] at hexec
    rw [haction]
    cases handler <;> first | rfl | cases hexec
  simp only [plan, hexecute, if_true]
  exact ⟨ht.symm, hid.symm, _, _, rfl⟩

theorem planned_set {c : ℕ} {phase : Phase} (h : ∀ c, (w.calls c).Planned) (hphase : phase.Planned)
    (c' : ℕ) : ((w.set c phase).calls c').Planned := by
  by_cases hc : c' = c
  · subst hc
    rwa [set_calls_self]
  · rw [set_calls_of_ne hc]
    exact h c'

/-- A call that is not about to record moves on. -/
theorem Covered.set {c : ℕ} {phase : Phase} (h : Covered w) (hphase : phase.Planned)
    (hnot : ∀ call result, w.calls c ≠ .inserted call result) : Covered (w.set c phase) where
  planned := planned_set h.planned hphase
  executing row hrow hexec := by
    rcases h.executing row hrow hexec with hrec | ⟨c', call, result, hc', hresult⟩
    · exact .inl hrec
    · have hne : c' ≠ c := by
        rintro rfl
        exact hnot call result hc'
      exact .inr ⟨c', call, result, (set_calls_of_ne hne).trans hc', hresult⟩

/-- The call that inserts a row is about to record it. -/
theorem Covered.insertRow {c : ℕ} {result : WorkflowResult} (h : Covered w)
    (here : w.calls c = .prepared call result) :
    Covered ((w.withRows [result.recommendation]).set c (.inserted call result)) := by
  have hplanned := h.planned c
  rw [here] at hplanned
  have hset : Covered (w.set c (.inserted call result)) :=
    h.set hplanned fun _ _ hc => nomatch here.symm.trans hc
  refine ⟨hset.planned, fun row hrow hexec => ?_⟩
  rcases List.mem_append.mp hrow with hrow | hrow
  · exact hset.executing row hrow hexec
  · exact .inr ⟨c, call, result, set_calls_self, (List.mem_singleton.mp hrow).symm⟩

/-- The action records the row of its call, and the other calls still have theirs. -/
theorem Covered.insertAction {c : ℕ} {result : WorkflowResult} (h : Covered w)
    (here : w.calls c = .inserted call result) :
    Covered ((w.withAction (actionRow call.command result)).set c (.done (.ok result))) := by
  have hplanned := h.planned c
  rw [here] at hplanned
  refine ⟨planned_set h.planned trivial, fun row hrow hexec => ?_⟩
  rcases h.executing row hrow hexec with ⟨action, haction, hrec⟩ | ⟨c', call', result', hc', hrow'⟩
  · exact .inl ⟨action, List.mem_append_left _ haction, hrec⟩
  · by_cases hc : c' = c
    · rw [hc, here] at hc'
      cases hc'
      rw [← hrow'] at hexec ⊢
      exact .inl ⟨_, List.mem_append_right _ (List.mem_singleton_self _), hplanned.records hexec⟩
    · exact .inr ⟨c', call', result', (set_calls_of_ne hc).trans hc', hrow'⟩

/-- **One step keeps every executing row covered.** -/
theorem Covered.step (h : Covered w) (hok : Completes w a) (hstep : Step w a w') : Covered w' := by
  cases hstep with
  | refused idle _ => exact h.set trivial fun _ _ hc => nomatch idle.symm.trans hc
  | prepared idle ok =>
    obtain ⟨current, hacc, hplan⟩ := prepare_eq_ok.mp ok
    exact h.set ⟨hok, current, isAbout_of_select hacc.stored, hplan.symm⟩
      fun _ _ hc => nomatch idle.symm.trans hc
  | rowFailed here _ => exact h.set trivial fun _ _ hc => nomatch here.symm.trans hc
  | rowInserted here _ => exact h.insertRow here
  | actionFailed here error =>
    simp only [Completes, here, Phase.Completes] at hok
    exact nomatch error.symm.trans (insertAction_eq_ok.mpr ⟨hok.1, hok.2, rfl⟩)
  | actionInserted here => exact h.insertAction here
  | workerFailed => exact h
  | workerSaved =>
    -- the worker writes rows in status open
    refine ⟨h.planned, fun row hrow hexec => ?_⟩
    rcases List.mem_append.mp hrow with hrow | hrow
    · exact h.executing row hrow hexec
    · rw [(mem_rows hrow).1] at hexec
      cases hexec

/-- **When a failed command changes nothing.** For every call and database: exactly when it
is not half applied. And in every state that commands of the handlers and the worker reach
when no command fails after its row is inserted, every executing row has an action with its
request, unless the call that wrote the row has yet to insert it. -/
theorem unchanged_iff_and_recorded (call : Call) (db : Database) (w : World) :
    (Unchanged call db ↔ ¬ HalfApplied call db) ∧
    (Reach step Completes World.start w →
      ∀ row ∈ w.db.recommendation, row.status = .executing →
        (∀ c call result, w.calls c = .inserted call result → result.recommendation ≠ row) →
        ∃ action ∈ w.db.recommendationAction, action.Records row) := by
  refine ⟨unchanged_iff call db, fun hreach row hrow hexec hdone => ?_⟩
  have hstart : Covered World.start := ⟨fun _ => trivial, fun _ h => absurd h List.not_mem_nil⟩
  have hcovered : Covered w :=
    hreach.invariant hstart fun _ _ _ h hok hs => h.step hok (step_cases hs)
  rcases hcovered.executing row hrow hexec with hrec | ⟨c, call, result, hc, hresult⟩
  · exact hrec
  · exact absurd hresult (hdone c call result hc)

/-! ### A request for execution -/

/-- The call that an action is about. -/
def Action.caller : Action → Option ℕ
  | .read c _ => some c
  | .insertRecommendation c => some c
  | .insertAction c => some c
  | .worker _ => none

/-- A step leaves the other calls as they are. -/
theorem Step.calls_of_ne {c : ℕ} (h : Step w a w') (hne : a.caller ≠ some c) :
    w'.calls c = w.calls c := by
  have hset : ∀ {v : World} {c' : ℕ} {phase : Phase}, some c' ≠ some c →
      (v.set c' phase).calls c = v.calls c :=
    fun hne => set_calls_of_ne fun hc => hne (congrArg some hc.symm)
  cases h with
  | workerFailed | workerSaved => rfl
  | _ => exact hset hne

/-- Whether the call has its answer. -/
def Phase.answered : Phase → Bool
  | .done _ => true
  | _ => false

/-- A check of `Completes`, for the actions of the calls 0 and 1 and of the worker. -/
def completes (w : World) : Action → Bool
  | .read c call => decide (c < 2) && [Handler.approve, .reject, .suppress, .execute].any fun handler =>
      decide (call.command.action = handler.action ∧ call.command.nextStatus = handler.nextStatus)
  | .insertRecommendation c => decide (c < 2)
  | .insertAction c => decide (c < 2) && match w.calls c with
    | .inserted call _ => decide (call.faults.encode = none ∧ call.faults.action = {})
    | _ => true
  | .worker _ => true

theorem of_completes (w : World) (a : Action) (h : completes w a = true) :
    Completes w a ∧ ∀ c ∈ a.caller, c < 2 := by
  cases a with
  | read c call =>
    rw [completes, Bool.and_eq_true, decide_eq_true_eq, List.any_eq_true] at h
    obtain ⟨hc, handler, -, hhandler⟩ := h
    exact ⟨⟨handler, of_decide_eq_true hhandler⟩, fun c' hc' => Option.some.inj hc' ▸ hc⟩
  | insertRecommendation c =>
    exact ⟨trivial, fun c' hc' => Option.some.inj hc' ▸ of_decide_eq_true h⟩
  | insertAction c =>
    rw [completes, Bool.and_eq_true, decide_eq_true_eq] at h
    refine ⟨?_, fun c' hc' => Option.some.inj hc' ▸ h.1⟩
    show (w.calls c).Completes
    cases hcall : w.calls c with
    | inserted call result =>
      rw [hcall] at h
      have hworks : call.faults.encode = none ∧ call.faults.action = {} := of_decide_eq_true h.2
      exact hworks
    | _ => exact trivial
  | worker => exact ⟨trivial, fun _ hc => nomatch hc⟩

/-- The worker finds a recommendation, and it is approved. -/
def approvedSteps : List Action :=
  [.worker (plainRun (plainHour + 1)),
    .read 0 (plainCall .approve (plainHour + 2) 0), .insertRecommendation 0, .insertAction 0]

/-- Its execution is requested, and the request is recorded. -/
theorem unchanged_iff_and_recorded_executing : ∃ w, Reach step Completes World.start w ∧
    ∃ row ∈ w.db.recommendation, row.status = .executing ∧
      ∃ action ∈ w.db.recommendationAction, action.Records row := by
  have hrun : (run (guarded step completes) World.start (approvedSteps ++
      [.read 1 (plainCall .execute (plainHour + 3) 0), .insertRecommendation 1, .insertAction 1])).map
      (fun w => ((w.calls 0).answered, (w.calls 1).answered,
        w.db.recommendation.any fun row => decide (row.status = .executing))) =
        some (true, true, true) := by decide +kernel
  obtain ⟨w, hw, hends⟩ := Option.map_eq_some_iff.mp hrun
  simp only [Prod.mk.injEq, List.any_eq_true, decide_eq_true_eq] at hends
  obtain ⟨hzero, hone, row, hrow, hexec⟩ := hends
  have hreach := Reach.of_guarded of_completes hw
  have hcompletes : Reach step Completes World.start w := hreach.mono fun _ _ h => h.1
  -- no call is between its inserts
  have hidle : ∀ c, 2 ≤ c → w.calls c = .idle := by
    refine hreach.invariant (I := fun w => ∀ c, 2 ≤ c → w.calls c = .idle) (fun _ _ => rfl) ?_
    intro w a w' hidle hok hs c hc
    have hother : a.caller ≠ some c := fun hcaller => absurd (hok.2 c hcaller) (not_lt.mpr hc)
    rw [(step_cases hs).calls_of_ne hother]
    exact hidle c hc
  refine ⟨w, hcompletes, row, hrow, hexec, (unchanged_iff_and_recorded
    (plainCall .approve 0 0) ⟨[], []⟩ w).2 hcompletes row hrow hexec ?_⟩
  intro c call result hc
  match c with
  | 0 => rw [hc] at hzero; cases hzero
  | 1 => rw [hc] at hone; cases hone
  | c + 2 => cases (hidle (c + 2) (Nat.le_add_left 2 c)).symm.trans hc

/-- Its execution is requested while the action table cannot be written, and once more
afterwards. -/
def lostRequest : List Action :=
  [.read 1 { plainCall .execute (plainHour + 3) 0 with
      faults := { action := { send := some "timeout" } } },
    .insertRecommendation 1, .insertAction 1, .read 2 (plainCall .execute (plainHour + 4) 0)]

/-- The message of the error that a call has returned. -/
def Phase.message : Phase → Option String
  | .done (.error e) => some e.message
  | _ => none

/-- The status of the recommendation, and the requests that the actions have. -/
def shown (w : World) : Option Status × List (Option ExecutionRequest) :=
  ((select w.db.recommendation "t" plainId).map Fact.status,
    w.db.recommendationAction.map fun action => action.details.executionRequest)

/-- **The request is lost.** The call fails, the recommendation is executing, no action has
the request, and the command cannot be given again. -/
theorem executing_without_request :
    (run step World.start approvedSteps).map shown = some (some .approved, [none]) ∧
    (run step World.start (approvedSteps ++ lostRequest)).map (fun w =>
      (shown w, (w.calls 1).message, (w.calls 2).message)) =
      some ((some .executing, [none]), some "send recommendation action batch: timeout",
        some "invalid recommendation transition: executing to executing") := by
  decide +kernel

end Workflow
end KubeCost
