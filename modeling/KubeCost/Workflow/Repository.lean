/-
# The workflow service

`services/workflow`: a command on a recommendation (approve, reject, suppress or
request execution) is `ApplyCommand`, which reads the recommendation, checks the
expected version and the transition, writes a new row of `kube_cost.recommendation`
with the next status, and then a row of `kube_cost.recommendation_action`. The two
inserts are separate operations of the database, each of which can fail.

`prepare` is the call up to its first insert; `applyCommand` is the whole call on a
database that nobody else uses. What the call writes is decided by `prepare` (`plan`).
-/
import KubeCost.Recommendations.Facts

namespace KubeCost
namespace Workflow

open Keyed Recommendations

/-! ### Types -/

/-- The values of `WorkflowCommand.Action`. The handlers use the first four. -/
inductive CommandAction
  | approve
  | reject
  | suppress
  | requestExecution
  | other (text : String)
deriving DecidableEq

/-- A JSON object, each value as its text. -/
abbrev Details := Map String String

structure WorkflowCommand where
  tenantId : String
  recommendationId : String
  action : CommandAction
  nextStatus : Status
  actorId : String := ""
  reason : String := ""
  expectedVersion : ℕ := 0
  details : Details := ∅
  occurredAt : Instant

inductive ActionStatus
  | recorded
  | handoffRequested
deriving DecidableEq

structure ActionReference where
  tenantId : String
  recommendationId : String
  actionId : String
  action : CommandAction
  executionId : String := ""
  status : ActionStatus
  occurredAt : Instant
deriving DecidableEq

inductive ExecutionStatus
  | pendingExecutor
deriving DecidableEq

structure ExecutionRequest where
  executionId : String
  tenantId : String
  recommendationId : String
  actionId : String
  clusterId : String
  namespaceUid : String
  targetKind : String
  targetUid : String
  recommendationType : String
  safetyClass : String
  policyVersion : String
  currentConfiguration : String
  proposedConfiguration : String
  evidence : String
  requestedAt : Instant
  status : ExecutionStatus
deriving DecidableEq

structure WorkflowResult where
  recommendation : Fact
  action : ActionReference
  executionRequest : Option ExecutionRequest
deriving DecidableEq

/-- The object in the column `details`: the caller's details, and under the key
`execution_request` the request. -/
structure ActionDetails where
  details : Details
  executionRequest : Option ExecutionRequest

/-- A row of `kube_cost.recommendation_action`. -/
structure ActionRow where
  tenantId : String
  recommendationId : String
  actionId : String
  action : CommandAction
  actorType : String
  actorId : String
  reason : String
  occurredAt : Instant
  executionId : String
  result : ActionStatus
  details : ActionDetails

/-- The two tables, their rows in the order they came in. -/
structure Database where
  recommendation : List Fact
  recommendationAction : List ActionRow

inductive CommandError
  | recommendationNotFound
  | versionConflict
  | invalidTransition (current next : Status)
  | failed (message : String)
deriving DecidableEq

/-- `err.Error()`. -/
def CommandError.message : CommandError → String
  | .recommendationNotFound => "recommendation not found"
  | .versionConflict => "recommendation version conflict"
  | .invalidTransition current next =>
    "invalid recommendation transition: " ++ current.text ++ " to " ++ next.text
  | .failed message => message

/-- The errors of the database during a call: while it reads the recommendation, while it
writes each of the batches, and of `json.Marshal` on the details. -/
structure Faults where
  query : Option String := none
  next : Option String := none
  scan : Option String := none
  recommendation : BatchFaults := {}
  encode : Option String := none
  action : BatchFaults := {}
deriving DecidableEq

/-- A call of `ApplyCommand`, with the identifiers that `uuid.NewString` gives it. -/
structure Call where
  command : WorkflowCommand
  actionId : String
  executionId : String
  faults : Faults := {}

/-! ### The handlers -/

/-- The four commands of the API. -/
inductive Handler
  | approve
  | reject
  | suppress
  | execute
deriving DecidableEq

structure CommandRequest where
  actorId : String := ""
  reason : String := ""
  expectedVersion : ℕ := 0
  details : Details := ∅

def Handler.action : Handler → CommandAction
  | .approve => .approve
  | .reject => .reject
  | .suppress => .suppress
  | .execute => .requestExecution

def Handler.nextStatus : Handler → Status
  | .approve => .approved
  | .reject => .rejected
  | .suppress => .suppressed
  | .execute => .executing

/-- The command that a handler passes to `ApplyCommand`; the path value and the tenant
header come trimmed and not empty. -/
def Handler.command (handler : Handler) (tenantId recommendationId : String)
    (request : CommandRequest) (now : Instant) : WorkflowCommand where
  tenantId := tenantId
  recommendationId := recommendationId
  action := handler.action
  nextStatus := handler.nextStatus
  actorId := trimSpace request.actorId
  reason := trimSpace request.reason
  expectedVersion := request.expectedVersion
  details := request.details
  occurredAt := now

/-! ### `ApplyCommand` -/

def transitionAllowed (current : Status) : Status → Bool
  | .approved => current = .opened || current = .acknowledged
  | .rejected | .suppressed => current = .opened || current = .acknowledged || current = .approved
  | .executing => current = .approved
  | _ => false

/-- `recommendation`: the row that `recommendationSelectSQL` returns. -/
def recommendation (faults : Faults) (table : List Fact) (tenantId recommendationId : String) :
    Except CommandError Fact := do
  (attempt "query recommendation" faults.query).mapError .failed
  (attempt "read recommendation row" faults.next).mapError .failed
  match select table tenantId recommendationId with
  | none => .error .recommendationNotFound
  | some row => do
    (attempt "scan recommendation row" faults.scan).mapError .failed
    .ok row

def executionRequestFor (recommendation : Fact) (action : ActionReference) (executionId : String)
    (requestedAt : Instant) : ExecutionRequest where
  executionId := executionId
  tenantId := recommendation.tenantId
  recommendationId := recommendation.recommendationId
  actionId := action.actionId
  clusterId := recommendation.clusterId
  namespaceUid := recommendation.namespaceUid
  targetKind := recommendation.targetKind
  targetUid := recommendation.targetUid
  recommendationType := recommendation.recommendationType
  safetyClass := recommendation.safetyClass
  policyVersion := recommendation.policyVersion
  currentConfiguration := recommendation.currentConfiguration
  proposedConfiguration := recommendation.proposedConfiguration
  evidence := recommendation.evidence
  requestedAt := requestedAt
  status := .pendingExecutor

/-- What the call writes and returns when all goes well: the updated row, the action, and
the request when the command asks for execution. -/
def plan (call : Call) (current : Fact) : WorkflowResult :=
  let updated := { current with
    status := call.command.nextStatus, version := call.command.occurredAt.unixNano }
  let action : ActionReference :=
    { tenantId := call.command.tenantId
      recommendationId := call.command.recommendationId
      actionId := call.actionId
      action := call.command.action
      status := .recorded
      occurredAt := call.command.occurredAt }
  if call.command.action = .requestExecution then
    let request := executionRequestFor current action call.executionId call.command.occurredAt
    { recommendation := updated
      action := { action with executionId := request.executionId, status := .handoffRequested }
      executionRequest := some request }
  else { recommendation := updated, action := action, executionRequest := none }

/-- `ApplyCommand` up to its first insert. -/
def prepare (call : Call) (db : Database) : Except CommandError WorkflowResult := do
  let current ← recommendation call.faults db.recommendation call.command.tenantId
    call.command.recommendationId
  rejectIf (call.command.expectedVersion ≠ 0 ∧ call.command.expectedVersion ≠ current.version)
    .versionConflict
  rejectIf (transitionAllowed current.status call.command.nextStatus = false)
    (.invalidTransition current.status call.command.nextStatus)
  .ok (plan call current)

def insertRecommendation (call : Call) (recommendation : Fact) (db : Database) :
    Except CommandError Database := do
  (call.faults.recommendation.attempts "recommendation").mapError .failed
  .ok { db with recommendation := db.recommendation ++ [recommendation] }

/-- The request takes the place of a key of its name in the caller's details. -/
def actionDetails (command : WorkflowCommand) : Option ExecutionRequest → ActionDetails
  | none => ⟨command.details, none⟩
  | some request => ⟨command.details.erase "execution_request", some request⟩

def actionRow (command : WorkflowCommand) (result : WorkflowResult) : ActionRow where
  tenantId := result.action.tenantId
  recommendationId := result.action.recommendationId
  actionId := result.action.actionId
  action := result.action.action
  actorType := "user"
  actorId := command.actorId
  reason := command.reason
  occurredAt := result.action.occurredAt
  executionId := result.action.executionId
  result := result.action.status
  details := actionDetails command result.executionRequest

def insertAction (call : Call) (result : WorkflowResult) (db : Database) :
    Except CommandError Database := do
  (attempt "encode action details" call.faults.encode).mapError .failed
  (call.faults.action.attempts "recommendation action").mapError .failed
  .ok { db with
    recommendationAction := db.recommendationAction ++ [actionRow call.command result] }

/-- `ApplyCommand`: what it returns, and the database after it. A failed insert has written
nothing. -/
def applyCommand (call : Call) (db : Database) : Except CommandError WorkflowResult × Database :=
  match prepare call db with
  | .error e => (.error e, db)
  | .ok result =>
    match insertRecommendation call result.recommendation db with
    | .error e => (.error e, db)
    | .ok db =>
      match insertAction call result db with
      | .error e => (.error e, db)
      | .ok db => (.ok result, db)

/-! ### When each part succeeds -/

variable {call : Call} {db db' : Database} {result : WorkflowResult} {current : Fact}
  {t id : String}

theorem recommendation_eq_ok {faults : Faults} {table : List Fact} :
    recommendation faults table t id = .ok current ↔
      faults.query = none ∧ faults.next = none ∧ faults.scan = none ∧
        select table t id = some current := by
  rw [recommendation, check_bind_ok, check_bind_ok, mapError_eq_ok, mapError_eq_ok, attempt_eq_ok,
    attempt_eq_ok]
  cases select table t id with
  | none => simp
  | some row =>
    rw [check_bind_ok, mapError_eq_ok, attempt_eq_ok, Except.ok.injEq, Option.some.injEq]

/-- The call reads the row and passes its checks. -/
structure Accepts (call : Call) (db : Database) (current : Fact) : Prop where
  query : call.faults.query = none
  next : call.faults.next = none
  scan : call.faults.scan = none
  stored : select db.recommendation call.command.tenantId call.command.recommendationId = some current
  version : call.command.expectedVersion = 0 ∨ call.command.expectedVersion = current.version
  allowed : transitionAllowed current.status call.command.nextStatus = true

/-- **What it takes for a call to go on to its inserts.** -/
theorem prepare_eq_ok :
    prepare call db = .ok result ↔ ∃ current, Accepts call db current ∧ plan call current = result := by
  rw [prepare, bind_eq_ok]
  refine exists_congr fun current => ?_
  rw [recommendation_eq_ok, check_bind_ok, check_bind_ok, rejectIf_eq_ok, rejectIf_eq_ok,
    Except.ok.injEq, Bool.not_eq_false, not_and_or, not_not, not_not]
  constructor
  · rintro ⟨⟨hquery, hnext, hscan, hstored⟩, hversion, hallowed, hplan⟩
    exact ⟨⟨hquery, hnext, hscan, hstored, hversion, hallowed⟩, hplan⟩
  · rintro ⟨h, hplan⟩
    exact ⟨⟨h.query, h.next, h.scan, h.stored⟩, h.version, h.allowed, hplan⟩

theorem insertRecommendation_eq_ok {row : Fact} : insertRecommendation call row db = .ok db' ↔
    call.faults.recommendation = {} ∧
      { db with recommendation := db.recommendation ++ [row] } = db' := by
  rw [insertRecommendation, check_bind_ok, mapError_eq_ok, attempts_eq_ok, Except.ok.injEq]

theorem insertAction_eq_ok : insertAction call result db = .ok db' ↔
    call.faults.encode = none ∧ call.faults.action = {} ∧
      { db with recommendationAction := db.recommendationAction ++ [actionRow call.command result] } =
        db' := by
  rw [insertAction, check_bind_ok, check_bind_ok, mapError_eq_ok, mapError_eq_ok, attempt_eq_ok,
    attempts_eq_ok, Except.ok.injEq]

/-! ### The plan -/

@[simp] theorem plan_recommendation (call : Call) (current : Fact) :
    (plan call current).recommendation = { current with
      status := call.command.nextStatus, version := call.command.occurredAt.unixNano } := by
  unfold plan
  split <;> rfl

@[simp] theorem plan_version (call : Call) (current : Fact) :
    (plan call current).recommendation.version = call.command.occurredAt.unixNano := by
  rw [plan_recommendation]

/-- The updated row keeps its place in the table. -/
theorem plan_sortingKey (call : Call) (current : Fact) :
    (plan call current).recommendation.sortingKey = current.sortingKey := by
  rw [plan_recommendation]
  rfl

/-- A transition that is allowed changes the status. -/
theorem transitionAllowed_ne {current next : Status} (h : transitionAllowed current next = true) :
    current ≠ next := by
  rintro rfl
  cases current <;> simp [transitionAllowed] at h

end Workflow
end KubeCost
