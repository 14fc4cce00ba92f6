import Hseos.Engineering.TaskState

/-! # Job states

The state that the stream of a job projects to, the commands that workers,
materializers and dispatchers record in it, and what a projection reads outside
the stream. Instants are milliseconds.
-/

namespace Hseos.Jobs

open EngineeringTask (Owner Verdict sha)

/-- A rejection with its code. -/
inductive JobError where
  | eventInvalid
  | outcomeUncertain
  | rejected (code : String)
  | typeError
  deriving DecidableEq

inductive Kind where
  | task
  | workflow
  deriving DecidableEq

inductive Status where
  | queued
  | claimed
  | recovering
  | cancelling
  | running
  | uncertain
  | succeeded
  | failed
  | invalidated
  | cancelled
  | expired
  deriving DecidableEq

namespace Status

/-- The job has an outcome. -/
def isTerminal : Status → Bool
  | .succeeded | .failed | .invalidated | .cancelled | .expired => true
  | _ => false

/-- The job has an execution that is not settled. -/
def isUnderWay : Status → Bool
  | .running | .uncertain | .cancelling => true
  | _ => false

end Status

/-! ## Plans -/

/-- A task of a plan, with the session that its `created` record names. -/
structure PlanTask where
  taskRunId : String
  sessionId : String
  created : Json
  deriving DecidableEq

structure Manifest where
  parentSessionId : String
  workflowId : String
  definition : Json
  deriving DecidableEq

/-- `planSchema`. -/
structure Plan where
  controlDirectory : String
  tasks : List PlanTask
  manifest : Option Manifest
  deriving DecidableEq

inductive MaterializationPhase where
  | planned
  | ready
  deriving DecidableEq

structure Materialization where
  phase : MaterializationPhase
  plan : Plan
  commandId : String
  fence : Nat
  /-- The plan before the first expansion, once there was one. -/
  originalPlan : Option Plan
  deriving DecidableEq

/-! ## Executions -/

/-- `proofSchema`. -/
structure Proof where
  taskId : String
  taskSequence : Nat
  result : Verdict
  resultSha256 : String
  sessionId : String
  sessionSequence : Nat
  terminal : String
  sessionSha256 : String
  deriving DecidableEq

inductive ExecutionPhase where
  | intent
  | settled
  | uncertain
  | expired
  | dependencyCancelled
  | cancelling
  deriving DecidableEq

structure Execution where
  phase : ExecutionPhase
  proofs : List Proof
  reason : String
  commandId : Option String
  fence : Option Nat
  deriving DecidableEq

/-! ## Jobs -/

/-- What is read of the admission of a job. -/
structure Admission where
  input : Json
  maxDurationMs : Nat
  /-- The campaign of `plugin_model`. -/
  campaignId : Option String
  deriving DecidableEq

structure JobState where
  resourceId : String
  kind : Kind
  status : Status
  currentSequence : Nat
  notBefore : Int
  deadlineAt : Int
  dependsOn : List String
  admission : Admission
  cancellationRequested : Bool
  transitionAt : Option Nat
  fence : Option Nat
  owner : Option Owner
  firstStartedAt : Option Nat
  executionDeadlineAt : Option Int
  leaseUntil : Option Int
  recoveryCommandId : Option String
  materialization : Option Materialization
  execution : Option Execution
  retryOf : Option String
  retrySuccessorId : Option String
  deriving DecidableEq

namespace JobState

/-- `state.fence || 0`. -/
def fenceOrZero (state : JobState) : Nat := state.fence.getD 0

/-- `state.transition_at || 0`. -/
def lastTransition (state : JobState) : Nat := state.transitionAt.getD 0

def tasks (state : JobState) : List PlanTask :=
  (state.materialization.map (·.plan.tasks)).getD []

end JobState

/-! ## Receipts -/

structure Receipt where
  digest : String
  result : JobState
  pending : Bool
  deriving DecidableEq

/-- The map of receipts, by command identifier. -/
abbrev Receipts := String → Option Receipt

namespace Receipts

def empty : Receipts := fun _ => none

def set (receipts : Receipts) (commandId : String) (receipt : Receipt) : Receipts :=
  Function.update receipts commandId (some receipt)

end Receipts

/-! ## Outside the stream -/

/-- What replaying and reading a session gives. -/
structure SessionView where
  /-- The number of stored events. -/
  length : Nat
  sha256 : String
  ended : Bool
  status : String
  /-- The workflows whose reservation is released. -/
  releasedWorkflows : List String
  deriving DecidableEq

/-- The ledger outside the stream of the job. -/
structure World where
  task : String → EngineeringTask.TaskState
  session : String → SessionView
  /-- The tasks with a reserved and unresolved command in a campaign. -/
  unresolvedTasks : String → List String

/-- The result event of a task as a JSON value. -/
def resultJson (result : EngineeringTask.Result) : Json :=
  .obj [("kind", .str "result"),
    ("result", .str (match result.result with
      | .approved => "approved"
      | .failed => "failed"
      | .blocked => "blocked"
      | .notExecuted => "not_executed")),
    ("reason", .str result.reason), ("evidence", result.evidence)]

/-- The task ended before it was started because its baseline had drifted. -/
def hasDrifted (task : EngineeringTask.TaskState) : Bool :=
  !task.started && task.result.any fun result =>
    result.result = .notExecuted && result.reason = "JOB_BASELINE_DRIFT"

end Hseos.Jobs
