import Hseos.Jobs.State
import Mathlib.Data.List.Dedup

/-! # Dispatch of a job

The projection of the events of a dispatcher, the proofs it collects and the
event with which it settles an execution.
-/

namespace Hseos.Jobs

open EngineeringTask (sha)

/-! ## Commands and events -/

inductive DispatchAction where
  | dispatch
  | reconcile
  | expire
  | cancelDependency
  | cancel
  deriving DecidableEq

def DispatchAction.text : DispatchAction → String
  | .dispatch => "dispatch"
  | .reconcile => "reconcile"
  | .expire => "expire"
  | .cancelDependency => "cancel_dependency"
  | .cancel => "cancel"

/-- A command of a dispatcher. -/
structure DispatchCommand where
  commandId : String
  resourceId : String
  expectedSequence : Nat
  fence : Nat
  action : DispatchAction
  /-- There is an `input`, which is an empty object. -/
  input : Bool
  resumeExpectedSequence : Option Nat
  deriving DecidableEq

def DispatchCommand.toJson (command : DispatchCommand) : Json :=
  .obj ([("schema_version", .ofNat 1), ("command_id", .str command.commandId),
    ("resource_id", .str command.resourceId), ("expected_sequence", .ofNat command.expectedSequence),
    ("fence", .ofNat command.fence), ("action", .str command.action.text)] ++
    (if command.input then [("input", .obj [])] else []) ++
    Json.member? "resume_expected_sequence" .ofNat command.resumeExpectedSequence)

def DispatchCommand.digest (command : DispatchCommand) : String := sha command.toJson

/-- The payload of `JobExecutionRecorded`. -/
structure ExecutionEvent where
  command : DispatchCommand
  digest : String
  at_ : Nat
  phase : ExecutionPhase
  outcome : Status
  proofs : List Proof
  reason : String
  deriving DecidableEq

/-- A row of the stream of a job. -/
structure JobRow (α : Type) where
  schemaVersion : Nat
  streamSequence : Nat
  payload : α
  deriving DecidableEq

/-! ## Projection -/

def invalid (bad : Bool) : Except JobError Unit := reject bad .eventInvalid

def checkExecutionRow (state : JobState) (row : JobRow ExecutionEvent) (receipts : Receipts) :
    Except JobError Unit :=
  let p := row.payload
  let c := p.command
  let previous := receipts c.commandId
  let completing := previous.any (·.pending)
  invalid (row.schemaVersion ≠ 1 || c.resourceId ≠ state.resourceId || p.digest ≠ c.digest ||
    c.fence ≠ state.fenceOrZero ||
    (if completing then
      state.execution.bind (·.commandId) ≠ some c.commandId ||
        row.streamSequence ≠ state.currentSequence + 1
    else row.streamSequence ≠ c.expectedSequence + 1) ||
    (previous.any fun receipt => !completing || receipt.digest ≠ p.digest) ||
    p.at_ < state.lastTransition)

def checkIntent (state : JobState) (p : ExecutionEvent) : Except JobError Unit :=
  invalid (p.command.action ≠ .dispatch || state.status ≠ .claimed ||
    state.materialization.map (·.phase) ≠ some .ready || state.execution.isSome ||
    (state.executionDeadlineAt.any fun deadline => deadline ≤ (p.at_ : Int)) || p.outcome ≠ .running ||
    p.proofs ≠ [])

def checkCancelling (state : JobState) (p : ExecutionEvent) : Except JobError Unit :=
  invalid (p.command.action ≠ .cancel || state.status ∉ [.running, .uncertain] ||
    state.cancellationRequested || p.outcome ≠ .cancelling || p.proofs ≠ [])

def checkExpired (state : JobState) (p : ExecutionEvent) : Except JobError Unit :=
  invalid (state.status ≠ .queued || p.outcome ≠ .expired || p.proofs ≠ [] ||
    p.command.action ≠ .expire || (p.at_ : Int) < state.deadlineAt)

def checkDependencyCancelled (state : JobState) (p : ExecutionEvent) : Except JobError Unit :=
  invalid (state.status ≠ .queued || p.outcome ≠ .cancelled || p.proofs ≠ [] ||
    p.command.action ≠ .cancelDependency)

/-- What every event of an execution under way needs. -/
def checkUnderWay (state : JobState) (p : ExecutionEvent) (completing : Bool) :
    Except JobError Unit :=
  invalid (state.execution.isNone || !state.status.isUnderWay ||
    p.command.action ∉ [.dispatch, .reconcile] || (p.command.action = .dispatch && !completing))

/-- The proofs are those of the tasks of the plan, one for each. -/
def checkProofs (tasks : List PlanTask) (proofs : List Proof) : Except JobError Unit :=
  invalid (proofs.length ≠ tasks.length || (proofs.map (·.taskId)).dedup.length ≠ tasks.length ||
    proofs.any fun x => !(tasks.any fun t => t.taskRunId = x.taskId && t.sessionId = x.sessionId))

/-- Every task is approved by a completed session. -/
def approved (proofs : List Proof) : Bool :=
  proofs.all fun x => x.result = .approved && x.terminal = "completed"

/-- The parent session of a workflow job has ended. -/
def parentTerminal (world : World) (state : JobState) : Bool :=
  state.kind = .workflow && (state.materialization.bind (·.plan.manifest)).any fun manifest =>
    (world.session manifest.parentSessionId).ended

def provenDrift (world : World) (state : JobState) (p : ExecutionEvent) : Bool :=
  p.outcome = .invalidated && parentTerminal world state &&
    !(p.proofs.any fun proof => proof.result = .failed) &&
    p.proofs.any fun proof =>
      let task := world.task proof.taskId
      hasDrifted task && task.result.any fun result => proof.resultSha256 = sha (resultJson result)

def checkOutcome (world : World) (state : JobState) (p : ExecutionEvent) : Except JobError Unit :=
  invalid ((p.proofs.any fun x => x.result = .blocked) ||
    match p.outcome with
    | .succeeded => !approved p.proofs || state.cancellationRequested
    | .cancelled => !state.cancellationRequested
    | .invalidated => state.cancellationRequested ||
        p.reason ≠ "baseline-drift-drain-confirmed" || !provenDrift world state p
    | .failed => approved p.proofs
    | _ => true)

def checkExecutionPhase (world : World) (state : JobState) (p : ExecutionEvent)
    (completing : Bool) : Except JobError Unit :=
  match p.phase with
  | .intent => checkIntent state p
  | .cancelling => checkCancelling state p
  | .expired => checkExpired state p
  | .dependencyCancelled => checkDependencyCancelled state p
  | .uncertain => do
      checkUnderWay state p completing
      invalid (p.outcome ≠ .uncertain)
  | .settled => do
      checkUnderWay state p completing
      checkProofs state.tasks p.proofs
      checkOutcome world state p

/-- The state after an event of a dispatcher. -/
def executionState (state : JobState) (row : JobRow ExecutionEvent) : JobState :=
  let p := row.payload
  let intent : Bool := p.phase = .intent
  { state with
    status := p.outcome
    cancellationRequested := state.cancellationRequested || p.phase = .cancelling
    currentSequence := row.streamSequence
    transitionAt := some p.at_
    execution := some {
      phase := p.phase
      proofs := p.proofs
      reason := p.reason
      commandId := if intent then some p.command.commandId else state.execution.bind (·.commandId)
      fence := if intent then some p.command.fence else state.execution.bind (·.fence) } }

/-- `projectJobExecution`. -/
def projectJobExecution (world : World) (state : Option JobState) (row : JobRow ExecutionEvent)
    (receipts : Receipts) : Except JobError (JobState × Receipts) :=
  match state with
  | none => .error .eventInvalid
  | some state => do
      let p := row.payload
      let completing := (receipts p.command.commandId).any (·.pending)
      checkExecutionRow state row receipts
      checkExecutionPhase world state p completing
      let next := executionState state row
      return (next, receipts.set p.command.commandId ⟨p.digest, next, p.phase = .intent⟩)

/-! ## Settlement -/

/-- The proof of one task of a plan. -/
def proofFor (world : World) (entry : PlanTask) : Except JobError Proof :=
  let task := world.task entry.taskRunId
  let session := world.session entry.sessionId
  let replayed : Bool := 0 < session.length
  let notStarted := !replayed && !task.started &&
    task.result.any fun result => result.result = .notExecuted
  match task.result with
  | none => .error .outcomeUncertain
  | some result => do
      reject (task.uncertainty.isSome || !((replayed && session.ended) || notStarted))
        .outcomeUncertain
      return {
        taskId := entry.taskRunId, taskSequence := task.version, result := result.result,
        resultSha256 := sha (resultJson result), sessionId := entry.sessionId,
        sessionSequence := session.length,
        terminal := if replayed then session.status else "not_started",
        sessionSha256 := session.sha256 }

/-- No command of the job's campaign is unresolved. -/
def checkCampaign (world : World) (state : JobState) : Except JobError Unit :=
  reject (state.admission.campaignId.any fun campaignId =>
      (world.unresolvedTasks campaignId).any fun taskId =>
        taskId = state.resourceId || taskId ∈ state.tasks.map (·.taskRunId))
    .outcomeUncertain

/-- The parent session of a workflow has released it, and is cancelled if the job is. -/
def checkParent (world : World) (state : JobState) : Except JobError Unit :=
  match state.kind, state.materialization.bind (·.plan.manifest) with
  | .task, _ => .ok ()
  | .workflow, none => .error .typeError
  | .workflow, some manifest =>
      let parent := world.session manifest.parentSessionId
      reject (manifest.workflowId ∉ parent.releasedWorkflows ||
          (state.cancellationRequested && parent.status ≠ "cancelled"))
        .outcomeUncertain

/-- `proofsFor`. -/
def proofsFor (world : World) (state : JobState) : Except JobError (List Proof) := do
  checkCampaign world state
  checkParent world state
  state.tasks.mapM (proofFor world)

/-- A task of the plan ended because its baseline had drifted. -/
def baselineDrift (world : World) (state : JobState) : Bool :=
  state.tasks.any fun entry => hasDrifted (world.task entry.taskRunId)

/-- The outcome that a dispatcher computes. -/
def settledOutcome (world : World) (state : JobState) (proofs : List Proof) : Status :=
  if state.cancellationRequested then .cancelled
  else if proofs.any fun proof => proof.result = .failed then .failed
  else if state.kind = .workflow && baselineDrift world state then .invalidated
  else if proofs.all fun p => p.result = .approved then .succeeded
  else .failed

def settledReason (world : World) (state : JobState) (command : DispatchCommand) : String :=
  if baselineDrift world state then "baseline-drift-drain-confirmed"
  else if command.action = .reconcile then "owner-drain-confirmed"
  else "runtime-drain-confirmed"

/-- The event that settles an execution, if it can be settled. -/
def settledEvent (world : World) (state : JobState) (command : DispatchCommand) (now : Nat) :
    Except JobError ExecutionEvent := do
  let proofs ← proofsFor world state
  reject (proofs.any fun p => p.result = .blocked) .outcomeUncertain
  let outcome := settledOutcome world state proofs
  reject (outcome = .invalidated && !parentTerminal world state) .outcomeUncertain
  return ⟨command, command.digest, now, .settled, outcome, proofs, settledReason world state command⟩

/-- The event that `#settle` appends: an execution that cannot be settled is uncertain. -/
def settleEvent (world : World) (state : JobState) (command : DispatchCommand) (now : Nat) :
    Except JobError ExecutionEvent :=
  match settledEvent world state command now with
  | .error .outcomeUncertain =>
      .ok ⟨command, command.digest, now, .uncertain, .uncertain, [], "acceptance-or-drain-unconfirmed"⟩
  | event => event

/-- `#check`: the state in which a command may go on. -/
def checkCommand (state : JobState) (receipts : Receipts) (command : DispatchCommand) :
    Except JobError Unit := do
  let previous := receipts command.commandId
  reject (previous.any fun receipt => receipt.digest ≠ command.digest)
    (.rejected "CONTROL_IDEMPOTENCY_CONFLICT")
  reject (previous.any fun receipt => !receipt.pending) (.rejected "replay")
  reject (if previous.any (·.pending) then
      state.execution.bind (·.commandId) ≠ some command.commandId ||
        state.currentSequence < command.expectedSequence + 1
    else state.currentSequence ≠ command.expectedSequence)
    (.rejected "CONTROL_SEQUENCE_CONFLICT")
  reject (state.fenceOrZero ≠ command.fence) (.rejected "JOB_FENCE_CONFLICT")

end Hseos.Jobs
