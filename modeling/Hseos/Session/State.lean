import Hseos.Contracts.Event

/-! # Session state

The state that replay builds from a session stream. Two maps of the source hold
the same records: a turn's `tool_executions` and the session's `tool_invocations`
share each execution, and a turn's `model_steps_by_id` repeats its `model_steps`.
Here a turn keeps the invocation identifiers of its executions, and a step is
looked up in the list of steps.
-/

namespace Hseos

/-- A model event as it was recorded. The source keeps events, event identifiers
and sequences in parallel arrays. -/
structure StreamedEvent where
  event : ModelStreamEvent
  eventId : Identifier
  sequence : Nat
  deriving DecidableEq

/-- The revision requested after a completed step. -/
structure StepRevision where
  feedback : Refined (lengthWithin 1 65536)
  eventId : Identifier
  deriving DecidableEq

structure ModelStep where
  stepId : Identifier
  request : ModelRequest
  requestEventId : Identifier
  sourceEventIds : List Identifier
  modelEvents : List StreamedEvent
  modelStreamBytes : Nat
  terminalEventId : Option Identifier
  revision : Option StepRevision
  deriving DecidableEq

/-- A compaction record with the event that made it durable. -/
structure Compaction where
  record : CompactionRecord
  eventId : Identifier
  deriving DecidableEq

/-- What context assembly fixes for a turn. -/
structure Assembly where
  request : ModelRequestV2
  sourceRefs : List Reference
  budget : ContextBudgetReport
  requestEventId : Identifier
  deriving DecidableEq

structure Turn where
  turnId : Identifier
  input : AgentMessage
  inputEventId : Identifier
  inputEventSequence : Nat
  assembly : Option Assembly
  modelEvents : List StreamedEvent
  modelSteps : List ModelStep
  toolExecutions : JsObject Identifier Identifier
  contextCompaction : Option Compaction
  toolCompactions : List Compaction
  pendingOlderCompaction : Option Compaction
  deriving DecidableEq

/-- The outcome of an execution, with the event that recorded it. -/
structure ToolCompletion where
  outcome : ToolExecutionResult
  eventId : Identifier
  sequence : Nat
  deriving DecidableEq

structure ToolExecution where
  started : ToolStartedPayload
  startedEventId : Identifier
  completion : Option ToolCompletion
  uncertain : Option ToolCompletion
  deriving DecidableEq

structure WorkflowRevision where
  revision : Nat
  definitionDigest : Digest
  definition : WorkflowDefinition
  eventId : Identifier
  deriving DecidableEq

structure WorkflowRelease where
  status : WorkflowStatus
  eventId : Identifier
  deriving DecidableEq

structure WorkflowReservation where
  workflowId : Identifier
  definitionDigest : Digest
  claimId : Identifier
  claimExpiresAt : Timestamp
  stepCount : Nat
  childSessionIds : List Identifier
  eventId : Identifier
  claimRef : String
  released : Option WorkflowRelease
  revision : Option Nat
  revisions : Option (List WorkflowRevision)
  deriving DecidableEq

/-- A checkpoint of either kind. -/
inductive WorkflowCheckpoint where
  | step (payload : WorkflowCheckpointedPayload) (eventId : Identifier)
  | phase (payload : WorkflowPhaseCheckpointedPayload) (eventId : Identifier)
  deriving DecidableEq

namespace WorkflowCheckpoint

def workflowId : WorkflowCheckpoint → Identifier
  | .step payload _ => payload.workflowId
  | .phase payload _ => payload.workflowId

/-- `checkpoint.completed_step_ids?.length || 1`. -/
def stepCount : WorkflowCheckpoint → Nat
  | .step .. => 1
  | .phase payload _ => if payload.completedStepIds.length = 0 then 1 else payload.completedStepIds.length

/-- `checkpoint.completed_step_ids.length`, zero for a checkpoint without them. -/
def completedSteps : WorkflowCheckpoint → Nat
  | .step .. => 0
  | .phase payload _ => payload.completedStepIds.length

end WorkflowCheckpoint

structure WorkflowProgress where
  definitionDigest : Digest
  phases : List Identifier
  deriving DecidableEq

structure CancellationRequest where
  payload : CancellationRequestedPayload
  eventId : Identifier
  deriving DecidableEq

structure SubagentRequest where
  payload : SubagentRequestedPayload
  eventId : Identifier
  deriving DecidableEq

inductive SessionStatus where
  | empty
  | active
  | cancelled
  | failed
  | completed
  deriving DecidableEq

/-- The state of a session. `seenEventIds` is the set that the reducer keeps
beside each state it returns. -/
structure SessionState where
  sessionId : Option Identifier
  spec : Option AgentSessionSpec
  status : SessionStatus
  currentSequence : Nat
  parent : Option ForkedPayload
  turns : JsObject Identifier Turn
  turnOrder : List Identifier
  operationIds : List Identifier
  children : List Identifier
  subagentRequest : Option SubagentRequest
  compactions : List Compaction
  workflowCheckpoints : List WorkflowCheckpoint
  workflows : JsObject Identifier WorkflowProgress
  workflowReservations : JsObject Identifier WorkflowReservation
  cancellationRequest : Option CancellationRequest
  toolInvocations : JsObject Identifier ToolExecution
  reconciliationReservedTokens : Nat
  reconciliationReports : List Sha256Text
  terminalEvent : Option SessionEvent
  seenEventIds : List Identifier
  deriving DecidableEq

namespace SessionState

def initial : SessionState where
  sessionId := none
  spec := none
  status := .empty
  currentSequence := 0
  parent := none
  turns := ∅
  turnOrder := []
  operationIds := []
  children := []
  subagentRequest := none
  compactions := []
  workflowCheckpoints := []
  workflows := ∅
  workflowReservations := ∅
  cancellationRequest := none
  toolInvocations := ∅
  reconciliationReservedTokens := 0
  reconciliationReports := []
  terminalEvent := none
  seenEventIds := []

def setTurn (state : SessionState) (turnId : Identifier) (turn : Turn) : SessionState :=
  { state with turns := state.turns.set turnId turn }

def setReservation (state : SessionState) (workflowId : Identifier)
    (reservation : WorkflowReservation) : SessionState :=
  { state with workflowReservations := state.workflowReservations.set workflowId reservation }

def setExecution (state : SessionState) (invocationId : Identifier) (execution : ToolExecution) :
    SessionState :=
  { state with toolInvocations := state.toolInvocations.set invocationId execution }

end SessionState

namespace Turn

/-- `turn.model_steps_by_id[stepId]`. -/
def step (turn : Turn) (stepId : Identifier) : Slot ModelStep :=
  match turn.modelSteps.find? (·.stepId = stepId) with
  | some step => .own step
  | none => if stepId.val ∈ objectPrototypeKeys then .inherited else .absent

theorem step_eq_own_iff {turn : Turn} {stepId : Identifier} {step : ModelStep} :
    turn.step stepId = .own step ↔ turn.modelSteps.find? (·.stepId = stepId) = some step := by
  unfold Turn.step
  cases turn.modelSteps.find? (·.stepId = stepId) with
  | some found => simp
  | none => simp only [reduceCtorEq, iff_false]; split <;> simp

theorem stepId_ne_of_step_not_truthy {turn : Turn} {stepId : Identifier}
    (h : (turn.step stepId).truthy = false) : ∀ step ∈ turn.modelSteps, step.stepId ≠ stepId := by
  unfold Turn.step at h
  cases hfind : turn.modelSteps.find? (·.stepId = stepId) with
  | some found => simp [hfind] at h
  | none => simpa using hfind

/-- The turn after a change to the step of the given identifier. -/
def modifyStep (turn : Turn) (stepId : Identifier) (change : ModelStep → ModelStep) : Turn :=
  { turn with
    modelSteps := turn.modelSteps.map fun step =>
      if step.stepId = stepId then change step else step }

end Turn

/-- `turn.tool_executions[toolCallId]`. -/
def SessionState.execution (state : SessionState) (turn : Turn) (toolCallId : Identifier) :
    Slot ToolExecution :=
  match turn.toolExecutions.slot toolCallId with
  | .own invocationId =>
      match state.toolInvocations.get? invocationId with
      | some execution => .own execution
      | none => .absent
  | .inherited => .inherited
  | .absent => .absent

/-- `Object.values(turn.tool_executions)`. -/
def SessionState.executions (state : SessionState) (turn : Turn) : List ToolExecution :=
  turn.toolExecutions.values.filterMap state.toolInvocations.get?

/-- `execution?.outcome`, with what was recorded beside it. A function that stands
for an inherited property has none. -/
def Slot.completion? (execution : Slot ToolExecution) : Option ToolCompletion :=
  execution.own?.bind (·.completion)

end Hseos
