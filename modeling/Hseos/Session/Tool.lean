import Hseos.Session.History

/-! # Tool executions

The events that start a tool execution, record its outcome and link it to a
governed operation.
-/

namespace Hseos

/-- The turn that holds an execution under a call. -/
def Turn.hold (turn : Turn) (toolCallId invocationId : Identifier) : Turn :=
  { turn with toolExecutions := turn.toolExecutions.set toolCallId invocationId }

/-- The execution with an outcome. -/
def ToolExecution.complete (execution : ToolExecution) (completion : ToolCompletion) :
    ToolExecution :=
  { execution with completion := some completion }

/-- The execution whose uncertain outcome was reconciled. -/
def ToolExecution.reconcile (execution : ToolExecution) (completion : ToolCompletion) :
    ToolExecution :=
  { execution with uncertain := execution.completion, completion := some completion }

/-- What an outcome event records. -/
def completionOf (event : SessionEvent) (payload : ToolOutcomePayload) : ToolCompletion :=
  ⟨payload.outcome, event.eventId, event.sequence⟩

variable {state next : SessionState} {event : SessionEvent}

def applyToolExecutionStarted (state : SessionState) (event : SessionEvent)
    (payload : ToolStartedPayload) : Replay SessionState := do
  let turn ← requireOwnTurn state payload.turnId event .typeError
  let stepInvalid := replayError "tool execution requires a durable completed tool-call step"
    "AGENT_SESSION_TOOL_STEP_INVALID"
  match turn.step payload.stepId with
  | .absent => throw stepInvalid
  | .inherited => throw .typeError
  | .own step =>
      reject (step.finishReason? ≠ some .toolCalls) stepInvalid
      reject ((state.toolInvocations.slot payload.invocationId).truthy ||
          (turn.toolExecutions.slot payload.toolCallId).truthy)
        (replayError "tool execution identity is already present"
          "AGENT_SESSION_DUPLICATE_TOOL_EXECUTION")
      let calls ← assembledToolCalls step.modelEvents
      reject (!(calls.find? (·.toolCallId = payload.toolCallId)).any fun call =>
          call.name = payload.name && canonicalJson call.input = canonicalJson payload.input)
        (replayError "tool execution differs from the durable model call"
          "AGENT_SESSION_TOOL_CALL_MISMATCH")
      let spec ← requireSpec state
      reject (spec.limits.maxToolCalls ≤ state.toolInvocations.size)
        (replayError "session tool-call limit is exhausted" "AGENT_SESSION_TOOL_LIMIT_EXCEEDED")
      return (state.setTurn payload.turnId
        (turn.hold payload.toolCallId payload.invocationId)).setExecution payload.invocationId
          ⟨payload, event.eventId, none, none⟩

theorem applyToolExecutionStarted_eq_ok {payload : ToolStartedPayload}
    (h : applyToolExecutionStarted state event payload = .ok next) :
    ∃ turn step, state.turns.get? payload.turnId = some turn ∧
      turn.modelSteps.find? (·.stepId = payload.stepId) = some step ∧
      step.finishReason? = some .toolCalls ∧
      state.toolInvocations.get? payload.invocationId = none ∧
      turn.toolExecutions.get? payload.toolCallId = none ∧
      next = (state.setTurn payload.turnId
        (turn.hold payload.toolCallId payload.invocationId)).setExecution payload.invocationId
          ⟨payload, event.eventId, none, none⟩ ∧
      ∃ spec, state.spec = some spec ∧ state.toolInvocations.size < spec.limits.maxToolCalls := by
  obtain ⟨turn, hturn, h⟩ := bind_eq_ok_iff.mp h
  dsimp only at h
  cases hstep : turn.step payload.stepId with
  | absent =>
      rw [hstep] at h
      exact (throw_eq_ok_iff.mp h).elim
  | inherited =>
      rw [hstep] at h
      exact (throw_eq_ok_iff.mp h).elim
  | own step =>
      rw [hstep] at h
      obtain ⟨hfinish, h⟩ := reject_bind_eq_ok_iff.mp h
      obtain ⟨hfresh, h⟩ := reject_bind_eq_ok_iff.mp h
      obtain ⟨calls, -, h⟩ := bind_eq_ok_iff.mp h
      obtain ⟨-, h⟩ := reject_bind_eq_ok_iff.mp h
      obtain ⟨spec, hspec, h⟩ := bind_eq_ok_iff.mp h
      obtain ⟨hlimit, h⟩ := reject_bind_eq_ok_iff.mp h
      rw [Bool.or_eq_false_iff] at hfresh
      refine ⟨turn, step, requireOwnTurn_eq_ok hturn, Turn.step_eq_own_iff.mp hstep, ?_,
        JsObject.get?_eq_none_of_slot_not_truthy hfresh.1,
        JsObject.get?_eq_none_of_slot_not_truthy hfresh.2, (pure_eq_ok_iff.mp h).symm, spec,
        requireSpec_eq_ok hspec, by simpa using hlimit⟩
      simpa using hfinish

/-- `/^reconciliation:\/\/[a-f0-9]{64}$/`. -/
def isReconciliationRef (reference : String) : Bool :=
  "reconciliation://".toList <+: chars reference &&
    isSha256 (String.ofList ((chars reference).drop 17))

def applyToolExecutionReconciled (state : SessionState) (event : SessionEvent)
    (payload : ToolOutcomePayload) : Replay SessionState := do
  let outcome := payload.outcome
  let mismatch := replayError "Reconciliation must reference a pending uncertain execution"
    "AGENT_SESSION_REPLAY_INVALID"
  match state.toolInvocations.slot outcome.invocationId with
  | .absent | .inherited => throw mismatch
  | .own execution =>
      reject (execution.completion.map (·.outcome.status) ≠ some .uncertain ||
        execution.started.turnId ≠ payload.turnId || execution.started.stepId ≠ payload.stepId ||
        execution.started.toolCallId ≠ outcome.toolCallId || execution.started.name ≠ outcome.name ||
        !outcome.evidenceRefs.any isReconciliationRef) mismatch
      return state.setExecution outcome.invocationId
        (execution.reconcile (completionOf event payload))

theorem applyToolExecutionReconciled_eq_ok {payload : ToolOutcomePayload}
    (h : applyToolExecutionReconciled state event payload = .ok next) :
    ∃ execution, state.toolInvocations.get? payload.outcome.invocationId = some execution ∧
      execution.completion.map (·.outcome.status) = some .uncertain ∧
      execution.started.turnId = payload.turnId ∧
      execution.started.toolCallId = payload.outcome.toolCallId ∧
      execution.started.name = payload.outcome.name ∧
      next = state.setExecution payload.outcome.invocationId
        (execution.reconcile (completionOf event payload)) := by
  unfold applyToolExecutionReconciled at h
  dsimp only at h
  cases hslot : state.toolInvocations.slot payload.outcome.invocationId with
  | absent =>
      rw [hslot] at h
      exact (throw_eq_ok_iff.mp h).elim
  | inherited =>
      rw [hslot] at h
      exact (throw_eq_ok_iff.mp h).elim
  | own execution =>
      rw [hslot] at h
      obtain ⟨hmatch, h⟩ := reject_bind_eq_ok_iff.mp h
      simp only [Bool.or_eq_false_iff, decide_eq_false_iff_not, not_not] at hmatch
      obtain ⟨⟨⟨⟨⟨hstatus, hturn⟩, -⟩, hcall⟩, hname⟩, -⟩ := hmatch
      exact ⟨execution, JsObject.slot_eq_own_iff.mp hslot, hstatus, hturn, hcall, hname,
        (pure_eq_ok_iff.mp h).symm⟩

def applyToolExecutionCompleted (state : SessionState) (event : SessionEvent)
    (payload : ToolOutcomePayload) : Replay SessionState := do
  let found ← requireTurn state payload.turnId event
  let outcome := payload.outcome
  let mismatch := replayError "tool outcome does not match one pending durable execution"
    "AGENT_SESSION_TOOL_OUTCOME_MISMATCH"
  match state.toolInvocations.slot outcome.invocationId with
  | .absent | .inherited => throw mismatch
  | .own execution =>
      reject (execution.completion.isSome || execution.started.stepId ≠ payload.stepId ||
        execution.started.toolCallId ≠ outcome.toolCallId || execution.started.name ≠ outcome.name)
        mismatch
      match found with
      | none => throw .typeError
      | some turn =>
          return (state.setTurn payload.turnId
            (turn.hold execution.started.toolCallId outcome.invocationId)).setExecution
              outcome.invocationId (execution.complete (completionOf event payload))

theorem applyToolExecutionCompleted_eq_ok {payload : ToolOutcomePayload}
    (h : applyToolExecutionCompleted state event payload = .ok next) :
    ∃ turn execution, state.turns.get? payload.turnId = some turn ∧
      state.toolInvocations.get? payload.outcome.invocationId = some execution ∧
      execution.completion = none ∧
      execution.started.toolCallId = payload.outcome.toolCallId ∧
      execution.started.name = payload.outcome.name ∧
      next = (state.setTurn payload.turnId
        (turn.hold execution.started.toolCallId payload.outcome.invocationId)).setExecution
          payload.outcome.invocationId (execution.complete (completionOf event payload)) := by
  obtain ⟨found, hfound, h⟩ := bind_eq_ok_iff.mp h
  dsimp only at h
  cases hslot : state.toolInvocations.slot payload.outcome.invocationId with
  | absent =>
      rw [hslot] at h
      exact (throw_eq_ok_iff.mp h).elim
  | inherited =>
      rw [hslot] at h
      exact (throw_eq_ok_iff.mp h).elim
  | own execution =>
      rw [hslot] at h
      obtain ⟨hmatch, h⟩ := reject_bind_eq_ok_iff.mp h
      simp only [Bool.or_eq_false_iff, decide_eq_false_iff_not, not_not] at hmatch
      obtain ⟨⟨⟨hopen, -⟩, hcall⟩, hname⟩ := hmatch
      cases found with
      | none => exact (throw_eq_ok_iff.mp h).elim
      | some turn =>
          exact ⟨turn, execution, requireTurn_eq_ok hfound, JsObject.slot_eq_own_iff.mp hslot,
            Option.not_isSome_iff_eq_none.mp (by simp [hopen]), hcall, hname,
            (pure_eq_ok_iff.mp h).symm⟩

def applyToolOperationLinked (state : SessionState) (event : SessionEvent)
    (payload : OperationLinkedPayload) : Replay SessionState := do
  let turn ← requireOwnTurn state payload.turnId event .typeError
  let execution := state.execution turn payload.toolCallId
  reject (execution.truthy &&
      execution.completion?.bind (·.outcome.operationId) ≠ some payload.operationId)
    (replayError "operation link differs from the durable tool outcome"
      "AGENT_SESSION_OPERATION_MISMATCH")
  reject (payload.operationId ∈ state.operationIds)
    (replayError "governed operation is already linked" "AGENT_SESSION_DUPLICATE_OPERATION")
  return { state with operationIds := state.operationIds ++ [payload.operationId] }

theorem applyToolOperationLinked_eq_ok {payload : OperationLinkedPayload}
    (h : applyToolOperationLinked state event payload = .ok next) :
    next = { state with operationIds := state.operationIds ++ [payload.operationId] } := by
  obtain ⟨turn, -, h⟩ := bind_eq_ok_iff.mp h
  obtain ⟨-, h⟩ := reject_bind_eq_ok_iff.mp h
  obtain ⟨-, h⟩ := reject_bind_eq_ok_iff.mp h
  exact (pure_eq_ok_iff.mp h).symm

end Hseos
