import Hseos.Session.Transition

/-! # Recovery plans

What a session stream says about the work that a restarted runtime finds: the
latest turn, the request in flight and the name of the next action.
-/

namespace Hseos

/-- `next_action` of a recovery plan. -/
inductive NextAction where
  | none
  | awaitInput
  | assembleContext
  | settleCancellation
  | restartModelRequest
  | failInterruptedModel
  | failAfterModel
  | executeTools
  | resumeTools
  | continueAfterTools
  | settleAfterModel
  deriving DecidableEq

def NextAction.text : NextAction → String
  | none => "none"
  | awaitInput => "await_input"
  | assembleContext => "assemble_context"
  | settleCancellation => "settle_cancellation"
  | restartModelRequest => "restart_model_request"
  | failInterruptedModel => "fail_interrupted_model"
  | failAfterModel => "fail_after_model"
  | executeTools => "execute_tools"
  | resumeTools => "resume_tools"
  | continueAfterTools => "continue_after_tools"
  | settleAfterModel => "settle_after_model"

/-- A recovery plan. The request of a step has no content parts. -/
structure RecoveryPlan where
  sessionId : Option Identifier
  currentSequence : Nat
  terminal : Bool
  nextAction : NextAction
  turnId : Option Identifier
  request : Option ModelRequestV2
  deriving DecidableEq

/-- `state.turns[state.turn_order.at(-1)]`. -/
def SessionState.latestTurn? (state : SessionState) : Option Turn :=
  state.turnOrder.getLast?.bind state.turns.get?

/-- The first model event of a step that is `completed` or `failed`. -/
def ModelStep.terminal? (step : ModelStep) : Option StreamedEvent :=
  step.modelEvents.find? (·.event.isTerminal)

/-- What remains of a batch of calls: starting one of them, settling one that was started,
or going on with the outcomes. -/
def SessionState.toolsAction (state : SessionState) (turn : Turn) (calls : List AgentToolCall) :
    NextAction :=
  let executions := (calls.map fun call => state.execution turn call.toolCallId).filter (·.truthy)
  if executions.length < calls.length then .executeTools
  else if executions.any (·.completion?.isNone) then .resumeTools
  else .continueAfterTools

def SessionState.stepAction (state : SessionState) (turn : Turn) (step : ModelStep) :
    Replay NextAction :=
  match step.terminal? with
  | none => return if step.modelEvents.isEmpty then .restartModelRequest else .failInterruptedModel
  | some terminal =>
      match terminal.event.payload with
      | .failed .. => return .failAfterModel
      | .completed .toolCalls _ => do
          let calls ← assembledToolCalls step.modelEvents
          return state.toolsAction turn calls
      | _ => return .settleAfterModel

/-- The next action of a session that goes on. -/
def SessionState.nextAction (state : SessionState) : Replay NextAction :=
  match state.latestTurn? with
  | none => return .awaitInput
  | some turn =>
      if turn.assembly.isNone then return .assembleContext
      else if state.cancellationRequest.isSome then return .settleCancellation
      else
        match turn.modelSteps.getLast? with
        | none => return .restartModelRequest
        | some step => state.stepAction turn step

/-- `step?.request || turn.request`, of a turn with a request. -/
def Turn.request? (turn : Turn) : Option ModelRequestV2 :=
  turn.assembly.map fun assembly =>
    match turn.modelSteps.getLast? with
    | some step => ⟨step.request, none⟩
    | none => assembly.request

/-- The plan for a replayed state. -/
def recoveryPlan (state : SessionState) : Replay RecoveryPlan := do
  reject (state.status = .empty)
    (replayError "cannot recover an empty session" "AGENT_SESSION_NOT_FOUND")
  if state.terminalEvent.isSome then
    return ⟨state.sessionId, state.currentSequence, true, .none, none, none⟩
  let nextAction ← state.nextAction
  return {
    sessionId := state.sessionId
    currentSequence := state.currentSequence
    terminal := false
    nextAction
    turnId := state.turnOrder.getLast?
    request := state.latestTurn?.bind Turn.request? }

def buildRecoveryPlan (realm : Realm) (events : List SessionEvent) : Replay RecoveryPlan := do
  let state ← (replaySessionEvents realm .initial events).2
  recoveryPlan state

end Hseos
