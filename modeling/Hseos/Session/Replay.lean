import Hseos.Session.Compaction
import Hseos.Session.Tool
import Hseos.Session.Workflow

/-! # Session replay

The reducer that folds a session stream into its state. Each event type has one
function, which throws what the source throws, in the source's order, or returns
the next state.
-/

namespace Hseos

/-! ## Session events -/

variable {state next : SessionState} {event : SessionEvent}

def applySessionForked (state : SessionState) (event : SessionEvent) (payload : ForkedPayload) :
    Replay SessionState := do
  reject (event.sequence ≠ 2 || state.parent.isSome)
    (replayError "session fork lineage must be recorded exactly once after creation"
      "AGENT_SESSION_FORK_SEQUENCE_INVALID")
  let spec ← requireSpec state
  reject (spec.parentSessionId ≠ some payload.parentSessionId)
    (replayError "fork parent does not match the child session spec"
      "AGENT_SESSION_FORK_PARENT_MISMATCH")
  return { state with parent := some payload }

theorem applySessionForked_eq_ok {payload : ForkedPayload}
    (h : applySessionForked state event payload = .ok next) :
    next = { state with parent := some payload } := by
  obtain ⟨-, h⟩ := reject_bind_eq_ok_iff.mp h
  obtain ⟨spec, -, h⟩ := bind_eq_ok_iff.mp h
  obtain ⟨-, h⟩ := reject_bind_eq_ok_iff.mp h
  exact (pure_eq_ok_iff.mp h).symm

def applySessionReconciled (state : SessionState) (reportSha256 : Sha256Text)
    (reservedTokens : Nat) : Replay SessionState := do
  assertStartedWorkSettled state
  let reserved := state.reconciliationReservedTokens + reservedTokens
  reject (maxSafeInteger < reserved)
    (replayError "Reconciliation budget overflow" "AGENT_SESSION_REPLAY_INVALID")
  return { state with
    reconciliationReservedTokens := reserved
    reconciliationReports := state.reconciliationReports ++ [reportSha256] }

theorem applySessionReconciled_eq_ok {reportSha256 : Sha256Text} {reservedTokens : Nat}
    (h : applySessionReconciled state reportSha256 reservedTokens = .ok next) :
    next = { state with
      reconciliationReservedTokens := state.reconciliationReservedTokens + reservedTokens
      reconciliationReports := state.reconciliationReports ++ [reportSha256] } := by
  obtain ⟨⟨⟩, -, h⟩ := bind_eq_ok_iff.mp h
  obtain ⟨-, h⟩ := reject_bind_eq_ok_iff.mp h
  exact (pure_eq_ok_iff.mp h).symm

def applySessionResumed (state : SessionState) (event : SessionEvent) (fromSequence : Nat) :
    Replay SessionState := do
  reject (fromSequence + 1 ≠ event.sequence)
    (replayError "resume source must be the immediately preceding durable sequence"
      "AGENT_SESSION_RESUME_SEQUENCE_INVALID")
  return state

theorem applySessionResumed_eq_ok {fromSequence : Nat}
    (h : applySessionResumed state event fromSequence = .ok next) : next = state := by
  obtain ⟨-, h⟩ := reject_bind_eq_ok_iff.mp h
  exact (pure_eq_ok_iff.mp h).symm

/-! ## Terminal events -/

def applySessionCancellationRequested (state : SessionState) (event : SessionEvent)
    (payload : CancellationRequestedPayload) : Replay SessionState := do
  reject state.cancellationRequest.isSome
    (replayError "session cancellation was already requested" "AGENT_SESSION_DUPLICATE_CANCELLATION")
  return { state with cancellationRequest := some ⟨payload, event.eventId⟩ }

theorem applySessionCancellationRequested_eq_ok {payload : CancellationRequestedPayload}
    (h : applySessionCancellationRequested state event payload = .ok next) :
    state.cancellationRequest = none ∧
      next = { state with cancellationRequest := some ⟨payload, event.eventId⟩ } := by
  obtain ⟨hfresh, h⟩ := reject_bind_eq_ok_iff.mp h
  exact ⟨by simpa using hfresh, (pure_eq_ok_iff.mp h).symm⟩

def applySessionCancelled (state : SessionState) (event : SessionEvent) (reason : ReasonText)
    (cascade : Bool) : Replay SessionState :=
  match state.cancellationRequest with
  | none => throw (replayError "session cancellation requires a preceding durable request"
      "AGENT_SESSION_CANCELLATION_REQUIRED")
  | some request => do
      reject (request.payload.source = .deadline)
        (replayError "deadline cancellation must terminate as a timeout failure"
          "AGENT_SESSION_CANCELLATION_TERMINAL_INVALID")
      reject (reason ≠ request.payload.reason || cascade ≠ request.payload.cascade)
        (replayError "session cancellation terminal differs from the durable request"
          "AGENT_SESSION_CANCELLATION_MISMATCH")
      assertStartedWorkSettled state
      return { state with status := .cancelled, terminalEvent := some event }

theorem applySessionCancelled_eq_ok {reason : ReasonText} {cascade : Bool}
    (h : applySessionCancelled state event reason cascade = .ok next) :
    ∃ request, state.cancellationRequest = some request ∧ request.payload.source ≠ .deadline ∧
      request.payload.reason = reason ∧ request.payload.cascade = cascade ∧
      assertStartedWorkSettled state = .ok () ∧
      next = { state with status := .cancelled, terminalEvent := some event } := by
  unfold applySessionCancelled at h
  cases hrequest : state.cancellationRequest with
  | none =>
      rw [hrequest] at h
      exact (throw_eq_ok_iff.mp h).elim
  | some request =>
      rw [hrequest] at h
      obtain ⟨hsource, h⟩ := reject_bind_eq_ok_iff.mp h
      obtain ⟨hsame, h⟩ := reject_bind_eq_ok_iff.mp h
      obtain ⟨⟨⟩, hsettled, h⟩ := bind_eq_ok_iff.mp h
      simp only [Bool.or_eq_false_iff, decide_eq_false_iff_not, not_not] at hsource hsame
      exact ⟨request, rfl, hsource, hsame.1.symm, hsame.2.symm, hsettled,
        (pure_eq_ok_iff.mp h).symm⟩

def applySessionFailed (state : SessionState) (event : SessionEvent) : Replay SessionState := do
  assertStartedWorkSettled state
  return { state with status := .failed, terminalEvent := some event }

theorem applySessionFailed_eq_ok (h : applySessionFailed state event = .ok next) :
    assertStartedWorkSettled state = .ok () ∧
      next = { state with status := .failed, terminalEvent := some event } := by
  obtain ⟨⟨⟩, hsettled, h⟩ := bind_eq_ok_iff.mp h
  exact ⟨hsettled, (pure_eq_ok_iff.mp h).symm⟩

/-- The model events of the latest step, or of the turn itself when it has no step. -/
def Turn.latestModelEvents (turn : Turn) : List StreamedEvent :=
  match turn.modelSteps.getLast? with
  | some step => step.modelEvents
  | none => turn.modelEvents

/-- The model events of the latest step of the latest turn. -/
def SessionState.latestModelEvents (state : SessionState) : List StreamedEvent :=
  ((state.turnOrder.getLast?.bind state.turns.get?).map Turn.latestModelEvents).getD []

def applySessionCompleted (state : SessionState) (event : SessionEvent) : Replay SessionState := do
  reject (state.turns.values.any (·.streamOpen))
    (replayError "session cannot complete while a model stream is incomplete"
      "AGENT_SESSION_MODEL_INCOMPLETE")
  assertStartedWorkSettled state
  let terminal := state.latestModelEvents.find? (·.event.isTerminal)
  reject (terminal.bind (·.event.finishReason?) ≠ some .stop)
    (replayError "session success requires the latest model step to complete with stop"
      "AGENT_SESSION_SUCCESS_PRECONDITION_INVALID")
  return { state with status := .completed, terminalEvent := some event }

theorem applySessionCompleted_eq_ok (h : applySessionCompleted state event = .ok next) :
    assertStartedWorkSettled state = .ok () ∧
      (state.latestModelEvents.find? (·.event.isTerminal)).bind (·.event.finishReason?) =
        some .stop ∧
      next = { state with status := .completed, terminalEvent := some event } := by
  obtain ⟨-, h⟩ := reject_bind_eq_ok_iff.mp h
  obtain ⟨⟨⟩, hsettled, h⟩ := bind_eq_ok_iff.mp h
  obtain ⟨hstop, h⟩ := reject_bind_eq_ok_iff.mp h
  exact ⟨hsettled, by simpa using hstop, (pure_eq_ok_iff.mp h).symm⟩

/-! ## The reducer -/

/-- The stream goes on from the state: sequence, identity, creation and terminal checks. -/
def checkAdmission (state : SessionState) (event : SessionEvent) : Replay Unit := do
  let created := match event.payload with | .sessionCreated _ => true | _ => false
  reject (event.sequence ≠ state.currentSequence + 1)
    (.replay "session stream contains a sequence gap or duplicate" "AGENT_SESSION_SEQUENCE_INVALID"
      [("event_id", .ofText event.eventId), ("expected_sequence", .ofNat (state.currentSequence + 1)),
        ("actual_sequence", .ofNat event.sequence)])
  reject (state.sessionId.any (event.sessionId ≠ ·))
    (replayError "session stream contains a foreign session identifier"
      "AGENT_SESSION_IDENTITY_MISMATCH")
  match state.terminalEvent with
  | some terminal => throw (.replay "session stream continues after its terminal outcome"
      "AGENT_SESSION_ALREADY_TERMINAL"
      [("terminal_event_id", .ofText terminal.eventId), ("rejected_event_id", .ofText event.eventId)])
  | none => pure ()
  reject (event.sequence = 1 && !created)
    (replayError "the first session event must be session.created" "AGENT_SESSION_CREATION_REQUIRED")
  reject (1 < event.sequence && created)
    (replayError "session.created may occur only once" "AGENT_SESSION_DUPLICATE_CREATION")
  reject (event.payload.isTerminal && state.workflowReservations.values.any (·.released.isNone))
    (replayError "session cannot terminate before workflow drain" "AGENT_SESSION_WORKFLOW_ACTIVE")

/-- The state that takes an admitted event. -/
def SessionState.advance (state : SessionState) (event : SessionEvent) : SessionState :=
  { state with sessionId := some event.sessionId, currentSequence := event.sequence }

/-- The effect of an admitted event. -/
def applyEvent (realm : Realm) (state : SessionState) (event : SessionEvent) :
    Replay (Realm × SessionState) :=
  let keep := Except.map (Prod.mk realm)
  match event.payload with
  | .sessionCreated spec => return (realm, { state with spec := some spec, status := .active })
  | .sessionForked payload => keep (applySessionForked state event payload)
  | .sessionReconciled reportSha256 reservedTokens =>
      keep (applySessionReconciled state reportSha256 reservedTokens)
  | .sessionResumed fromSequence => keep (applySessionResumed state event fromSequence)
  | .turnStarted turnId input => keep (applyTurnStarted state event turnId input)
  | .contextAssembled payload => keep (applyContextAssembled state event payload)
  | .modelRequestStarted payload => keep (applyModelRequestStarted state event payload)
  | .modelRevisionRequested turnId stepId feedback =>
      keep (applyModelRevisionRequested state event turnId stepId feedback)
  | .modelStreamed payload => keep (applyModelStreamed state event payload)
  | .toolExecutionStarted payload => keep (applyToolExecutionStarted state event payload)
  | .toolExecutionReconciled payload => keep (applyToolExecutionReconciled state event payload)
  | .toolExecutionCompleted payload => keep (applyToolExecutionCompleted state event payload)
  | .toolOperationLinked payload => keep (applyToolOperationLinked state event payload)
  | .compactionCompleted record => applyCompactionCompleted realm state event record
  | .childAttached childSessionId _ => keep (applyChildAttached state childSessionId)
  | .subagentRequested payload => keep (applySubagentRequested state event payload)
  | .workflowReserved payload => keep (applyWorkflowReserved state event payload)
  | .workflowRevised payload => keep (reviseWorkflow state event payload)
  | .workflowReclaimed payload => keep (applyWorkflowReclaimed state event payload)
  | .workflowReleased payload => keep (applyWorkflowReleased state event payload)
  | .workflowCheckpointed payload => keep (applyWorkflowCheckpointed state event payload)
  | .workflowPhaseCheckpointed payload => keep (applyWorkflowPhaseCheckpointed state event payload)
  | .sessionCancellationRequested payload =>
      keep (applySessionCancellationRequested state event payload)
  | .sessionCancelled reason cascade => keep (applySessionCancelled state event reason cascade)
  | .sessionFailed .. => keep (applySessionFailed state event)
  | .sessionCompleted _ => keep (applySessionCompleted state event)

/-- A replay under way: the realm it runs in and the state it has reached. -/
structure Reducer where
  realm : Realm
  state : SessionState
  deriving DecidableEq

def SessionState.see (state : SessionState) (eventId : Identifier) : SessionState :=
  { state with seenEventIds := state.seenEventIds ++ [eventId] }

/-- One event of the replay loop. -/
def replayStep (reducer : Reducer) (event : SessionEvent) : Replay Reducer := do
  checkAdmission reducer.state event
  let (realm, state) ← applyEvent reducer.realm (reducer.state.advance event) event
  return ⟨realm, state.see event.eventId⟩

/-- `replaySessionEvents(events, { from })`, with the realm it leaves behind. -/
def replaySessionEvents (realm : Realm) (start : SessionState) (events : List SessionEvent) :
    Realm × Replay SessionState :=
  ((lastGood replayStep ⟨realm, start⟩ events).realm,
    (run replayStep ⟨realm, start⟩ events).map (·.state))

end Hseos
