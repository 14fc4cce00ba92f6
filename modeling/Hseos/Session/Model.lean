import Hseos.Session.History

/-! # Turns and model steps

The events that start a turn, assemble its context, request model steps and
record what the model streams.
-/

namespace Hseos

/-! ## Turns -/

/-- A turn that has just started. -/
def newTurn (event : SessionEvent) (turnId : Identifier) (input : AgentMessage) : Turn where
  turnId := turnId
  input := input
  inputEventId := event.eventId
  inputEventSequence := event.sequence
  assembly := none
  modelEvents := []
  modelSteps := []
  toolExecutions := ∅
  contextCompaction := none
  toolCompactions := []
  pendingOlderCompaction := none

def applyTurnStarted (state : SessionState) (event : SessionEvent) (turnId : Identifier)
    (input : AgentMessage) : Replay SessionState := do
  reject (state.turns.slot turnId).truthy
    (.replay "turn identifier is already present" "AGENT_SESSION_DUPLICATE_TURN"
      [("turn_id", .ofText turnId)])
  return { state.setTurn turnId (newTurn event turnId input) with
    turnOrder := state.turnOrder ++ [turnId] }

theorem applyTurnStarted_eq_ok {state next : SessionState} {event : SessionEvent}
    {turnId : Identifier} {input : AgentMessage}
    (h : applyTurnStarted state event turnId input = .ok next) :
    state.turns.get? turnId = none ∧
      next = { state.setTurn turnId (newTurn event turnId input) with
        turnOrder := state.turnOrder ++ [turnId] } := by
  obtain ⟨hfresh, h⟩ := reject_bind_eq_ok_iff.mp h
  exact ⟨JsObject.get?_eq_none_of_slot_not_truthy hfresh, (pure_eq_ok_iff.mp h).symm⟩

/-- The assembled history differs from a suffix of the durable history. -/
def ordinaryInvalid (durable : List HistoryItem) (visible : List AgentMessage)
    (sourceRefs : List Reference) : Bool :=
  let selected := durable.drop (durable.length - visible.length)
  durable.length < visible.length ||
    canonicalJson (messagesJson visible) ≠ canonicalJson (messagesJson (selected.map (·.message))) ||
    selected.any fun item => item.sourceRef ∉ sourceRefs.map (·.val)

/-- The assembled history differs from the recorded compaction and what it retained. -/
def compactedInvalid (durable : List HistoryItem) (visible : List AgentMessage)
    (sourceRefs : List Reference) (compaction : Compaction) : Bool :=
  let retained := durable.filter (·.sourceEventId ∈ compaction.record.retainedSourceEventIds)
  let expected := compaction.record.replacementMessages.take 1 ++ retained.map (·.message)
  let included := sourceRefs.map (·.val)
  canonicalJson (messagesJson visible) ≠ canonicalJson (messagesJson expected) ||
    sessionEventRef compaction.eventId ∉ included ||
    retained.any (fun item => item.sourceRef ∉ included) ||
    (durable.filter (·.sourceEventId ∈ compaction.record.sourceEventIds)).any
      fun item => item.sourceRef ∈ included

/-- The budget names other compaction providers than the given record. -/
def ContextBudgetReport.provenanceDiffers (budget : ContextBudgetReport)
    (record : CompactionRecord) : Bool :=
  budget.compactionProviderId.join ≠ some record.providerId ||
    budget.checkpointProviderId.join ≠ some record.checkpointProviderId ||
    budget.compactionProviderManifest.join.map (fun manifest => canonicalJson manifest.toJson) ≠
      some (canonicalJson record.providerManifest.toJson)

def providerDiffers (spec : AgentSessionSpec) (request : ModelRequest) : Bool :=
  match spec.execution with
  | .kernel modelProviderId model => request.providerId ≠ modelProviderId || request.model ≠ model
  | .delegated .. => true

def turnInputMismatch : ReplayFailure :=
  replayError "assembled request does not end with the durable turn input"
    "AGENT_SESSION_TURN_INPUT_MISMATCH"

/-- The turn whose context a payload assembles. -/
def Turn.assemble (turn : Turn) (event : SessionEvent) (payload : ContextAssembledPayload) : Turn :=
  { turn with
    assembly := some ⟨payload.request, payload.sourceRefs, payload.budget, event.eventId⟩ }

def applyContextAssembled (state : SessionState) (event : SessionEvent)
    (payload : ContextAssembledPayload) : Replay SessionState := do
  let found ← requireTurn state payload.turnId event
  reject (found.any (·.assembly.isSome))
    (replayError "a turn may have only one assembled request" "AGENT_SESSION_DUPLICATE_REQUEST")
  let spec ← requireSpec state
  reject (match spec.execution with | .kernel .. => false | .delegated .. => true)
    (replayError "delegated sessions cannot contain kernel model requests"
      "AGENT_SESSION_EXECUTION_MODE_MISMATCH")
  let request := payload.request.request
  reject (providerDiffers spec request)
    (replayError "assembled request provider or model differs from the durable session"
      "AGENT_SESSION_PROVIDER_MISMATCH")
  match found with
  | none => throw turnInputMismatch
  | some turn =>
      reject (request.messages.getLast?.map (fun message => canonicalJson message.toJson) ≠
        some (canonicalJson turn.input.toJson)) turnInputMismatch
      reject (sessionEventRef turn.inputEventId ∉ payload.sourceRefs.map (·.val))
        (replayError "assembled request does not reference the durable turn event"
          "AGENT_SESSION_SOURCE_MISMATCH")
      let durable := durableHistory state payload.turnId
      let visible := request.messages.tail.dropLast.filter (·.role ≠ .system)
      reject (payload.budget.overflowPolicy = .compact &&
          turn.contextCompaction.any (fun compaction =>
            payload.budget.provenanceDiffers compaction.record))
        (replayError "context compaction provenance differs from selected budget providers"
          "AGENT_SESSION_COMPACTION_PROVENANCE_INVALID")
      reject (match turn.contextCompaction with
          | some compaction => compactedInvalid durable visible payload.sourceRefs compaction
          | none => ordinaryInvalid durable visible payload.sourceRefs)
        (replayError "model-visible history is not a durable contiguous suffix"
          "AGENT_SESSION_HISTORY_MISMATCH")
      return state.setTurn payload.turnId (turn.assemble event payload)

theorem applyContextAssembled_eq_ok {state next : SessionState} {event : SessionEvent}
    {payload : ContextAssembledPayload} (h : applyContextAssembled state event payload = .ok next) :
    ∃ turn, state.turns.get? payload.turnId = some turn ∧ turn.assembly = none ∧
      payload.request.request.messages.getLast?.map (fun message => canonicalJson message.toJson) =
        some (canonicalJson turn.input.toJson) ∧
      next = state.setTurn payload.turnId (turn.assemble event payload) ∧
      ∃ spec, state.spec = some spec ∧ providerDiffers spec payload.request.request = false := by
  obtain ⟨found, hfound, h⟩ := bind_eq_ok_iff.mp h
  obtain ⟨hassembly, h⟩ := reject_bind_eq_ok_iff.mp h
  obtain ⟨spec, hspec, h⟩ := bind_eq_ok_iff.mp h
  obtain ⟨-, h⟩ := reject_bind_eq_ok_iff.mp h
  obtain ⟨hprovider, h⟩ := reject_bind_eq_ok_iff.mp h
  cases found with
  | none => exact (throw_eq_ok_iff.mp h).elim
  | some turn =>
      obtain ⟨hinput, h⟩ := reject_bind_eq_ok_iff.mp h
      obtain ⟨-, h⟩ := reject_bind_eq_ok_iff.mp h
      obtain ⟨-, h⟩ := reject_bind_eq_ok_iff.mp h
      obtain ⟨-, h⟩ := reject_bind_eq_ok_iff.mp h
      refine ⟨turn, requireTurn_eq_ok hfound, ?_, ?_, (pure_eq_ok_iff.mp h).symm, spec,
        requireSpec_eq_ok hspec, hprovider⟩
      · simpa using hassembly
      · simpa using hinput

/-! ## Model steps -/

def requestMismatch (message : String) : ReplayFailure :=
  replayError message "AGENT_SESSION_REQUEST_MISMATCH"

/-- The request with the identifier and the messages of its predecessor. -/
def ModelRequest.stable (request previous : ModelRequest) : ModelRequest :=
  { request with requestId := previous.requestId, messages := previous.messages }

/-- The first step uses the assembled request. -/
def checkInitialRequest (assembly : Assembly) (payload : ModelRequestStartedPayload) : Replay Unit :=
  reject (canonicalJson payload.request.toJson ≠ canonicalJson assembly.request.toJson ||
      canonicalJson (.ofTexts payload.sourceEventIds) ≠
        canonicalJson (.ofTexts [assembly.requestEventId]))
    (requestMismatch "initial model step must use the assembled request")

/-- The messages after a revision: the answer and the feedback follow the predecessor. -/
def revisionMessages (previous : ModelStep) (revision : StepRevision) : List AgentMessage :=
  previous.request.messages ++
    [{ role := .assistant, content := contentOf previous.modelEvents },
      { role := .user, content := revision.feedback.val }]

def checkRevisionRequest (previous : ModelStep) (revision : StepRevision)
    (payload : ModelRequestStartedPayload) : Replay Unit :=
  reject (canonicalJson (messagesJson payload.request.messages) ≠
        canonicalJson (messagesJson (revisionMessages previous revision)) ||
      canonicalJson (.ofTexts payload.sourceEventIds) ≠
        canonicalJson (.arr [.ofNullable .ofText previous.terminalEventId, .ofText revision.eventId]) ||
      canonicalJson (payload.request.stable previous.request).toJson ≠
        canonicalJson previous.request.toJson)
    (requestMismatch "revision continuation differs from durable review")

/-- The message with its pruned replacement, if an older-results record has one. -/
def replaceOlder (older : Option Compaction) (message : AgentMessage) : AgentMessage :=
  match older with
  | none => message
  | some compaction =>
      if message.role = .tool then
        -- The last replacement of a call wins, as in `new Map(entries)`.
        (compaction.record.replacementMessages.reverse.find? fun replacement =>
          replacement.toolCallId = message.toolCallId).getD message
      else message

/-- The recorded compaction of exactly the current results. -/
def SessionState.toolCompaction? (state : SessionState) (turn : Turn) (calls : List AgentToolCall) :
    Option Compaction :=
  turn.toolCompactions.find? fun compaction =>
    canonicalJson (.ofTexts compaction.record.sourceEventIds) =
      canonicalJson (state.completedEventIds turn calls)

/-- The messages of a continuation after tool calls. -/
def continuationMessages (older : Option Compaction) (previous : ModelStep)
    (calls : List AgentToolCall) (toolCompaction : Option Compaction)
    (executions : List SettledExecution) : List AgentMessage :=
  previous.request.messages.map (replaceOlder older) ++
    { role := .assistant, content := contentOf previous.modelEvents, toolCalls := some calls } ::
    match toolCompaction with
    | some compaction => compaction.record.replacementMessages
    | none => executions.map (·.message)

/-- The durable events a continuation follows from. -/
def continuationSources (older : Option Compaction) (previous : ModelStep)
    (toolCompaction : Option Compaction) (executions : List SettledExecution) : Json :=
  .arr (.ofNullable .ofText previous.terminalEventId ::
    (older.toList.map fun compaction => Json.ofText compaction.eventId) ++
    match toolCompaction with
    | some compaction => [.ofText compaction.eventId]
    | none => executions.map fun settled => .ofText settled.completion.eventId)

def checkContinuationRequest (state : SessionState) (turn : Turn) (previous : ModelStep)
    (payload : ModelRequestStartedPayload) : Replay Unit := do
  reject (previous.finishReason? ≠ some .toolCalls)
    (replayError "a continuation requires a completed tool-call step"
      "AGENT_SESSION_MODEL_STEP_ORDER_INVALID")
  let older := turn.pendingOlderCompaction
  let request := payload.request
  let count := previous.request.messages.length
  reject (canonicalJson (messagesJson (request.messages.take count)) ≠
        canonicalJson (messagesJson (previous.request.messages.map (replaceOlder older))) ||
      request.messages.length ≤ count ||
      !previous.terminalEventId.any (· ∈ payload.sourceEventIds))
    (requestMismatch "continuation request does not preserve its durable predecessor")
  let calls ← assembledToolCalls previous.modelEvents
  let toolCompaction := state.toolCompaction? turn calls
  let incomplete := replayError "model continuation precedes durable tool outcomes"
    "AGENT_SESSION_TOOL_INCOMPLETE"
  match state.settledCalls turn calls with
  | none => throw incomplete
  | some executions =>
      reject (match toolCompaction with
        | none => executions.any fun settled => settled.completion.eventId ∉ payload.sourceEventIds
        | some compaction => compaction.eventId ∉ payload.sourceEventIds) incomplete
      reject (canonicalJson (messagesJson request.messages) ≠
            canonicalJson (messagesJson
              (continuationMessages older previous calls toolCompaction executions)) ||
          canonicalJson (.ofTexts payload.sourceEventIds) ≠
            canonicalJson (continuationSources older previous toolCompaction executions) ||
          canonicalJson (request.stable previous.request).toJson ≠
            canonicalJson previous.request.toJson)
        (requestMismatch "continuation request differs from durable model and tool facts")

/-- The request and its sources continue the turn as recorded. -/
def checkRequest (state : SessionState) (turn : Turn) (assembly : Assembly)
    (payload : ModelRequestStartedPayload) : Replay Unit :=
  match turn.modelSteps.getLast? with
  | none => checkInitialRequest assembly payload
  | some previous =>
      match previous.revision with
      | some revision => checkRevisionRequest previous revision payload
      | none => checkContinuationRequest state turn previous payload

/-- A step that has just been requested. -/
def newStep (event : SessionEvent) (payload : ModelRequestStartedPayload) : ModelStep where
  stepId := payload.stepId
  request := payload.request
  requestEventId := event.eventId
  sourceEventIds := payload.sourceEventIds
  modelEvents := []
  modelStreamBytes := 2
  terminalEventId := none
  revision := none

/-- The turn with one more step, which serves the pending older-results record. -/
def Turn.pushStep (turn : Turn) (step : ModelStep) : Turn :=
  { turn with pendingOlderCompaction := none, modelSteps := turn.modelSteps ++ [step] }

def applyModelRequestStarted (state : SessionState) (event : SessionEvent)
    (payload : ModelRequestStartedPayload) : Replay SessionState := do
  let notAssembled := replayError "model work cannot start before context assembly"
    "AGENT_SESSION_REQUEST_NOT_ASSEMBLED"
  let turn ← requireOwnTurn state payload.turnId event notAssembled
  match turn.assembly with
  | none => throw notAssembled
  | some assembly =>
      reject (turn.step payload.stepId).truthy
        (replayError "model step identifier is already present" "AGENT_SESSION_DUPLICATE_MODEL_STEP")
      reject (turn.modelSteps.any fun step => step.request.requestId = payload.request.requestId)
        (replayError "model request identifier is already present"
          "AGENT_SESSION_DUPLICATE_MODEL_REQUEST")
      let spec ← requireSpec state
      reject (providerDiffers spec payload.request)
        (replayError "model step provider differs from the durable session"
          "AGENT_SESSION_PROVIDER_MISMATCH")
      reject (payload.sourceEventIds.any fun eventId => eventId ∉ state.seenEventIds)
        (replayError "model step references a missing or future source event"
          "AGENT_SESSION_SOURCE_MISMATCH")
      reject (turn.pendingOlderCompaction.isSome &&
          turn.modelSteps.getLast?.all fun previous => previous.revision.isSome)
        (requestMismatch "older tool compaction has no continuation to serve")
      checkRequest state turn assembly payload
      return state.setTurn payload.turnId (turn.pushStep (newStep event payload))

theorem applyModelRequestStarted_eq_ok {state next : SessionState} {event : SessionEvent}
    {payload : ModelRequestStartedPayload}
    (h : applyModelRequestStarted state event payload = .ok next) :
    ∃ turn assembly, state.turns.get? payload.turnId = some turn ∧ turn.assembly = some assembly ∧
      (turn.step payload.stepId).truthy = false ∧
      (turn.pendingOlderCompaction.isSome = true →
        ∃ previous, turn.modelSteps.getLast? = some previous ∧ previous.revision = none) ∧
      checkRequest state turn assembly payload = .ok () ∧
      next = state.setTurn payload.turnId (turn.pushStep (newStep event payload)) := by
  obtain ⟨turn, hturn, h⟩ := bind_eq_ok_iff.mp h
  cases hassembly : turn.assembly with
  | none =>
      rw [hassembly] at h
      exact (throw_eq_ok_iff.mp h).elim
  | some assembly =>
      rw [hassembly] at h
      obtain ⟨hfresh, h⟩ := reject_bind_eq_ok_iff.mp h
      obtain ⟨-, h⟩ := reject_bind_eq_ok_iff.mp h
      obtain ⟨spec, -, h⟩ := bind_eq_ok_iff.mp h
      obtain ⟨-, h⟩ := reject_bind_eq_ok_iff.mp h
      obtain ⟨-, h⟩ := reject_bind_eq_ok_iff.mp h
      obtain ⟨hpending, h⟩ := reject_bind_eq_ok_iff.mp h
      obtain ⟨⟨⟩, hcheck, h⟩ := bind_eq_ok_iff.mp h
      refine ⟨turn, assembly, requireOwnTurn_eq_ok hturn, hassembly, hfresh, ?_, hcheck,
        (pure_eq_ok_iff.mp h).symm⟩
      intro hsome
      rw [hsome, Bool.true_and] at hpending
      cases hlast : turn.modelSteps.getLast? with
      | none => simp [hlast] at hpending
      | some previous => exact ⟨previous, rfl, by simpa [hlast] using hpending⟩

/-- The step after a revision of its response was requested. -/
def ModelStep.revise (step : ModelStep) (revision : StepRevision) : ModelStep :=
  { step with revision := some revision }

def applyModelRevisionRequested (state : SessionState) (event : SessionEvent)
    (turnId stepId : Identifier) (feedback : Refined (lengthWithin 1 65536)) :
    Replay SessionState := do
  let turn ← requireOwnTurn state turnId event .typeError
  reject (!turn.modelSteps.getLast?.any fun step =>
      step.stepId = stepId && step.revision.isNone && step.finishReason? = some .stop)
    (replayError "revision requires the latest completed model response"
      "AGENT_SESSION_MODEL_STEP_ORDER_INVALID")
  return state.setTurn turnId (turn.modifyStep stepId (·.revise ⟨feedback, event.eventId⟩))

theorem applyModelRevisionRequested_eq_ok {state next : SessionState} {event : SessionEvent}
    {turnId stepId : Identifier} {feedback : Refined (lengthWithin 1 65536)}
    (h : applyModelRevisionRequested state event turnId stepId feedback = .ok next) :
    ∃ turn step, state.turns.get? turnId = some turn ∧ turn.modelSteps.getLast? = some step ∧
      step.stepId = stepId ∧ step.revision = none ∧ step.finishReason? = some .stop ∧
      next = state.setTurn turnId
        (turn.modifyStep stepId (·.revise ⟨feedback, event.eventId⟩)) := by
  obtain ⟨turn, hturn, h⟩ := bind_eq_ok_iff.mp h
  obtain ⟨hlatest, h⟩ := reject_bind_eq_ok_iff.mp h
  cases hlast : turn.modelSteps.getLast? with
  | none => simp [hlast] at hlatest
  | some step =>
      simp only [hlast, Option.any_some, Bool.not_eq_false', Bool.and_eq_true, decide_eq_true_eq,
        Option.isNone_iff_eq_none] at hlatest
      exact ⟨turn, step, requireOwnTurn_eq_ok hturn, hlast, hlatest.1.1, hlatest.1.2, hlatest.2,
        (pure_eq_ok_iff.mp h).symm⟩

/-- The bytes of a step's stream with one more event. -/
def nextStreamBytes (step : ModelStep) (event : ModelStreamEvent) : Nat :=
  step.modelStreamBytes + (if step.modelEvents.isEmpty then 0 else 1) +
    byteLength (canonicalJson event.toJson)

def ModelStep.exceedsStreamBound (step : ModelStep) (event : ModelStreamEvent) : Bool :=
  let count := step.modelEvents.length
  let nextBytes := nextStreamBytes step event
  maxModelEventsPerStep ≤ count || (!event.isTerminal && maxModelEventsPerStep - 1 ≤ count) ||
    maxModelStreamBytesPerStep < nextBytes ||
    (!event.isTerminal && maxModelStreamBytesPerStep - modelTerminalReserveBytes < nextBytes)

/-- The step with one more model event. -/
def ModelStep.push (step : ModelStep) (streamed : StreamedEvent) : ModelStep :=
  { step with
    modelEvents := step.modelEvents ++ [streamed]
    modelStreamBytes := nextStreamBytes step streamed.event
    terminalEventId :=
      if streamed.event.isTerminal then some streamed.eventId else step.terminalEventId }

/-- The model event continues the stream of `request` recorded in `target`. -/
def checkStream (request : ModelRequest) (target : List StreamedEvent)
    (payload : ModelStreamedPayload) : Replay Unit := do
  reject (payload.event.requestId ≠ request.requestId || payload.providerId ≠ request.providerId)
    (replayError "model stream identity does not match the assembled request"
      "AGENT_SESSION_MODEL_IDENTITY_MISMATCH")
  reject (payload.event.sequence ≠ target.length)
    (.replay "model stream sequence contains a gap or duplicate"
      "AGENT_SESSION_MODEL_SEQUENCE_INVALID"
      [("expected_sequence", .ofNat target.length), ("actual_sequence", .ofNat payload.event.sequence)])
  reject (hasTerminal target)
    (replayError "model stream continues after a terminal provider event"
      "AGENT_SESSION_MODEL_ALREADY_TERMINAL")

theorem checkStream_eq_ok {request : ModelRequest} {target : List StreamedEvent}
    {payload : ModelStreamedPayload} {u : Unit} (h : checkStream request target payload = .ok u) :
    payload.event.requestId = request.requestId ∧ payload.event.sequence = target.length ∧
      hasTerminal target = false := by
  obtain ⟨hidentity, h⟩ := reject_bind_eq_ok_iff.mp h
  obtain ⟨hsequence, h⟩ := reject_bind_eq_ok_iff.mp h
  simp only [Bool.or_eq_false_iff, decide_eq_false_iff_not, not_not] at hidentity hsequence
  exact ⟨hidentity.1, hsequence, reject_eq_ok_iff.mp h⟩

/-- The turn with one more model event. -/
def Turn.record (turn : Turn) (streamed : StreamedEvent) : Turn :=
  { turn with modelEvents := turn.modelEvents ++ [streamed] }

/-- The model event an event records. -/
def streamedEvent (event : SessionEvent) (payload : ModelStreamedPayload) : StreamedEvent :=
  ⟨payload.event, event.eventId, event.sequence⟩

def applyModelStreamed (state : SessionState) (event : SessionEvent)
    (payload : ModelStreamedPayload) : Replay SessionState := do
  let notAssembled := replayError "model stream cannot precede context assembly"
    "AGENT_SESSION_REQUEST_NOT_ASSEMBLED"
  let streamLimit := replayError "model step exceeds its cumulative stream bound"
    "AGENT_SESSION_MODEL_STREAM_LIMIT"
  let turn ← requireOwnTurn state payload.turnId event notAssembled
  match turn.assembly with
  | none => throw notAssembled
  | some assembly =>
      let streamed := streamedEvent event payload
      let recorded := turn.record streamed
      match payload.stepId with
      | none =>
          checkStream assembly.request.request turn.modelEvents payload
          return state.setTurn payload.turnId recorded
      | some stepId =>
          match turn.step stepId with
          | .absent => throw (replayError "model stream references an unknown step"
              "AGENT_SESSION_MODEL_STEP_NOT_STARTED")
          | .inherited =>
              -- A function has neither a request nor events; pushing to its events fails.
              checkStream assembly.request.request turn.modelEvents payload
              reject (maxModelEventsPerStep ≤ turn.modelEvents.length ||
                (!payload.event.isTerminal &&
                  maxModelEventsPerStep - 1 ≤ turn.modelEvents.length)) streamLimit
              throw .typeError
          | .own step =>
              checkStream step.request step.modelEvents payload
              reject (step.exceedsStreamBound payload.event) streamLimit
              return state.setTurn payload.turnId (recorded.modifyStep stepId (·.push streamed))

theorem applyModelStreamed_eq_ok {state next : SessionState} {event : SessionEvent}
    {payload : ModelStreamedPayload} (h : applyModelStreamed state event payload = .ok next) :
    ∃ turn, state.turns.get? payload.turnId = some turn ∧
      ((payload.stepId = none ∧ hasTerminal turn.modelEvents = false ∧
        next = state.setTurn payload.turnId (turn.record (streamedEvent event payload))) ∨
      ∃ stepId step, payload.stepId = some stepId ∧
        turn.modelSteps.find? (·.stepId = stepId) = some step ∧
        hasTerminal step.modelEvents = false ∧ step.exceedsStreamBound payload.event = false ∧
        next = state.setTurn payload.turnId ((turn.record (streamedEvent event payload)).modifyStep
          stepId (·.push (streamedEvent event payload)))) := by
  obtain ⟨turn, hturn, h⟩ := bind_eq_ok_iff.mp h
  refine ⟨turn, requireOwnTurn_eq_ok hturn, ?_⟩
  cases hassembly : turn.assembly with
  | none =>
      rw [hassembly] at h
      exact (throw_eq_ok_iff.mp h).elim
  | some assembly =>
      rw [hassembly] at h
      dsimp only at h
      cases hstepId : payload.stepId with
      | none =>
          rw [hstepId] at h
          obtain ⟨⟨⟩, hstream, h⟩ := bind_eq_ok_iff.mp h
          exact .inl ⟨rfl, (checkStream_eq_ok hstream).2.2, (pure_eq_ok_iff.mp h).symm⟩
      | some stepId =>
          rw [hstepId] at h
          dsimp only at h
          cases hstep : turn.step stepId with
          | absent =>
              rw [hstep] at h
              exact (throw_eq_ok_iff.mp h).elim
          | inherited =>
              rw [hstep] at h
              obtain ⟨⟨⟩, -, h⟩ := bind_eq_ok_iff.mp h
              obtain ⟨-, h⟩ := reject_bind_eq_ok_iff.mp h
              exact (throw_eq_ok_iff.mp h).elim
          | own step =>
              rw [hstep] at h
              obtain ⟨⟨⟩, hstream, h⟩ := bind_eq_ok_iff.mp h
              obtain ⟨hbound, h⟩ := reject_bind_eq_ok_iff.mp h
              exact .inr ⟨stepId, step, rfl, Turn.step_eq_own_iff.mp hstep,
                (checkStream_eq_ok hstream).2.2, hbound, (pure_eq_ok_iff.mp h).symm⟩

end Hseos
