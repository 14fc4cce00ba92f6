import Hseos.Session.Transition

/-! # Settlement of terminated sessions

A session ends with all of its started work settled. The invariant is that a
model stream never goes on after its terminal event, in a step or in a turn that
has no steps.
-/

namespace Hseos

/-! ## Model streams -/

/-- No event but the last one is terminal. -/
def StreamOrdered (events : List StreamedEvent) : Prop := hasTerminal events.dropLast = false

/-- Exactly one event is terminal, and it is the last one. -/
def EndsOnce (events : List StreamedEvent) : Prop :=
  ∃ before last, events = before ++ [last] ∧ last.event.isTerminal = true ∧
    ∀ streamed ∈ before, streamed.event.isTerminal = false

theorem streamOrdered_nil : StreamOrdered [] := rfl

theorem streamOrdered_push {events : List StreamedEvent} (h : hasTerminal events = false)
    (streamed : StreamedEvent) : StreamOrdered (events ++ [streamed]) := by
  rw [StreamOrdered, List.dropLast_concat]
  exact h

theorem StreamOrdered.endsOnce {events : List StreamedEvent} (h : StreamOrdered events)
    (hterminal : hasTerminal events = true) : EndsOnce events := by
  rcases List.eq_nil_or_concat' events with rfl | ⟨before, last, rfl⟩
  · cases hterminal
  · rw [StreamOrdered, List.dropLast_concat] at h
    rw [hasTerminal, List.any_append, Bool.or_eq_true] at hterminal
    rw [hasTerminal, List.any_eq_false] at h
    refine ⟨before, last, rfl, ?_, fun streamed hmem => by simpa using h streamed hmem⟩
    rcases hterminal with hbefore | hlast
    · obtain ⟨streamed, hmem, hends⟩ := List.any_eq_true.mp hbefore
      exact absurd hends (h streamed hmem)
    · simpa using hlast

/-- In an ordered stream the first terminal event is the last event. -/
theorem StreamOrdered.find?_eq_getLast? {events : List StreamedEvent} (h : StreamOrdered events)
    {streamed : StreamedEvent} (hfind : events.find? (·.event.isTerminal) = some streamed) :
    events.getLast? = some streamed := by
  rcases List.eq_nil_or_concat' events with rfl | ⟨before, last, rfl⟩
  · cases hfind
  · rw [StreamOrdered, List.dropLast_concat, hasTerminal, List.any_eq_false] at h
    rw [List.find?_append, List.find?_eq_none.mpr h, Option.none_or] at hfind
    rw [List.getLast?_concat]
    exact (List.mem_singleton.mp (List.mem_of_find?_eq_some hfind)) ▸ rfl

/-! ## Turns -/

/-- The streams of a turn: those of its steps, and its own while it has no step. -/
structure Turn.StreamsOrdered (turn : Turn) : Prop where
  stepIds : (turn.modelSteps.map (·.stepId)).Nodup
  steps : ∀ step ∈ turn.modelSteps, StreamOrdered step.modelEvents
  stream : turn.modelSteps = [] → StreamOrdered turn.modelEvents

theorem map_stepId_modifyStep (turn : Turn) (stepId : Identifier) (change : ModelStep → ModelStep)
    (hchange : ∀ step, (change step).stepId = step.stepId) :
    (turn.modifyStep stepId change).modelSteps.map (·.stepId) = turn.modelSteps.map (·.stepId) := by
  rw [Turn.modifyStep, List.map_map]
  apply List.map_congr_left
  intro step _
  by_cases hid : step.stepId = stepId <;> simp [hid, hchange]

theorem mem_modifyStep {turn : Turn} {stepId : Identifier} {change : ModelStep → ModelStep}
    {step : ModelStep} (h : step ∈ (turn.modifyStep stepId change).modelSteps) :
    step ∈ turn.modelSteps ∨ ∃ old ∈ turn.modelSteps, old.stepId = stepId ∧ step = change old := by
  obtain ⟨old, hold, rfl⟩ := List.mem_map.mp h
  by_cases hid : old.stepId = stepId
  · rw [if_pos hid]
    exact .inr ⟨old, hold, hid, rfl⟩
  · rw [if_neg hid]
    exact .inl hold

theorem modelSteps_compacted (turn : Turn) (compaction : Compaction) (older : Bool) :
    (turn.compacted compaction older).modelSteps = turn.modelSteps := by
  unfold Turn.compacted
  split <;> rfl

theorem assembly_compacted (turn : Turn) (compaction : Compaction) (older : Bool) :
    (turn.compacted compaction older).assembly = turn.assembly := by
  unfold Turn.compacted
  split <;> rfl

theorem modelEvents_compacted (turn : Turn) (compaction : Compaction) (older : Bool) :
    (turn.compacted compaction older).modelEvents = turn.modelEvents := by
  unfold Turn.compacted
  split <;> rfl

namespace Turn.StreamsOrdered

variable {turn : Turn}

theorem pushStep (h : turn.StreamsOrdered) {event : SessionEvent}
    {payload : ModelRequestStartedPayload} (hfresh : (turn.step payload.stepId).truthy = false) :
    (turn.pushStep (newStep event payload)).StreamsOrdered where
  stepIds := by
    rw [Turn.pushStep, List.map_append]
    refine h.stepIds.append (List.nodup_singleton _) ?_
    simpa [newStep] using stepId_ne_of_step_not_truthy hfresh
  steps := by
    intro step hstep
    rcases List.mem_append.mp hstep with hold | hnew
    · exact h.steps step hold
    · obtain rfl := List.mem_singleton.mp hnew
      exact streamOrdered_nil
  stream hnil := by simp [Turn.pushStep] at hnil

theorem revise (h : turn.StreamsOrdered) (stepId : Identifier) (revision : StepRevision) :
    (turn.modifyStep stepId (·.revise revision)).StreamsOrdered where
  stepIds := by
    rw [map_stepId_modifyStep _ _ _ (by intro; rfl)]
    exact h.stepIds
  steps := by
    intro step hstep
    rcases mem_modifyStep hstep with hold | ⟨old, hold, -, rfl⟩
    · exact h.steps step hold
    · exact h.steps old hold
  stream hnil := h.stream (List.map_eq_nil_iff.mp hnil)

theorem record (h : turn.StreamsOrdered) (hopen : hasTerminal turn.modelEvents = false)
    (streamed : StreamedEvent) : (turn.record streamed).StreamsOrdered where
  stepIds := h.stepIds
  steps := h.steps
  stream _ := streamOrdered_push hopen streamed

theorem recordStep (h : turn.StreamsOrdered) {stepId : Identifier} {step : ModelStep}
    (hstep : turn.modelSteps.find? (·.stepId = stepId) = some step)
    (hopen : hasTerminal step.modelEvents = false) (streamed : StreamedEvent) :
    ((turn.record streamed).modifyStep stepId (·.push streamed)).StreamsOrdered where
  stepIds := by
    rw [map_stepId_modifyStep _ _ _ (by intro; rfl)]
    exact h.stepIds
  steps := by
    intro pushed hpushed
    rcases mem_modifyStep hpushed with hold | ⟨old, hold, hid, rfl⟩
    · exact h.steps pushed hold
    · -- Step identifiers are unique, so the open step is the one that was found.
      have hfound : step.stepId = stepId := by simpa using List.find?_some hstep
      have hsame : old = step := List.inj_on_of_nodup_map h.stepIds hold
        (List.mem_of_find?_eq_some hstep) (hid.trans hfound.symm)
      subst hsame
      exact streamOrdered_push hopen streamed
  stream hnil := by
    have hnone : turn.modelSteps = [] := List.map_eq_nil_iff.mp hnil
    simp [hnone] at hstep

theorem compacted (h : turn.StreamsOrdered) (compaction : Compaction) (older : Bool) :
    (turn.compacted compaction older).StreamsOrdered where
  stepIds := by rw [modelSteps_compacted]; exact h.stepIds
  steps := by rw [modelSteps_compacted]; exact h.steps
  stream := by rw [modelSteps_compacted, modelEvents_compacted]; exact h.stream

end Turn.StreamsOrdered

/-! ## Runs -/

/-- The turn an event starts. -/
def SessionEvent.startedTurn? (event : SessionEvent) : Option Identifier :=
  match event.payload with
  | .turnStarted turnId _ => some turnId
  | _ => none

/-- The cancellation an event requests. -/
def SessionEvent.cancellation? (event : SessionEvent) : Option CancellationRequestedPayload :=
  match event.payload with
  | .sessionCancellationRequested payload => some payload
  | _ => none

/-- What a stream and the state it leads to have in common before the session ends. -/
structure Underway (events : List SessionEvent) (state : SessionState) : Prop where
  turns : ∀ turnId turn, state.turns.get? turnId = some turn → turn.StreamsOrdered
  order : state.turnOrder = events.filterMap SessionEvent.startedTurn?
  cancellation : events.filterMap SessionEvent.cancellation? =
    state.cancellationRequest.toList.map (·.payload)
  open_ : state.terminalEvent = none → ∀ event ∈ events, event.payload.isTerminal = false

theorem underway_initial : Underway [] .initial where
  turns _ _ h := by simp [SessionState.initial] at h
  order := rfl
  cancellation := rfl
  open_ _ _ h := by simp at h

section

variable {realm realm' : Realm} {state next : SessionState} {event : SessionEvent}

/-- A transition keeps the streams of all turns ordered. -/
theorem streamsOrdered_step (h : Transition realm state event realm' next)
    (hturns : ∀ turnId turn, state.turns.get? turnId = some turn → turn.StreamsOrdered) :
    ∀ turnId turn, next.turns.get? turnId = some turn → turn.StreamsOrdered := by
  cases h with
  | turnStarted hpayload hfresh =>
      refine JsObject.forall_get?_set hturns ⟨List.nodup_nil, ?_, fun _ => streamOrdered_nil⟩
      simp [newTurn]
  | contextAssembled hpayload hturn hfresh hinput =>
      have hold := hturns _ _ hturn
      exact JsObject.forall_get?_set hturns ⟨hold.stepIds, hold.steps, hold.stream⟩
  | modelRequestStarted hpayload hturn hassembly hfresh hcheck =>
      exact JsObject.forall_get?_set hturns ((hturns _ _ hturn).pushStep hfresh)
  | modelRevisionRequested hpayload hturn =>
      exact JsObject.forall_get?_set hturns ((hturns _ _ hturn).revise _ _)
  | turnStreamed hpayload hturn hopen =>
      exact JsObject.forall_get?_set hturns ((hturns _ _ hturn).record hopen _)
  | stepStreamed hpayload hturn hstep hopen =>
      exact JsObject.forall_get?_set hturns ((hturns _ _ hturn).recordStep hstep hopen _)
  | toolExecutionStarted hpayload hturn hinvocation hcall =>
      have hold := hturns _ _ hturn
      exact JsObject.forall_get?_set hturns ⟨hold.stepIds, hold.steps, hold.stream⟩
  | toolExecutionCompleted hpayload hturn hexecution hopen =>
      have hold := hturns _ _ hturn
      exact JsObject.forall_get?_set hturns ⟨hold.stepIds, hold.steps, hold.stream⟩
  | compactionCompleted hpayload hturn hsources =>
      exact JsObject.forall_get?_set hturns ((hturns _ _ hturn).compacted _ _)
  | _ => exact hturns

/-- A transition records the turn it starts, and no other. -/
theorem turnOrder_step (h : Transition realm state event realm' next) :
    next.turnOrder = state.turnOrder ++ event.startedTurn?.toList := by
  cases h with
  | turnStarted hpayload hfresh => simp [SessionEvent.startedTurn?, hpayload]
  | _ => simp_all [SessionEvent.startedTurn?, SessionState.setTurn, SessionState.setExecution,
      SessionState.setReservation, SessionState.addCompaction]

/-- A transition records the cancellation it requests, and no other. -/
theorem cancellation_step (h : Transition realm state event realm' next) :
    next.cancellationRequest.toList.map (·.payload) =
      state.cancellationRequest.toList.map (·.payload) ++ event.cancellation?.toList := by
  cases h with
  | sessionCancellationRequested hpayload hfresh =>
      simp [SessionEvent.cancellation?, hpayload, hfresh]
  | _ => simp_all [SessionEvent.cancellation?, SessionState.setTurn, SessionState.setExecution,
      SessionState.setReservation, SessionState.addCompaction]

/-- Only an event that ends the session makes the state terminal. -/
theorem terminalEvent_step (h : Transition realm state event realm' next)
    (hopen : state.terminalEvent = none) :
    next.terminalEvent = if event.payload.isTerminal then some event else none := by
  cases h <;> simp_all [SessionPayload.isTerminal, SessionState.setTurn, SessionState.setExecution,
    SessionState.setReservation, SessionState.addCompaction]

/-- An event that ends the session finds all started work settled and only marks the end. -/
theorem terminal_step (h : Transition realm state event realm' next)
    (hends : event.payload.isTerminal = true) :
    assertStartedWorkSettled state = .ok () ∧
      ∃ status, next = { state with status := status, terminalEvent := some event } := by
  cases h with
  | sessionCancelled hpayload hrequest hsource hreason hcascade hsettled => exact ⟨hsettled, _, rfl⟩
  | sessionFailed hpayload hsettled => exact ⟨hsettled, _, rfl⟩
  | sessionCompleted hpayload hsettled hstop => exact ⟨hsettled, _, rfl⟩
  | _ => simp_all [SessionPayload.isTerminal]

theorem completed_step (h : Transition realm state event realm' next) {outcomeRef : Reference}
    (hpayload : event.payload = .sessionCompleted outcomeRef) :
    (state.latestModelEvents.find? (·.event.isTerminal)).bind (·.event.finishReason?) =
      some .stop := by
  cases h with
  | sessionCompleted _ _ hstop => exact hstop
  | _ => simp_all

theorem cancelled_step (h : Transition realm state event realm' next) {reason : ReasonText}
    {cascade : Bool} (hpayload : event.payload = .sessionCancelled reason cascade) :
    ∃ request, state.cancellationRequest = some request ∧ request.payload.reason = reason ∧
      request.payload.cascade = cascade ∧ request.payload.source ≠ .deadline := by
  cases h with
  | sessionCancelled hcancelled hrequest hsource hreason hcascade _ =>
      rw [hpayload, SessionPayload.sessionCancelled.injEq] at hcancelled
      exact ⟨_, hrequest, hcancelled.1 ▸ hreason, hcancelled.2 ▸ hcascade, hsource⟩
  | _ => simp_all

end

theorem underway_of_accepted {realm : Realm} {events : List SessionEvent} {state : SessionState}
    (h : Accepted realm events state) : Underway events state := by
  refine h.history underway_initial ?_
  intro past before event realm₁ realm₂ next _ hbefore hadmission htransition
  have hturns := streamsOrdered_step htransition hbefore.turns
  refine ⟨hturns, ?_, ?_, ?_⟩
  · rw [filterMap_concat, ← hbefore.order]
    have horder := turnOrder_step htransition
    exact horder
  · rw [filterMap_concat, hbefore.cancellation]
    have hcancellation := cancellation_step htransition
    exact hcancellation.symm
  · intro hopen other hmem
    obtain ⟨-, hbeforeOpen, -⟩ := checkAdmission_eq_ok hadmission
    have hterminal := terminalEvent_step htransition hbeforeOpen
    change next.terminalEvent = none at hopen
    rw [hopen] at hterminal
    rcases List.mem_append.mp hmem with hpast | hlast
    · exact hbefore.open_ hbeforeOpen other hpast
    · obtain rfl := List.mem_singleton.mp hlast
      by_contra hends
      rw [if_pos (Bool.not_eq_false _ ▸ hends)] at hterminal
      cases hterminal

/-- The last model event of the turn's latest step, or of the turn itself when it
has no step, completed with `stop`. -/
def Turn.EndedWithStop (turn : Turn) : Prop :=
  turn.latestModelEvents.getLast?.bind (·.event.finishReason?) = some .stop

theorem Turn.StreamsOrdered.latestModelEvents {turn : Turn} (h : turn.StreamsOrdered) :
    StreamOrdered turn.latestModelEvents := by
  unfold Turn.latestModelEvents
  cases hlast : turn.modelSteps.getLast? with
  | none => exact h.stream (List.getLast?_eq_none_iff.mp hlast)
  | some step => exact h.steps step (List.mem_of_getLast? hlast)

/-- The check of a successful end, read off the latest turn. -/
theorem endedWithStop_of_find {state : SessionState}
    (hturns : ∀ turnId turn, state.turns.get? turnId = some turn → turn.StreamsOrdered)
    (hstop : (state.latestModelEvents.find? (·.event.isTerminal)).bind (·.event.finishReason?) =
      some .stop) :
    ∃ turnId turn, state.turnOrder.getLast? = some turnId ∧ state.turns.get? turnId = some turn ∧
      turn.EndedWithStop := by
  obtain ⟨streamed, hfind, hreason⟩ := Option.bind_eq_some_iff.mp hstop
  unfold SessionState.latestModelEvents at hfind
  cases horder : state.turnOrder.getLast? with
  | none => simp [horder] at hfind
  | some turnId =>
      rw [horder, Option.bind_some] at hfind
      cases hturn : state.turns.get? turnId with
      | none => simp [hturn] at hfind
      | some turn =>
          rw [hturn, Option.map_some, Option.getD_some] at hfind
          refine ⟨turnId, turn, rfl, hturn, ?_⟩
          rw [Turn.EndedWithStop, (hturns turnId turn hturn).latestModelEvents.find?_eq_getLast? hfind]
          exact hreason

/-- A stream whose session ended: its last event, and no other, ends the session;
all model steps, tool executions and workflow reservations are settled; success
follows a latest turn that stopped; and a cancellation answers the one request
for it, which was not a deadline. -/
theorem terminated_session_settled {realm : Realm} {events : List SessionEvent}
    {state : SessionState} {terminal : SessionEvent} (h : Accepted realm events state)
    (hterminal : state.terminalEvent = some terminal) :
    (∃ past, events = past ++ [terminal] ∧ terminal.payload.isTerminal = true ∧
      ∀ event ∈ past, event.payload.isTerminal = false) ∧
    (∀ turn ∈ state.turns.values, ∀ step ∈ turn.modelSteps, EndsOnce step.modelEvents) ∧
    (∀ execution ∈ state.toolInvocations.values, execution.completion.isSome = true) ∧
    (∀ reservation ∈ state.workflowReservations.values, reservation.released.isSome = true) ∧
    (∀ outcomeRef, terminal.payload = .sessionCompleted outcomeRef →
      ∃ turnId turn, (events.filterMap SessionEvent.startedTurn?).getLast? = some turnId ∧
        state.turns.get? turnId = some turn ∧ turn.EndedWithStop) ∧
    ∀ reason cascade, terminal.payload = .sessionCancelled reason cascade →
      ∃ request, events.filterMap SessionEvent.cancellation? = [request] ∧
        request.reason = reason ∧ request.cascade = cascade ∧ request.source ≠ .deadline := by
  have hunderway := underway_of_accepted h
  rcases List.eq_nil_or_concat' events with rfl | ⟨past, event, rfl⟩
  · rw [Accepted, replaySessionEvents] at h
    obtain rfl := Except.ok.inj h
    cases hterminal
  · obtain ⟨before, realm₁, realm₂, next, hpast, hadmission, htransition, rfl⟩ := h.snoc
    obtain ⟨-, hopen, hdrained⟩ := checkAdmission_eq_ok hadmission
    have hends : event.payload.isTerminal = true ∧ terminal = event := by
      have hnext := terminalEvent_step htransition hopen
      change next.terminalEvent = some terminal at hterminal
      rw [hterminal] at hnext
      split at hnext
      next hends => exact ⟨hends, Option.some.inj hnext⟩
      next => cases hnext
    obtain ⟨hends, rfl⟩ := hends
    have hbefore := underway_of_accepted hpast
    obtain ⟨hsettled, status, hnext⟩ := terminal_step htransition hends
    obtain ⟨hmodel, htools⟩ := assertStartedWorkSettled_eq_ok hsettled
    refine ⟨⟨past, rfl, hends, hbefore.open_ hopen⟩, ?_, ?_, ?_, ?_, ?_⟩
    · intro turn hturn step hstep
      rw [hnext] at hturn
      obtain ⟨turnId, hget⟩ := JsObject.mem_values.mp hturn
      exact ((hbefore.turns turnId turn hget).steps step hstep).endsOnce
        ((hmodel turn hturn).2 step hstep)
    · rw [hnext]
      exact htools
    · rw [hnext]
      exact hdrained hends
    · intro outcomeRef hpayload
      have hstop := completed_step htransition hpayload
      rw [← hunderway.order, hnext]
      exact endedWithStop_of_find hbefore.turns hstop
    · intro reason cascade hpayload
      obtain ⟨request, hrequest, hreason, hcascade, hsource⟩ := cancelled_step htransition hpayload
      rw [hunderway.cancellation, hnext]
      exact ⟨request.payload, by rw [SessionState.see, hrequest]; rfl, hreason, hcascade, hsource⟩

/-! ## A session

One turn of a session with a model step that answers and stops.
-/

namespace Sample

def ident (text : String) (h : isIdentifier text = true := by exact Eq.refl true) : Identifier := ⟨text, h⟩

def reference (text : String)
    (h : lengthWithin 1 1024 text = true := by exact Eq.refl true) : Reference := ⟨text, h⟩

def model : ModelName := ⟨"m1", Eq.refl true⟩

def spec : AgentSessionSpec where
  sessionId := ident "s1"
  agentId := ident "a1"
  parentSessionId := none
  authorityRef := reference "authority"
  policyRef := reference "policy"
  execution := .kernel (ident "p1") model
  limits := ⟨4, 1000, 60000, 4, 4, 8⟩
  metadata := .obj []

/-- An event of the session. -/
def event (eventId : String) (sequence : Nat) (payload : SessionPayload)
    (hid : isIdentifier eventId = true := by exact Eq.refl true)
    (hvalid : (intWithin 1 maxSafeInteger sequence && payload.valid (ident "s1")) = true := by
      decide +kernel) : SessionEvent :=
  ⟨⟨eventId, hid⟩, ident "s1", sequence, ⟨"2026-01-01T00:00:00Z", Eq.refl true⟩, payload, hvalid⟩

def input : AgentMessage := { role := .user, content := "go" }

def request : ModelRequest where
  requestId := ident "r1"
  sessionId := ident "s1"
  turnId := ident "t1"
  providerId := ident "p1"
  model := model
  messages :=
    [{ role := .system, content := contextPrecedencePreamble },
      { role := .system, content := "[HSEOS INSTRUCTION tier=constitution source=\"c\"]" },
      { role := .system, content := "[HSEOS INSTRUCTION tier=project source=\"p\"]" }, input]
  tools := []
  parameters := ⟨100, none, []⟩

def assembled : ContextAssembledPayload where
  assemblyContract := .v1
  turnId := ident "t1"
  request := ⟨request, none⟩
  sourceRefs := [reference contextPrecedenceRef, reference "c", reference "p",
    reference "session-event://e2"]
  sources := none
  budget := ⟨ident "k", 200, 100, 100, 0, 0, 0, 0, .reject, none, none, none, []⟩

def streamed (sequence : Nat) (payload : ModelStreamPayload) : SessionPayload :=
  .modelStreamed ⟨ident "t1", some (ident "st1"), ident "p1",
    ⟨ident "p1", ident "r1", sequence, payload⟩⟩

/-- The session is created. -/
def created : SessionEvent := event "e1" 1 (.sessionCreated spec)

/-- A turn is started. -/
def asked : SessionEvent := event "e2" 2 (.turnStarted (ident "t1") input)

/-- A turn whose context has been assembled. -/
def opened : List SessionEvent :=
  [created, asked,
    event "e3" 3 (.contextAssembled assembled)]

/-- The first request of the turn. -/
def firstRequest (stepId : Identifier) : ModelRequestStartedPayload :=
  ⟨ident "t1", stepId, request, [ident "e3"]⟩

/-- The first step is requested. -/
def firstRequested : SessionEvent :=
  event "e4" 4 (.modelRequestStarted (firstRequest (ident "st1")))

/-- A turn whose first step has been requested. -/
def requested : List SessionEvent := opened ++ [firstRequested]

/-- The session whose step answers and stops. -/
def answered : List SessionEvent :=
  requested ++ [event "e5" 5 (streamed 0 (.contentDelta ⟨"done", Eq.refl true⟩)),
    event "e6" 6 (streamed 1 (.completed .stop (reference "response"))),
    event "e7" 7 (.sessionCompleted (reference "outcome"))]

end Sample

theorem answered_settled : ∃ state terminal, Accepted ⟨false⟩ Sample.answered state ∧
    state.terminalEvent = some terminal ∧
    ∃ turnId turn, (Sample.answered.filterMap SessionEvent.startedTurn?).getLast? = some turnId ∧
      state.turns.get? turnId = some turn ∧ turn.EndedWithStop := by
  obtain ⟨state, haccepted, hstate⟩ := acceptsWith_iff.mp
    (show acceptsWith ⟨false⟩ Sample.answered (fun state => state.terminalEvent =
      some (Sample.event "e7" 7 (.sessionCompleted (Sample.reference "outcome")))) = true by
        decide +kernel)
  have hterminal := of_decide_eq_true hstate
  obtain ⟨-, -, -, -, hcompleted, -⟩ := terminated_session_settled haccepted hterminal
  exact ⟨state, _, haccepted, hterminal, hcompleted _ rfl⟩

end Hseos
