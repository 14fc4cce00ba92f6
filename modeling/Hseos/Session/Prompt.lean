import Hseos.Contracts.Canonical
import Hseos.Session.Settlement

/-! # What the model is sent

Whatever request replay accepts next for a turn, its content and its sources are
fixed by the durable events: the assembled request comes first, a revision adds
the answer and the feedback to its predecessor, and any other step adds the
assistant message and the tool results.
-/

namespace Hseos

/-! ## Requests of a turn are valid -/

/-- The requests that a turn carries passed their schema. -/
structure Turn.RequestsValid (turn : Turn) : Prop where
  assembly : ∀ assembly ∈ turn.assembly, assembly.request.valid = true
  steps : ∀ step ∈ turn.modelSteps, step.request.valid = true

theorem Turn.RequestsValid.modifyStep {turn : Turn} (h : turn.RequestsValid) (stepId : Identifier)
    {change : ModelStep → ModelStep} (hchange : ∀ step, (change step).request = step.request) :
    (turn.modifyStep stepId change).RequestsValid := by
  refine ⟨h.assembly, ?_⟩
  intro step hstep
  obtain hstep | ⟨old, hold, -, rfl⟩ := mem_modifyStep hstep
  · exact h.steps step hstep
  · rw [hchange]
    exact h.steps old hold

section

variable {realm realm' : Realm} {state next : SessionState} {event : SessionEvent}

theorem request_valid_of_event {payload : ModelRequestStartedPayload}
    (h : event.payload = .modelRequestStarted payload) : payload.request.valid = true := by
  have hvalid := event.payload_valid
  simp only [h, SessionPayload.valid, Bool.and_eq_true] at hvalid
  exact hvalid.1.1.1.1.1

theorem assembled_valid_of_event {payload : ContextAssembledPayload}
    (h : event.payload = .contextAssembled payload) : payload.valid = true := by
  have hvalid := event.payload_valid
  simp only [h, SessionPayload.valid, Bool.and_eq_true] at hvalid
  exact hvalid.1.1

theorem ContextAssembledPayload.request_valid {payload : ContextAssembledPayload}
    (h : payload.valid = true) : payload.request.valid = true := by
  simp only [ContextAssembledPayload.valid, Bool.and_eq_true] at h
  exact h.1.1.1.1.1.1.1.1.1.1.1.1

theorem requestsValid_step (h : Transition realm state event realm' next)
    (hturns : ∀ turnId turn, state.turns.get? turnId = some turn → turn.RequestsValid) :
    ∀ turnId turn, next.turns.get? turnId = some turn → turn.RequestsValid := by
  cases h with
  | turnStarted hpayload hfresh =>
      exact JsObject.forall_get?_set hturns ⟨by simp [newTurn], by simp [newTurn]⟩
  | @contextAssembled payload turn hpayload hturn hfresh hinput =>
      refine JsObject.forall_get?_set hturns ⟨?_, (hturns _ _ hturn).steps⟩
      intro assembly hassembly
      obtain rfl := Option.some.inj hassembly
      exact ContextAssembledPayload.request_valid (assembled_valid_of_event hpayload)
  | @modelRequestStarted payload turn assembly hpayload hturn hassembly hfresh hcheck =>
      refine JsObject.forall_get?_set hturns ⟨(hturns _ _ hturn).assembly, ?_⟩
      intro step hstep
      rcases List.mem_append.mp hstep with hstep | hstep
      · exact (hturns _ _ hturn).steps step hstep
      · obtain rfl := List.mem_singleton.mp hstep
        exact request_valid_of_event hpayload
  | modelRevisionRequested hpayload hturn =>
      exact JsObject.forall_get?_set hturns ((hturns _ _ hturn).modifyStep _ fun _ => rfl)
  | turnStreamed hpayload hturn hopen =>
      have hold := hturns _ _ hturn
      exact JsObject.forall_get?_set hturns ⟨hold.assembly, hold.steps⟩
  | @stepStreamed payload turn stepId step hpayload hturn hstep hopen =>
      have hold := hturns _ _ hturn
      have hrecorded : (turn.record (streamedEvent event payload)).RequestsValid :=
        ⟨hold.assembly, hold.steps⟩
      exact JsObject.forall_get?_set hturns (hrecorded.modifyStep _ fun _ => rfl)
  | toolExecutionStarted hpayload hturn hinvocation hcall =>
      have hold := hturns _ _ hturn
      exact JsObject.forall_get?_set hturns ⟨hold.assembly, hold.steps⟩
  | toolExecutionCompleted hpayload hturn hexecution hopen =>
      have hold := hturns _ _ hturn
      exact JsObject.forall_get?_set hturns ⟨hold.assembly, hold.steps⟩
  | @compactionCompleted record turn sources older hpayload hturn hsources =>
      have hold := hturns _ _ hturn
      refine JsObject.forall_get?_set hturns ⟨?_, ?_⟩
      · rw [assembly_compacted]
        exact hold.assembly
      · rw [modelSteps_compacted]
        exact hold.steps
  | _ => exact hturns

end

theorem Accepted.requestsValid {realm : Realm} {events : List SessionEvent} {state : SessionState}
    (h : Accepted realm events state) :
    ∀ turnId turn, state.turns.get? turnId = some turn → turn.RequestsValid := by
  refine h.history (P := fun _ reached => ∀ turnId turn, reached.turns.get? turnId = some turn →
    turn.RequestsValid) ?_ ?_
  · intro turnId turn hturn
    cases hturn
  · intro past before event realm₁ realm₂ next _ hbefore _ htransition
    have hnext := requestsValid_step htransition hbefore
    exact hnext

/-! ## The next request -/

/-- What a request that follows in a turn consists of. -/
inductive NextRequest (state : SessionState) (turn : Turn) (payload : ModelRequestStartedPayload) :
    Prop where
  /-- The first step is sent the assembled request. -/
  | initial {assembly : Assembly} (hfirst : turn.modelSteps = [])
      (hassembly : turn.assembly = some assembly)
      (hrequest : assembly.request = ⟨payload.request, none⟩)
      (hsources : payload.sourceEventIds = [assembly.requestEventId])
  /-- A revision is sent the predecessor, its answer and the feedback on it. -/
  | revision {previous : ModelStep} {revision : StepRevision} {terminal : Identifier}
      (hlast : turn.modelSteps.getLast? = some previous)
      (hrevision : previous.revision = some revision)
      (hterminal : previous.terminalEventId = some terminal)
      (hmessages : payload.request.messages = revisionMessages previous revision)
      (hstable : payload.request.stable previous.request = previous.request)
      (hsources : payload.sourceEventIds = [terminal, revision.eventId])
  /-- A continuation is sent the predecessor with the pending stubs, the assistant
  message, and the results of all its calls or their recorded compaction. -/
  | continuation {previous : ModelStep} {calls : List AgentToolCall}
      {executions : List SettledExecution} (hlast : turn.modelSteps.getLast? = some previous)
      (hrevision : previous.revision = none)
      (hfinish : previous.finishReason? = some .toolCalls)
      (hcalls : assembledToolCalls previous.modelEvents = .ok calls)
      (hexecutions : state.settledCalls turn calls = some executions)
      (hmessages : canonicalJson (messagesJson payload.request.messages) =
        canonicalJson (messagesJson (continuationMessages turn.pendingOlderCompaction previous calls
          (state.toolCompaction? turn calls) executions)))
      (hstable : payload.request.stable previous.request = previous.request)
      (hsources : canonicalJson (.ofTexts payload.sourceEventIds) =
        canonicalJson (continuationSources turn.pendingOlderCompaction previous
          (state.toolCompaction? turn calls) executions))

section

variable {state : SessionState} {turn : Turn} {assembly : Assembly} {previous : ModelStep}
  {payload : ModelRequestStartedPayload}

theorem stable_valid {request other : ModelRequest} (hrequest : request.valid = true)
    (hother : other.valid = true) : (request.stable other).valid = true := by
  simp only [ModelRequest.valid, Bool.and_eq_true] at hrequest hother
  simp only [ModelRequest.stable, ModelRequest.valid, Bool.and_eq_true]
  exact ⟨⟨hother.1.1, hrequest.1.2⟩, hrequest.2⟩

theorem stable_eq_of_text (hvalid : payload.request.valid = true)
    (hprevious : previous.request.valid = true)
    (h : canonicalJson (payload.request.stable previous.request).toJson =
      canonicalJson previous.request.toJson) :
    payload.request.stable previous.request = previous.request :=
  faithful_request.eq_of_canonicalJson_eq (stable_valid hvalid hprevious) hprevious h

theorem revisionMessages_valid {revision : StepRevision} (h : previous.request.valid = true) :
    ∀ message ∈ revisionMessages previous revision, message.valid = true := by
  intro message hmessage
  rcases List.mem_append.mp hmessage with hold | hnew
  · exact ModelRequest.messages_valid h message hold
  · simp only [List.mem_cons, List.not_mem_nil, or_false] at hnew
    rcases hnew with rfl | rfl <;> simp [AgentMessage.valid]

/-- A missing terminal event has no place among source identifiers. -/
theorem terminal_of_sources {ids : List Identifier} {terminal : Option Identifier}
    {last : Identifier} (h : canonicalJson (.ofTexts ids) =
      canonicalJson (.arr [.ofNullable .ofText terminal, .ofText last])) :
    ∃ eventId, terminal = some eventId ∧ ids = [eventId, last] := by
  cases terminal with
  | some eventId =>
      exact ⟨eventId, rfl, faithful_texts.eq_of_canonicalJson_eq trivial trivial
        (b := [eventId, last]) h⟩
  | none =>
      have hsame := sameUpToOrder_of_canonicalJson_eq (faithful_texts.wellFormed trivial) rfl h
      cases ids with
      | nil => cases hsame
      | cons id rest => cases hsame

theorem nextRequest_of_check (hturn : turn.RequestsValid) (hassembly : turn.assembly = some assembly)
    (hvalid : payload.request.valid = true)
    (h : checkRequest state turn assembly payload = .ok ()) : NextRequest state turn payload := by
  unfold checkRequest at h
  cases hlast : turn.modelSteps.getLast? with
  | none =>
      rw [hlast] at h
      have hsame := reject_eq_ok_iff.mp h
      simp only [Bool.or_eq_false_iff, decide_eq_false_iff_not, not_not] at hsame
      exact .initial (List.getLast?_eq_none_iff.mp hlast) hassembly
        (assembled_eq_of_canonicalJson_eq hvalid (hturn.assembly assembly hassembly) hsame.1)
        (faithful_texts.eq_of_canonicalJson_eq trivial trivial hsame.2)
  | some previous =>
      have hprevious := hturn.steps previous (List.mem_of_getLast? hlast)
      rw [hlast] at h
      dsimp only at h
      cases hrevision : previous.revision with
      | some revision =>
          rw [hrevision] at h
          have hsame := reject_eq_ok_iff.mp h
          simp only [Bool.or_eq_false_iff, decide_eq_false_iff_not, not_not] at hsame
          obtain ⟨terminal, hterminal, hsources⟩ := terminal_of_sources hsame.1.2
          exact .revision hlast hrevision hterminal
            (faithful_messages.eq_of_canonicalJson_eq (ModelRequest.messages_valid hvalid)
              (revisionMessages_valid hprevious) hsame.1.1)
            (stable_eq_of_text hvalid hprevious hsame.2) hsources
      | none =>
          rw [hrevision] at h
          obtain ⟨hfinish, h⟩ := reject_bind_eq_ok_iff.mp h
          obtain ⟨-, h⟩ := reject_bind_eq_ok_iff.mp h
          obtain ⟨calls, hcalls, h⟩ := bind_eq_ok_iff.mp h
          dsimp only at h
          cases hexecutions : state.settledCalls turn calls with
          | none =>
              rw [hexecutions] at h
              exact (throw_eq_ok_iff.mp h).elim
          | some executions =>
              rw [hexecutions] at h
              obtain ⟨-, h⟩ := reject_bind_eq_ok_iff.mp h
              have hsame := reject_eq_ok_iff.mp h
              simp only [Bool.or_eq_false_iff, decide_eq_false_iff_not, not_not] at hsame
              exact .continuation hlast hrevision (by simpa using hfinish) hcalls hexecutions
                hsame.1.1 (stable_eq_of_text hvalid hprevious hsame.2) hsame.1.2

theorem nextRequest_step {realm₁ realm₂ : Realm} {event : SessionEvent} {next : SessionState}
    (h : Transition realm₁ (state.advance event) event realm₂ next)
    (hpayload : event.payload = .modelRequestStarted payload)
    (hturns : ∀ turnId turn, state.turns.get? turnId = some turn → turn.RequestsValid) :
    ∃ turn, state.turns.get? payload.turnId = some turn ∧ NextRequest state turn payload := by
  cases h with
  | @modelRequestStarted found turn assembly hfound hturn hassembly hfresh hcheck =>
      obtain rfl : found = payload := by simpa [hfound] using hpayload
      have hvalid := request_valid_of_event hpayload
      exact ⟨turn, hturn, nextRequest_of_check (hturns _ _ hturn) hassembly hvalid hcheck⟩
  | _ => simp_all

/-- Requests that agree with the same predecessor differ in nothing but the
identifier and the messages. -/
theorem request_eq_of_stable {first second other : ModelRequest}
    (hfirst : first.stable other = other) (hsecond : second.stable other = other)
    (hmessages : second.messages = first.messages) :
    second = { first with requestId := second.requestId } := by
  obtain ⟨_, _, _, _, _, _, _, _⟩ := first
  obtain ⟨_, _, _, _, _, _, _, _⟩ := second
  obtain ⟨_, _, _, _, _, _, _, _⟩ := other
  simp_all [ModelRequest.stable]

/-- Two next requests of a turn agree in their sources and, but for the
identifier, in everything that is sent. -/
theorem NextRequest.unique {other : ModelRequestStartedPayload}
    (hvalid : payload.request.valid = true) (hother : other.request.valid = true)
    (h : NextRequest state turn payload) (h' : NextRequest state turn other) :
    other.request = { payload.request with requestId := other.request.requestId } ∧
      other.sourceEventIds = payload.sourceEventIds := by
  cases h with
  | initial hfirst hassembly hrequest hsources =>
      cases h' with
      | initial hfirst' hassembly' hrequest' hsources' =>
          obtain rfl := Option.some.inj (hassembly.symm.trans hassembly')
          have hsame : payload.request = other.request := by
            simpa using hrequest.symm.trans hrequest'
          exact ⟨by rw [hsame], hsources'.trans hsources.symm⟩
      | revision hlast' => simp [hfirst] at hlast'
      | continuation hlast' => simp [hfirst] at hlast'
  | revision hlast hrevision hterminal hmessages hstable hsources =>
      cases h' with
      | initial hfirst' => simp [hfirst'] at hlast
      | revision hlast' hrevision' hterminal' hmessages' hstable' hsources' =>
          obtain rfl := Option.some.inj (hlast.symm.trans hlast')
          obtain rfl := Option.some.inj (hrevision.symm.trans hrevision')
          obtain rfl := Option.some.inj (hterminal.symm.trans hterminal')
          exact ⟨request_eq_of_stable hstable hstable' (hmessages'.trans hmessages.symm),
            hsources'.trans hsources.symm⟩
      | continuation hlast' hrevision' =>
          obtain rfl := Option.some.inj (hlast.symm.trans hlast')
          simp [hrevision] at hrevision'
  | continuation hlast hrevision hfinish hcalls hexecutions hmessages hstable hsources =>
      cases h' with
      | initial hfirst' => simp [hfirst'] at hlast
      | revision hlast' hrevision' =>
          obtain rfl := Option.some.inj (hlast.symm.trans hlast')
          simp [hrevision] at hrevision'
      | continuation hlast' _ _ hcalls' hexecutions' hmessages' hstable' hsources' =>
          obtain rfl := Option.some.inj (hlast.symm.trans hlast')
          obtain rfl := Except.ok.inj (hcalls.symm.trans hcalls')
          obtain rfl := Option.some.inj (hexecutions.symm.trans hexecutions')
          have hsame := faithful_messages.eq_of_canonicalJson_eq
            (ModelRequest.messages_valid hother) (ModelRequest.messages_valid hvalid)
            (hmessages'.trans hmessages.symm)
          exact ⟨request_eq_of_stable hstable hstable' hsame,
            faithful_texts.eq_of_canonicalJson_eq trivial trivial
              (hsources'.trans hsources.symm)⟩

end

/-- Any two model requests that replay would accept next for a turn follow from the
turn in the same way, have the same sources, and agree in every field but the
request identifier. -/
theorem next_request_unique {realm : Realm} {events : List SessionEvent}
    {first second : SessionEvent} {payload other : ModelRequestStartedPayload}
    {state₁ state₂ : SessionState} (hfirst : first.payload = .modelRequestStarted payload)
    (hsecond : second.payload = .modelRequestStarted other) (hsame : other.turnId = payload.turnId)
    (h₁ : Accepted realm (events ++ [first]) state₁)
    (h₂ : Accepted realm (events ++ [second]) state₂) :
    ∃ state turn, Accepted realm events state ∧ state.turns.get? payload.turnId = some turn ∧
      NextRequest state turn payload ∧ NextRequest state turn other ∧
      other.request = { payload.request with requestId := other.request.requestId } ∧
      other.sourceEventIds = payload.sourceEventIds := by
  obtain ⟨state, _, _, _, hpast, -, htransition, -⟩ := h₁.snoc
  obtain ⟨state', _, _, _, hpast', -, htransition', -⟩ := h₂.snoc
  obtain rfl := hpast.unique hpast'
  have hvalid := request_valid_of_event hfirst
  have hother := request_valid_of_event hsecond
  obtain ⟨turn, hturn, hnext⟩ := nextRequest_step htransition hfirst hpast.requestsValid
  obtain ⟨turn', hturn', hnext'⟩ := nextRequest_step htransition' hsecond hpast.requestsValid
  rw [hsame, hturn, Option.some.injEq] at hturn'
  subst hturn'
  exact ⟨state, turn, hpast, hturn, hnext, hnext', hnext.unique hvalid hother hnext'⟩

theorem opened_request_unique : ∃ state turn, Accepted ⟨false⟩ Sample.opened state ∧
    state.turns.get? (Sample.ident "t1") = some turn ∧
    NextRequest state turn (Sample.firstRequest (Sample.ident "st1")) ∧
    NextRequest state turn (Sample.firstRequest (Sample.ident "st2")) := by
  obtain ⟨state₁, h₁, -⟩ := acceptsWith_iff.mp
    (show acceptsWith ⟨false⟩ Sample.requested (fun _ => true) = true by decide +kernel)
  obtain ⟨state₂, h₂, -⟩ := acceptsWith_iff.mp
    (show acceptsWith ⟨false⟩ (Sample.opened ++ [Sample.event "e5" 4
      (.modelRequestStarted (Sample.firstRequest (Sample.ident "st2")))]) (fun _ => true) = true by
        decide +kernel)
  have hfirst : (Sample.event "e4" 4 (.modelRequestStarted
    (Sample.firstRequest (Sample.ident "st1")))).payload = .modelRequestStarted _ := rfl
  have hsecond : (Sample.event "e5" 4 (.modelRequestStarted
    (Sample.firstRequest (Sample.ident "st2")))).payload = .modelRequestStarted _ := rfl
  obtain ⟨state, turn, haccepted, hturn, hnext, hnext', -⟩ :=
    next_request_unique hfirst hsecond rfl h₁ h₂
  exact ⟨state, turn, haccepted, hturn, hnext, hnext'⟩

end Hseos
