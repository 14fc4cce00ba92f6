import Hseos.Session.Ceilings
import Hseos.Session.Prompt

/-! # The first step of a turn

A turn whose context is assembled starts with the assembled request. The contract
of `context.assembled` lets a request carry content parts; that of
`model.request.started` does not.
-/

namespace Hseos

/-! ## Assembled turns -/

/-- What an assembled turn has in common with its session. -/
structure Turn.Ready (state : SessionState) (turnId : Identifier) (turn : Turn) : Prop where
  request : ∀ assembly ∈ turn.assembly,
    state.sessionId = some assembly.request.request.sessionId ∧
      turnId = assembly.request.request.turnId
  provider : ∀ assembly ∈ turn.assembly, ∃ spec, state.spec = some spec ∧
    providerDiffers spec assembly.request.request = false
  seen : ∀ assembly ∈ turn.assembly, assembly.requestEventId ∈ state.seenEventIds
  idle : turn.modelSteps = [] → turn.pendingOlderCompaction = none

section

variable {realm realm' : Realm} {events : List SessionEvent} {state next : SessionState}
  {event : SessionEvent} {turnId : Identifier} {turn other : Turn}

/-- What a turn keeps stays ready while the session keeps its identity and its limits. -/
theorem Turn.Ready.keep (h : turn.Ready state turnId) (hsession : next.sessionId = state.sessionId)
    (hspec : next.spec = state.spec) (hseen : state.seenEventIds ⊆ next.seenEventIds)
    (hassembly : other.assembly = turn.assembly)
    (hidle : other.modelSteps = [] → turn.modelSteps = [] ∧
      other.pendingOlderCompaction = turn.pendingOlderCompaction) : other.Ready next turnId := by
  refine ⟨?_, ?_, ?_, ?_⟩
  · rw [hassembly, hsession]
    exact h.request
  · rw [hassembly, hspec]
    exact h.provider
  · rw [hassembly]
    exact fun assembly hmem => hseen (h.seen assembly hmem)
  · intro hsteps
    obtain ⟨hsteps, hpending⟩ := hidle hsteps
    exact hpending.trans (h.idle hsteps)

/-- A compaction leaves a turn without steps with nothing pending. -/
theorem pending_compacted {record : CompactionRecord} {compaction : Compaction}
    {sources : List HistoryItem} {older : Bool} (hrecord : compaction.record = record)
    (h : compactionSources state turn record = .ok (sources, older)) (hsteps : turn.modelSteps = []) :
    (turn.compacted compaction older).pendingOlderCompaction = turn.pendingOlderCompaction := by
  subst hrecord
  unfold Turn.compacted
  cases htrigger : compaction.record.trigger with
  | contextPressure => rfl
  | toolResultPressure =>
      rw [compactionSources, htrigger] at h
      obtain ⟨step, -, -, hlast, -⟩ := toolSources_eq_ok h
      rw [hsteps] at hlast
      cases hlast

theorem seenEventIds_step (h : Transition realm state event realm' next) :
    next.seenEventIds = state.seenEventIds := by
  cases h <;> rfl

theorem turnsReady_step (happly : applyEvent realm state event = .ok (realm', next))
    (hspec : next.spec = state.spec) (hsession : state.sessionId = some event.sessionId)
    (hturns : ∀ turnId turn, state.turns.get? turnId = some turn → turn.Ready state turnId) :
    ∀ turnId turn, next.turns.get? turnId = some turn →
      turn.Ready (next.see event.eventId) turnId := by
  have htransition := applyEvent_transition happly
  have hidentity : (next.see event.eventId).sessionId = state.sessionId := (identity_step htransition).1
  have hlimits : (next.see event.eventId).spec = state.spec := hspec
  have hseen : state.seenEventIds ⊆ (next.see event.eventId).seenEventIds := by
    rw [SessionState.see, seenEventIds_step htransition]
    exact List.subset_append_left _ _
  have hkept : ∀ turnId turn, state.turns.get? turnId = some turn →
      turn.Ready (next.see event.eventId) turnId := fun turnId turn hturn =>
    (hturns _ _ hturn).keep hidentity hlimits hseen rfl fun hsteps => ⟨hsteps, rfl⟩
  cases htransition with
  | turnStarted =>
      exact JsObject.forall_get?_set hkept ⟨by simp [newTurn], by simp [newTurn], by simp [newTurn],
        fun _ => rfl⟩
  | @contextAssembled payload turn hpayload hturn =>
      rw [applyEvent, hpayload] at happly
      obtain ⟨-, -, -, -, -, spec, hfound, hprovider⟩ :=
        applyContextAssembled_eq_ok (keep_eq_ok happly).2
      have hvalid := event.payload_valid
      simp only [hpayload, SessionPayload.valid, Bool.and_eq_true, decide_eq_true_eq] at hvalid
      refine JsObject.forall_get?_set hkept ⟨?_, ?_, ?_, (hturns _ _ hturn).idle⟩
      · intro assembly hassembly
        obtain rfl := Option.some.inj hassembly
        exact ⟨hsession.trans (congrArg some hvalid.1.2), hvalid.2⟩
      · intro assembly hassembly
        obtain rfl := Option.some.inj hassembly
        exact ⟨spec, hfound, hprovider⟩
      · intro assembly hassembly
        obtain rfl := Option.some.inj hassembly
        exact List.mem_append_right _ (List.mem_singleton_self _)
  | modelRequestStarted _ hturn =>
      refine JsObject.forall_get?_set hkept
        ((hturns _ _ hturn).keep hidentity hlimits hseen rfl fun hsteps => ?_)
      exact absurd hsteps (by simp [Turn.pushStep])
  | modelRevisionRequested _ hturn =>
      refine JsObject.forall_get?_set hkept
        ((hturns _ _ hturn).keep hidentity hlimits hseen rfl fun hsteps => ⟨?_, rfl⟩)
      simpa [Turn.modifyStep] using hsteps
  | turnStreamed _ hturn =>
      exact JsObject.forall_get?_set hkept
        ((hturns _ _ hturn).keep hidentity hlimits hseen rfl fun hsteps => ⟨hsteps, rfl⟩)
  | stepStreamed _ hturn =>
      refine JsObject.forall_get?_set hkept
        ((hturns _ _ hturn).keep hidentity hlimits hseen rfl fun hsteps => ⟨?_, rfl⟩)
      simpa [Turn.modifyStep, Turn.record] using hsteps
  | toolExecutionStarted _ hturn =>
      exact JsObject.forall_get?_set hkept
        ((hturns _ _ hturn).keep hidentity hlimits hseen rfl fun hsteps => ⟨hsteps, rfl⟩)
  | toolExecutionCompleted _ hturn =>
      exact JsObject.forall_get?_set hkept
        ((hturns _ _ hturn).keep hidentity hlimits hseen rfl fun hsteps => ⟨hsteps, rfl⟩)
  | compactionCompleted _ hturn hsources =>
      refine JsObject.forall_get?_set hkept ((hturns _ _ hturn).keep hidentity hlimits hseen
        (assembly_compacted _ _ _) fun hsteps => ?_)
      rw [modelSteps_compacted] at hsteps
      exact ⟨hsteps, pending_compacted rfl hsources hsteps⟩
  | _ => exact hkept

theorem Accepted.turnsReady (h : Accepted realm events state) :
    ∀ turnId turn, state.turns.get? turnId = some turn → turn.Ready state turnId := by
  refine h.applied (P := fun _ reached => ∀ turnId turn, reached.turns.get? turnId = some turn →
    turn.Ready reached turnId) (fun _ _ hturn => nomatch hturn) ?_
  intro past before event realm₁ realm₂ next hpast hbefore hadmission happly
  rcases created_or_spec_eq hpast hadmission happly with ⟨rfl, spec, rfl⟩ | hspec
  · intro turnId turn hturn
    cases hturn
  · refine turnsReady_step happly hspec rfl ?_
    intro turnId turn hturn
    rcases hpast.initial_or_identified with rfl | ⟨hidentified, -⟩
    · cases hturn
    · exact (hbefore turnId turn hturn).keep (sessionId_of_admission hadmission hidentified).symm rfl
        (List.Subset.refl _) rfl fun hsteps => ⟨hsteps, rfl⟩

/-! ## The first step -/

/-- The event that starts an assembled turn: its request reads like the assembled
one, and its source is the event that assembled it. -/
structure FirstStep (state : SessionState) (assembly : Assembly)
    (turnId stepId eventId : Identifier) (occurredAt : Timestamp) (event : SessionEvent) : Prop where
  eventId : event.eventId = eventId
  occurredAt : event.occurredAt = occurredAt
  session : state.sessionId = some event.sessionId
  sequence : event.sequence = state.currentSequence + 1
  payload : ∃ request : ModelRequest, request.toJson = assembly.request.toJson ∧
    event.payload = .modelRequestStarted ⟨turnId, stepId, request, [assembly.requestEventId]⟩

/-- A request with content parts does not read like one without. -/
theorem parts_eq_none_of_toJson_eq {request : ModelRequest} {assembled : ModelRequestV2}
    (h : request.toJson = assembled.toJson) : assembled.parts = none := by
  cases hparts : assembled.parts with
  | none => rfl
  | some parts =>
      have hlength := congrArg List.length (Json.obj.inj h)
      simp [ModelRequest.members, hparts, Json.member?] at hlength

theorem toJson_of_parts_eq_none {assembled : ModelRequestV2} (h : assembled.parts = none) :
    assembled.request.toJson = assembled.toJson := by
  rw [ModelRequest.toJson, ModelRequestV2.toJson, h]
  simp [Json.member?]

theorem step_of_no_steps {turn : Turn} (h : turn.modelSteps = []) (stepId : Identifier) :
    (turn.step stepId).truthy = decide (stepId.val ∈ objectPrototypeKeys) := by
  unfold Turn.step
  rw [h, List.find?_nil]
  by_cases hinherited : stepId.val ∈ objectPrototypeKeys <;> simp [hinherited]

/-- The reducer takes the first step of a turn unless its identifier is inherited. -/
theorem applyModelRequestStarted_first_iff {assembly : Assembly} {payload : ModelRequestStartedPayload}
    (hturn : state.turns.get? payload.turnId = some turn) (hready : turn.Ready state payload.turnId)
    (hassembly : turn.assembly = some assembly) (hsteps : turn.modelSteps = [])
    (hrequest : payload.request.toJson = assembly.request.toJson)
    (hsame : assembly.request.request = payload.request)
    (hsources : payload.sourceEventIds = [assembly.requestEventId]) :
    (∃ next, applyModelRequestStarted state event payload = .ok next) ↔
      payload.stepId.val ∉ objectPrototypeKeys := by
  have hslot : state.turns.slot payload.turnId = .own turn := JsObject.slot_eq_own_iff.mpr hturn
  obtain ⟨spec, hspec, hprovider⟩ := hready.provider assembly hassembly
  have hseen := hready.seen assembly hassembly
  have hpending := hready.idle hsteps
  rw [hsame] at hprovider
  have hcheck : checkRequest state turn assembly payload = .ok () := by
    simp [checkRequest, hsteps, checkInitialRequest, hrequest, hsources]
  unfold applyModelRequestStarted
  simp only [requireOwnTurn, requireTurn, hslot, pure_bind, hassembly, step_of_no_steps hsteps,
    hsteps, requireSpec, hspec, hprovider, hsources, hpending, hcheck, bind_eq_ok_iff, reject_eq_ok_iff]
  simp [hseen]

/-- The event that starts a turn reads the way the schema asks when its request has
no content parts. -/
theorem exists_firstStep {assembly : Assembly} (hready : turn.Ready state turnId)
    (hassembly : turn.assembly = some assembly) (hvalid : assembly.request.valid = true)
    (hparts : assembly.request.parts = none) (hsequence : state.currentSequence < maxSafeInteger)
    (stepId eventId : Identifier) (occurredAt : Timestamp) :
    ∃ event, FirstStep state assembly turnId stepId eventId occurredAt event := by
  obtain ⟨hsession, hturnId⟩ := hready.request assembly hassembly
  have hrequest : assembly.request.request.valid = true := by
    simp only [ModelRequestV2.valid, Bool.and_eq_true] at hvalid
    exact hvalid.1
  have hpayload : (SessionPayload.modelRequestStarted ⟨turnId, stepId, assembly.request.request,
      [assembly.requestEventId]⟩).valid assembly.request.request.sessionId = true := by
    simp [SessionPayload.valid, hrequest, hturnId]
  have hbounded : intWithin 1 maxSafeInteger (state.currentSequence + 1) = true := by
    simp only [intWithin, Bool.and_eq_true, decide_eq_true_eq]
    omega
  exact ⟨⟨eventId, assembly.request.request.sessionId, state.currentSequence + 1, occurredAt, _,
      by rw [hbounded, hpayload]; rfl⟩,
    ⟨rfl, rfl, hsession, rfl, _, toJson_of_parts_eq_none hparts, rfl⟩⟩

/-- What the schema checks of the event that starts a turn. -/
theorem FirstStep.admissible {assembly : Assembly} {stepId eventId : Identifier}
    {occurredAt : Timestamp} (h : FirstStep state assembly turnId stepId eventId occurredAt event)
    (hvalid : assembly.request.valid = true) :
    assembly.request.parts = none ∧ state.currentSequence < maxSafeInteger ∧
      event.payload = .modelRequestStarted ⟨turnId, stepId, assembly.request.request,
        [assembly.requestEventId]⟩ := by
  obtain ⟨request, hjson, hpayload⟩ := h.payload
  have hparts := parts_eq_none_of_toJson_eq hjson
  have hsame := assembled_eq_of_canonicalJson_eq (request_valid_of_event hpayload) hvalid
    (congrArg canonicalJson hjson)
  refine ⟨hparts, ?_, ?_⟩
  · have hbounded := (Bool.and_eq_true_iff.mp event.valid).1
    rw [h.sequence] at hbounded
    simp only [intWithin, Bool.and_eq_true, decide_eq_true_eq] at hbounded
    omega
  · rw [hpayload, hsame]

/-- After an accepted stream, an assembled turn without steps can be started exactly
when the assembled request has no content parts, the identifier of the step is not
inherited and a sequence number is left. -/
theorem assembled_turn_startable_iff {assembly : Assembly} (h : Accepted realm events state)
    (hturn : state.turns.get? turnId = some turn) (hassembly : turn.assembly = some assembly)
    (hsteps : turn.modelSteps = []) (hopen : state.terminalEvent = none)
    (stepId eventId : Identifier) (occurredAt : Timestamp) :
    (∃ event, FirstStep state assembly turnId stepId eventId occurredAt event ∧
        ∃ next, Accepted realm (events ++ [event]) next) ↔
      assembly.request.parts = none ∧ stepId.val ∉ objectPrototypeKeys ∧
        state.currentSequence < maxSafeInteger := by
  have hready := h.turnsReady turnId turn hturn
  have hvalid := (h.requestsValid turnId turn hturn).assembly assembly hassembly
  have hstarted : 1 ≤ state.currentSequence := by
    refine ((stepsReserved_of_accepted h).started ?_).1
    intro hnone
    rw [hnone] at hturn
    simp at hturn
  -- an event of this form is accepted when the reducer takes its step
  have haccepts : ∀ event, FirstStep state assembly turnId stepId eventId occurredAt event →
      ((∃ next, Accepted realm (events ++ [event]) next) ↔ stepId.val ∉ objectPrototypeKeys) := by
    intro event hfirst
    obtain ⟨-, -, hpayload⟩ := hfirst.admissible hvalid
    obtain ⟨request, hjson, hrequest⟩ := hfirst.payload
    rw [hpayload, SessionPayload.modelRequestStarted.injEq, ModelRequestStartedPayload.mk.injEq] at hrequest
    obtain rfl := hrequest.2.2.1
    have hadmission := checkAdmission_next (fun _ h => by cases hpayload.symm.trans h)
      (by rw [hpayload]; rfl) hfirst.sequence hstarted hfirst.session hopen
    obtain ⟨realm', hiff⟩ := exists_accepted_snoc_iff event h
    have hadvanced : turn.Ready (state.advance event) turnId :=
      hready.keep hfirst.session.symm rfl (List.Subset.refl _) rfl fun hsteps => ⟨hsteps, rfl⟩
    have happlies : (∃ next, applyModelRequestStarted (state.advance event) event
        ⟨turnId, stepId, assembly.request.request, [assembly.requestEventId]⟩ = .ok next) ↔ _ :=
      applyModelRequestStarted_first_iff hturn hadvanced hassembly hsteps hjson rfl rfl
    rw [hiff, ← happlies]
    constructor
    · rintro ⟨reducer, hreduced⟩
      obtain ⟨-, -, hreduced⟩ := bind_eq_ok_iff.mp hreduced
      obtain ⟨⟨realm'', next⟩, happly, -⟩ := bind_eq_ok_iff.mp hreduced
      rw [applyEvent, hpayload] at happly
      exact ⟨next, (keep_eq_ok happly).2⟩
    · rintro ⟨next, happly⟩
      refine ⟨⟨realm', next.see event.eventId⟩, ?_⟩
      refine bind_eq_ok_iff.mpr ⟨(), hadmission, bind_eq_ok_iff.mpr ⟨(realm', next), ?_, rfl⟩⟩
      rw [applyEvent, hpayload]
      exact map_eq_ok_iff.mpr ⟨next, happly, rfl⟩
  constructor
  · rintro ⟨event, hfirst, hnext⟩
    obtain ⟨hparts, hsequence, -⟩ := hfirst.admissible hvalid
    exact ⟨hparts, (haccepts event hfirst).mp hnext, hsequence⟩
  · rintro ⟨hparts, hinherited, hsequence⟩
    obtain ⟨event, hfirst⟩ := exists_firstStep hready hassembly hvalid hparts hsequence stepId
      eventId occurredAt
    exact ⟨event, hfirst, (haccepts event hfirst).mpr hinherited⟩

end

namespace Sample

/-- An assembled context whose request carries a text part. -/
def withPart : ContextAssembledPayload :=
  { assembled with
    assemblyContract := .v2
    request := ⟨request, some [.text ⟨"look", Eq.refl true⟩]⟩
    sources := some [] }

/-- A turn whose assembled request carries a text part. -/
def openedWithPart : List SessionEvent :=
  [created, asked,
    event "e3" 3 (.contextAssembled withPart)]

/-- The session waits for the first step of the turn with an assembled request. -/
def waits (parts : Bool) (state : SessionState) : Bool :=
  (state.turns.get? (ident "t1")).any fun turn =>
    turn.assembly.any (fun assembly => assembly.request.parts.isSome = parts) &&
      turn.modelSteps.isEmpty && state.terminalEvent.isNone && state.currentSequence = 3

theorem of_waits {parts : Bool} {state : SessionState} (h : waits parts state = true) :
    ∃ turn assembly, state.turns.get? (ident "t1") = some turn ∧ turn.assembly = some assembly ∧
      assembly.request.parts.isSome = parts ∧ turn.modelSteps = [] ∧ state.terminalEvent = none ∧
      state.currentSequence = 3 := by
  simp only [waits, Option.any_eq_true, Bool.and_eq_true, List.isEmpty_iff, Option.isNone_iff_eq_none,
    decide_eq_true_eq] at h
  obtain ⟨turn, hturn, ⟨⟨⟨assembly, hassembly, hparts⟩, hsteps⟩, hopen⟩, hsequence⟩ := h
  exact ⟨turn, assembly, hturn, hassembly, hparts, hsteps, hopen, hsequence⟩

end Sample

theorem opened_startable : ∃ state turn assembly, Accepted ⟨false⟩ Sample.opened state ∧
    state.turns.get? (Sample.ident "t1") = some turn ∧ turn.assembly = some assembly ∧
    ∃ event, FirstStep state assembly (Sample.ident "t1") (Sample.ident "st1") (Sample.ident "e4")
        ⟨"2026-01-01T00:00:00Z", Eq.refl true⟩ event ∧
      ∃ next, Accepted ⟨false⟩ (Sample.opened ++ [event]) next := by
  obtain ⟨state, haccepted, hwaits⟩ := acceptsWith_iff.mp
    (show acceptsWith ⟨false⟩ Sample.opened (Sample.waits false) = true by decide +kernel)
  obtain ⟨turn, assembly, hturn, hassembly, hparts, hsteps, hopen, hsequence⟩ :=
    Sample.of_waits hwaits
  refine ⟨state, turn, assembly, haccepted, hturn, hassembly, ?_⟩
  refine (assembled_turn_startable_iff haccepted hturn hassembly hsteps hopen _ _ _).mpr
    ⟨Option.isSome_eq_false_iff.mp hparts |> Option.isNone_iff_eq_none.mp, by decide +kernel, ?_⟩
  rw [hsequence]
  decide

/-- A request that carries a content part is assembled, and no first step fits it. -/
theorem openedWithPart_not_startable : ¬ ∀ realm events state turnId turn assembly stepId eventId
    occurredAt, Accepted realm events state → state.turns.get? turnId = some turn →
    turn.assembly = some assembly → turn.modelSteps = [] → state.terminalEvent = none →
    state.currentSequence < maxSafeInteger →
    ∃ event, FirstStep state assembly turnId stepId eventId occurredAt event ∧
      ∃ next, Accepted realm (events ++ [event]) next := by
  intro hall
  obtain ⟨state, haccepted, hwaits⟩ := acceptsWith_iff.mp
    (show acceptsWith ⟨false⟩ Sample.openedWithPart (Sample.waits true) = true by decide +kernel)
  obtain ⟨turn, assembly, hturn, hassembly, hparts, hsteps, hopen, hsequence⟩ :=
    Sample.of_waits hwaits
  obtain ⟨event, hfirst, -⟩ := hall _ _ _ _ _ _ (Sample.ident "st1") (Sample.ident "e4")
    ⟨"2026-01-01T00:00:00Z", Eq.refl true⟩ haccepted hturn hassembly hsteps hopen
    (by rw [hsequence]; decide)
  obtain ⟨request, hjson, -⟩ := hfirst.payload
  rw [parts_eq_none_of_toJson_eq hjson] at hparts
  cases hparts

end Hseos
