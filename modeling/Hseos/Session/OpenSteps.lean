import Hseos.Session.Settlement

/-! # Open model steps

What holds of a step whose stream has not ended: its turn was assembled, and its
bounds leave one event and the terminal reserve free. A terminal model event for
it is accepted if and only if it fits in the bytes that are left.
-/

namespace Hseos

/-- The free room in the stream of a step. -/
structure ModelStep.HasReserve (step : ModelStep) : Prop where
  events : step.modelEvents.length < maxModelEventsPerStep
  bytes : step.modelStreamBytes + modelTerminalReserveBytes ≤ maxModelStreamBytesPerStep

/-- The steps of a turn have an assembled context, and free room while they are open. -/
structure Turn.StepsReserved (turn : Turn) : Prop where
  assembled : turn.modelSteps ≠ [] → turn.assembly.isSome = true
  reserved : ∀ step ∈ turn.modelSteps, hasTerminal step.modelEvents = false → step.HasReserve

theorem newStep_hasReserve (event : SessionEvent) (payload : ModelRequestStartedPayload) :
    (newStep event payload).HasReserve where
  events := show 0 < maxModelEventsPerStep by decide
  bytes := show 2 + modelTerminalReserveBytes ≤ maxModelStreamBytesPerStep by decide

/-- An event within the bounds that leaves the step open leaves it the reserve. -/
theorem ModelStep.push_hasReserve {step : ModelStep} {streamed : StreamedEvent}
    (hbound : step.exceedsStreamBound streamed.event = false)
    (hopen : hasTerminal (step.push streamed).modelEvents = false) :
    (step.push streamed).HasReserve := by
  have hevent : streamed.event.isTerminal = false := by
    rw [ModelStep.push, hasTerminal, List.any_append, Bool.or_eq_false_iff] at hopen
    simpa using hopen.2
  simp only [ModelStep.exceedsStreamBound, hevent, Bool.not_false, Bool.true_and,
    Bool.or_eq_false_iff, decide_eq_false_iff_not] at hbound
  obtain ⟨⟨⟨-, hcount⟩, -⟩, hbytes⟩ := hbound
  refine ⟨?_, ?_⟩
  · simp only [ModelStep.push, List.length_append, List.length_singleton]
    omega
  · simp only [ModelStep.push, maxModelStreamBytesPerStep, modelTerminalReserveBytes] at hbytes ⊢
    omega

namespace Turn.StepsReserved

variable {turn : Turn}

/-- Whatever keeps the steps and the assembly of a turn keeps the room of its steps. -/
theorem of_same (h : turn.StepsReserved) {other : Turn} (hsteps : other.modelSteps = turn.modelSteps)
    (hassembly : turn.assembly.isSome = true → other.assembly.isSome = true) :
    other.StepsReserved where
  assembled hne := hassembly (h.assembled (hsteps ▸ hne))
  reserved := by
    rw [hsteps]
    exact h.reserved

theorem pushStep (h : turn.StepsReserved) (hassembly : turn.assembly.isSome = true)
    (event : SessionEvent) (payload : ModelRequestStartedPayload) :
    (turn.pushStep (newStep event payload)).StepsReserved where
  assembled _ := hassembly
  reserved := by
    intro step hstep hopen
    rcases List.mem_append.mp hstep with hold | hnew
    · exact h.reserved step hold hopen
    · obtain rfl := List.mem_singleton.mp hnew
      exact newStep_hasReserve event payload

/-- A change to one step keeps the room of the others. -/
theorem modifyStep (h : turn.StepsReserved) {stepId : Identifier} {change : ModelStep → ModelStep}
    (hchange : ∀ step ∈ turn.modelSteps, step.stepId = stepId →
      hasTerminal (change step).modelEvents = false → (change step).HasReserve) :
    (turn.modifyStep stepId change).StepsReserved where
  assembled hne := h.assembled fun hnil => hne (List.map_eq_nil_iff.mpr hnil)
  reserved := by
    intro step hstep hopen
    rcases mem_modifyStep hstep with hold | ⟨old, hold, hid, rfl⟩
    · exact h.reserved step hold hopen
    · exact hchange old hold hid hopen

end Turn.StepsReserved

/-! ## Runs -/

/-- What holds of the steps of a session at any time. -/
structure StepsReserved (state : SessionState) : Prop where
  turns : ∀ turnId turn, state.turns.get? turnId = some turn → turn.StepsReserved
  ended : state.terminalEvent.isSome = true → ∀ turn ∈ state.turns.values,
    ∀ step ∈ turn.modelSteps, hasTerminal step.modelEvents = true
  started : state.turns ≠ ∅ → 1 ≤ state.currentSequence ∧ state.sessionId.isSome = true

section

variable {realm realm' : Realm} {state next : SessionState} {event : SessionEvent}

/-- The bound is checked for the step that is found, and step identifiers are unique. -/
theorem stepsReserved_streamed {payload : ModelStreamedPayload}
    (h : applyModelStreamed state event payload = .ok next)
    (hordered : ∀ turnId turn, state.turns.get? turnId = some turn → turn.StreamsOrdered)
    (hturns : ∀ turnId turn, state.turns.get? turnId = some turn → turn.StepsReserved) :
    ∀ turnId turn, next.turns.get? turnId = some turn → turn.StepsReserved := by
  obtain ⟨turn, hturn, ⟨-, -, rfl⟩ | ⟨stepId, step, -, hstep, -, hbound, rfl⟩⟩ :=
    applyModelStreamed_eq_ok h
  · exact JsObject.forall_get?_set hturns ((hturns _ _ hturn).of_same rfl id)
  · have hrecorded : (turn.record (streamedEvent event payload)).StepsReserved :=
      (hturns _ _ hturn).of_same rfl id
    refine JsObject.forall_get?_set hturns (hrecorded.modifyStep ?_)
    intro other hother hid hopen
    have hfound : step.stepId = stepId := by simpa using List.find?_some hstep
    obtain rfl := List.inj_on_of_nodup_map (hordered _ _ hturn).stepIds hother
      (List.mem_of_find?_eq_some hstep) (hid.trans hfound.symm)
    exact ModelStep.push_hasReserve hbound hopen

/-- An applied event keeps the room of the open steps of all turns. -/
theorem stepsReserved_step (h : applyEvent realm state event = .ok (realm', next))
    (hordered : ∀ turnId turn, state.turns.get? turnId = some turn → turn.StreamsOrdered)
    (hturns : ∀ turnId turn, state.turns.get? turnId = some turn → turn.StepsReserved) :
    ∀ turnId turn, next.turns.get? turnId = some turn → turn.StepsReserved := by
  have htransition := applyEvent_transition h
  cases htransition with
  | turnStarted hpayload hfresh =>
      refine JsObject.forall_get?_set hturns ⟨fun hne => absurd rfl hne, ?_⟩
      simp [newTurn]
  | contextAssembled hpayload hturn hfresh hinput =>
      exact JsObject.forall_get?_set hturns ((hturns _ _ hturn).of_same rfl fun _ => rfl)
  | modelRequestStarted hpayload hturn hassembly hfresh hcheck =>
      exact JsObject.forall_get?_set hturns
        ((hturns _ _ hturn).pushStep (by rw [hassembly]; rfl) _ _)
  | modelRevisionRequested hpayload hturn =>
      have hold := hturns _ _ hturn
      exact JsObject.forall_get?_set hturns (hold.modifyStep fun step hstep _ hopen =>
        ⟨(hold.reserved step hstep hopen).events, (hold.reserved step hstep hopen).bytes⟩)
  | turnStreamed hpayload hturn hopen =>
      exact JsObject.forall_get?_set hturns ((hturns _ _ hturn).of_same rfl id)
  | stepStreamed hpayload hturn hstep hopen =>
      rw [applyEvent, hpayload] at h
      exact stepsReserved_streamed (keep_eq_ok h).2 hordered hturns
  | toolExecutionStarted hpayload hturn hinvocation hcall =>
      exact JsObject.forall_get?_set hturns ((hturns _ _ hturn).of_same rfl id)
  | toolExecutionCompleted hpayload hturn hexecution hopen =>
      exact JsObject.forall_get?_set hturns ((hturns _ _ hturn).of_same rfl id)
  | compactionCompleted hpayload hturn hsources =>
      refine JsObject.forall_get?_set hturns ((hturns _ _ hturn).of_same ?_ ?_)
      · exact modelSteps_compacted _ _ _
      · rw [assembly_compacted]
        exact id
  | _ => exact hturns

/-- Once the session ends, every step has ended. -/
theorem stepsEnded_step (h : Transition realm state event realm' next)
    (hopen : state.terminalEvent = none) (hended : next.terminalEvent.isSome = true) :
    ∀ turn ∈ next.turns.values, ∀ step ∈ turn.modelSteps, hasTerminal step.modelEvents = true := by
  have hterminal := terminalEvent_step h hopen
  by_cases hends : event.payload.isTerminal = true
  · obtain ⟨hsettled, status, rfl⟩ := terminal_step h hends
    intro turn hturn
    exact ((assertStartedWorkSettled_eq_ok hsettled).1 turn hturn).2
  · rw [if_neg hends] at hterminal
    rw [hterminal] at hended
    cases hended

/-- An event never changes the identity and the sequence that its admission set. -/
theorem identity_step (h : Transition realm state event realm' next) :
    next.sessionId = state.sessionId ∧ next.currentSequence = state.currentSequence := by
  cases h <;> exact ⟨rfl, rfl⟩

end

theorem stepsReserved_initial : StepsReserved .initial where
  turns _ _ h := by simp [SessionState.initial] at h
  ended h := by cases h
  started h := absurd rfl h

theorem stepsReserved_of_accepted {realm : Realm} {events : List SessionEvent}
    {state : SessionState} (h : Accepted realm events state) : StepsReserved state := by
  refine h.applied (P := fun _ => StepsReserved) stepsReserved_initial ?_
  intro past before event realm₁ realm₂ next hpast hbefore hadmission happly
  obtain ⟨hsequence, hopen, -⟩ := checkAdmission_eq_ok hadmission
  have htransition := applyEvent_transition happly
  refine ⟨?_, ?_, ?_⟩
  · have hturns := stepsReserved_step happly (underway_of_accepted hpast).turns hbefore.turns
    exact hturns
  · have hended := stepsEnded_step htransition hopen
    exact hended
  · intro _
    obtain ⟨hidentity, hcurrent⟩ := identity_step htransition
    refine ⟨?_, ?_⟩
    · change 1 ≤ next.currentSequence
      rw [hcurrent]
      change 1 ≤ event.sequence
      omega
    · change next.sessionId.isSome = true
      rw [hidentity]
      rfl

/-! ## Terminal model events -/

/-- A payload that ends the stream of a step with the identity and the sequence of the step. -/
structure ModelStreamedPayload.Ends (payload : ModelStreamedPayload) (step : ModelStep) : Prop where
  stepId : payload.stepId = some step.stepId
  providerId : payload.providerId = step.request.providerId
  requestId : payload.event.requestId = step.request.requestId
  sequence : payload.event.sequence = step.modelEvents.length
  terminal : payload.event.isTerminal = true

section

variable {realm : Realm} {state next : SessionState} {event : SessionEvent}
  {payload : ModelStreamedPayload} {turn : Turn} {step : ModelStep}

theorem checkStream_ends (h : payload.Ends step) (hopen : hasTerminal step.modelEvents = false) :
    checkStream step.request step.modelEvents payload = .ok () := by
  simp [checkStream, h.providerId, h.requestId, h.sequence, hopen, reject, bind, Except.bind]

theorem exceedsStreamBound_ends (h : payload.Ends step) (hreserve : step.HasReserve) :
    step.exceedsStreamBound payload.event =
      decide (maxModelStreamBytesPerStep < nextStreamBytes step payload.event) := by
  have hcount : ¬maxModelEventsPerStep ≤ step.modelEvents.length := by
    have hevents := hreserve.events
    omega
  simp [ModelStep.exceedsStreamBound, h.terminal, hcount]

/-- An event that ends an open step is applied exactly when its bytes fit. -/
theorem applyModelStreamed_ends_iff (hturn : state.turns.get? payload.turnId = some turn)
    (hassembly : turn.assembly.isSome = true)
    (hstep : turn.modelSteps.find? (·.stepId = step.stepId) = some step)
    (hopen : hasTerminal step.modelEvents = false) (hreserve : step.HasReserve)
    (h : payload.Ends step) :
    (∃ next, applyModelStreamed state event payload = .ok next) ↔
      nextStreamBytes step payload.event ≤ maxModelStreamBytesPerStep := by
  obtain ⟨assembly, hassembly⟩ := Option.isSome_iff_exists.mp hassembly
  have hslot : state.turns.slot payload.turnId = .own turn := JsObject.slot_eq_own_iff.mpr hturn
  have hown : turn.step step.stepId = .own step := Turn.step_eq_own_iff.mpr hstep
  unfold applyModelStreamed
  simp only [requireOwnTurn, requireTurn, hslot, pure_bind, hassembly, h.stepId, hown,
    bind_eq_ok_iff, reject_eq_ok_iff, checkStream_ends h hopen, exceedsStreamBound_ends h hreserve]
  simp

/-- Whether one more event is accepted is decided by its step alone. -/
theorem exists_accepted_snoc_iff (event : SessionEvent) {events : List SessionEvent}
    (h : Accepted realm events state) :
    ∃ realm', (∃ next, Accepted realm (events ++ [event]) next) ↔
      ∃ reducer, replayStep ⟨realm', state⟩ event = .ok reducer := by
  obtain ⟨realm', hrun⟩ := accepted_iff_run.mp h
  refine ⟨realm', ?_, ?_⟩
  · rintro ⟨next, hnext⟩
    obtain ⟨realm'', hrun'⟩ := accepted_iff_run.mp hnext
    obtain ⟨mid, hmid, hstep⟩ := run_snoc_eq_ok_iff.mp hrun'
    obtain rfl := Except.ok.inj (hmid.symm.trans hrun)
    exact ⟨_, hstep⟩
  · rintro ⟨⟨realm'', next⟩, hstep⟩
    exact ⟨next, accepted_iff_run.mpr ⟨realm'', run_snoc_eq_ok_iff.mpr ⟨_, hrun, hstep⟩⟩⟩

/-- An event that neither creates nor ends the session is admitted in its turn. -/
theorem checkAdmission_next (hcreated : ∀ spec, event.payload ≠ .sessionCreated spec)
    (hends : event.payload.isTerminal = false)
    (hsequence : event.sequence = state.currentSequence + 1) (hstarted : 1 ≤ state.currentSequence)
    (hsession : state.sessionId = some event.sessionId) (hopen : state.terminalEvent = none) :
    checkAdmission state event = .ok () := by
  have hfirst : state.currentSequence ≠ 0 := by omega
  unfold checkAdmission
  cases hpayload : event.payload
  case sessionCreated spec => exact absurd hpayload (hcreated spec)
  all_goals
    rw [hpayload] at hends
    simp [hends, hsession, hopen, hsequence, hfirst, reject, bind, Except.bind]

/-- After an accepted stream, an event that ends an open step is accepted exactly
when its bytes fit: nothing else that the reducer checks can fail. -/
theorem accepted_ends_iff {events : List SessionEvent} (h : Accepted realm events state)
    (hpayload : event.payload = .modelStreamed payload)
    (hturn : state.turns.get? payload.turnId = some turn)
    (hstep : turn.modelSteps.find? (·.stepId = step.stepId) = some step)
    (hopen : hasTerminal step.modelEvents = false) (hends : payload.Ends step)
    (hsession : state.sessionId = some event.sessionId)
    (hsequence : event.sequence = state.currentSequence + 1) :
    (∃ next, Accepted realm (events ++ [event]) next) ↔
      nextStreamBytes step payload.event ≤ maxModelStreamBytesPerStep := by
  have hstate := stepsReserved_of_accepted h
  have hmem : step ∈ turn.modelSteps := List.mem_of_find?_eq_some hstep
  have hsteps := hstate.turns _ _ hturn
  have hassembly := hsteps.assembled (List.ne_nil_of_mem hmem)
  have hunended : state.terminalEvent = none := by
    by_contra hended
    have hterminal := hstate.ended (Option.isSome_iff_ne_none.mpr hended) turn
      (JsObject.mem_values.mpr ⟨_, hturn⟩) step hmem
    rw [hopen] at hterminal
    cases hterminal
  have hstarted : 1 ≤ state.currentSequence := by
    refine (hstate.started ?_).1
    intro hnone
    rw [hnone] at hturn
    simp at hturn
  have hadmission := checkAdmission_next (fun _ h => by cases hpayload.symm.trans h)
    (by rw [hpayload]; rfl) hsequence hstarted hsession hunended
  obtain ⟨realm', hiff⟩ := exists_accepted_snoc_iff event h
  have happlies : (∃ next, applyModelStreamed (state.advance event) event payload = .ok next) ↔ _ :=
    applyModelStreamed_ends_iff hturn hassembly hstep hopen (hsteps.reserved step hmem hopen) hends
  rw [hiff, ← happlies]
  constructor
  · rintro ⟨reducer, hreduced⟩
    obtain ⟨-, -, hreduced⟩ := bind_eq_ok_iff.mp hreduced
    obtain ⟨⟨realm'', next⟩, happly, -⟩ := bind_eq_ok_iff.mp hreduced
    rw [applyEvent, hpayload] at happly
    exact ⟨next, (keep_eq_ok happly).2⟩
  · rintro ⟨next, happly⟩
    refine ⟨⟨realm', next.see event.eventId⟩, ?_⟩
    refine bind_eq_ok_iff.mpr ⟨(), hadmission, bind_eq_ok_iff.mpr ⟨(realm', next), ?_, rfl⟩⟩
    rw [applyEvent, hpayload]
    exact map_eq_ok_iff.mpr ⟨next, happly, rfl⟩

end

end Hseos
