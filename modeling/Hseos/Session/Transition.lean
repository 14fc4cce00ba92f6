import Hseos.Session.Replay

/-! # What one event does

The inversion of the reducer: for each event type, what was checked and the state
that follows. Results about runs are proved by cases on it.
-/

namespace Hseos

/-- `Transition realm state event realm' next`: the event takes the state to `next`. -/
inductive Transition (realm : Realm) (state : SessionState) (event : SessionEvent) :
    Realm → SessionState → Prop where
  | sessionCreated {spec : AgentSessionSpec} (hpayload : event.payload = .sessionCreated spec) :
      Transition realm state event realm { state with spec := some spec, status := .active }
  | sessionForked {payload : ForkedPayload} (hpayload : event.payload = .sessionForked payload) :
      Transition realm state event realm { state with parent := some payload }
  | sessionReconciled {reportSha256 : Sha256Text} {reservedTokens : Nat}
      (hpayload : event.payload = .sessionReconciled reportSha256 reservedTokens) :
      Transition realm state event realm { state with
        reconciliationReservedTokens := state.reconciliationReservedTokens + reservedTokens
        reconciliationReports := state.reconciliationReports ++ [reportSha256] }
  | sessionResumed {fromSequence : Nat} (hpayload : event.payload = .sessionResumed fromSequence) :
      Transition realm state event realm state
  | turnStarted {turnId : Identifier} {input : AgentMessage}
      (hpayload : event.payload = .turnStarted turnId input)
      (hfresh : state.turns.get? turnId = none) :
      Transition realm state event realm { state.setTurn turnId (newTurn event turnId input) with
        turnOrder := state.turnOrder ++ [turnId] }
  | contextAssembled {payload : ContextAssembledPayload} {turn : Turn}
      (hpayload : event.payload = .contextAssembled payload)
      (hturn : state.turns.get? payload.turnId = some turn) (hfresh : turn.assembly = none)
      (hinput : payload.request.request.messages.getLast?.map
        (fun message => canonicalJson message.toJson) = some (canonicalJson turn.input.toJson)) :
      Transition realm state event realm
        (state.setTurn payload.turnId (turn.assemble event payload))
  | modelRequestStarted {payload : ModelRequestStartedPayload} {turn : Turn} {assembly : Assembly}
      (hpayload : event.payload = .modelRequestStarted payload)
      (hturn : state.turns.get? payload.turnId = some turn) (hassembly : turn.assembly = some assembly)
      (hfresh : (turn.step payload.stepId).truthy = false)
      (hcheck : checkRequest state turn assembly payload = .ok ()) :
      Transition realm state event realm
        (state.setTurn payload.turnId (turn.pushStep (newStep event payload)))
  | modelRevisionRequested {turnId stepId : Identifier} {feedback : Refined (lengthWithin 1 65536)}
      {turn : Turn} (hpayload : event.payload = .modelRevisionRequested turnId stepId feedback)
      (hturn : state.turns.get? turnId = some turn) :
      Transition realm state event realm
        (state.setTurn turnId (turn.modifyStep stepId (·.revise ⟨feedback, event.eventId⟩)))
  | turnStreamed {payload : ModelStreamedPayload} {turn : Turn}
      (hpayload : event.payload = .modelStreamed payload)
      (hturn : state.turns.get? payload.turnId = some turn)
      (hopen : hasTerminal turn.modelEvents = false) :
      Transition realm state event realm
        (state.setTurn payload.turnId (turn.record (streamedEvent event payload)))
  | stepStreamed {payload : ModelStreamedPayload} {turn : Turn} {stepId : Identifier}
      {step : ModelStep} (hpayload : event.payload = .modelStreamed payload)
      (hturn : state.turns.get? payload.turnId = some turn)
      (hstep : turn.modelSteps.find? (·.stepId = stepId) = some step)
      (hopen : hasTerminal step.modelEvents = false) :
      Transition realm state event realm
        (state.setTurn payload.turnId ((turn.record (streamedEvent event payload)).modifyStep
          stepId (·.push (streamedEvent event payload))))
  | toolExecutionStarted {payload : ToolStartedPayload} {turn : Turn}
      (hpayload : event.payload = .toolExecutionStarted payload)
      (hturn : state.turns.get? payload.turnId = some turn)
      (hinvocation : state.toolInvocations.get? payload.invocationId = none)
      (hcall : turn.toolExecutions.get? payload.toolCallId = none) :
      Transition realm state event realm
        ((state.setTurn payload.turnId (turn.hold payload.toolCallId payload.invocationId)).setExecution
          payload.invocationId ⟨payload, event.eventId, none, none⟩)
  | toolExecutionReconciled {payload : ToolOutcomePayload} {execution : ToolExecution}
      (hpayload : event.payload = .toolExecutionReconciled payload)
      (hexecution : state.toolInvocations.get? payload.outcome.invocationId = some execution)
      (huncertain : execution.completion.map (·.outcome.status) = some .uncertain)
      (hturn : execution.started.turnId = payload.turnId) :
      Transition realm state event realm
        (state.setExecution payload.outcome.invocationId
          (execution.reconcile (completionOf event payload)))
  | toolExecutionCompleted {payload : ToolOutcomePayload} {turn : Turn} {execution : ToolExecution}
      (hpayload : event.payload = .toolExecutionCompleted payload)
      (hturn : state.turns.get? payload.turnId = some turn)
      (hexecution : state.toolInvocations.get? payload.outcome.invocationId = some execution)
      (hopen : execution.completion = none) :
      Transition realm state event realm
        ((state.setTurn payload.turnId
          (turn.hold execution.started.toolCallId payload.outcome.invocationId)).setExecution
            payload.outcome.invocationId (execution.complete (completionOf event payload)))
  | toolOperationLinked {payload : OperationLinkedPayload}
      (hpayload : event.payload = .toolOperationLinked payload) :
      Transition realm state event realm
        { state with operationIds := state.operationIds ++ [payload.operationId] }
  | objectCompacted {record : CompactionRecord}
      (hpayload : event.payload = .compactionCompleted record)
      (hturn : state.turns.get? record.turnId = none) (htrigger : record.trigger = .contextPressure) :
      Transition realm state event ⟨true⟩ (state.addCompaction ⟨record, event.eventId⟩)
  | compactionCompleted {record : CompactionRecord} {turn : Turn} {sources : List HistoryItem}
      {older : Bool} (hpayload : event.payload = .compactionCompleted record)
      (hturn : state.turns.get? record.turnId = some turn)
      (hsources : compactionSources state turn record = .ok (sources, older)) :
      Transition realm state event realm
        ((state.addCompaction ⟨record, event.eventId⟩).setTurn record.turnId
          (turn.compacted ⟨record, event.eventId⟩ older))
  | childAttached {childSessionId : Identifier} {authorityCeilingRef : Reference}
      (hpayload : event.payload = .childAttached childSessionId authorityCeilingRef) :
      Transition realm state event realm
        { state with children := state.children ++ [childSessionId] }
  | subagentRequested {payload : SubagentRequestedPayload}
      (hpayload : event.payload = .subagentRequested payload) :
      Transition realm state event realm
        { state with subagentRequest := some ⟨payload, event.eventId⟩ }
  | workflowReserved {payload : WorkflowReservedPayload}
      (hpayload : event.payload = .workflowReserved payload)
      (hfresh : state.workflowReservations.get? payload.workflowId = none) :
      Transition realm state event realm
        (state.setReservation payload.workflowId (newReservation event payload))
  | workflowRevised {payload : WorkflowRevisedPayload} {reservation : WorkflowReservation}
      (hpayload : event.payload = .workflowRevised payload)
      (hreservation : state.workflowReservations.get? payload.workflowId = some reservation)
      (hactive : reservation.released = none) (hclaim : reservation.claimRef = payload.claimRef.val) :
      Transition realm state event realm
        { state.setReservation payload.workflowId (reservation.revise event payload) with
          workflows := revisedWorkflows state payload }
  | workflowReclaimed {payload : WorkflowReclaimedPayload} {reservation : WorkflowReservation}
      (hpayload : event.payload = .workflowReclaimed payload)
      (hreservation : state.workflowReservations.get? payload.workflowId = some reservation)
      (hactive : reservation.released = none)
      (hclaim : reservation.claimRef = payload.priorClaimRef.val)
      (hexpired : dateParse reservation.claimExpiresAt < dateParse event.occurredAt) :
      Transition realm state event realm
        (state.setReservation payload.workflowId (reservation.reclaim event payload))
  | workflowReleased {payload : WorkflowReleasedPayload} {reservation : WorkflowReservation}
      (hpayload : event.payload = .workflowReleased payload)
      (hreservation : state.workflowReservations.get? payload.workflowId = some reservation)
      (hactive : reservation.released = none) (hclaim : reservation.claimRef = payload.claimRef.val) :
      Transition realm state event realm (state.setReservation payload.workflowId
        (reservation.release ⟨payload.status, event.eventId⟩))
  | workflowCheckpointed {payload : WorkflowCheckpointedPayload}
      (hpayload : event.payload = .workflowCheckpointed payload)
      (hunrevised : ∀ reservation,
        state.workflowReservations.get? payload.workflowId = some reservation →
          reservation.revision = none) :
      Transition realm state event realm { state with
        workflowCheckpoints := state.workflowCheckpoints ++ [.step payload event.eventId] }
  | workflowPhaseCheckpointed {payload : WorkflowPhaseCheckpointedPayload}
      {reservation : WorkflowReservation} {workflows : JsObject Identifier WorkflowProgress}
      (hpayload : event.payload = .workflowPhaseCheckpointed payload)
      (hreservation : state.workflowReservations.get? payload.workflowId = some reservation)
      (hclaim : reservation.claimRef = payload.claimRef.val)
      (hrevised : reservation.revision.isSome = true → reservation.released = none) :
      Transition realm state event realm { state with
        workflows := workflows
        workflowCheckpoints := state.workflowCheckpoints ++ [.phase payload event.eventId] }
  | sessionCancellationRequested {payload : CancellationRequestedPayload}
      (hpayload : event.payload = .sessionCancellationRequested payload)
      (hfresh : state.cancellationRequest = none) :
      Transition realm state event realm
        { state with cancellationRequest := some ⟨payload, event.eventId⟩ }
  | sessionCancelled {reason : ReasonText} {cascade : Bool} {request : CancellationRequest}
      (hpayload : event.payload = .sessionCancelled reason cascade)
      (hrequest : state.cancellationRequest = some request)
      (hsource : request.payload.source ≠ .deadline) (hreason : request.payload.reason = reason)
      (hcascade : request.payload.cascade = cascade)
      (hsettled : assertStartedWorkSettled state = .ok ()) :
      Transition realm state event realm
        { state with status := .cancelled, terminalEvent := some event }
  | sessionFailed {errorCode : NormalizedErrorCode} {message : Refined (lengthWithin 1 4096)}
      {retryable : Bool} (hpayload : event.payload = .sessionFailed errorCode message retryable)
      (hsettled : assertStartedWorkSettled state = .ok ()) :
      Transition realm state event realm
        { state with status := .failed, terminalEvent := some event }
  | sessionCompleted {outcomeRef : Reference} (hpayload : event.payload = .sessionCompleted outcomeRef)
      (hsettled : assertStartedWorkSettled state = .ok ())
      (hstop : (state.latestModelEvents.find? (·.event.isTerminal)).bind (·.event.finishReason?) =
        some .stop) :
      Transition realm state event realm
        { state with status := .completed, terminalEvent := some event }

variable {realm realm' : Realm} {state next : SessionState} {event : SessionEvent}

/-- An event other than a compaction leaves the realm alone. -/
theorem keep_eq_ok {x : Replay SessionState} (h : Except.map (Prod.mk realm) x = .ok (realm', next)) :
    realm' = realm ∧ x = .ok next := by
  obtain ⟨found, hx, heq⟩ := map_eq_ok_iff.mp h
  obtain ⟨rfl, rfl⟩ := Prod.mk.inj heq
  exact ⟨rfl, hx⟩

theorem applyEvent_transition (h : applyEvent realm state event = .ok (realm', next)) :
    Transition realm state event realm' next := by
  unfold applyEvent at h
  cases hpayload : event.payload <;> rw [hpayload] at h <;> dsimp only at h
  case sessionCreated spec =>
    obtain ⟨rfl, rfl⟩ := Prod.mk.inj (pure_eq_ok_iff.mp h)
    exact .sessionCreated hpayload
  case compactionCompleted record =>
    obtain ⟨hturn, htrigger, rfl, rfl⟩ | ⟨turn, sources, older, hturn, rfl, hsources, rfl⟩ :=
      applyCompactionCompleted_eq_ok h
    · exact .objectCompacted hpayload hturn htrigger
    · exact .compactionCompleted hpayload hturn hsources
  all_goals obtain ⟨rfl, happly⟩ := keep_eq_ok h
  case sessionForked => obtain rfl := applySessionForked_eq_ok happly; exact .sessionForked hpayload
  case sessionReconciled =>
    obtain rfl := applySessionReconciled_eq_ok happly
    exact .sessionReconciled hpayload
  case sessionResumed => obtain rfl := applySessionResumed_eq_ok happly; exact .sessionResumed hpayload
  case turnStarted =>
    obtain ⟨hfresh, rfl⟩ := applyTurnStarted_eq_ok happly
    exact .turnStarted hpayload hfresh
  case contextAssembled =>
    obtain ⟨turn, hturn, hfresh, hinput, rfl, -⟩ := applyContextAssembled_eq_ok happly
    exact .contextAssembled hpayload hturn hfresh hinput
  case modelRequestStarted =>
    obtain ⟨turn, assembly, hturn, hassembly, hfresh, -, hcheck, rfl⟩ :=
      applyModelRequestStarted_eq_ok happly
    exact .modelRequestStarted hpayload hturn hassembly hfresh hcheck
  case modelRevisionRequested =>
    obtain ⟨turn, step, hturn, -, -, -, -, rfl⟩ := applyModelRevisionRequested_eq_ok happly
    exact .modelRevisionRequested hpayload hturn
  case modelStreamed =>
    obtain ⟨turn, hturn, ⟨-, hopen, rfl⟩ | ⟨stepId, step, -, hstep, hopen, -, rfl⟩⟩ :=
      applyModelStreamed_eq_ok happly
    · exact .turnStreamed hpayload hturn hopen
    · exact .stepStreamed hpayload hturn hstep hopen
  case toolExecutionStarted =>
    obtain ⟨turn, step, hturn, -, -, hinvocation, hcall, rfl, -⟩ := applyToolExecutionStarted_eq_ok happly
    exact .toolExecutionStarted hpayload hturn hinvocation hcall
  case toolExecutionReconciled =>
    obtain ⟨execution, hexecution, huncertain, hturn, -, -, rfl⟩ :=
      applyToolExecutionReconciled_eq_ok happly
    exact .toolExecutionReconciled hpayload hexecution huncertain hturn
  case toolExecutionCompleted =>
    obtain ⟨turn, execution, hturn, hexecution, hopen, -, -, rfl⟩ :=
      applyToolExecutionCompleted_eq_ok happly
    exact .toolExecutionCompleted hpayload hturn hexecution hopen
  case toolOperationLinked =>
    obtain rfl := applyToolOperationLinked_eq_ok happly
    exact .toolOperationLinked hpayload
  case childAttached =>
    obtain ⟨rfl, -⟩ := applyChildAttached_eq_ok happly
    exact .childAttached hpayload
  case subagentRequested =>
    obtain rfl := applySubagentRequested_eq_ok happly
    exact .subagentRequested hpayload
  case workflowReserved =>
    obtain ⟨hfresh, rfl, -⟩ := applyWorkflowReserved_eq_ok happly
    exact .workflowReserved hpayload hfresh
  case workflowRevised =>
    obtain ⟨reservation, -, hreservation, hactive, hclaim, -, -, -, -, -, -, rfl⟩ :=
      reviseWorkflow_eq_ok happly
    exact .workflowRevised hpayload hreservation hactive hclaim
  case workflowReclaimed =>
    obtain ⟨reservation, hreservation, hactive, hclaim, hexpired, rfl⟩ :=
      applyWorkflowReclaimed_eq_ok happly
    exact .workflowReclaimed hpayload hreservation hactive hclaim hexpired
  case workflowReleased =>
    obtain ⟨reservation, hreservation, hactive, hclaim, rfl⟩ := applyWorkflowReleased_eq_ok happly
    exact .workflowReleased hpayload hreservation hactive hclaim
  case workflowCheckpointed =>
    obtain ⟨hunrevised, rfl⟩ := applyWorkflowCheckpointed_eq_ok happly
    exact .workflowCheckpointed hpayload hunrevised
  case workflowPhaseCheckpointed =>
    obtain ⟨reservation, workflows, hreservation, hclaim, hrevised, -, rfl, -⟩ :=
      applyWorkflowPhaseCheckpointed_eq_ok happly
    exact .workflowPhaseCheckpointed hpayload hreservation hclaim hrevised
  case sessionCancellationRequested =>
    obtain ⟨hfresh, rfl⟩ := applySessionCancellationRequested_eq_ok happly
    exact .sessionCancellationRequested hpayload hfresh
  case sessionCancelled =>
    obtain ⟨request, hrequest, hsource, hreason, hcascade, hsettled, rfl⟩ :=
      applySessionCancelled_eq_ok happly
    exact .sessionCancelled hpayload hrequest hsource hreason hcascade hsettled
  case sessionFailed =>
    obtain ⟨hsettled, rfl⟩ := applySessionFailed_eq_ok happly
    exact .sessionFailed hpayload hsettled
  case sessionCompleted =>
    obtain ⟨hsettled, hstop, rfl⟩ := applySessionCompleted_eq_ok happly
    exact .sessionCompleted hpayload hsettled hstop

/-- What `checkAdmission` makes sure of. -/
theorem checkAdmission_eq_ok {u : Unit} (h : checkAdmission state event = .ok u) :
    event.sequence = state.currentSequence + 1 ∧ state.terminalEvent = none ∧
      (event.payload.isTerminal = true →
        ∀ reservation ∈ state.workflowReservations.values, reservation.released.isSome = true) := by
  obtain ⟨hsequence, h⟩ := reject_bind_eq_ok_iff.mp h
  obtain ⟨-, h⟩ := reject_bind_eq_ok_iff.mp h
  cases hterminal : state.terminalEvent with
  | some terminal =>
      rw [hterminal] at h
      exact (nomatch h)
  | none =>
      rw [hterminal] at h
      obtain ⟨-, h⟩ := reject_bind_eq_ok_iff.mp h
      obtain ⟨-, h⟩ := reject_bind_eq_ok_iff.mp h
      have hdrained := reject_eq_ok_iff.mp h
      refine ⟨by simpa using hsequence, rfl, ?_⟩
      intro hends reservation hmem
      rw [hends, Bool.true_and, List.any_eq_false] at hdrained
      exact Option.isSome_iff_ne_none.mpr (by simpa using hdrained reservation hmem)

/-- One step of the replay loop: the event is admitted and applied. -/
theorem replayStep_applied {reducer reducer' : Reducer}
    (h : replayStep reducer event = .ok reducer') :
    checkAdmission reducer.state event = .ok () ∧ ∃ next,
      applyEvent reducer.realm (reducer.state.advance event) event = .ok (reducer'.realm, next) ∧
      reducer'.state = next.see event.eventId := by
  obtain ⟨⟨⟩, hadmission, h⟩ := bind_eq_ok_iff.mp h
  obtain ⟨⟨realm, next⟩, happly, h⟩ := bind_eq_ok_iff.mp h
  obtain rfl := pure_eq_ok_iff.mp h
  exact ⟨hadmission, next, happly, rfl⟩

/-- One step of the replay loop: the event is admitted and makes a transition. -/
theorem replayStep_eq_ok {reducer reducer' : Reducer} (h : replayStep reducer event = .ok reducer') :
    checkAdmission reducer.state event = .ok () ∧ ∃ next,
      Transition reducer.realm (reducer.state.advance event) event reducer'.realm next ∧
      reducer'.state = next.see event.eventId := by
  obtain ⟨hadmission, next, happly, hstate⟩ := replayStep_applied h
  exact ⟨hadmission, next, applyEvent_transition happly, hstate⟩

/-! ## Accepted streams -/

/-- Replay of the events from the empty state succeeds with the given state. -/
def Accepted (realm : Realm) (events : List SessionEvent) (state : SessionState) : Prop :=
  (replaySessionEvents realm .initial events).2 = .ok state

theorem accepted_iff_run {events : List SessionEvent} :
    Accepted realm events state ↔
      ∃ realm', run replayStep ⟨realm, .initial⟩ events = .ok ⟨realm', state⟩ := by
  rw [Accepted, replaySessionEvents, map_eq_ok_iff]
  constructor
  · rintro ⟨⟨realm', final⟩, hrun, rfl⟩
    exact ⟨realm', hrun⟩
  · rintro ⟨realm', hrun⟩
    exact ⟨_, hrun, rfl⟩

theorem Accepted.unique {events : List SessionEvent} {other : SessionState}
    (h : Accepted realm events state) (h' : Accepted realm events other) : state = other :=
  Except.ok.inj (h.symm.trans h')

theorem accepted_nil : Accepted realm [] .initial := rfl

/-- The last event of an accepted stream was admitted and applied. -/
theorem Accepted.snoc_applied {past : List SessionEvent}
    (h : Accepted realm (past ++ [event]) state) :
    ∃ before realm₁ realm₂ next, Accepted realm past before ∧ checkAdmission before event = .ok () ∧
      applyEvent realm₁ (before.advance event) event = .ok (realm₂, next) ∧
      state = next.see event.eventId := by
  obtain ⟨realm', hrun⟩ := accepted_iff_run.mp h
  obtain ⟨⟨realm₁, before⟩, hpast, hstep⟩ := run_snoc_eq_ok_iff.mp hrun
  obtain ⟨hadmission, next, happly, hstate⟩ := replayStep_applied hstep
  exact ⟨before, realm₁, realm', next, accepted_iff_run.mpr ⟨realm₁, hpast⟩, hadmission, happly,
    hstate⟩

/-- The last event of an accepted stream was admitted and made a transition. -/
theorem Accepted.snoc {past : List SessionEvent} (h : Accepted realm (past ++ [event]) state) :
    ∃ before realm₁ realm₂ next, Accepted realm past before ∧ checkAdmission before event = .ok () ∧
      Transition realm₁ (before.advance event) event realm₂ next ∧ state = next.see event.eventId := by
  obtain ⟨before, realm₁, realm₂, next, hpast, hadmission, happly, hstate⟩ := h.snoc_applied
  exact ⟨before, realm₁, realm₂, next, hpast, hadmission, applyEvent_transition happly, hstate⟩

theorem Accepted.of_isPrefix {past events : List SessionEvent} (h : Accepted realm events state)
    (hpast : past <+: events) : ∃ reached, Accepted realm past reached := by
  obtain ⟨realm', hrun⟩ := accepted_iff_run.mp h
  obtain ⟨⟨realm₁, reached⟩, hpast⟩ := run_of_isPrefix hpast hrun
  exact ⟨reached, accepted_iff_run.mpr ⟨realm₁, hpast⟩⟩

/-- An event of an accepted stream was admitted after its past and made a transition. -/
theorem Accepted.split {past future : List SessionEvent}
    (h : Accepted realm (past ++ event :: future) state) :
    ∃ before realm₁ realm₂ next, Accepted realm past before ∧ checkAdmission before event = .ok () ∧
      Transition realm₁ (before.advance event) event realm₂ next ∧
      Accepted realm (past ++ [event]) (next.see event.eventId) := by
  have hpast : past ++ [event] <+: past ++ event :: future := ⟨future, by simp⟩
  obtain ⟨reached, hreached⟩ := h.of_isPrefix hpast
  obtain ⟨before, realm₁, realm₂, next, hpast, hadmission, htransition, rfl⟩ := hreached.snoc
  exact ⟨before, realm₁, realm₂, next, hpast, hadmission, htransition, hreached⟩

/-- What holds of the empty stream and is kept by each event that is admitted and
applied holds of every accepted stream. -/
theorem Accepted.applied {P : List SessionEvent → SessionState → Prop} {events : List SessionEvent}
    (h : Accepted realm events state) (hinit : P [] .initial)
    (hstep : ∀ past before event realm₁ realm₂ next, Accepted realm past before → P past before →
      checkAdmission before event = .ok () →
      applyEvent realm₁ (before.advance event) event = .ok (realm₂, next) →
      P (past ++ [event]) (next.see event.eventId)) : P events state := by
  obtain ⟨realm', hrun⟩ := accepted_iff_run.mp h
  refine run_history (P := fun past reducer => P past reducer.state) hinit ?_ hrun
  intro past before event after hpast hP hstep'
  obtain ⟨⟨⟩, hadmission, hstep'⟩ := bind_eq_ok_iff.mp hstep'
  obtain ⟨⟨realm₂, next⟩, happly, hstep'⟩ := bind_eq_ok_iff.mp hstep'
  obtain rfl := pure_eq_ok_iff.mp hstep'
  exact hstep past before.state event _ _ next (accepted_iff_run.mpr ⟨_, hpast⟩) hP hadmission happly

/-- The same for what each admitted transition keeps. -/
theorem Accepted.history {P : List SessionEvent → SessionState → Prop} {events : List SessionEvent}
    (h : Accepted realm events state) (hinit : P [] .initial)
    (hstep : ∀ past before event realm₁ realm₂ next, Accepted realm past before → P past before →
      checkAdmission before event = .ok () → Transition realm₁ (before.advance event) event realm₂ next →
      P (past ++ [event]) (next.see event.eventId)) : P events state :=
  h.applied hinit fun past before event realm₁ realm₂ next hpast hP hadmission happly =>
    hstep past before event realm₁ realm₂ next hpast hP hadmission (applyEvent_transition happly)

/-- The same for the streams whose events all meet a condition. -/
theorem Accepted.history_throughout {P : List SessionEvent → SessionState → Prop}
    {Q : List SessionEvent → SessionEvent → Prop} {events : List SessionEvent}
    (h : Accepted realm events state) (hevents : Throughout Q events) (hinit : P [] .initial)
    (hstep : ∀ past before event realm₁ realm₂ next, Accepted realm past before → P past before →
      Q past event → checkAdmission before event = .ok () →
      Transition realm₁ (before.advance event) event realm₂ next →
      P (past ++ [event]) (next.see event.eventId)) : P events state := by
  obtain ⟨realm', hrun⟩ := accepted_iff_run.mp h
  refine run_throughout (P := fun past reducer => P past reducer.state) hinit ?_ hevents hrun
  intro past before event after hpast hP hQ hstep'
  obtain ⟨hadmission, next, htransition, hstate⟩ := replayStep_eq_ok hstep'
  rw [hstate]
  exact hstep past before.state event _ _ next (accepted_iff_run.mpr ⟨_, hpast⟩) hP hQ hadmission
    htransition

/-- Replay accepts the events with a state that passes a check. -/
def acceptsWith (realm : Realm) (events : List SessionEvent) (check : SessionState → Bool) : Bool :=
  match (replaySessionEvents realm .initial events).2 with
  | .ok state => check state
  | .error _ => false

theorem acceptsWith_iff {events : List SessionEvent} {check : SessionState → Bool} :
    acceptsWith realm events check = true ↔
      ∃ state, Accepted realm events state ∧ check state = true := by
  unfold acceptsWith Accepted
  cases (replaySessionEvents realm .initial events).2 with
  | ok state => simp
  | error failure => simp

end Hseos
