import Hseos.Session.Settlement

/-! # Turns and their tool executions

An execution record is reached in two ways: through the session, by its invocation
identifier, and through its turn, by the tool call it answers. The two agree as
long as every outcome names the turn its execution was started in. The reducer
checks this for a reconciled outcome and not for a completed one, which then
appears in a turn it does not belong to.
-/

namespace Hseos

/-- The execution that an event starts. -/
def SessionEvent.startedExecution? (event : SessionEvent) : Option ToolStartedPayload :=
  match event.payload with
  | .toolExecutionStarted payload => some payload
  | _ => none

/-- The outcome that an event completes. -/
def SessionEvent.completedOutcome? (event : SessionEvent) : Option ToolOutcomePayload :=
  match event.payload with
  | .toolExecutionCompleted payload => some payload
  | _ => none

/-- How the execution of the given invocation was started in the stream. -/
def startOf (events : List SessionEvent) (invocationId : Identifier) : Option ToolStartedPayload :=
  (events.filterMap SessionEvent.startedExecution?).find? (·.invocationId = invocationId)

namespace SessionState

/-- How the execution of the given invocation was started. -/
def started? (state : SessionState) (invocationId : Identifier) : Option ToolStartedPayload :=
  (state.toolInvocations.get? invocationId).map (·.started)

/-- The invocation that a turn holds under a tool call. -/
def held? (state : SessionState) (turnId toolCallId : Identifier) : Option Identifier :=
  (state.turns.get? turnId).bind (·.toolExecutions.get? toolCallId)

/-- A turn holds an execution under a tool call exactly when the session has that
execution, started in this turn for this call. -/
def ExecutionsConsistent (state : SessionState) : Prop :=
  ∀ turnId turn, state.turns.get? turnId = some turn → ∀ toolCallId invocationId,
    turn.toolExecutions.get? toolCallId = some invocationId ↔
      ∃ execution, state.toolInvocations.get? invocationId = some execution ∧
        execution.started.turnId = turnId ∧ execution.started.toolCallId = toolCallId

/-- Every execution was started in a turn of the session. -/
def ExecutionsInTurns (state : SessionState) : Prop :=
  ∀ invocationId started, state.started? invocationId = some started →
    (state.turns.get? started.turnId).isSome = true

theorem executionsConsistent_iff {state : SessionState} :
    state.ExecutionsConsistent ↔ ∀ turnId, (state.turns.get? turnId).isSome = true →
      ∀ toolCallId invocationId, state.held? turnId toolCallId = some invocationId ↔
        ∃ started, state.started? invocationId = some started ∧ started.turnId = turnId ∧
          started.toolCallId = toolCallId := by
  unfold ExecutionsConsistent
  apply forall_congr'
  intro turnId
  cases hturn : state.turns.get? turnId with
  | none => simp
  | some turn => simp [held?, started?, hturn]

end SessionState

section

variable {realm realm' : Realm} {state next : SessionState} {event : SessionEvent}

theorem toolExecutions_compacted (turn : Turn) (compaction : Compaction) (older : Bool) :
    (turn.compacted compaction older).toolExecutions = turn.toolExecutions := by
  unfold Turn.compacted
  split <;> rfl

theorem held?_setTurn {turnId : Identifier} {turn : Turn} (turnId' toolCallId : Identifier) :
    (state.setTurn turnId turn).held? turnId' toolCallId =
      if turnId' = turnId then turn.toolExecutions.get? toolCallId
      else state.held? turnId' toolCallId := by
  simp only [SessionState.held?, SessionState.setTurn, JsObject.get?_set]
  split <;> rfl

theorem held?_setTurn_of_eq {turnId : Identifier} {turn turn' : Turn}
    (hturn : state.turns.get? turnId = some turn)
    (hsame : turn'.toolExecutions = turn.toolExecutions) :
    (state.setTurn turnId turn').held? = state.held? := by
  funext turnId' toolCallId
  rw [held?_setTurn]
  split
  next heq => simp [SessionState.held?, heq, hturn, hsame]
  next => rfl

/-- A transition records the execution it starts, and no other. -/
theorem started_step (h : Transition realm state event realm' next) (invocationId : Identifier) :
    next.started? invocationId = (state.started? invocationId).or
      (event.startedExecution?.filter (·.invocationId = invocationId)) := by
  cases h with
  | @toolExecutionStarted payload turn hpayload hturn hinvocation hcall =>
      simp only [SessionState.started?, SessionEvent.startedExecution?, hpayload,
        SessionState.setExecution, SessionState.setTurn, JsObject.get?_set]
      by_cases hinv : invocationId = payload.invocationId
      · simp [hinv, hinvocation, Option.filter]
      · simp [hinv, Ne.symm hinv, Option.filter]
  | toolExecutionReconciled hpayload hexecution huncertain hturn =>
      simp only [SessionState.started?, SessionEvent.startedExecution?, hpayload,
        SessionState.setExecution, JsObject.get?_set]
      split
      next hinv => simp [hinv, hexecution, ToolExecution.reconcile]
      next => simp
  | toolExecutionCompleted hpayload hturn hexecution hopen =>
      simp only [SessionState.started?, SessionEvent.startedExecution?, hpayload,
        SessionState.setExecution, SessionState.setTurn, JsObject.get?_set]
      split
      next hinv => simp [hinv, hexecution, ToolExecution.complete]
      next => simp
  | _ =>
      have hnone : event.startedExecution? = none := by simp_all [SessionEvent.startedExecution?]
      rw [hnone]
      exact Option.or_none.symm

/-- A transition keeps the turns there are. -/
theorem turn_isSome_step (h : Transition realm state event realm' next) {turnId : Identifier}
    (hturn : (state.turns.get? turnId).isSome = true) :
    (next.turns.get? turnId).isSome = true := by
  have hset : ∀ (turnId' : Identifier) (turn : Turn),
      ((state.turns.set turnId' turn).get? turnId).isSome = true := by
    intro turnId' turn
    rw [JsObject.get?_set]
    split
    next => rfl
    next => exact hturn
  cases h with
  | turnStarted => exact hset _ _
  | contextAssembled => exact hset _ _
  | modelRequestStarted => exact hset _ _
  | modelRevisionRequested => exact hset _ _
  | turnStreamed => exact hset _ _
  | stepStreamed => exact hset _ _
  | toolExecutionStarted => exact hset _ _
  | toolExecutionCompleted => exact hset _ _
  | compactionCompleted => exact hset _ _
  | _ => exact hturn

theorem executionsInTurns_step (h : Transition realm state event realm' next)
    (hinTurns : state.ExecutionsInTurns) : next.ExecutionsInTurns := by
  intro invocationId started hstarted
  apply turn_isSome_step h
  rw [started_step h, Option.or_eq_some_iff] at hstarted
  obtain hstarted | ⟨-, hstarted⟩ := hstarted
  · exact hinTurns invocationId started hstarted
  · have hevent := (Option.filter_eq_some_iff.mp hstarted).1
    cases h with
    | toolExecutionStarted hpayload hturn hinvocation hcall =>
        rw [SessionEvent.startedExecution?, hpayload, Option.some.injEq] at hevent
        rw [← hevent, hturn]
        rfl
    | _ => simp_all [SessionEvent.startedExecution?]

/-- Turns that hold the same invocations and executions that were started in the
same way stay consistent, also beside new turns that hold none. -/
theorem SessionState.ExecutionsConsistent.of_same (h : state.ExecutionsConsistent)
    (hinTurns : state.ExecutionsInTurns) (hheld : next.held? = state.held?)
    (hstarted : next.started? = state.started?) : next.ExecutionsConsistent := by
  rw [SessionState.executionsConsistent_iff] at h ⊢
  intro turnId _ toolCallId invocationId
  rw [hheld, hstarted]
  by_cases hturn : (state.turns.get? turnId).isSome = true
  · exact h turnId hturn toolCallId invocationId
  · have hnone : state.held? turnId toolCallId = none := by
      simp [SessionState.held?, Option.not_isSome_iff_eq_none.mp hturn]
    rw [hnone]
    constructor
    · intro hheld
      cases hheld
    · rintro ⟨started, hsome, rfl, rfl⟩
      exact (hturn (hinTurns invocationId started hsome)).elim

/-- Starting an execution in a turn for a call that the turn does not hold yet. -/
theorem executionsConsistent_start {payload : ToolStartedPayload} {turn : Turn}
    {eventId : Identifier} (hconsistent : state.ExecutionsConsistent)
    (hturn : state.turns.get? payload.turnId = some turn)
    (hinvocation : state.toolInvocations.get? payload.invocationId = none)
    (hcall : turn.toolExecutions.get? payload.toolCallId = none) :
    ((state.setTurn payload.turnId (turn.hold payload.toolCallId payload.invocationId)).setExecution
      payload.invocationId ⟨payload, eventId, none, none⟩).ExecutionsConsistent := by
  intro turnId turn' hturn' toolCallId invocationId
  have hexecutions : (∃ execution, (state.toolInvocations.set payload.invocationId
      ⟨payload, eventId, none, none⟩).get? invocationId = some execution ∧
      execution.started.turnId = turnId ∧ execution.started.toolCallId = toolCallId) ↔
      (invocationId = payload.invocationId ∧ payload.turnId = turnId ∧
        payload.toolCallId = toolCallId) ∨
      ∃ execution, state.toolInvocations.get? invocationId = some execution ∧
        execution.started.turnId = turnId ∧ execution.started.toolCallId = toolCallId := by
    rw [JsObject.get?_set]
    split
    next heq => simp [heq, hinvocation]
    next hne => simp [hne]
  refine Iff.trans ?_ hexecutions.symm
  by_cases hid : turnId = payload.turnId
  · subst hid
    obtain rfl : turn' = turn.hold payload.toolCallId payload.invocationId := by
      simpa [SessionState.setExecution, SessionState.setTurn] using hturn'.symm
    rw [Turn.hold, JsObject.get?_set]
    split
    next heq =>
      -- the call was free, so no execution of the state answers it
      have hfree := (hconsistent _ _ hturn toolCallId invocationId).not.mp (by simp [heq, hcall])
      rw [or_iff_left hfree, Option.some.injEq]
      exact ⟨fun hid => ⟨hid.symm, rfl, heq.symm⟩, fun hid => hid.1.symm⟩
    next hne =>
      rw [hconsistent _ _ hturn]
      simp [Ne.symm hne]
  · have hturn' : state.turns.get? turnId = some turn' := by
      simpa [SessionState.setExecution, SessionState.setTurn, JsObject.get?_set, hid] using hturn'
    rw [hconsistent _ _ hturn']
    simp [Ne.symm hid]

/-- A transition keeps the executions consistent unless it completes one in a turn
it was not started in. -/
theorem executionsConsistent_step (h : Transition realm state event realm' next)
    (hinTurns : state.ExecutionsInTurns) (hconsistent : state.ExecutionsConsistent)
    (hnamed : ∀ payload ∈ event.completedOutcome?,
      ∀ started ∈ state.started? payload.outcome.invocationId, started.turnId = payload.turnId) :
    next.ExecutionsConsistent := by
  have hframe : event.startedExecution? = none → next.held? = state.held? →
      next.ExecutionsConsistent := by
    intro hnone hheld
    refine hconsistent.of_same hinTurns hheld (funext fun invocationId => ?_)
    rw [started_step h, hnone]
    exact Option.or_none
  cases h with
  | toolExecutionStarted hpayload hturn hinvocation hcall =>
      exact executionsConsistent_start hconsistent hturn hinvocation hcall
  | @toolExecutionCompleted payload turn execution hpayload hturn hexecution hopen =>
      refine hframe (by simp [SessionEvent.startedExecution?, hpayload]) ?_
      have hstarted := hnamed payload (by simp [SessionEvent.completedOutcome?, hpayload])
        execution.started (by simp [SessionState.started?, hexecution])
      have hheld := (hconsistent _ _ hturn execution.started.toolCallId
        payload.outcome.invocationId).mpr ⟨execution, hexecution, hstarted, rfl⟩
      funext turnId toolCallId
      refine (held?_setTurn turnId toolCallId).trans ?_
      rw [Turn.hold, JsObject.get?_set]
      split_ifs with hid hcall
      · rw [hid, hcall, SessionState.held?, hturn, Option.bind_some, hheld]
      · rw [hid, SessionState.held?, hturn, Option.bind_some]
      · rfl
  | @turnStarted turnId input hpayload hfresh =>
      refine hframe (by simp [SessionEvent.startedExecution?, hpayload]) ?_
      funext turnId' toolCallId
      refine (held?_setTurn turnId' toolCallId).trans ?_
      split_ifs with hid
      · rw [hid, SessionState.held?, hfresh]
        rfl
      · rfl
  | contextAssembled hpayload hturn hfresh hinput =>
      exact hframe (by simp [SessionEvent.startedExecution?, hpayload])
        (held?_setTurn_of_eq hturn rfl)
  | modelRequestStarted hpayload hturn hassembly hfresh hcheck =>
      exact hframe (by simp [SessionEvent.startedExecution?, hpayload])
        (held?_setTurn_of_eq hturn rfl)
  | modelRevisionRequested hpayload hturn =>
      exact hframe (by simp [SessionEvent.startedExecution?, hpayload])
        (held?_setTurn_of_eq hturn rfl)
  | turnStreamed hpayload hturn hopen =>
      exact hframe (by simp [SessionEvent.startedExecution?, hpayload])
        (held?_setTurn_of_eq hturn rfl)
  | stepStreamed hpayload hturn hstep hopen =>
      exact hframe (by simp [SessionEvent.startedExecution?, hpayload])
        (held?_setTurn_of_eq hturn rfl)
  | @compactionCompleted record turn sources older hpayload hturn hsources =>
      refine hframe (by simp [SessionEvent.startedExecution?, hpayload]) ?_
      have hheld := held?_setTurn_of_eq hturn
        (toolExecutions_compacted turn ⟨record, event.eventId⟩ older)
      exact hheld
  | _ => exact hframe (by simp_all [SessionEvent.startedExecution?]) rfl

end

/-- Every outcome that the stream completes names the turn in which its execution
was started. -/
def OutcomesNameStartedTurn : List SessionEvent → Prop :=
  Throughout fun past event => ∀ payload ∈ event.completedOutcome?,
    ∀ started ∈ startOf past payload.outcome.invocationId, started.turnId = payload.turnId

instance {events : List SessionEvent} : Decidable (OutcomesNameStartedTurn events) :=
  inferInstanceAs (Decidable (Throughout ..))

section

variable {realm : Realm} {events : List SessionEvent} {state : SessionState}

theorem startOf_concat (past : List SessionEvent) (event : SessionEvent) (invocationId : Identifier) :
    startOf (past ++ [event]) invocationId = (startOf past invocationId).or
      (event.startedExecution?.filter (·.invocationId = invocationId)) := by
  rw [startOf, filterMap_concat, List.find?_append]
  cases hevent : event.startedExecution? with
  | none => rfl
  | some payload =>
      cases hid : decide (payload.invocationId = invocationId) <;> simp [Option.filter, startOf, hid]

/-- The state has the executions that the stream started, and no other. -/
theorem Accepted.started_eq (h : Accepted realm events state) (invocationId : Identifier) :
    state.started? invocationId = startOf events invocationId := by
  refine h.history (P := fun past reached =>
    reached.started? invocationId = startOf past invocationId) rfl ?_
  intro past before event realm₁ realm₂ next _ hbefore _ htransition
  have hstarted := started_step htransition invocationId
  rw [startOf_concat, ← hbefore]
  exact hstarted

theorem Accepted.executionsInTurns (h : Accepted realm events state) : state.ExecutionsInTurns := by
  refine h.history (P := fun _ reached => reached.ExecutionsInTurns) ?_ ?_
  · intro invocationId started hstarted
    cases hstarted
  · intro past before event realm₁ realm₂ next _ hbefore _ htransition
    have hnext := executionsInTurns_step htransition hbefore
    exact hnext

theorem Accepted.executionsConsistent (h : Accepted realm events state)
    (hnamed : OutcomesNameStartedTurn events) : state.ExecutionsConsistent := by
  refine h.history_throughout (P := fun _ reached => reached.ExecutionsConsistent) hnamed ?_ ?_
  · intro turnId turn hturn
    cases hturn
  · intro past before event realm₁ realm₂ next hpast hbefore hevent _ htransition
    have hnext := executionsConsistent_step htransition hpast.executionsInTurns hbefore ?_
    · exact hnext
    · intro payload hpayload started hstarted
      refine hevent payload hpayload started ?_
      rw [← hpast.started_eq]
      exact hstarted

/-- In every state that a stream reaches, turns and tool executions agree if and
only if every completed outcome names the turn its execution was started in. -/
theorem executions_consistent_iff (h : Accepted realm events state) :
    (∀ past reached, past <+: events → Accepted realm past reached →
      reached.ExecutionsConsistent) ↔ OutcomesNameStartedTurn events := by
  constructor
  · intro hconsistent past event future heq payload hpayload started hstarted
    subst heq
    obtain ⟨before, realm₁, realm₂, next, hpast, -, htransition, hnext⟩ := h.split
    have hreached := hconsistent _ _ ⟨future, by simp⟩ hnext
    cases htransition with
    | @toolExecutionCompleted payload' turn execution hpayload' hturn hexecution hopen =>
        obtain rfl : payload' = payload := by
          simpa [SessionEvent.completedOutcome?, hpayload'] using hpayload
        -- the turn named by the outcome holds the execution afterwards
        obtain ⟨found, hfound, hturnId, -⟩ := (hreached payload'.turnId _ (JsObject.get?_set_self ..)
          execution.started.toolCallId payload'.outcome.invocationId).mp (JsObject.get?_set_self ..)
        obtain rfl := Option.some.inj ((JsObject.get?_set_self ..).symm.trans hfound)
        rw [← hpast.started_eq, SessionState.started?] at hstarted
        obtain ⟨_, hget, rfl⟩ := Option.map_eq_some_iff.mp hstarted
        obtain rfl := Option.some.inj (hexecution.symm.trans hget)
        exact hturnId
    | _ => simp_all [SessionEvent.completedOutcome?]
  · intro hnamed past reached hpast hreached
    exact hreached.executionsConsistent (hnamed.of_isPrefix hpast)

end

namespace Sample

def toolStarted : ToolStartedPayload :=
  ⟨ident "t1", ident "st1", ident "i1", ident "c1", ident "tool", .obj [], ident "k1"⟩

def toolOutcome (turnId : Identifier) : ToolExecutionResult :=
  ⟨ident "i1", ident "s1", turnId, ident "c1", ident "tool", .succeeded, some (ident "op1"), .null,
    none, [], [], false⟩

/-- The step asks for a tool. -/
def toolCalled : SessionEvent :=
  event "e5" 5 (streamed 0 (.toolCallDelta (ident "c1") (some (ident "tool"))
    ⟨"\x7b\x7d", Eq.refl true⟩))

def calledTools : SessionEvent :=
  event "e6" 6 (streamed 1 (.completed .toolCalls (reference "response")))

def toolBegun : SessionEvent := event "e7" 7 (.toolExecutionStarted toolStarted)

/-- The step of the first turn asks for a tool and the tool is started. A second
turn is open beside it. -/
def toolRequested : List SessionEvent :=
  requested ++ [toolCalled, calledTools, toolBegun,
    event "e8" 8 (.turnStarted (ident "t2") input)]

/-- The tool answers in the turn that asked for it. -/
def toolAnswered : List SessionEvent :=
  toolRequested ++
    [event "e9" 9 (.toolExecutionCompleted ⟨ident "t1", ident "st1", toolOutcome (ident "t1")⟩)]

/-- The tool answers in the other turn. -/
def toolStrayed : List SessionEvent :=
  toolRequested ++
    [event "e9" 9 (.toolExecutionCompleted ⟨ident "t2", ident "st1", toolOutcome (ident "t2")⟩)]

end Sample

theorem toolAnswered_consistent : ∃ state, Accepted ⟨false⟩ Sample.toolAnswered state ∧
    ∀ past reached, past <+: Sample.toolAnswered → Accepted ⟨false⟩ past reached →
      reached.ExecutionsConsistent := by
  obtain ⟨state, haccepted, -⟩ := acceptsWith_iff.mp
    (show acceptsWith ⟨false⟩ Sample.toolAnswered (fun _ => true) = true by decide +kernel)
  exact ⟨state, haccepted, (executions_consistent_iff haccepted).mpr (by decide +kernel)⟩

/-- An outcome that names another open turn is accepted and makes the execution
appear in that turn. -/
theorem toolStrayed_inconsistent :
    ¬ ∀ realm events state, Accepted realm events state → state.ExecutionsConsistent := by
  intro hall
  obtain ⟨state, haccepted, hstate⟩ := acceptsWith_iff.mp
    (show acceptsWith ⟨false⟩ Sample.toolStrayed (fun state =>
      state.held? (Sample.ident "t2") (Sample.ident "c1") = some (Sample.ident "i1") &&
      state.started? (Sample.ident "i1") = some Sample.toolStarted) = true by decide +kernel)
  obtain ⟨hheld, hstart⟩ := Bool.and_eq_true_iff.mp hstate
  have hheld := of_decide_eq_true hheld
  obtain ⟨turn, hturn, -⟩ := Option.bind_eq_some_iff.mp hheld
  obtain ⟨started, hstarted, hturnId, -⟩ :=
    (SessionState.executionsConsistent_iff.mp (hall _ _ _ haccepted) _ (by rw [hturn]; rfl) _ _).mp
      hheld
  obtain rfl := Option.some.inj ((of_decide_eq_true hstart).symm.trans hstarted)
  exact absurd hturnId (by decide)

end Hseos
