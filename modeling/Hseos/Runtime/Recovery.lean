import Hseos.Runtime.Drive

/-! # Recovery plans and the driver

A recovery plan names the next action of a session by its own reading of the
stream, and the driver takes the next action by another. They part where the
plan leaves out what the driver asks: whether a cancellation is pending before
the turn has a request, what a turn without steps recorded, what the budget
still holds, what the review says and which call of a batch is open first.
-/

namespace Hseos

/-! ## Names of acts -/

namespace DriveAct

/-- The session ends, or is about to, by what the driver does. -/
def settles : DriveAct → Bool
  | complete _ | fail .. | failOnError | requestCancellation _ => true
  | _ => false

/-- The name that a recovery plan has for an act. The plan has no name for the end of the time,
nor for a revision. -/
def nextAction? : DriveAct → Option NextAction
  | finish => some .none
  | awaitInput => some .awaitInput
  | settleCancellation => some .settleCancellation
  | assembleContext _ => some .assembleContext
  | startRequest .. | streamRequest .. => some .restartModelRequest
  | failPartialStream .. => some .failInterruptedModel
  | failAfterModel .. => some .failAfterModel
  | startTool _ => some .executeTools
  | executeTool _ => some .resumeTools
  | continueAfterTools _ => some .continueAfterTools
  | complete _ | fail .. | failOnError | requestCancellation _ => some .settleAfterModel
  | expire _ | requestRevision .. | continueRevision .. => none

theorem nextAction?_of_settles {act : DriveAct} (h : act.settles = true) :
    act.nextAction? = some .settleAfterModel := by
  cases act <;> first | rfl | cases h

end DriveAct

/-- The plan names what the driver does next, and means by it what the names say. -/
structure PlanAgrees (state : SessionState) (plan : RecoveryPlan) (act : DriveAct) : Prop where
  named : act.nextAction? = some plan.nextAction
  ended : plan.nextAction = .none ↔ state.terminalEvent.isSome = true
  cancelled : state.terminalEvent = none → state.cancellationRequest.isSome = true →
    plan.nextAction = .settleCancellation
  assembles : state.terminalEvent = none → state.cancellationRequest = none →
    (plan.nextAction = .assembleContext ↔
      ∃ turn, state.latestTurn? = some turn ∧ turn.assembly = none)
  restarts : plan.nextAction = .restartModelRequest → state.latestModelEvents = []
  interrupted : plan.nextAction = .failInterruptedModel ↔
    ∃ turnId stepId message, act = .failPartialStream turnId stepId message
  failed : plan.nextAction = .failAfterModel ↔
    ∃ code message retryable identity, act = .failAfterModel code message retryable identity
  starts : plan.nextAction = .executeTools ↔ ∃ intent, act = .startTool intent
  resumes : plan.nextAction = .resumeTools ↔ ∃ intent, act = .executeTool intent
  continues : plan.nextAction = .continueAfterTools ↔ ∃ request, act = .continueAfterTools request
  settled : plan.nextAction = .settleAfterModel → act.settles = true

/-- A plan that names the act agrees with it, once the clauses about the state hold. -/
theorem PlanAgrees.of_named {state : SessionState} {plan : RecoveryPlan} {act : DriveAct}
    (named : act.nextAction? = some plan.nextAction)
    (ended : plan.nextAction = .none ↔ state.terminalEvent.isSome = true)
    (cancelled : state.terminalEvent = none → state.cancellationRequest.isSome = true →
      plan.nextAction = .settleCancellation)
    (assembles : state.terminalEvent = none → state.cancellationRequest = none →
      (plan.nextAction = .assembleContext ↔
        ∃ turn, state.latestTurn? = some turn ∧ turn.assembly = none))
    (restarts : plan.nextAction = .restartModelRequest → state.latestModelEvents = []) :
    PlanAgrees state plan act := by
  obtain ⟨sessionId, currentSequence, terminal, nextAction, turnId, request⟩ := plan
  refine ⟨named, ended, cancelled, assembles, restarts, ?_, ?_, ?_, ?_, ?_, ?_⟩ <;>
    cases act <;> simp only [DriveAct.nextAction?, Option.some.injEq, reduceCtorEq] at named <;>
    subst named <;> simp [DriveAct.settles]

/-! ## What the plan leaves out -/

section

variable (host : DriveHost) (state : SessionState) (spec : AgentSessionSpec) (turn : Turn)

/-- The session budget holds a request and its reserve. -/
def StepAffordable (request : Json) (reserve : Nat) : Prop :=
  ∃ used, accountSessionTokens state
      (if turn.modelSteps.isEmpty && turn.assembly.isSome then some turn.turnId else none) =
        some used ∧
    used + byteLength (canonicalJson request) + reserve ≤ spec.limits.maxTokens

/-- A revised request can be sent. -/
def RevisionSendable (step : ModelStep) (revision : StepRevision) : Prop :=
  ∃ request contextTokens,
    nextRequest state turn step (revisionMessages step revision) = .ok request ∧
    host.contextTokens request.providerId request.model = some contextTokens ∧
    byteLength (canonicalJson request.toJson) + request.parameters.maxOutputTokens ≤ contextTokens ∧
    StepAffordable state spec turn request.toJson request.parameters.maxOutputTokens

/-- Nothing follows a step that stopped: its revision cannot be sent, or it has none and the
review asks for none. -/
def StopForeseen (step : ModelStep) : Prop :=
  match step.revision with
  | some revision => ¬ RevisionSendable host state spec turn step revision
  | none => ∀ review, host.completionReview = some review →
      ∀ feedback, review state turn step ≠ some (some feedback)

/-- The call was executed as the runtime derives it, with an outcome. -/
def settledAsDerived (step : ModelStep) (call : AgentToolCall) : Bool :=
  match state.execution turn call.toolCallId with
  | .own execution =>
      (toolIntent state turn step call).matches execution && execution.completion.isSome
  | _ => false

/-- The first open call of a batch is one that may be started, or one that was started as derived
in a batch whose calls all were; without an open call the outcomes can be sent. -/
def CallsForeseen (step : ModelStep) (calls : List AgentToolCall) : Prop :=
  match calls.find? fun call => !settledAsDerived state turn step call with
  | none => ∃ request, continuationRequest host state spec turn step calls = .ok request ∧
      StepAffordable state spec turn request.toJson request.parameters.maxOutputTokens
  | some call =>
      match state.execution turn call.toolCallId with
      | .absent => state.toolInvocations.size < spec.limits.maxToolCalls
      | .inherited => False
      | .own execution => (toolIntent state turn step call).matches execution = true ∧
          ∀ other ∈ calls, (state.execution turn other.toolCallId).truthy = true

/-- The tokens used leave the session its budget, and the batch of calls is foreseen. -/
def ToolsForeseen (step : ModelStep) : Prop :=
  (∃ used, accountSessionTokens state none = some used ∧ used ≤ spec.limits.maxTokens) ∧
    ∃ calls, assembledToolCalls step.modelEvents = .ok calls ∧ calls ≠ [] ∧
      CallsForeseen host state spec turn step calls

def StepForeseen (step : ModelStep) : Prop :=
  match step.terminal?.bind (·.event.finishReason?) with
  | some .stop => StopForeseen host state spec turn step
  | some .toolCalls => ToolsForeseen host state spec turn step
  | _ => True

/-- A turn with a request and no step recorded nothing, and its first step is affordable. -/
def TurnForeseen (assembly : Assembly) : Prop :=
  match turn.modelSteps.getLast? with
  | some step => StepForeseen host state spec turn step
  | none => turn.modelEvents = [] ∧
      StepAffordable state spec turn assembly.request.toJson
        assembly.request.request.parameters.maxOutputTokens

end

/-- The state is one in which plan and driver look at the same facts: an ended session, a
cancellation of a turn that has its request, or a session in its time whose latest turn, if it
has its request, is foreseen. -/
inductive Foreseen (host : DriveHost) (events : List SessionEvent) (state : SessionState) : Prop
  | ended (hterminal : state.terminalEvent.isSome = true)
  | cancelled (turn : Turn) (hcancelled : state.cancellationRequest.isSome = true)
      (hturn : state.latestTurn? = some turn) (hassembly : turn.assembly.isSome = true)
  | open_ (spec : AgentSessionSpec) (hspec : state.spec = some spec)
      (hcancelled : state.cancellationRequest = none) (htime : host.expired spec events = false)
      (hturn : ∀ turn, state.latestTurn? = some turn → ∀ assembly, turn.assembly = some assembly →
        TurnForeseen host state spec turn assembly)
/-! ## Early ends -/

/-- A computation that ends the round early ends the session. -/
def EndsSettled {α : Type} (round : Round α) : Prop := ∀ act, round = .error act → act.settles = true

namespace EndsSettled

variable {α β : Type}

theorem pure {value : α} : EndsSettled (Pure.pure value) := by
  rintro act ⟨⟩

theorem throw {act : DriveAct} (h : act.settles = true) :
    EndsSettled (MonadExcept.throw act : Round α) := by
  rintro _ ⟨⟩
  exact h

theorem bind {round : Round α} {next : α → Round β} (hround : EndsSettled round)
    (hnext : ∀ value, EndsSettled (next value)) : EndsSettled (round >>= next) := by
  intro act h
  cases round with
  | error early => exact hround act (congrArg Except.error (Except.error.inj h))
  | ok value => exact hnext value act h

theorem answer (value? : Option α) : EndsSettled (answer value?) := by
  cases value? with
  | none => exact throw rfl
  | some value => exact pure

theorem reject {bad : Bool} {act : DriveAct} (h : act.settles = true) :
    EndsSettled (Hseos.reject bad act) := by
  cases bad with
  | false => exact pure
  | true => exact throw h

end EndsSettled

variable {host : DriveHost} {state : SessionState} {spec : AgentSessionSpec} {turn : Turn}
  {step : ModelStep}

theorem reserveStep_endsSettled (request : Json) (reserve : Nat) :
    EndsSettled (reserveStep state spec turn request reserve) := by
  refine (EndsSettled.answer _).bind fun used => ?_
  exact EndsSettled.reject rfl

theorem nextRequest_endsSettled (messages : List AgentMessage) :
    EndsSettled (nextRequest state turn step messages) := by
  unfold nextRequest
  dsimp only
  split
  · exact EndsSettled.pure
  · exact EndsSettled.throw rfl

theorem continuationRequest_endsSettled (calls : List AgentToolCall) :
    EndsSettled (continuationRequest host state spec turn step calls) := by
  refine (EndsSettled.answer _).bind fun outcomes => ?_
  refine (EndsSettled.answer _).bind fun contextTokens => ?_
  refine (EndsSettled.answer _).bind fun policy => ?_
  dsimp only
  split
  · refine EndsSettled.bind ?_ fun messages =>
      (EndsSettled.reject rfl).bind fun _ => nextRequest_endsSettled _
    intro act h
    cases hmessages : host.compactResults state turn step (step.request.messages ++
        { role := .assistant, content := contentOf step.modelEvents, toolCalls := some calls } ::
          outcomes) with
    | ok messages =>
        rw [hmessages] at h
        cases h
    | error message? =>
        rw [hmessages] at h
        cases message? <;> cases h <;> rfl
  · exact (EndsSettled.reject rfl).bind fun _ => nextRequest_endsSettled _

theorem continueRevision_endsSettled (revision : StepRevision) :
    EndsSettled (continueRevision host state spec turn step revision) := by
  refine (nextRequest_endsSettled _).bind fun request => ?_
  refine (EndsSettled.answer _).bind fun contextTokens => ?_
  refine (EndsSettled.reject rfl).bind fun _ => ?_
  exact (reserveStep_endsSettled _ _).bind fun _ => EndsSettled.pure

@[simp] theorem answer_some {α : Type} (value : α) : answer (some value) = .ok value := rfl

@[simp] theorem answer_none {α : Type} : (answer none : Round α) = .error .failOnError := rfl

@[simp] theorem answer_eq_ok_iff {α : Type} {value? : Option α} {value : α} :
    answer value? = .ok value ↔ value? = some value := by
  cases value? <;> simp [answer]

theorem reserveStep_eq_ok_iff {request : Json} {reserve : Nat} {u : Unit} :
    reserveStep state spec turn request reserve = .ok u ↔
      StepAffordable state spec turn request reserve := by
  unfold reserveStep StepAffordable
  simp only [bind_eq_ok_iff, answer_eq_ok_iff, reject_eq_ok_iff, decide_eq_false_iff_not, not_lt]

/-- A revision is continued exactly if its request can be sent. -/
theorem continueRevision_eq_ok_iff {revision : StepRevision} :
    (∃ act, continueRevision host state spec turn step revision = .ok act) ↔
      RevisionSendable host state spec turn step revision := by
  unfold continueRevision RevisionSendable
  simp only [bind_eq_ok_iff, answer_eq_ok_iff, reject_eq_ok_iff, decide_eq_false_iff_not, not_lt,
    pure_eq_ok_iff]
  constructor
  · rintro ⟨act, request, hrequest, contextTokens, hcontext, _, hfits, u, hreserve, -⟩
    exact ⟨request, contextTokens, hrequest, hcontext, hfits, reserveStep_eq_ok_iff.mp hreserve⟩
  · rintro ⟨request, contextTokens, hrequest, hcontext, hfits, haffordable⟩
    exact ⟨_, request, hrequest, contextTokens, hcontext, (), hfits, (),
      reserveStep_eq_ok_iff.mpr haffordable, rfl⟩

theorem nextAction?_of_continueRevision {revision : StepRevision} {act : DriveAct}
    (h : continueRevision host state spec turn step revision = .ok act) : act.nextAction? = none := by
  unfold continueRevision at h
  simp only [bind_eq_ok_iff, pure_eq_ok_iff] at h
  obtain ⟨request, -, contextTokens, -, _, -, u, -, rfl⟩ := h
  rfl

/-! ## Acts -/

@[simp] theorem firstAct_pure (act : DriveAct) : firstAct (pure act) = act := rfl
@[simp] theorem firstAct_error_bind {α : Type} (act : DriveAct) (next : α → Round DriveAct) :
    firstAct (.error act >>= next) = act := rfl

@[simp] theorem firstAct_ok (act : DriveAct) : firstAct (.ok act) = act := rfl
@[simp] theorem firstAct_error (act : DriveAct) : firstAct (.error act) = act := rfl

/-- A step that stopped is settled exactly if nothing is to follow it. -/
theorem settleStop_settles_iff {outcomeRef : Reference} :
    (firstAct (settleStop host state spec turn step outcomeRef)).nextAction? =
        some .settleAfterModel ↔ StopForeseen host state spec turn step := by
  unfold settleStop StopForeseen
  cases hrevision : step.revision with
  | some revision =>
      dsimp only
      rw [← continueRevision_eq_ok_iff]
      cases hround : continueRevision host state spec turn step revision with
      | error act =>
          have hsettles := continueRevision_endsSettled revision act hround
          simp [DriveAct.nextAction?_of_settles hsettles]
      | ok act => simp [nextAction?_of_continueRevision hround]
  | none =>
      dsimp only
      cases hreview : host.completionReview with
      | none => simp [DriveAct.nextAction?]
      | some review =>
          simp only [Option.some.injEq, forall_eq']
          cases review state turn step with
          | none => simp [DriveAct.nextAction?]
          | some feedback? => cases feedback? <;> simp [ok_bind, DriveAct.nextAction?]

/-! ## Batches of calls -/

theorem toolsAction_ne_settle (state : SessionState) (turn : Turn) (calls : List AgentToolCall) :
    state.toolsAction turn calls ≠ .settleAfterModel := by
  unfold SessionState.toolsAction
  dsimp only
  split
  · exact nofun
  · split <;> exact nofun

/-- The batch has a call to start exactly if some call has no execution. -/
theorem toolsAction_eq_execute_iff (calls : List AgentToolCall) :
    state.toolsAction turn calls = .executeTools ↔
      ∃ call ∈ calls, (state.execution turn call.toolCallId).truthy = false := by
  have hlength := List.length_filter_lt_length_iff_exists
    (l := calls.map fun call => state.execution turn call.toolCallId) (p := Slot.truthy)
  rw [List.length_map] at hlength
  unfold SessionState.toolsAction
  dsimp only
  split
  next hlt =>
    simpa using hlength.mp hlt
  next hle =>
    have hall := mt hlength.mpr hle
    have : ¬ ∃ call ∈ calls, (state.execution turn call.toolCallId).truthy = false := by
      simpa using hall
    simp only [this, iff_false]
    split <;> exact nofun

/-- A call takes no act of its own exactly if it was executed as derived. -/
theorem callAct?_eq_none_iff {call : AgentToolCall} :
    callAct? state spec turn step call = none ↔ settledAsDerived state turn step call = true := by
  unfold callAct? settledAsDerived
  cases state.execution turn call.toolCallId with
  | absent => simp only [reduceCtorEq, iff_false]; split <;> simp
  | inherited => simp
  | own execution =>
      dsimp only
      cases (toolIntent state turn step call).matches execution <;>
        cases execution.completion <;> simp

theorem findSome?_callAct? (calls : List AgentToolCall) :
    calls.findSome? (callAct? state spec turn step) =
      (calls.find? fun call => !settledAsDerived state turn step call).bind
        (callAct? state spec turn step) := by
  induction calls with
  | nil => rfl
  | cons call rest ih =>
      rw [List.findSome?_cons, List.find?_cons]
      cases hact : callAct? state spec turn step call with
      | none => simp [callAct?_eq_none_iff.mp hact, ih]
      | some act =>
          have hopen : settledAsDerived state turn step call = false := by
            by_contra hsettled
            rw [callAct?_eq_none_iff.mpr (by simpa using hsettled)] at hact
            cases hact
          simp [hopen, hact]

/-- A batch whose calls all have an execution waits for the outcomes that are missing. -/
theorem toolsAction_of_started {calls : List AgentToolCall}
    (hall : ∀ call ∈ calls, (state.execution turn call.toolCallId).truthy = true) :
    state.toolsAction turn calls =
      if calls.any fun call => (state.execution turn call.toolCallId).completion?.isNone then
        .resumeTools
      else .continueAfterTools := by
  have hkept : (calls.map fun call => state.execution turn call.toolCallId).filter (·.truthy) =
      calls.map fun call => state.execution turn call.toolCallId :=
    List.filter_eq_self.mpr (List.forall_mem_map.mpr hall)
  unfold SessionState.toolsAction
  simp only [hkept, List.length_map, lt_irrefl, if_false, List.any_map, Function.comp_def]

theorem toolsAction_eq_resume_iff {calls : List AgentToolCall} {call : AgentToolCall}
    (hcall : call ∈ calls)
    (hopen : (state.execution turn call.toolCallId).completion? = none) :
    state.toolsAction turn calls = .resumeTools ↔
      ∀ other ∈ calls, (state.execution turn other.toolCallId).truthy = true := by
  constructor
  · intro hresume other hother
    by_contra hmissing
    rw [(toolsAction_eq_execute_iff calls).mpr ⟨other, hother, by simpa using hmissing⟩] at hresume
    cases hresume
  · intro hall
    rw [toolsAction_of_started hall, if_pos]
    exact List.any_eq_true.mpr ⟨call, hcall, by rw [hopen]; rfl⟩

theorem settledAsDerived_eq_true {call : AgentToolCall}
    (h : settledAsDerived state turn step call = true) :
    ∃ execution, state.execution turn call.toolCallId = .own execution ∧
      execution.completion.isSome = true := by
  unfold settledAsDerived at h
  split at h
  next execution hexecution =>
    exact ⟨execution, hexecution, (Bool.and_eq_true_iff.mp h).2⟩
  next => cases h

theorem toolsAction_eq_continue {calls : List AgentToolCall}
    (h : ∀ call ∈ calls, settledAsDerived state turn step call = true) :
    state.toolsAction turn calls = .continueAfterTools := by
  rw [toolsAction_of_started, if_neg]
  · rw [List.any_eq_true]
    rintro ⟨call, hcall, hopen⟩
    obtain ⟨execution, hexecution, hcompletion⟩ := settledAsDerived_eq_true (h call hcall)
    rw [hexecution, Option.isNone_iff_eq_none] at hopen
    change execution.completion = none at hopen
    rw [hopen] at hcompletion
    cases hcompletion
  · intro call hcall
    obtain ⟨execution, hexecution, -⟩ := settledAsDerived_eq_true (h call hcall)
    rw [hexecution]
    rfl

/-- The driver goes on with the outcomes exactly if the request for that can be sent. -/
theorem executeTools_continues_iff {calls : List AgentToolCall} :
    (firstAct (do
      let request ← continuationRequest host state spec turn step calls
      reserveStep state spec turn request.toJson request.parameters.maxOutputTokens
      return DriveAct.continueAfterTools request)).nextAction? = some .continueAfterTools ↔
      ∃ request, continuationRequest host state spec turn step calls = .ok request ∧
        StepAffordable state spec turn request.toJson request.parameters.maxOutputTokens := by
  cases hrequest : continuationRequest host state spec turn step calls with
  | error act =>
      have hsettles := continuationRequest_endsSettled calls act hrequest
      simp [DriveAct.nextAction?_of_settles hsettles]
  | ok request =>
      simp only [ok_bind, Except.ok.injEq, exists_eq_left', ← reserveStep_eq_ok_iff (u := ())]
      cases hreserve : reserveStep state spec turn request.toJson
          request.parameters.maxOutputTokens with
      | error act =>
          have hsettles := reserveStep_endsSettled _ _ act hreserve
          simp [DriveAct.nextAction?_of_settles hsettles]
      | ok u => simp [DriveAct.nextAction?]

/-- The act of an open call is the one that the plan names for its batch exactly if the call may
be started, or was started as derived in a batch without a call to start. -/
theorem openCall_named_iff {calls : List AgentToolCall} {call : AgentToolCall} {act : DriveAct}
    (hcall : call ∈ calls) (hact : callAct? state spec turn step call = some act) :
    act.nextAction? = some (state.toolsAction turn calls) ↔
      match state.execution turn call.toolCallId with
      | .absent => state.toolInvocations.size < spec.limits.maxToolCalls
      | .inherited => False
      | .own execution => (toolIntent state turn step call).matches execution = true ∧
          ∀ other ∈ calls, (state.execution turn other.toolCallId).truthy = true := by
  have hsettle := (toolsAction_ne_settle state turn calls).symm
  unfold callAct? at hact
  cases hexecution : state.execution turn call.toolCallId with
  | absent =>
      have hexecute : state.toolsAction turn calls = .executeTools :=
        (toolsAction_eq_execute_iff calls).mpr ⟨call, hcall, by rw [hexecution]; rfl⟩
      rw [hexecution] at hact
      dsimp only at hact ⊢
      split at hact
      next hfull =>
        obtain rfl := Option.some.inj hact
        simp [exhausted, DriveAct.nextAction?, hsettle, hfull]
      next hfree =>
        obtain rfl := Option.some.inj hact
        simp [DriveAct.nextAction?, hexecute, not_le.mp hfree]
  | inherited =>
      rw [hexecution] at hact
      obtain rfl := Option.some.inj hact
      simp [DriveAct.nextAction?, hsettle]
  | own execution =>
      rw [hexecution] at hact
      dsimp only at hact ⊢
      split at hact
      next hdiffers =>
        obtain rfl := Option.some.inj hact
        simp [DriveAct.nextAction?, hsettle, by simpa using hdiffers]
      next hsame =>
        split at hact
        next hpending =>
          obtain rfl := Option.some.inj hact
          have hopen : (state.execution turn call.toolCallId).completion? = none := by
            rw [hexecution]
            exact Option.isNone_iff_eq_none.mp hpending
          rw [← toolsAction_eq_resume_iff hcall hopen]
          simp [DriveAct.nextAction?, by simpa using hsame, eq_comm]
        next => cases hact

theorem executeTools_named_iff {calls : List AgentToolCall}
    (hcalls : assembledToolCalls step.modelEvents = .ok calls) :
    (firstAct (executeTools host state spec turn step)).nextAction? =
        some (state.toolsAction turn calls) ↔
      calls ≠ [] ∧ CallsForeseen host state spec turn step calls := by
  unfold executeTools
  rw [hcalls]
  simp only [Except.toOption, answer_some, ok_bind]
  cases calls with
  | nil =>
      have hsettle := (toolsAction_ne_settle state turn []).symm
      simp [reject, DriveAct.nextAction?, hsettle]
  | cons first rest =>
      have hne : first :: rest ≠ [] := List.cons_ne_nil _ _
      generalize first :: rest = calls at hne hcalls ⊢
      have hsome : calls.isEmpty = false := by simpa using hne
      rw [findSome?_callAct?]
      simp only [hsome, reject, Bool.false_eq_true, if_false, ok_bind, ne_eq, hne, not_false_eq_true,
        true_and]
      unfold CallsForeseen
      cases hopen : calls.find? fun call => !settledAsDerived state turn step call with
      | none =>
          have hall : ∀ call ∈ calls, settledAsDerived state turn step call = true := by
            simpa using hopen
          rw [toolsAction_eq_continue hall]
          exact executeTools_continues_iff
      | some call =>
          have hunsettled : settledAsDerived state turn step call = false := by
            simpa using List.find?_some hopen
          cases hact : callAct? state spec turn step call with
          | none => simp [callAct?_eq_none_iff.mp hact] at hunsettled
          | some act =>
              simp only [Option.bind_some, hact, firstAct_pure]
              exact openCall_named_iff (List.mem_of_find?_eq_some hopen) hact

/-! ## Steps and turns -/

/-- Plan and driver agree on a name. -/
def Named (round : Round DriveAct) (plan : Replay NextAction) : Prop :=
  ∃ action, plan = .ok action ∧ (firstAct round).nextAction? = some action

@[simp] theorem named_ok {round : Round DriveAct} {action : NextAction} :
    Named round (.ok action) ↔ (firstAct round).nextAction? = some action := by
  simp [Named]

@[simp] theorem named_pure {round : Round DriveAct} {action : NextAction} :
    Named round (pure action) ↔ (firstAct round).nextAction? = some action :=
  named_ok

@[simp] theorem named_error {round : Round DriveAct} {failure : ReplayFailure} :
    ¬ Named round (.error failure) := by
  simp [Named]

theorem tools_named_iff :
    Named (do
        let used ← answer (accountSessionTokens state none)
        let limit := spec.limits.maxTokens
        reject (limit < used)
          (exhausted s!"session token budget exhausted: used {used} > max {limit}" "token-budget")
        executeTools host state spec turn step)
      (do
        let calls ← assembledToolCalls step.modelEvents
        return state.toolsAction turn calls) ↔
      ToolsForeseen host state spec turn step := by
  unfold ToolsForeseen
  cases hcalls : assembledToolCalls step.modelEvents with
  | error failure => simp [Named, bind, Except.bind]
  | ok calls =>
      have hsettle := (toolsAction_ne_settle state turn calls).symm
      have hexecute : (firstAct (executeTools host state spec turn step)).nextAction? =
          some (state.toolsAction turn calls) ↔
            calls ≠ [] ∧ CallsForeseen host state spec turn step calls :=
        executeTools_named_iff hcalls
      cases hused : accountSessionTokens state none with
      | none => simp [Named, DriveAct.nextAction?, hsettle]
      | some used =>
          simp only [answer_some, ok_bind]
          cases hspent : decide (spec.limits.maxTokens < used) with
          | false =>
              have hwithin : used ≤ spec.limits.maxTokens := by simpa using hspent
              simpa [Named, ok_bind, reject, hwithin] using hexecute
          | true =>
              have hbeyond : ¬ used ≤ spec.limits.maxTokens := by simpa using hspent
              simp [Named, reject, hbeyond, exhausted, DriveAct.nextAction?, hsettle]

theorem step_named_iff :
    Named (driveStep host state spec turn step) (state.stepAction turn step) ↔
      StepForeseen host state spec turn step := by
  unfold driveStep SessionState.stepAction StepForeseen
  cases hterminal : step.terminal? with
  | none =>
      dsimp only
      split <;> simp [DriveAct.nextAction?]
  | some terminal =>
      have hends : terminal.event.isTerminal = true := by simpa using List.find?_some hterminal
      obtain ⟨⟨providerId, requestId, sequence, payload⟩, eventId, position⟩ := terminal
      simp only [Option.bind_some, ModelStreamEvent.finishReason?]
      cases payload with
      | failed code message retryable => simp [DriveAct.nextAction?]
      | completed reason outcomeRef =>
          cases reason with
          | stop => exact named_pure.trans settleStop_settles_iff
          | toolCalls => exact tools_named_iff
          | length => simp [exhausted, DriveAct.nextAction?]
          | cancelled => simp [DriveAct.nextAction?]
      | contentDelta text => cases hends
      | reasoningDelta text => cases hends
      | toolCallDelta toolCallId name argumentsDelta => cases hends
      | usage inputTokens outputTokens cachedTokens => cases hends

/-- A turn whose model events belong to no step is settled, or cut off, and not asked again. -/
theorem settleLegacy_ne_restart (turn : Turn) :
    (settleLegacy turn).nextAction? ≠ some .restartModelRequest := by
  unfold settleLegacy exhausted
  split
  · simp [DriveAct.nextAction?]
  · split <;> simp [DriveAct.nextAction?]

/-- A turn that has its request: what the plan names is what the driver does exactly if the turn
is foreseen. -/
theorem turn_named_iff {assembly : Assembly} (hassembly : turn.assembly = some assembly)
    (hlatest : state.latestTurn? = some turn) (hcancelled : state.cancellationRequest = none) :
    Named (driveTurn host state spec turn) state.nextAction ↔
      TurnForeseen host state spec turn assembly := by
  unfold driveTurn SessionState.nextAction TurnForeseen
  simp only [hassembly, hlatest, hcancelled, Option.isNone_some, Option.isSome_none,
    Bool.false_eq_true, if_false]
  cases hstep : turn.modelSteps.getLast? with
  | some step => exact step_named_iff
  | none =>
      dsimp only
      rw [named_pure]
      split
      next hempty =>
        rw [List.isEmpty_iff.mp hempty, ← reserveStep_eq_ok_iff (u := ())]
        cases hreserve : reserveStep state spec turn assembly.request.toJson
            assembly.request.request.parameters.maxOutputTokens with
        | error act =>
            have hsettles := reserveStep_endsSettled _ _ act hreserve
            simp [DriveAct.nextAction?_of_settles hsettles]
        | ok u => simp [DriveAct.nextAction?]
      next hrecorded =>
        have hsome : turn.modelEvents ≠ [] := by simpa using hrecorded
        simp only [hsome, false_and, iff_false, firstAct_pure]
        exact settleLegacy_ne_restart turn

end Hseos
