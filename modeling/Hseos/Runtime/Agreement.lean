import Hseos.Runtime.Recovery
import Hseos.Session.Origins

/-! # Where the recovery plan and the driver agree

The plan of an accepted stream against the first round on it, for ended
sessions, sessions under cancellation and sessions that go on.
-/

namespace Hseos

/-! ## Created sessions -/

section

variable {realm realm' : Realm} {state next : SessionState} {event : SessionEvent}
  {events : List SessionEvent}

/-- A session that was created: it has its specification and is not empty. -/
def SessionState.Opened (state : SessionState) : Prop :=
  state.spec.isSome = true ∧ state.status ≠ .empty

theorem opened_step (h : Transition realm state event realm' next) (hopened : state.Opened) :
    next.Opened := by
  cases h with
  | sessionCreated => exact ⟨rfl, nofun⟩
  | sessionCancelled => exact ⟨hopened.1, nofun⟩
  | sessionFailed => exact ⟨hopened.1, nofun⟩
  | sessionCompleted => exact ⟨hopened.1, nofun⟩
  | _ => exact hopened

/-- The first event creates the session. -/
theorem opened_of_initial (hadmission : checkAdmission .initial event = .ok ())
    (happly : applyEvent realm (SessionState.initial.advance event) event = .ok (realm', next)) :
    next.Opened := by
  obtain ⟨hsequence, -⟩ := checkAdmission_eq_ok hadmission
  obtain ⟨-, h⟩ := reject_bind_eq_ok_iff.mp hadmission
  obtain ⟨-, h⟩ := reject_bind_eq_ok_iff.mp h
  obtain ⟨hcreated, -⟩ := reject_bind_eq_ok_iff.mp h
  cases hpayload : event.payload with
  | sessionCreated spec =>
      rw [applyEvent, hpayload] at happly
      obtain ⟨-, rfl⟩ := Prod.mk.inj (pure_eq_ok_iff.mp happly)
      exact ⟨rfl, fun hnone => by cases hnone⟩
  | _ => simp [hpayload, hsequence, SessionState.initial] at hcreated

theorem Accepted.opened (h : Accepted realm events state) (hne : events ≠ []) : state.Opened := by
  refine h.applied (P := fun past state => past ≠ [] → state.Opened) (fun h => (h rfl).elim) ?_ hne
  intro past before event realm₁ realm₂ next hpast hbefore hadmission happly _
  change next.Opened
  by_cases hempty : past = []
  · subst hempty
    obtain rfl := hpast.unique accepted_nil
    exact opened_of_initial hadmission happly
  · exact opened_step (applyEvent_transition happly) (hbefore hempty)

end

section

variable {host : DriveHost} {state : SessionState} {spec : AgentSessionSpec} {turn : Turn}
  {step : ModelStep}

/-! ## Plans -/

/-- The plan of a session that goes on. -/
def openPlan (state : SessionState) (nextAction : NextAction) : RecoveryPlan where
  sessionId := state.sessionId
  currentSequence := state.currentSequence
  terminal := false
  nextAction
  turnId := state.turnOrder.getLast?
  request := state.latestTurn?.bind Turn.request?

theorem recoveryPlan_of_ended (hopened : state.Opened) (hterminal : state.terminalEvent.isSome = true) :
    recoveryPlan state =
      .ok ⟨state.sessionId, state.currentSequence, true, .none, none, none⟩ := by
  unfold recoveryPlan
  simp [reject, hopened.2, ok_bind, hterminal, pure, Except.pure]

theorem recoveryPlan_of_open (hopened : state.Opened) (hterminal : state.terminalEvent = none)
    {plan : RecoveryPlan} :
    recoveryPlan state = .ok plan ↔
      ∃ action, state.nextAction = .ok action ∧ openPlan state action = plan := by
  unfold recoveryPlan
  simp only [reject, hopened.2, decide_false, Bool.false_eq_true, if_false, ok_bind, hterminal,
    Option.isSome_none, bind_eq_ok_iff, pure_eq_ok_iff]
  rfl

theorem toolsAction_mem (state : SessionState) (turn : Turn) (calls : List AgentToolCall) :
    state.toolsAction turn calls ∈ [.executeTools, .resumeTools, .continueAfterTools] := by
  unfold SessionState.toolsAction
  dsimp only
  split
  · simp
  · split <;> simp

/-- A step is asked again only if nothing of it was recorded, and is never assembled. -/
theorem stepAction_eq_ok {action : NextAction} (h : state.stepAction turn step = .ok action) :
    (action = .restartModelRequest ∧ step.modelEvents = []) ∨
      action ∈ [.failInterruptedModel, .failAfterModel, .executeTools, .resumeTools,
        .continueAfterTools, .settleAfterModel] := by
  unfold SessionState.stepAction at h
  split at h
  next =>
    obtain rfl := pure_eq_ok_iff.mp h
    split
    next hempty => exact .inl ⟨rfl, by simpa using hempty⟩
    next => exact .inr (by simp)
  next =>
    split at h
    next =>
      obtain rfl := pure_eq_ok_iff.mp h
      exact .inr (by simp)
    next =>
      obtain ⟨calls, -, h⟩ := bind_eq_ok_iff.mp h
      obtain rfl := pure_eq_ok_iff.mp h
      have htools := toolsAction_mem state turn calls
      simp only [List.mem_cons, List.not_mem_nil, or_false] at htools
      rcases htools with htools | htools | htools <;> exact .inr (by simp [htools])
    next =>
      obtain rfl := pure_eq_ok_iff.mp h
      exact .inr (by simp)

/-- The clauses about the plan alone, in a session that goes on. -/
theorem nextAction_clauses {action : NextAction} (h : state.nextAction = .ok action)
    (hcancelled : state.cancellationRequest = none) :
    action ≠ .none ∧
      (action = .assembleContext ↔ ∃ turn, state.latestTurn? = some turn ∧ turn.assembly = none) := by
  unfold SessionState.nextAction at h
  simp only [hcancelled, Option.isSome_none, Bool.false_eq_true, if_false] at h
  cases hlatest : state.latestTurn? with
  | none =>
      rw [hlatest] at h
      obtain rfl := pure_eq_ok_iff.mp h
      simp
  | some turn =>
      rw [hlatest] at h
      dsimp only at h
      cases hassembly : turn.assembly with
      | none =>
          rw [hassembly] at h
          obtain rfl := pure_eq_ok_iff.mp h
          simp [hassembly]
      | some assembly =>
          rw [hassembly] at h
          simp only [Option.isNone_some, Bool.false_eq_true, if_false] at h
          cases hstep : turn.modelSteps.getLast? with
          | none =>
              rw [hstep] at h
              obtain rfl := pure_eq_ok_iff.mp h
              simp [hassembly]
          | some step =>
              rw [hstep] at h
              rcases stepAction_eq_ok h with ⟨rfl, -⟩ | hmem
              · simp [hassembly]
              · simp only [List.mem_cons, List.not_mem_nil, or_false] at hmem
                rcases hmem with rfl | rfl | rfl | rfl | rfl | rfl <;> simp [hassembly]

theorem latestModelEvents_of_latestTurn (h : state.latestTurn? = some turn) :
    state.latestModelEvents = turn.latestModelEvents := by
  unfold SessionState.latestModelEvents
  unfold SessionState.latestTurn? at h
  rw [h]
  rfl

/-- In a foreseen turn, a request is sent again only if nothing of its output was recorded. -/
theorem latestModelEvents_of_restart {assembly : Assembly}
    (hlatest : state.latestTurn? = some turn) (hassembly : turn.assembly = some assembly)
    (hcancelled : state.cancellationRequest = none)
    (hforeseen : TurnForeseen host state spec turn assembly)
    (hrestart : state.nextAction = .ok .restartModelRequest) : state.latestModelEvents = [] := by
  rw [latestModelEvents_of_latestTurn hlatest, Turn.latestModelEvents]
  unfold SessionState.nextAction at hrestart
  simp only [hlatest, hassembly, hcancelled, Option.isNone_some, Option.isSome_none,
    Bool.false_eq_true, if_false] at hrestart
  unfold TurnForeseen at hforeseen
  cases hstep : turn.modelSteps.getLast? with
  | none =>
      rw [hstep] at hforeseen
      exact hforeseen.1
  | some step =>
      rw [hstep] at hrestart
      rcases stepAction_eq_ok hrestart with ⟨-, hempty⟩ | hmem
      · exact hempty
      · simp at hmem

/-! ## Agreement -/

section

variable {realm : Realm} {events : List SessionEvent}

/-- In a session that goes on, the clauses about the plan come down to the name of the act and to
what a repeated request leaves out. -/
theorem open_agrees_iff_named (hopened : state.Opened) (hterminal : state.terminalEvent = none)
    (hcancelled : state.cancellationRequest = none) :
    (∃ plan, recoveryPlan state = .ok plan ∧ PlanAgrees state plan (drive host events state)) ↔
      Named (driveRound host events state) state.nextAction ∧
        (state.nextAction = .ok .restartModelRequest → state.latestModelEvents = []) := by
  constructor
  · rintro ⟨plan, hplan, hagrees⟩
    obtain ⟨action, haction, rfl⟩ := (recoveryPlan_of_open hopened hterminal).mp hplan
    refine ⟨⟨action, haction, hagrees.named⟩, fun hrestart => hagrees.restarts ?_⟩
    exact Except.ok.inj (haction.symm.trans hrestart)
  · rintro ⟨⟨action, haction, hnamed⟩, hrestart⟩
    obtain ⟨hnone, hassembles⟩ := nextAction_clauses haction hcancelled
    refine ⟨_, (recoveryPlan_of_open hopened hterminal).mpr ⟨action, haction, rfl⟩, ?_⟩
    refine .of_named hnamed ?_ ?_ (fun _ _ => hassembles) ?_
    · simp [openPlan, hnone, hterminal]
    · simp [hcancelled]
    · exact fun h => hrestart (haction.trans (congrArg Except.ok h))

theorem driveRound_of_open (hspec : state.spec = some spec) (hterminal : state.terminalEvent = none)
    (hcancelled : state.cancellationRequest = none) (htime : host.expired spec events = false) :
    driveRound host events state =
      if state.turnOrder.isEmpty then .ok .awaitInput
      else (answer state.latestTurn?) >>= driveTurn host state spec := by
  unfold driveRound
  simp only [hspec, answer_some, ok_bind, hterminal, hcancelled, htime, Option.isSome_none,
    Bool.false_eq_true, if_false]
  rfl

/-- A session in its time without a cancellation. -/
theorem open_agrees_iff (horiginates : Originates events state) (hopened : state.Opened)
    (hspec : state.spec = some spec) (hterminal : state.terminalEvent = none)
    (hcancelled : state.cancellationRequest = none) (htime : host.expired spec events = false) :
    (∃ plan, recoveryPlan state = .ok plan ∧ PlanAgrees state plan (drive host events state)) ↔
      ∀ turn, state.latestTurn? = some turn → ∀ assembly, turn.assembly = some assembly →
        TurnForeseen host state spec turn assembly := by
  rw [open_agrees_iff_named hopened hterminal hcancelled,
    driveRound_of_open hspec hterminal hcancelled htime]
  cases hlatest : state.latestTurn? with
  | none =>
      have hempty : state.turnOrder.isEmpty = true := by
        by_contra hsome
        obtain ⟨turnId, hlast⟩ := List.getLast?_isSome.mpr (by simpa using hsome) |>
          Option.isSome_iff_exists.mp
        have hturn := horiginates.ordered turnId (List.mem_of_getLast? hlast)
        rw [SessionState.latestTurn?, hlast, Option.bind_some] at hlatest
        rw [hlatest] at hturn
        cases hturn
      have haction : state.nextAction = .ok .awaitInput := by
        unfold SessionState.nextAction
        rw [hlatest]
        rfl
      simp [hempty, haction, DriveAct.nextAction?]
  | some turn =>
      have hsome : state.turnOrder.isEmpty = false := by
        cases horder : state.turnOrder with
        | nil => simp [SessionState.latestTurn?, horder] at hlatest
        | cons first rest => rfl
      simp only [hsome, Bool.false_eq_true, if_false, answer_some, ok_bind, Option.some.injEq,
        forall_eq']
      cases hassembly : turn.assembly with
      | none =>
          have haction : state.nextAction = .ok .assembleContext := by
            unfold SessionState.nextAction
            rw [hlatest]
            dsimp only
            rw [hassembly]
            rfl
          simp [haction, driveTurn, hassembly, DriveAct.nextAction?]
      | some assembly =>
          rw [turn_named_iff hassembly hlatest hcancelled]
          simp only [Option.some.injEq, forall_eq', and_iff_left_iff_imp]
          exact latestModelEvents_of_restart hlatest hassembly hcancelled

/-- A session whose cancellation is pending. -/
theorem cancelled_agrees_iff (hopened : state.Opened) (hspec : state.spec = some spec)
    (hterminal : state.terminalEvent = none) (hcancelled : state.cancellationRequest.isSome = true) :
    (∃ plan, recoveryPlan state = .ok plan ∧ PlanAgrees state plan (drive host events state)) ↔
      ∃ turn, state.latestTurn? = some turn ∧ turn.assembly.isSome = true := by
  have hdrive : drive host events state = .settleCancellation := by
    unfold drive driveRound
    simp only [hspec, answer_some, ok_bind, hterminal, hcancelled, Option.isSome_none,
      Bool.false_eq_true, if_false, if_true, firstAct_pure]
  have haction : ∀ turn, state.latestTurn? = some turn → turn.assembly.isSome = true →
      state.nextAction = .ok .settleCancellation := by
    intro turn hlatest hassembly
    unfold SessionState.nextAction
    rw [hlatest]
    dsimp only
    rw [if_neg (by simpa using Option.isSome_iff_ne_none.mp hassembly), if_pos hcancelled]
    rfl
  constructor
  · rintro ⟨plan, hplan, hagrees⟩
    obtain ⟨action, haction, rfl⟩ := (recoveryPlan_of_open hopened hterminal).mp hplan
    have hsettles := hagrees.cancelled hterminal hcancelled
    unfold SessionState.nextAction at haction
    change action = .settleCancellation at hsettles
    subst hsettles
    cases hlatest : state.latestTurn? with
    | none =>
        rw [hlatest] at haction
        cases haction
    | some turn =>
        rw [hlatest] at haction
        dsimp only at haction
        refine ⟨turn, rfl, ?_⟩
        by_contra hnone
        rw [if_pos (by simpa using hnone)] at haction
        cases haction
  · rintro ⟨turn, hlatest, hassembly⟩
    have hsettle := haction turn hlatest hassembly
    refine ⟨_, (recoveryPlan_of_open hopened hterminal).mpr ⟨_, hsettle, rfl⟩, ?_⟩
    rw [hdrive]
    have hnone : state.cancellationRequest ≠ none := Option.isSome_iff_ne_none.mp hcancelled
    exact .of_named rfl (by simp [openPlan, hterminal]) (fun _ _ => rfl)
      (fun _ hfree => (hnone hfree).elim) nofun

/-- An ended session. -/
theorem ended_agrees (hopened : state.Opened) (hspec : state.spec = some spec)
    (hterminal : state.terminalEvent.isSome = true) :
    ∃ plan, recoveryPlan state = .ok plan ∧ PlanAgrees state plan (drive host events state) := by
  refine ⟨_, recoveryPlan_of_ended hopened hterminal, ?_⟩
  have hdrive : drive host events state = .finish := by
    unfold drive driveRound
    simp only [hspec, answer_some, ok_bind, hterminal, if_true, firstAct_pure]
  have hnone : state.terminalEvent ≠ none := Option.isSome_iff_ne_none.mp hterminal
  rw [hdrive]
  exact .of_named rfl (iff_of_true rfl hterminal) (fun hopen => (hnone hopen).elim)
    (fun hopen => (hnone hopen).elim) nofun

/-- A session whose time is up: no plan names its cancellation. -/
theorem expired_disagrees (hspec : state.spec = some spec) (hterminal : state.terminalEvent = none)
    (hcancelled : state.cancellationRequest = none) (htime : host.expired spec events = true) :
    ¬ ∃ plan, recoveryPlan state = .ok plan ∧ PlanAgrees state plan (drive host events state) := by
  have hexpire : drive host events state = .expire "agent session duration limit exceeded" := by
    unfold drive driveRound
    simp only [hspec, answer_some, ok_bind, hterminal, hcancelled, htime, Option.isSome_none,
      Bool.false_eq_true, if_false, if_true, firstAct_pure]
  rintro ⟨plan, -, hagrees⟩
  have hnamed := hagrees.named
  rw [hexpire] at hnamed
  cases hnamed

theorem buildRecoveryPlan_of_accepted (h : Accepted realm events state) :
    buildRecoveryPlan realm events = recoveryPlan state := by
  unfold buildRecoveryPlan
  rw [show (replaySessionEvents realm .initial events).2 = .ok state from h, ok_bind]

/-- What the recovery plan of an accepted stream names is what the driver does next, in every
sense of the names, exactly if the state is one that the plan foresees. -/
theorem recovery_plan_agrees_iff (h : Accepted realm events state) (hne : events ≠ [])
    (host : DriveHost) :
    (∃ plan, buildRecoveryPlan realm events = .ok plan ∧
      PlanAgrees state plan (drive host events state)) ↔ Foreseen host events state := by
  have hopened := h.opened hne
  obtain ⟨spec, hspec⟩ := Option.isSome_iff_exists.mp hopened.1
  rw [buildRecoveryPlan_of_accepted h]
  cases hterminal : state.terminalEvent with
  | some terminal =>
      have hended : state.terminalEvent.isSome = true := by rw [hterminal]; rfl
      exact iff_of_true (ended_agrees hopened hspec hended) (.ended hended)
  | none =>
      cases hcancelled : state.cancellationRequest with
      | some request =>
          have hpending : state.cancellationRequest.isSome = true := by rw [hcancelled]; rfl
          rw [cancelled_agrees_iff hopened hspec hterminal hpending]
          constructor
          · rintro ⟨turn, hlatest, hassembly⟩
            exact .cancelled turn hpending hlatest hassembly
          · intro hforeseen
            cases hforeseen with
            | ended hended => simp [hterminal] at hended
            | cancelled turn _ hlatest hassembly => exact ⟨turn, hlatest, hassembly⟩
            | open_ _ _ hfree => simp [hcancelled] at hfree
      | none =>
          cases htime : host.expired spec events with
          | true =>
              refine iff_of_false (expired_disagrees hspec hterminal hcancelled htime) ?_
              intro hforeseen
              cases hforeseen with
              | ended hended => simp [hterminal] at hended
              | cancelled _ hpending => simp [hcancelled] at hpending
              | open_ _ hspec' _ hintime =>
                  obtain rfl := Option.some.inj (hspec.symm.trans hspec')
                  simp [htime] at hintime
          | false =>
              rw [open_agrees_iff (originates_of_accepted h) hopened hspec hterminal hcancelled htime]
              constructor
              · exact fun hturn => .open_ spec hspec hcancelled htime hturn
              · intro hforeseen
                cases hforeseen with
                | ended hended => simp [hterminal] at hended
                | cancelled _ hpending => simp [hcancelled] at hpending
                | open_ _ hspec' _ _ hturn =>
                    obtain rfl := Option.some.inj (hspec.symm.trans hspec')
                    exact hturn

end

end

/-! ## A cancellation before the first turn -/

namespace Sample

/-- A runtime without a completion review, at the start of the session. -/
def driveHost : DriveHost where
  now := 0
  completionReview := none
  contextTokens _ _ := some 100000
  overflowPolicy _ := some .reject
  compactResults _ _ _ messages := .ok messages

/-- A turn whose first step was cut off. -/
def interrupted : List SessionEvent :=
  requested ++ [event "e5" 5 (streamed 0 (.contentDelta ⟨"do", Eq.refl true⟩))]

/-- A session that is cancelled before its first turn. -/
def cancelledEarly : List SessionEvent :=
  [created,
    event "e2" 2 (.sessionCancellationRequested ⟨⟨"no longer needed", Eq.refl true⟩, true, .user⟩)]

end Sample

theorem interrupted_agrees : ∃ state plan, Accepted ⟨false⟩ Sample.interrupted state ∧
    buildRecoveryPlan ⟨false⟩ Sample.interrupted = .ok plan ∧
    PlanAgrees state plan (drive Sample.driveHost Sample.interrupted state) := by
  obtain ⟨state, haccepted, hstate⟩ := acceptsWith_iff.mp
    (show acceptsWith ⟨false⟩ Sample.interrupted (fun state => state.spec = some Sample.spec &&
      state.cancellationRequest.isNone &&
      state.latestTurn?.any fun turn => turn.modelSteps.getLast?.any (·.terminal?.isNone)) = true by
        decide +kernel)
  simp only [Bool.and_eq_true, decide_eq_true_eq, Option.isNone_iff_eq_none,
    Option.any_eq_true] at hstate
  obtain ⟨⟨hspec, hcancelled⟩, turn, hturn, step, hstep, hopen⟩ := hstate
  have hforeseen : Foreseen Sample.driveHost Sample.interrupted state := by
    refine .open_ Sample.spec hspec hcancelled (by decide +kernel) ?_
    intro other hother assembly hassembly
    obtain rfl := Option.some.inj (hturn.symm.trans hother)
    simp [TurnForeseen, hstep, StepForeseen, hopen]
  obtain ⟨plan, hplan, hagrees⟩ :=
    (recovery_plan_agrees_iff haccepted (by decide +kernel) Sample.driveHost).mpr hforeseen
  exact ⟨state, plan, haccepted, hplan, hagrees⟩

/-- The plan of the cancelled session is to wait for input, and the driver settles it. -/
theorem cancelledEarly_disagrees : ¬ ∀ (realm : Realm) (events : List SessionEvent)
    (state : SessionState) (host : DriveHost), Accepted realm events state → events ≠ [] →
      ∃ plan, buildRecoveryPlan realm events = .ok plan ∧
        PlanAgrees state plan (drive host events state) := by
  intro hclaim
  obtain ⟨state, haccepted, hstate⟩ := acceptsWith_iff.mp
    (show acceptsWith ⟨false⟩ Sample.cancelledEarly (fun state => state.status = .active &&
      state.terminalEvent.isNone && state.cancellationRequest.isSome && state.turnOrder.isEmpty) =
        true by decide +kernel)
  simp only [Bool.and_eq_true, decide_eq_true_eq, Option.isNone_iff_eq_none,
    List.isEmpty_iff] at hstate
  obtain ⟨⟨⟨hactive, hterminal⟩, hcancelled⟩, horder⟩ := hstate
  obtain ⟨plan, hplan, hagrees⟩ :=
    hclaim _ _ _ Sample.driveHost haccepted (by decide +kernel)
  rw [buildRecoveryPlan_of_accepted haccepted] at hplan
  have hopened : state.Opened := haccepted.opened (by decide +kernel)
  obtain ⟨action, haction, rfl⟩ := (recoveryPlan_of_open hopened hterminal).mp hplan
  have hwaits : state.nextAction = .ok .awaitInput := by
    simp [SessionState.nextAction, SessionState.latestTurn?, horder, pure, Except.pure]
  have hsettles : action = .settleCancellation := hagrees.cancelled hterminal hcancelled
  rw [hwaits, hsettles] at haction
  cases haction

end Hseos
