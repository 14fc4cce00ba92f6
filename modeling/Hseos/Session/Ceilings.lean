import Hseos.Session.OpenSteps
import Hseos.Session.WorkflowRevisions
import Mathlib.Data.Finset.Card

/-! # Resource ceilings

The limits of a session bound its tool invocations, its children and the steps of
its workflows. A reservation sets children aside that attach later; another child
may take the place of one of them.
-/

namespace Hseos

/-! ## Ceilings of a state -/

namespace SessionState

/-- The completed steps that phase checkpoints of a workflow record. -/
def completedSteps (state : SessionState) (workflowId : Identifier) : Nat :=
  ((state.workflowCheckpoints.filter (·.workflowId = workflowId)).map (·.completedSteps)).sum

/-- The number of children that are attached or belong to the reservation. -/
def childrenWith (state : SessionState) (reservation : WorkflowReservation) : Nat :=
  (state.children ++ reservation.childSessionIds).dedup.length

/-- The session has taken no more than its limits grant. -/
structure WithinCeilings (state : SessionState) : Prop where
  toolCalls : ∀ spec, state.spec = some spec →
    state.toolInvocations.size ≤ spec.limits.maxToolCalls
  children : ∀ spec, state.spec = some spec → state.children.length ≤ spec.limits.maxChildren
  distinct : state.children.Nodup
  foreign : ∀ child ∈ state.children, some child ≠ state.sessionId
  active : ∀ a b reservation other, state.workflowReservations.get? a = some reservation →
    state.workflowReservations.get? b = some other → reservation.released = none →
    other.released = none → a = b
  workflowSteps : ∀ spec, state.spec = some spec →
    (state.workflowReservations.values.map (·.stepCount)).sum ≤ spec.limits.maxWorkflowSteps
  completed : ∀ workflowId reservation, state.workflowReservations.get? workflowId =
    some reservation → state.completedSteps workflowId ≤ reservation.stepCount

/-- Every child of an active reservation is attached or can still be. -/
def ReservedChildrenFit (state : SessionState) : Prop :=
  ∀ spec, state.spec = some spec → ∀ reservation ∈ state.workflowReservations.values,
    reservation.released = none → state.childrenWith reservation ≤ spec.limits.maxChildren

/-- The event attaches no child in the place of one that an active reservation waits for. -/
def spares (state : SessionState) (event : SessionEvent) : Bool :=
  match event.payload, state.spec with
  | .childAttached child _, some spec =>
      state.workflowReservations.values.all fun reservation =>
        reservation.released.isSome || child ∈ reservation.childSessionIds ||
          state.childrenWith reservation < spec.limits.maxChildren
  | _, _ => true

end SessionState

/-- The state that replay of the events reaches. -/
def stateAfter? (realm : Realm) (events : List SessionEvent) : Option SessionState :=
  (replaySessionEvents realm .initial events).2.toOption

theorem stateAfter?_eq_some_iff {realm : Realm} {events : List SessionEvent} {state : SessionState} :
    stateAfter? realm events = some state ↔ Accepted realm events state := by
  unfold stateAfter? Accepted
  cases (replaySessionEvents realm .initial events).2 <;> simp [Except.toOption]

/-- No event of the stream takes the place of a reserved child. -/
def AttachmentsSpare (realm : Realm) : List SessionEvent → Prop :=
  Throughout fun past event => ∀ before ∈ stateAfter? realm past, before.spares event = true

instance (realm : Realm) (events : List SessionEvent) : Decidable (AttachmentsSpare realm events) :=
  inferInstanceAs (Decidable (Throughout ..))

/-! ## What one event takes -/

section

variable {realm realm' : Realm} {state next : SessionState} {event : SessionEvent}

theorem toolInvocations_step (h : applyEvent realm state event = .ok (realm', next)) :
    next.toolInvocations.size = state.toolInvocations.size ∨ ∃ spec, state.spec = some spec ∧
      state.toolInvocations.size < spec.limits.maxToolCalls ∧
      next.toolInvocations.size = state.toolInvocations.size + 1 := by
  cases applyEvent_transition h with
  | toolExecutionStarted hpayload =>
      rw [applyEvent, hpayload] at h
      obtain ⟨-, -, -, -, -, hfresh, -, -, spec, hspec, hlimit⟩ :=
        applyToolExecutionStarted_eq_ok (keep_eq_ok h).2
      exact .inr ⟨spec, hspec, hlimit, JsObject.size_set_of_fresh hfresh _⟩
  | toolExecutionReconciled _ hexecution => exact .inl (JsObject.size_set_of_get? hexecution _)
  | toolExecutionCompleted _ _ hexecution => exact .inl (JsObject.size_set_of_get? hexecution _)
  | _ => exact .inl rfl

theorem children_step (h : applyEvent realm state event = .ok (realm', next)) :
    next.children = state.children ∨ ∃ child ceilingRef spec,
      event.payload = .childAttached child ceilingRef ∧ next.children = state.children ++ [child] ∧
      next.workflowReservations = state.workflowReservations ∧ some child ≠ state.sessionId ∧ child ∉ state.children ∧ state.spec = some spec ∧
      state.children.length < spec.limits.maxChildren := by
  cases applyEvent_transition h with
  | @childAttached child ceilingRef hpayload =>
      rw [applyEvent, hpayload] at h
      obtain ⟨-, hself, hfresh, spec, hspec, hlimit⟩ := applyChildAttached_eq_ok (keep_eq_ok h).2
      exact .inr ⟨child, ceilingRef, spec, hpayload, rfl, rfl, hself, hfresh, hspec, hlimit⟩
  | _ => exact .inl rfl

/-- A claim or a release on a reservation keeps what it takes. -/
structure Renews (reservation renewed : WorkflowReservation) : Prop where
  workflowId : renewed.workflowId = reservation.workflowId
  stepCount : renewed.stepCount = reservation.stepCount
  childSessionIds : renewed.childSessionIds = reservation.childSessionIds
  active : reservation.released = none

/-- What an event does to the reservations of a session. -/
inductive ReservationsStep (state : SessionState) (event : SessionEvent) :
    JsObject Identifier WorkflowReservation → Prop where
  | keep : ReservationsStep state event state.workflowReservations
  | reserve {payload : WorkflowReservedPayload} {spec : AgentSessionSpec}
      (hpayload : event.payload = .workflowReserved payload) (hspec : state.spec = some spec)
      (hfresh : state.workflowReservations.get? payload.workflowId = none)
      (hreleased : ∀ reservation ∈ state.workflowReservations.values,
        reservation.released.isSome = true)
      (hsteps : (state.workflowReservations.values.map (·.stepCount)).sum + payload.stepCount ≤
        spec.limits.maxWorkflowSteps)
      (hchildren : state.children.length +
        (payload.childSessionIds.filter (· ∉ state.children)).length ≤ spec.limits.maxChildren) :
      ReservationsStep state event
        (state.workflowReservations.set payload.workflowId (newReservation event payload))
  | revise {payload : WorkflowRevisedPayload} {spec : AgentSessionSpec}
      {reservation : WorkflowReservation}
      (hpayload : event.payload = .workflowRevised payload) (hspec : state.spec = some spec)
      (hreservation : state.workflowReservations.get? payload.workflowId = some reservation)
      (hactive : reservation.released = none)
      (hextends : checkRevisionExtends reservation payload = .ok ())
      (hlimits : checkRevisionLimits state spec reservation payload = .ok ()) :
      ReservationsStep state event
        (state.workflowReservations.set payload.workflowId (reservation.revise event payload))
  | renew {workflowId : Identifier} {reservation renewed : WorkflowReservation}
      (hreservation : state.workflowReservations.get? workflowId = some reservation)
      (hrenews : Renews reservation renewed) :
      ReservationsStep state event (state.workflowReservations.set workflowId renewed)

theorem reservations_step (h : applyEvent realm state event = .ok (realm', next)) :
    ReservationsStep state event next.workflowReservations := by
  cases applyEvent_transition h with
  | workflowReserved hpayload =>
      rw [applyEvent, hpayload] at h
      obtain ⟨hfresh, -, hreleased, spec, hspec, hsteps, hchildren⟩ :=
        applyWorkflowReserved_eq_ok (keep_eq_ok h).2
      exact .reserve hpayload hspec hfresh hreleased hsteps hchildren
  | workflowRevised hpayload hreservation hactive =>
      obtain ⟨found, spec, hfound, -, -, hspec, hextends, hlimits, -⟩ :=
        reviseWorkflow_eq_ok (reviseWorkflow_of_applyEvent h hpayload)
      obtain rfl := Option.some.inj (hreservation.symm.trans hfound)
      exact .revise hpayload hspec hreservation hactive hextends hlimits
  | workflowReclaimed _ hreservation hactive =>
      exact .renew hreservation ⟨rfl, rfl, rfl, hactive⟩
  | workflowReleased _ hreservation hactive =>
      exact .renew hreservation ⟨rfl, rfl, rfl, hactive⟩
  | _ => exact .keep

theorem completedSteps_step (h : applyEvent realm state event = .ok (realm', next))
    (workflowId : Identifier) :
    next.completedSteps workflowId = state.completedSteps workflowId ∨ ∃ reservation,
      state.workflowReservations.get? workflowId = some reservation ∧
      next.workflowReservations = state.workflowReservations ∧
      (reservation.stepCount ≠ 0 → next.completedSteps workflowId ≤ reservation.stepCount) := by
  cases applyEvent_transition h with
  | workflowCheckpointed =>
      left
      simp only [SessionState.completedSteps, List.filter_append, List.map_append, List.sum_append,
        List.filter_singleton]
      cases decide (WorkflowCheckpoint.workflowId _ = workflowId) <;> rfl
  | @workflowPhaseCheckpointed payload reservation workflows hpayload hreservation =>
      rw [applyEvent, hpayload] at h
      obtain ⟨found, -, hfound, -, -, -, -, hlimit⟩ :=
        applyWorkflowPhaseCheckpointed_eq_ok (keep_eq_ok h).2
      obtain rfl := Option.some.inj (hreservation.symm.trans hfound)
      by_cases hid : payload.workflowId = workflowId
      · subst hid
        refine .inr ⟨reservation, hreservation, rfl, fun hcount => ?_⟩
        simpa [SessionState.completedSteps, WorkflowCheckpoint.workflowId,
          WorkflowCheckpoint.completedSteps] using hlimit hcount
      · left
        simp [SessionState.completedSteps, WorkflowCheckpoint.workflowId, hid]
  | _ => exact .inl rfl

end

/-! ## Ceilings along a stream -/

/-- What keeps the ceilings: reservations are stored under their workflow, grant at
least one step, and come before the checkpoints that count steps. -/
structure Provisioned (state : SessionState) : Prop extends state.WithinCeilings where
  keyed : ∀ workflowId reservation, state.workflowReservations.get? workflowId =
    some reservation → reservation.workflowId = workflowId ∧ 1 ≤ reservation.stepCount
  unreserved : ∀ workflowId, state.workflowReservations.get? workflowId = none →
    state.completedSteps workflowId = 0

theorem provisioned_initial : Provisioned .initial where
  toolCalls _ h := by cases h
  children _ h := by cases h
  distinct := List.nodup_nil
  foreign _ h := by cases h
  active _ _ _ _ h := by cases h
  workflowSteps _ h := by cases h
  completed _ _ h := by cases h
  keyed _ _ h := by cases h
  unreserved _ _ := rfl

/-- A revision keeps the steps of the definition that it extends. -/
theorem stepCount_le_of_extends {event : SessionEvent} {reservation : WorkflowReservation}
    {payload : WorkflowRevisedPayload} (hpayload : event.payload = .workflowRevised payload)
    (h : checkRevisionExtends reservation payload = .ok ()) :
    reservation.stepCount ≤ payload.definition.steps.length := by
  obtain ⟨-, -, hextends, hcount⟩ := checkRevisionExtends_eq_ok hpayload h
  obtain ⟨added, hadded⟩ := hextends.phases
  rw [← hcount, WorkflowDefinition.steps, WorkflowDefinition.steps, ← hadded, List.flatMap_append,
    List.length_append]
  exact Nat.le_add_right _ _

/-- The limits of a revision, on a session whose reservations are stored under their workflow. -/
theorem checkRevisionLimits_eq_ok {state : SessionState} {spec : AgentSessionSpec}
    {reservation : WorkflowReservation} {payload : WorkflowRevisedPayload} {u : Unit}
    (hkeyed : ∀ workflowId found, state.workflowReservations.get? workflowId = some found →
      found.workflowId = workflowId)
    (h : checkRevisionLimits state spec reservation payload = .ok u) :
    payload.definition.steps.length ≤ spec.limits.maxWorkflowSteps ∧
      (state.children ++ payload.definition.childSessionIds).dedup.length ≤
        spec.limits.maxChildren ∧
      ∀ workflowId found, state.workflowReservations.get? workflowId = some found →
        workflowId = payload.workflowId := by
  obtain ⟨-, h⟩ := reject_bind_eq_ok_iff.mp h
  obtain ⟨hsteps, h⟩ := reject_bind_eq_ok_iff.mp h
  obtain ⟨hchildren, h⟩ := reject_bind_eq_ok_iff.mp h
  have hcompeting := reject_eq_ok_iff.mp h
  simp only [Bool.or_eq_false_iff, decide_eq_false_iff_not, not_not, not_lt] at hsteps hchildren hcompeting
  obtain ⟨⟨⟨⟨⟨⟨hothers, -⟩, -⟩, -⟩, -⟩, -⟩, -⟩ := hcompeting
  refine ⟨by omega, ?_, ?_⟩
  · rw [hothers] at hchildren
    simpa using hchildren
  · intro workflowId found hfound
    by_contra hne
    have hmem : found ∈ state.workflowReservations.values.filter
        (·.workflowId ≠ payload.workflowId) := by
      refine List.mem_filter.mpr ⟨JsObject.mem_values.mpr ⟨_, hfound⟩, ?_⟩
      simpa [hkeyed _ _ hfound] using hne
    rw [hothers] at hmem
    cases hmem

section

variable {realm realm' : Realm} {events : List SessionEvent} {before state next : SessionState}
  {event : SessionEvent} {reservations : JsObject Identifier WorkflowReservation}

/-- What an active reservation is replaced by is the only one that may be active. -/
theorem Provisioned.active_set (h : Provisioned state) {workflowId : Identifier}
    {old : WorkflowReservation} (hold : state.workflowReservations.get? workflowId = some old)
    (hactive : old.released = none) (replaced : WorkflowReservation) (a b : Identifier)
    (reservation other : WorkflowReservation)
    (ha : (state.workflowReservations.set workflowId replaced).get? a = some reservation)
    (hb : (state.workflowReservations.set workflowId replaced).get? b = some other)
    (hreservation : reservation.released = none) (hother : other.released = none) : a = b := by
  rw [JsObject.get?_set] at ha hb
  split_ifs at ha hb with hida hidb hidb
  · rw [hida, hidb]
  · rw [hida]
    exact h.active _ _ _ _ hold hb hactive hother
  · rw [hidb]
    exact h.active _ _ _ _ ha hold hreservation hactive
  · exact h.active _ _ _ _ ha hb hreservation hother

theorem Provisioned.active_step (h : Provisioned state)
    (hstep : ReservationsStep state event reservations) (a b : Identifier)
    (reservation other : WorkflowReservation) (ha : reservations.get? a = some reservation)
    (hb : reservations.get? b = some other) (hreservation : reservation.released = none)
    (hother : other.released = none) : a = b := by
  cases hstep with
  | keep => exact h.active _ _ _ _ ha hb hreservation hother
  | reserve _ _ _ hreleased =>
      have hreserved : ∀ workflowId found, state.workflowReservations.get? workflowId = some found →
          found.released ≠ none := fun workflowId found hfound =>
        Option.isSome_iff_ne_none.mp (hreleased _ (JsObject.mem_values.mpr ⟨_, hfound⟩))
      rw [JsObject.get?_set] at ha hb
      split_ifs at ha hb with hida hidb hidb
      · rw [hida, hidb]
      · exact absurd hother (hreserved _ _ hb)
      · exact absurd hreservation (hreserved _ _ ha)
      · exact absurd hreservation (hreserved _ _ ha)
  | revise _ _ hold hactive =>
      exact h.active_set hold hactive _ _ _ _ _ ha hb hreservation hother
  | renew hold hrenews =>
      exact h.active_set hold hrenews.active _ _ _ _ _ ha hb hreservation hother

theorem Provisioned.workflowSteps_step (h : Provisioned state)
    (hstep : ReservationsStep state event reservations) {spec : AgentSessionSpec}
    (hspec : state.spec = some spec) :
    (reservations.values.map (·.stepCount)).sum ≤ spec.limits.maxWorkflowSteps := by
  cases hstep with
  | keep => exact h.workflowSteps spec hspec
  | reserve _ hfound hfresh _ hsteps =>
      obtain rfl := Option.some.inj (hspec.symm.trans hfound)
      rw [JsObject.sum_values_set_of_fresh hfresh]
      exact hsteps
  | revise _ hfound _ _ _ hlimits =>
      obtain rfl := Option.some.inj (hspec.symm.trans hfound)
      obtain ⟨hsteps, -, honly⟩ :=
        checkRevisionLimits_eq_ok (fun _ _ hget => (h.keyed _ _ hget).1) hlimits
      rw [JsObject.values_set_of_only _ honly, List.map_singleton, List.sum_singleton]
      exact hsteps
  | renew hold hrenews =>
      rw [JsObject.sum_values_set_of_eq hold hrenews.stepCount]
      exact h.workflowSteps spec hspec

/-- A reservation is new, or grants at least the steps that it granted before. -/
theorem ReservationsStep.grown (hstep : ReservationsStep state event reservations)
    {workflowId : Identifier} {reservation : WorkflowReservation}
    (hget : reservations.get? workflowId = some reservation) :
    state.workflowReservations.get? workflowId = none ∨ ∃ old,
      state.workflowReservations.get? workflowId = some old ∧
      old.stepCount ≤ reservation.stepCount := by
  cases hstep with
  | keep => exact .inr ⟨reservation, hget, le_rfl⟩
  | reserve _ _ hfresh =>
      rw [JsObject.get?_set] at hget
      split_ifs at hget with hid
      · exact .inl (hid ▸ hfresh)
      · exact .inr ⟨reservation, hget, le_rfl⟩
  | revise hpayload _ hold _ hextends =>
      rw [JsObject.get?_set] at hget
      split_ifs at hget with hid
      · obtain rfl := Option.some.inj hget
        exact .inr ⟨_, hid ▸ hold, stepCount_le_of_extends hpayload hextends⟩
      · exact .inr ⟨reservation, hget, le_rfl⟩
  | renew hold hrenews =>
      rw [JsObject.get?_set] at hget
      split_ifs at hget with hid
      · obtain rfl := Option.some.inj hget
        exact .inr ⟨_, hid ▸ hold, hrenews.stepCount.ge⟩
      · exact .inr ⟨reservation, hget, le_rfl⟩

theorem Provisioned.keyed_step (h : Provisioned state)
    (hstep : ReservationsStep state event reservations) :
    ∀ workflowId reservation, reservations.get? workflowId = some reservation →
      reservation.workflowId = workflowId ∧ 1 ≤ reservation.stepCount := by
  cases hstep with
  | keep => exact h.keyed
  | @reserve payload spec hpayload =>
      refine JsObject.forall_get?_set h.keyed ⟨rfl, ?_⟩
      have hvalid := event.payload_valid
      simp only [hpayload, SessionPayload.valid, intWithin, Bool.and_eq_true, decide_eq_true_eq]
        at hvalid
      exact hvalid.1.1.1.1.1.1
  | @revise payload spec reservation hpayload _ hold _ hextends =>
      refine JsObject.forall_get?_set h.keyed ⟨(h.keyed _ _ hold).1, ?_⟩
      exact (h.keyed _ _ hold).2.trans (stepCount_le_of_extends hpayload hextends)
  | renew hold hrenews =>
      refine JsObject.forall_get?_set h.keyed ?_
      rw [hrenews.workflowId, hrenews.stepCount]
      exact h.keyed _ _ hold

/-- Reservations are never removed. -/
theorem ReservationsStep.fresh (hstep : ReservationsStep state event reservations)
    {workflowId : Identifier} (hget : reservations.get? workflowId = none) :
    state.workflowReservations.get? workflowId = none := by
  cases hstep with
  | keep => exact hget
  | _ =>
      rw [JsObject.get?_set] at hget
      split_ifs at hget
      exact hget

/-- An event after the creation of the session keeps the ceilings. -/
theorem Provisioned.step (h : Provisioned state)
    (happly : applyEvent realm state event = .ok (realm', next)) (hspec : next.spec = state.spec) :
    Provisioned next := by
  have hstep := reservations_step happly
  have hidentity := (identity_step (applyEvent_transition happly)).1
  constructor
  case toWithinCeilings =>
    refine ⟨?_, ?_, ?_, ?_, h.active_step hstep, ?_, ?_⟩
    · intro spec hnext
      rw [hspec] at hnext
      have hbound := h.toolCalls spec hnext
      rcases toolInvocations_step happly with hsame | ⟨found, hfound, hlimit, hgrown⟩
      · omega
      · obtain rfl := Option.some.inj (hnext.symm.trans hfound)
        omega
    · intro spec hnext
      rw [hspec] at hnext
      rcases children_step happly with hsame | ⟨_, _, found, _, hgrown, _, _, _, hfound, hlimit⟩
      · exact hsame ▸ h.children spec hnext
      · obtain rfl := Option.some.inj (hnext.symm.trans hfound)
        simpa [hgrown] using Nat.succ_le_of_lt hlimit
    · rcases children_step happly with hsame | ⟨child, _, _, _, hgrown, _, _, hfresh, _, _⟩
      · exact hsame ▸ h.distinct
      · rw [hgrown]
        exact h.distinct.append (List.nodup_singleton _) (by simpa using hfresh)
    · rw [hidentity]
      rcases children_step happly with hsame | ⟨child, _, _, _, hgrown, _, hself, _, _, _⟩
      · exact hsame ▸ h.foreign
      · intro other hother
        rw [hgrown] at hother
        rcases List.mem_append.mp hother with hother | hother
        · exact h.foreign other hother
        · exact List.mem_singleton.mp hother ▸ hself
    · intro spec hnext
      exact h.workflowSteps_step hstep (hspec ▸ hnext)
    · intro workflowId reservation hget
      rcases completedSteps_step happly workflowId with hsame | ⟨found, hfound, hkept, hlimit⟩
      · rw [hsame]
        rcases hstep.grown hget with hfresh | ⟨old, hold, hgrown⟩
        · exact (h.unreserved _ hfresh).trans_le (Nat.zero_le _)
        · exact (h.completed _ _ hold).trans hgrown
      · rw [hkept] at hget
        obtain rfl := Option.some.inj (hfound.symm.trans hget)
        exact hlimit (Nat.one_le_iff_ne_zero.mp (h.keyed _ _ hfound).2)
  case keyed => exact h.keyed_step hstep
  case unreserved =>
    intro workflowId hget
    have hfresh := hstep.fresh hget
    rcases completedSteps_step happly workflowId with hsame | ⟨found, hfound, -⟩
    · exact hsame.trans (h.unreserved _ hfresh)
    · rw [hfresh] at hfound
      cases hfound

/-- The state of a stream is the initial one, or has the session's identity. -/
theorem Accepted.initial_or_identified (h : Accepted realm events state) :
    state = .initial ∨ state.sessionId.isSome = true ∧ 1 ≤ state.currentSequence := by
  rcases List.eq_nil_or_concat events with rfl | ⟨past, event, rfl⟩
  · exact .inl (h.unique accepted_nil)
  · rw [List.concat_eq_append] at h
    obtain ⟨before, _, _, reached, -, hadmission, htransition, rfl⟩ := h.snoc
    obtain ⟨hidentity, hcurrent⟩ := identity_step htransition
    have hsequence := (checkAdmission_eq_ok hadmission).1
    refine .inr ⟨?_, ?_⟩
    · change reached.sessionId.isSome = true
      rw [hidentity]
      rfl
    · change 1 ≤ reached.currentSequence
      rw [hcurrent]
      change 1 ≤ event.sequence
      omega

/-- The admission of an event keeps the identity of the session. -/
theorem sessionId_of_admission {u : Unit} (h : checkAdmission state event = .ok u)
    (hidentified : state.sessionId.isSome = true) : state.sessionId = some event.sessionId := by
  obtain ⟨-, h⟩ := reject_bind_eq_ok_iff.mp h
  obtain ⟨hsame, -⟩ := reject_bind_eq_ok_iff.mp h
  obtain ⟨sessionId, hsession⟩ := Option.isSome_iff_exists.mp hidentified
  rw [hsession] at hsame ⊢
  rw [show event.sessionId = sessionId by simpa using hsame]

theorem Provisioned.advance (h : Provisioned before) (hpast : Accepted realm events before)
    (hadmission : checkAdmission before event = .ok ()) : Provisioned (before.advance event) := by
  refine ⟨⟨h.toolCalls, h.children, h.distinct, ?_, h.active, h.workflowSteps, h.completed⟩,
    h.keyed, h.unreserved⟩
  intro child hchild
  rcases hpast.initial_or_identified with rfl | ⟨hidentified, -⟩
  · cases hchild
  · have hforeign := h.foreign child hchild
    rw [sessionId_of_admission hadmission hidentified] at hforeign
    exact hforeign

theorem Provisioned.see (h : Provisioned next) (eventId : Identifier) :
    Provisioned (next.see eventId) :=
  ⟨⟨h.toolCalls, h.children, h.distinct, h.foreign, h.active, h.workflowSteps, h.completed⟩,
    h.keyed, h.unreserved⟩

/-- An event creates the session of an empty stream, or keeps its limits. -/
theorem created_or_spec_eq {realm₀ : Realm} (hpast : Accepted realm₀ events before)
    (hadmission : checkAdmission before event = .ok ())
    (happly : applyEvent realm (before.advance event) event = .ok (realm', next)) :
    (before = .initial ∧ ∃ spec, next = { before.advance event with
      spec := some spec, status := .active }) ∨ next.spec = (before.advance event).spec := by
  cases hpayload : event.payload with
  | sessionCreated spec =>
      have hzero := currentSequence_of_created hadmission hpayload
      rcases hpast.initial_or_identified with rfl | ⟨-, hstarted⟩
      · rw [applyEvent, hpayload] at happly
        obtain ⟨-, rfl⟩ := Prod.mk.inj (pure_eq_ok_iff.mp happly)
        exact .inl ⟨rfl, spec, rfl⟩
      · omega
  | _ =>
      refine .inr (spec_step (applyEvent_transition happly) fun spec hcreated => ?_)
      rw [hpayload] at hcreated
      cases hcreated

theorem provisioned_created (event : SessionEvent) (spec : AgentSessionSpec) :
    Provisioned { SessionState.initial.advance event with spec := some spec, status := .active } where
  toolCalls _ _ := Nat.zero_le _
  children _ _ := Nat.zero_le _
  distinct := List.nodup_nil
  foreign _ h := by cases h
  active _ _ _ _ h := by cases h
  workflowSteps _ _ := Nat.zero_le _
  completed _ _ h := by cases h
  keyed _ _ h := by cases h
  unreserved _ _ := rfl

theorem Accepted.provisioned (h : Accepted realm events state) : Provisioned state := by
  refine h.applied (P := fun _ => Provisioned) provisioned_initial ?_
  intro past before event realm₁ realm₂ next hpast hbefore hadmission happly
  apply Provisioned.see
  rcases created_or_spec_eq hpast hadmission happly with ⟨rfl, spec, rfl⟩ | hspec
  · exact provisioned_created event spec
  · exact (hbefore.advance hpast hadmission).step happly hspec

/-! ## Children set aside -/

theorem childrenWith_eq_card (state : SessionState) (reservation : WorkflowReservation) :
    state.childrenWith reservation =
      (state.children.toFinset ∪ reservation.childSessionIds.toFinset).card := by
  rw [SessionState.childrenWith, ← List.card_toFinset, List.toFinset_append]

/-- The children of a new reservation count once, whether they are attached or not. -/
theorem childrenWith_le (state : SessionState) (reservation : WorkflowReservation) :
    state.childrenWith reservation ≤
      state.children.length + (reservation.childSessionIds.filter (· ∉ state.children)).length := by
  have hsubset : state.children.toFinset ∪ reservation.childSessionIds.toFinset ⊆
      (state.children ++ reservation.childSessionIds.filter (· ∉ state.children)).toFinset := by
    intro child hchild
    simp only [Finset.mem_union, List.mem_toFinset, List.mem_append, List.mem_filter,
      decide_eq_true_eq] at hchild ⊢
    tauto
  rw [childrenWith_eq_card, ← List.length_append]
  exact (Finset.card_le_card hsubset).trans (List.toFinset_card_le _)

/-- Attaching a new child takes one more place unless the reservation has it. -/
theorem childrenWith_attach {child : Identifier} {reservation : WorkflowReservation}
    (hgrown : next.children = state.children ++ [child]) (hfresh : child ∉ state.children) :
    next.childrenWith reservation = state.childrenWith reservation +
      if child ∈ reservation.childSessionIds then 0 else 1 := by
  have hinsert : next.children.toFinset ∪ reservation.childSessionIds.toFinset =
      insert child (state.children.toFinset ∪ reservation.childSessionIds.toFinset) := by
    ext other
    simp only [hgrown, Finset.mem_union, List.mem_toFinset, List.mem_append, List.mem_singleton,
      Finset.mem_insert]
    tauto
  rw [childrenWith_eq_card, childrenWith_eq_card, hinsert]
  split
  next hreserved => rw [Finset.insert_eq_of_mem (by simp [hreserved]), Nat.add_zero]
  next hforeign => exact Finset.card_insert_of_notMem (by simp [hfresh, hforeign])

theorem fits_step (h : Provisioned state) (hfits : state.ReservedChildrenFit)
    (hspares : state.spares event = true)
    (happly : applyEvent realm state event = .ok (realm', next)) (hspec : next.spec = state.spec) :
    next.ReservedChildrenFit := by
  intro spec hnext reservation hmem hactive
  rw [hspec] at hnext
  rcases children_step happly with hsame | ⟨child, _, _, hpayload, hgrown, hkept, _, hfresh, _, _⟩
  · have hstep := reservations_step happly
    have hcount : ∀ found, next.childrenWith found = state.childrenWith found := fun found => by
      rw [SessionState.childrenWith, hsame, SessionState.childrenWith]
    rw [hcount]
    obtain ⟨workflowId, hget⟩ := JsObject.mem_values.mp hmem
    generalize next.workflowReservations = reservations at hstep hget
    cases hstep with
    | keep => exact hfits spec hnext reservation (JsObject.mem_values.mpr ⟨_, hget⟩) hactive
    | reserve _ hfound _ _ _ hchildren =>
        obtain rfl := Option.some.inj (hnext.symm.trans hfound)
        rw [JsObject.get?_set] at hget
        split_ifs at hget
        · obtain rfl := Option.some.inj hget
          exact (childrenWith_le _ _).trans hchildren
        · exact hfits spec hnext reservation (JsObject.mem_values.mpr ⟨_, hget⟩) hactive
    | revise _ hfound _ _ _ hlimits =>
        obtain rfl := Option.some.inj (hnext.symm.trans hfound)
        rw [JsObject.get?_set] at hget
        split_ifs at hget
        · obtain rfl := Option.some.inj hget
          exact (checkRevisionLimits_eq_ok (fun _ _ hold => (h.keyed _ _ hold).1) hlimits).2.1
        · exact hfits spec hnext reservation (JsObject.mem_values.mpr ⟨_, hget⟩) hactive
    | @renew _ old _ hold hrenews =>
        rw [JsObject.get?_set] at hget
        split_ifs at hget
        · obtain rfl := Option.some.inj hget
          have hbound := hfits spec hnext old (JsObject.mem_values.mpr ⟨_, hold⟩) hrenews.active
          rwa [SessionState.childrenWith, ← hrenews.childSessionIds] at hbound
        · exact hfits spec hnext reservation (JsObject.mem_values.mpr ⟨_, hget⟩) hactive
  · rw [hkept] at hmem
    have hbound := hfits spec hnext reservation hmem hactive
    rw [childrenWith_attach hgrown hfresh]
    simp only [SessionState.spares, hpayload, hnext, List.all_eq_true] at hspares
    have hplace := hspares reservation hmem
    simp only [hactive, Option.isSome_none, Bool.false_or, Bool.or_eq_true, decide_eq_true_eq]
      at hplace
    split
    next => exact hbound
    next hforeign => exact Nat.succ_le_of_lt (hplace.resolve_left hforeign)

/-- An attachment in the place of a reserved child leaves too few places. -/
theorem not_fits_of_not_spares (h : state.spares event = false)
    (happly : applyEvent realm state event = .ok (realm', next)) (hspec : next.spec = state.spec) :
    ¬ next.ReservedChildrenFit := by
  intro hfits
  rcases children_step happly with hsame | ⟨child, _, spec, hpayload, hgrown, hkept, _, hfresh, hfound, _⟩
  · have hpayload : ∀ child ceilingRef, event.payload ≠ .childAttached child ceilingRef := by
      intro child ceilingRef hpayload
      rw [applyEvent, hpayload] at happly
      obtain ⟨rfl, -⟩ := applyChildAttached_eq_ok (keep_eq_ok happly).2
      exact absurd hsame (by simp)
    unfold SessionState.spares at h
    split at h
    next hattached _ => exact hpayload _ _ hattached
    next => cases h
  · simp only [SessionState.spares, hpayload, hfound, List.all_eq_false, Bool.not_eq_true,
      Bool.or_eq_false_iff, decide_eq_false_iff_not, not_lt] at h
    obtain ⟨reservation, hmem, ⟨hactive, hforeign⟩, hfull⟩ := h
    have hbound := hfits spec (hspec.trans hfound) reservation (hkept ▸ hmem)
      (by simpa using hactive)
    rw [childrenWith_attach hgrown hfresh, if_neg hforeign] at hbound
    omega

/-- Reserved children fit in every state of a stream that spares them. -/
theorem Accepted.reservedChildrenFit (h : Accepted realm events state)
    (hspare : AttachmentsSpare realm events) : state.ReservedChildrenFit := by
  refine h.applied (P := fun past reached => AttachmentsSpare realm past →
    reached.ReservedChildrenFit) (fun _ _ hspec => nomatch hspec) ?_ hspare
  intro past before event realm₁ realm₂ next hpast hbefore hadmission happly hspare
  rcases created_or_spec_eq hpast hadmission happly with ⟨rfl, spec, rfl⟩ | hspec
  · intro _ _ _ hmem
    cases hmem
  · have hprovisioned := hpast.provisioned.advance hpast hadmission
    have hfits : (before.advance event).ReservedChildrenFit :=
      hbefore (hspare.of_isPrefix (List.prefix_append _ _))
    have hspares : (before.advance event).spares event = true :=
      hspare.last before (stateAfter?_eq_some_iff.mpr hpast)
    have hnext := fits_step hprovisioned hfits hspares happly hspec
    exact hnext

/-- A session stays within its ceilings in every accepted stream, and its reserved
children can all attach exactly when no attachment takes the place of one. -/
theorem resource_ceilings_iff (h : Accepted realm events state) :
    (∀ past reached, past <+: events → Accepted realm past reached →
      reached.WithinCeilings ∧ reached.ReservedChildrenFit) ↔ AttachmentsSpare realm events := by
  constructor
  · rintro hall past event future rfl before hbefore
    have hbegins : past ++ [event] <+: past ++ event :: future := ⟨future, by simp⟩
    obtain ⟨reached, hreached⟩ := h.of_isPrefix hbegins
    obtain ⟨found, _, _, next, hpast, hadmission, happly, rfl⟩ := hreached.snoc_applied
    obtain rfl := hpast.unique (stateAfter?_eq_some_iff.mp hbefore)
    by_contra hspares
    rw [Bool.not_eq_true] at hspares
    rcases created_or_spec_eq hpast hadmission happly with ⟨rfl, spec, rfl⟩ | hspec
    · unfold SessionState.spares at hspares
      split at hspares
      next hnone => cases hnone
      next => cases hspares
    · have hfull : (found.advance event).spares event = false := hspares
      have hnext := not_fits_of_not_spares hfull happly hspec
      exact hnext (hall _ _ hbegins hreached).2
  · intro hspare past reached hbegins hpast
    refine ⟨hpast.provisioned.toWithinCeilings, ?_⟩
    exact hpast.reservedChildrenFit (hspare.of_isPrefix hbegins)

end

namespace Sample

/-- A workflow sets the only child of a session aside. -/
def reservedChild : List SessionEvent :=
  [event "e1" 1 (.sessionCreated { spec with limits := ⟨4, 1000, 60000, 4, 1, 8⟩ }),
    workflowReserved]

/-- The reserved child attaches. -/
def attachedReserved : List SessionEvent :=
  reservedChild ++ [childAttached]

/-- Another child attaches. -/
def displacedReserved : List SessionEvent :=
  reservedChild ++ [event "e3" 3 (.childAttached (ident "ch2") (reference "ceiling"))]

end Sample

theorem attachedReserved_within : ∃ state, Accepted ⟨false⟩ Sample.attachedReserved state ∧
    ∀ past reached, past <+: Sample.attachedReserved → Accepted ⟨false⟩ past reached →
      reached.WithinCeilings ∧ reached.ReservedChildrenFit := by
  obtain ⟨state, haccepted, -⟩ := acceptsWith_iff.mp
    (show acceptsWith ⟨false⟩ Sample.attachedReserved (fun _ => true) = true by decide +kernel)
  exact ⟨state, haccepted, (resource_ceilings_iff haccepted).mpr (by decide +kernel)⟩

/-- A child that is not reserved takes the only place, and the reserved one cannot attach. -/
theorem displacedReserved_unfit : ¬ ∀ realm events state, Accepted realm events state →
    state.WithinCeilings ∧ state.ReservedChildrenFit := by
  intro hall
  obtain ⟨state, haccepted, hunfit⟩ := acceptsWith_iff.mp
    (show acceptsWith ⟨false⟩ Sample.displacedReserved (fun state =>
      state.spec.any fun spec => state.workflowReservations.values.any fun reservation =>
        reservation.released.isNone && spec.limits.maxChildren < state.childrenWith reservation) =
      true by decide +kernel)
  simp only [Option.any_eq_true, List.any_eq_true, Bool.and_eq_true, Option.isNone_iff_eq_none,
    decide_eq_true_eq] at hunfit
  obtain ⟨spec, hspec, reservation, hmem, hactive, hunfit⟩ := hunfit
  have hfits := (hall _ _ _ haccepted).2 spec hspec reservation hmem hactive
  omega

end Hseos
