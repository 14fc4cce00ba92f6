import Hseos.Session.Settlement

/-! # Workflow claims

A workflow belongs to whoever made its latest claim: the reservation, or a reclaim
of it after the claim expired. Replay holds checkpoints, revisions and releases to
that claim. A release ends the workflow, except that a workflow which was never
revised still takes checkpoints.
-/

namespace Hseos

/-- A claim on a workflow, as the event that makes it is referred to. -/
structure WorkflowClaim where
  ref : String
  expiresAt : Timestamp
  deriving DecidableEq

namespace SessionEvent

/-- The claim that an event makes on a workflow. -/
def claim? (workflowId : Identifier) (event : SessionEvent) : Option WorkflowClaim :=
  match event.payload with
  | .workflowReserved payload =>
      if payload.workflowId = workflowId then
        some ⟨sessionEventRef event.eventId, payload.claimExpiresAt⟩
      else none
  | .workflowReclaimed payload =>
      if payload.workflowId = workflowId then
        some ⟨sessionEventRef event.eventId, payload.claimExpiresAt⟩
      else none
  | _ => none

/-- The event releases a workflow. -/
def releases (workflowId : Identifier) (event : SessionEvent) : Bool :=
  match event.payload with
  | .workflowReleased payload => payload.workflowId = workflowId
  | _ => false

/-- The event revises a workflow. -/
def revises (workflowId : Identifier) (event : SessionEvent) : Bool :=
  match event.payload with
  | .workflowRevised payload => payload.workflowId = workflowId
  | _ => false

/-- The workflow of a checkpoint, of either kind. -/
def checkpointed? (event : SessionEvent) : Option Identifier :=
  match event.payload with
  | .workflowCheckpointed payload => some payload.workflowId
  | .workflowPhaseCheckpointed payload => some payload.workflowId
  | _ => none

/-- The workflow that a checkpoint, revision, reclaim or release goes on with. -/
def continued? (event : SessionEvent) : Option Identifier :=
  match event.payload with
  | .workflowCheckpointed payload => some payload.workflowId
  | .workflowPhaseCheckpointed payload => some payload.workflowId
  | .workflowRevised payload => some payload.workflowId
  | .workflowReclaimed payload => some payload.workflowId
  | .workflowReleased payload => some payload.workflowId
  | _ => none

/-- The workflow and the claim that a phase checkpoint, revision or release names. -/
def claimed? (event : SessionEvent) : Option (Identifier × Reference) :=
  match event.payload with
  | .workflowPhaseCheckpointed payload => some (payload.workflowId, payload.claimRef)
  | .workflowRevised payload => some (payload.workflowId, payload.claimRef)
  | .workflowReleased payload => some (payload.workflowId, payload.claimRef)
  | _ => none

/-- The workflow that an event reclaims. -/
def reclaimed? (event : SessionEvent) : Option Identifier :=
  match event.payload with
  | .workflowReclaimed payload => some payload.workflowId
  | _ => none

end SessionEvent

/-- The claim of the most recent reservation or reclaim of a workflow. -/
def latestClaim (workflowId : Identifier) (events : List SessionEvent) : Option WorkflowClaim :=
  (events.filterMap (SessionEvent.claim? workflowId)).getLast?

/-! ## Reservations along a stream -/

/-- What an event does to the reservation of a workflow. -/
inductive ReservationStep (event : SessionEvent) (workflowId : Identifier) :
    Option WorkflowReservation → Option WorkflowReservation → Prop where
  | keep {reservation : Option WorkflowReservation} (hclaim : event.claim? workflowId = none)
      (hreleases : event.releases workflowId = false) (hrevises : event.revises workflowId = false) :
      ReservationStep event workflowId reservation reservation
  | reserve {payload : WorkflowReservedPayload} (hpayload : event.payload = .workflowReserved payload)
      (hid : payload.workflowId = workflowId) :
      ReservationStep event workflowId none (some (newReservation event payload))
  | revise {payload : WorkflowRevisedPayload} {reservation : WorkflowReservation}
      (hpayload : event.payload = .workflowRevised payload) (hid : payload.workflowId = workflowId) :
      ReservationStep event workflowId (some reservation) (some (reservation.revise event payload))
  | reclaim {payload : WorkflowReclaimedPayload} {reservation : WorkflowReservation}
      (hpayload : event.payload = .workflowReclaimed payload) (hid : payload.workflowId = workflowId) :
      ReservationStep event workflowId (some reservation) (some (reservation.reclaim event payload))
  | release {payload : WorkflowReleasedPayload} {reservation : WorkflowReservation}
      (hpayload : event.payload = .workflowReleased payload) (hid : payload.workflowId = workflowId) :
      ReservationStep event workflowId (some reservation)
        (some (reservation.release ⟨payload.status, event.eventId⟩))

theorem reservationStep_of_transition {realm realm' : Realm} {state next : SessionState}
    {event : SessionEvent} (h : Transition realm state event realm' next) (workflowId : Identifier) :
    ReservationStep event workflowId (state.workflowReservations.get? workflowId)
      (next.workflowReservations.get? workflowId) := by
  -- the four events that write a reservation leave those of other workflows alone
  cases h with
  | @workflowReserved payload hpayload hfresh =>
      rw [SessionState.setReservation, JsObject.get?_set]
      split_ifs with hid
      · rw [hid, hfresh]
        exact .reserve hpayload rfl
      · exact .keep (by simp [SessionEvent.claim?, hpayload, Ne.symm hid])
          (by simp [SessionEvent.releases, hpayload]) (by simp [SessionEvent.revises, hpayload])
  | @workflowRevised payload reservation hpayload hreservation hactive hclaim =>
      rw [SessionState.setReservation, JsObject.get?_set]
      split_ifs with hid
      · rw [hid, hreservation]
        exact .revise hpayload rfl
      · exact .keep (by simp [SessionEvent.claim?, hpayload])
          (by simp [SessionEvent.releases, hpayload])
          (by simp [SessionEvent.revises, hpayload, Ne.symm hid])
  | @workflowReclaimed payload reservation hpayload hreservation hactive hclaim hexpired =>
      rw [SessionState.setReservation, JsObject.get?_set]
      split_ifs with hid
      · rw [hid, hreservation]
        exact .reclaim hpayload rfl
      · exact .keep (by simp [SessionEvent.claim?, hpayload, Ne.symm hid])
          (by simp [SessionEvent.releases, hpayload]) (by simp [SessionEvent.revises, hpayload])
  | @workflowReleased payload reservation hpayload hreservation hactive hclaim =>
      rw [SessionState.setReservation, JsObject.get?_set]
      split_ifs with hid
      · rw [hid, hreservation]
        exact .release hpayload rfl
      · exact .keep (by simp [SessionEvent.claim?, hpayload])
          (by simp [SessionEvent.releases, hpayload, Ne.symm hid])
          (by simp [SessionEvent.revises, hpayload])
  | _ =>
      refine .keep ?_ ?_ ?_ <;>
        simp_all [SessionEvent.claim?, SessionEvent.releases, SessionEvent.revises]

/-- The reservation of a workflow after a stream: its claim is the latest one, and
it has been released or revised if the stream did so. -/
structure ReservationFollows (workflowId : Identifier) (events : List SessionEvent)
    (reservation : Option WorkflowReservation) : Prop where
  claim : reservation.map (fun found => ⟨found.claimRef, found.claimExpiresAt⟩) =
    latestClaim workflowId events
  released : reservation.any (·.released.isSome) = events.any (·.releases workflowId)
  revised : reservation.any (·.revision.isSome) = events.any (·.revises workflowId)

theorem latestClaim_concat (workflowId : Identifier) (past : List SessionEvent)
    (event : SessionEvent) :
    latestClaim workflowId (past ++ [event]) =
      (event.claim? workflowId).or (latestClaim workflowId past) := by
  rw [latestClaim, filterMap_concat, List.getLast?_append]
  cases event.claim? workflowId <;> rfl

theorem ReservationFollows.step {workflowId : Identifier} {past : List SessionEvent}
    {event : SessionEvent} {reservation next : Option WorkflowReservation}
    (h : ReservationFollows workflowId past reservation)
    (hstep : ReservationStep event workflowId reservation next) :
    ReservationFollows workflowId (past ++ [event]) next := by
  obtain ⟨hclaim, hreleased, hrevised⟩ := h
  constructor
  · rw [latestClaim_concat, ← hclaim]
    cases hstep <;> simp_all [SessionEvent.claim?, newReservation, WorkflowReservation.revise,
      WorkflowReservation.reclaim, WorkflowReservation.release]
  · rw [List.any_append, ← hreleased]
    cases hstep <;> simp_all [SessionEvent.releases, newReservation, WorkflowReservation.revise,
      WorkflowReservation.reclaim, WorkflowReservation.release]
  · rw [List.any_append, ← hrevised]
    cases hstep <;> simp_all [SessionEvent.revises, newReservation, WorkflowReservation.revise,
      WorkflowReservation.reclaim, WorkflowReservation.release]

section

variable {realm : Realm} {events : List SessionEvent} {state : SessionState}

theorem Accepted.reservationFollows (h : Accepted realm events state) (workflowId : Identifier) :
    ReservationFollows workflowId events (state.workflowReservations.get? workflowId) := by
  refine h.history (P := fun past reached => ReservationFollows workflowId past
    (reached.workflowReservations.get? workflowId)) ⟨rfl, rfl, rfl⟩ ?_
  intro past before event realm₁ realm₂ next _ hbefore _ htransition
  have hnext := hbefore.step (reservationStep_of_transition htransition workflowId)
  exact hnext

/-! ## Fencing and finality -/

/-- Every phase checkpoint, revision and release names the latest claim of its workflow. -/
def ClaimsFence : List SessionEvent → Prop :=
  Throughout fun past event => ∀ claimed ∈ event.claimed?,
    (latestClaim claimed.1 past).map (·.ref) = some claimed.2.val

/-- Every reclaim happens strictly after the latest claim of its workflow expired. -/
def ReclaimsFollowExpiry : List SessionEvent → Prop :=
  Throughout fun past event => ∀ workflowId ∈ event.reclaimed?,
    ∃ claim, latestClaim workflowId past = some claim ∧
      dateParse claim.expiresAt < dateParse event.occurredAt

/-- Nothing goes on with a workflow that has been released. -/
def ReleasesFinal : List SessionEvent → Prop :=
  Throughout fun past event => ∀ workflowId ∈ event.continued?,
    past.any (·.releases workflowId) = false

/-- A workflow that takes a checkpoint after its release has been revised before. -/
def ReleasedCheckpointsRevised : List SessionEvent → Prop :=
  Throughout fun past event => ∀ workflowId ∈ event.checkpointed?,
    past.any (·.releases workflowId) = true → past.any (·.revises workflowId) = true

instance : Decidable (ReleasedCheckpointsRevised events) :=
  inferInstanceAs (Decidable (Throughout ..))

end

section

variable {realm realm' : Realm} {state next : SessionState} {event : SessionEvent}

/-- An event that names a claim names that of the reservation. -/
theorem claimed_step (h : Transition realm state event realm' next) {workflowId : Identifier}
    {ref : Reference} (hclaimed : event.claimed? = some (workflowId, ref)) :
    (state.workflowReservations.get? workflowId).map (·.claimRef) = some ref.val := by
  cases h with
  | workflowRevised hpayload hreservation hactive hclaim =>
      obtain ⟨rfl, rfl⟩ : _ ∧ _ := by simpa [SessionEvent.claimed?, hpayload] using hclaimed
      rw [hreservation, Option.map_some, hclaim]
  | workflowReleased hpayload hreservation hactive hclaim =>
      obtain ⟨rfl, rfl⟩ : _ ∧ _ := by simpa [SessionEvent.claimed?, hpayload] using hclaimed
      rw [hreservation, Option.map_some, hclaim]
  | workflowPhaseCheckpointed hpayload hreservation hclaim hrevised =>
      obtain ⟨rfl, rfl⟩ : _ ∧ _ := by simpa [SessionEvent.claimed?, hpayload] using hclaimed
      rw [hreservation, Option.map_some, hclaim]
  | _ => simp_all [SessionEvent.claimed?]

theorem reclaimed_step (h : Transition realm state event realm' next) {workflowId : Identifier}
    (hreclaimed : event.reclaimed? = some workflowId) :
    ∃ reservation, state.workflowReservations.get? workflowId = some reservation ∧
      dateParse reservation.claimExpiresAt < dateParse event.occurredAt := by
  cases h with
  | workflowReclaimed hpayload hreservation hactive hclaim hexpired =>
      obtain rfl : _ = _ := by simpa [SessionEvent.reclaimed?, hpayload] using hreclaimed
      exact ⟨_, hreservation, hexpired⟩
  | _ => simp_all [SessionEvent.reclaimed?]

/-- What goes on with a released workflow is a checkpoint, and the workflow was
never revised. -/
theorem continued_step (h : Transition realm state event realm' next) {workflowId : Identifier}
    (hcontinued : event.continued? = some workflowId)
    (hreleased : (state.workflowReservations.get? workflowId).any (·.released.isSome) = true) :
    event.checkpointed? = some workflowId ∧
      (state.workflowReservations.get? workflowId).any (·.revision.isSome) = false := by
  cases h with
  | workflowRevised hpayload hreservation hactive hclaim =>
      obtain rfl : _ = _ := by simpa [SessionEvent.continued?, hpayload] using hcontinued
      simp [hreservation, hactive] at hreleased
  | workflowReclaimed hpayload hreservation hactive hclaim hexpired =>
      obtain rfl : _ = _ := by simpa [SessionEvent.continued?, hpayload] using hcontinued
      simp [hreservation, hactive] at hreleased
  | workflowReleased hpayload hreservation hactive hclaim =>
      obtain rfl : _ = _ := by simpa [SessionEvent.continued?, hpayload] using hcontinued
      simp [hreservation, hactive] at hreleased
  | workflowCheckpointed hpayload hunrevised =>
      obtain rfl : _ = _ := by simpa [SessionEvent.continued?, hpayload] using hcontinued
      refine ⟨by simp [SessionEvent.checkpointed?, hpayload], ?_⟩
      cases hget : state.workflowReservations.get? _ with
      | none => rfl
      | some reservation => simp [hunrevised reservation hget]
  | workflowPhaseCheckpointed hpayload hreservation hclaim hrevised =>
      obtain rfl : _ = _ := by simpa [SessionEvent.continued?, hpayload] using hcontinued
      refine ⟨by simp [SessionEvent.checkpointed?, hpayload], ?_⟩
      rw [hreservation, Option.any_some] at hreleased ⊢
      by_contra hrevision
      rw [hrevised (Bool.not_eq_false _ ▸ hrevision)] at hreleased
      cases hreleased
  | _ => simp_all [SessionEvent.continued?]

end

section

variable {realm : Realm} {events : List SessionEvent} {state : SessionState}

theorem claimsFence_of_accepted (h : Accepted realm events state) : ClaimsFence events := by
  rintro past event future rfl ⟨workflowId, ref⟩ hclaimed
  obtain ⟨before, realm₁, realm₂, next, hpast, -, htransition, -⟩ := h.split
  have hclaim := claimed_step htransition hclaimed
  rw [← (hpast.reservationFollows workflowId).claim, Option.map_map]
  exact hclaim

theorem reclaimsFollowExpiry_of_accepted (h : Accepted realm events state) :
    ReclaimsFollowExpiry events := by
  rintro past event future rfl workflowId hreclaimed
  obtain ⟨before, realm₁, realm₂, next, hpast, -, htransition, -⟩ := h.split
  obtain ⟨reservation, hreservation, hexpired⟩ := reclaimed_step htransition hreclaimed
  refine ⟨⟨reservation.claimRef, reservation.claimExpiresAt⟩, ?_, hexpired⟩
  rw [← (hpast.reservationFollows workflowId).claim,
    show before.workflowReservations.get? workflowId = some reservation from hreservation]
  rfl

theorem releasesFinal_iff (h : Accepted realm events state) :
    ReleasesFinal events ↔ ReleasedCheckpointsRevised events := by
  constructor
  · intro hfinal past event future heq workflowId hcheckpointed hreleased
    have hcontinued : event.continued? = some workflowId := by
      unfold SessionEvent.checkpointed? at hcheckpointed
      unfold SessionEvent.continued?
      cases hpayload : event.payload <;> simp_all
    have hnot := hfinal past event future heq workflowId hcontinued
    rw [hreleased] at hnot
    cases hnot
  · rintro hrevised past event future rfl workflowId hcontinued
    obtain ⟨before, realm₁, realm₂, next, hpast, -, htransition, -⟩ := h.split
    have hfollows := hpast.reservationFollows workflowId
    by_contra hreleased
    rw [Bool.not_eq_false] at hreleased
    obtain ⟨hcheckpointed, hunrevised⟩ := continued_step htransition hcontinued
      (hfollows.released.trans hreleased)
    have hpastRevised := hrevised past event future rfl workflowId hcheckpointed hreleased
    have hfollowsRevised := hfollows.revised.symm.trans hunrevised
    rw [hpastRevised] at hfollowsRevised
    cases hfollowsRevised

/-- Claims fence and reclaims follow expiry in every accepted stream; releases are
final in it exactly when no workflow takes a checkpoint after its release without
having been revised. -/
theorem workflow_claims_iff (h : Accepted realm events state) :
    (ClaimsFence events ∧ ReclaimsFollowExpiry events ∧ ReleasesFinal events) ↔
      ReleasedCheckpointsRevised events := by
  rw [← releasesFinal_iff h]
  constructor
  · rintro ⟨-, -, hfinal⟩
    exact hfinal
  · intro hfinal
    exact ⟨claimsFence_of_accepted h, reclaimsFollowExpiry_of_accepted h, hfinal⟩

end

namespace Sample

def definitionDigest : Digest :=
  ⟨"sha256:0000000000000000000000000000000000000000000000000000000000000000", Eq.refl true⟩

/-- A workflow of one step is reserved. -/
def workflowReserved : SessionEvent :=
  event "e2" 2 (.workflowReserved ⟨ident "w1", definitionDigest, ident "k1",
    ⟨"2026-01-01T00:01:00Z", Eq.refl true⟩, 1, [ident "ch1"]⟩)

/-- The child of the step is attached. -/
def childAttached : SessionEvent :=
  event "e3" 3 (.childAttached (ident "ch1") (reference "ceiling"))

def reserved : List SessionEvent := [created, workflowReserved, childAttached]

def checkpoint : SessionPayload :=
  .workflowPhaseCheckpointed ⟨ident "w1", definitionDigest, reference "session-event://e2",
    ident "ph1", .pipeline, [ident "st1"], [ident "ch1"], reference "checkpoint"⟩

def release : SessionPayload :=
  .workflowReleased ⟨ident "w1", definitionDigest, reference "session-event://e2", .completed⟩

/-- The workflow is checkpointed and released. -/
def checkpointedWorkflow : List SessionEvent :=
  reserved ++ [event "e4" 4 checkpoint, event "e5" 5 release]

/-- The workflow is released and then checkpointed. -/
def releasedWorkflow : List SessionEvent :=
  reserved ++ [event "e4" 4 release, event "e5" 5 checkpoint]

end Sample

theorem checkpointedWorkflow_fenced : ∃ state, Accepted ⟨false⟩ Sample.checkpointedWorkflow state ∧
    ClaimsFence Sample.checkpointedWorkflow ∧ ReclaimsFollowExpiry Sample.checkpointedWorkflow ∧
    ReleasesFinal Sample.checkpointedWorkflow := by
  obtain ⟨state, haccepted, -⟩ := acceptsWith_iff.mp
    (show acceptsWith ⟨false⟩ Sample.checkpointedWorkflow (fun _ => true) = true by decide +kernel)
  exact ⟨state, haccepted, (workflow_claims_iff haccepted).mpr (by decide +kernel)⟩

/-- A released workflow that was never revised takes a checkpoint. -/
theorem releasedWorkflow_not_final :
    ¬ ∀ realm events state, (events.map SessionEvent.eventId).Nodup → Accepted realm events state →
      ClaimsFence events ∧ ReclaimsFollowExpiry events ∧ ReleasesFinal events := by
  intro hall
  obtain ⟨state, haccepted, -⟩ := acceptsWith_iff.mp
    (show acceptsWith ⟨false⟩ Sample.releasedWorkflow (fun _ => true) = true by decide +kernel)
  obtain ⟨-, -, hfinal⟩ := hall _ _ _ (by decide +kernel) haccepted
  have hreleased := hfinal (Sample.reserved ++ [Sample.event "e4" 4 Sample.release])
    (Sample.event "e5" 5 Sample.checkpoint) [] rfl (Sample.ident "w1") rfl
  exact absurd hreleased (by decide +kernel)

end Hseos
