import Hseos.Contracts.WorkflowCanonical
import Hseos.Session.WorkflowClaims
import Mathlib.Data.List.Chain

/-! # Workflow revisions

A revision appends phases to the definition that its reservation pins by digest.
The revisions of a reservation form a chain of definitions, and the checkpoints of
the workflow fit the last of them, whichever definition they were recorded under.
-/

namespace Hseos

/-! ## Chains of definitions -/

namespace WorkflowDefinition

/-- The next definition appends phases to this one. -/
structure ExtendedBy (definition next : WorkflowDefinition) : Prop where
  phases : definition.phases <+: next.phases
  longer : definition.phases.length < next.phases.length
  workflowId : next.workflowId = definition.workflowId
  subagentProviderId : next.subagentProviderId = definition.subagentProviderId
  maxParallelism : next.maxParallelism = definition.maxParallelism

/-- The children keep the parent's authority, and stay within its limits both one
by one and together. -/
structure WithinParent (definition : WorkflowDefinition) (spec : AgentSessionSpec) : Prop where
  authority : ∀ step ∈ definition.steps, step.childSpec.authorityRef = spec.authorityRef ∧
    step.childSpec.policyRef = spec.policyRef
  limits : ∀ step ∈ definition.steps, ∀ entry ∈ step.childSpec.limits.entries,
    entry.2 ≤ spec.limits.limit entry.1
  resources : ∀ name ∈ ["max_tokens", "max_tool_calls", "max_turns"],
    (definition.steps.map (·.childSpec.limits.limit name)).sum ≤ spec.limits.limit name

/-- A phase checkpoint agrees with the phase of its identifier. -/
def Fits (definition : WorkflowDefinition) (checkpoint : WorkflowPhaseCheckpointedPayload) : Prop :=
  ∃ phase, definition.phases.find? (·.phaseId = checkpoint.phaseId) = some phase ∧
    checkpoint.mode = phase.mode ∧ checkpoint.completedStepIds = phase.stepIds ∧
    checkpoint.childSessionIds = phase.childSessionIds

theorem Fits.mono {definition next : WorkflowDefinition}
    {checkpoint : WorkflowPhaseCheckpointedPayload} (h : definition.Fits checkpoint)
    (hphases : definition.phases <+: next.phases) : next.Fits checkpoint := by
  obtain ⟨phase, hfind, hmode, hsteps, hchildren⟩ := h
  obtain ⟨added, hadded⟩ := hphases
  refine ⟨phase, ?_, hmode, hsteps, hchildren⟩
  rw [← hadded, List.find?_append, hfind]
  rfl

end WorkflowDefinition

/-- The phase checkpoints of a workflow. -/
def SessionState.PhaseCheckpointed (state : SessionState) (workflowId : Identifier)
    (checkpoint : WorkflowPhaseCheckpointedPayload) : Prop :=
  checkpoint.workflowId = workflowId ∧
    ∃ eventId, WorkflowCheckpoint.phase checkpoint eventId ∈ state.workflowCheckpoints

/-- What a reservation, its revisions and the checkpoints of its workflow have to do
with each other. -/
structure RevisionChain (state : SessionState) (spec : AgentSessionSpec) (workflowId : Identifier)
    (reservation : WorkflowReservation) (revisions : List WorkflowRevision) : Prop where
  numbers : revisions.map (·.revision) = List.range' 1 revisions.length
  chain : revisions.IsChain fun a b => a.definition.ExtendedBy b.definition
  last : ∃ last, revisions.getLast? = some last ∧
    reservation.definitionDigest = digestOf last.definition.toJson ∧
    reservation.stepCount = last.definition.steps.length ∧
    reservation.childSessionIds = last.definition.childSessionIds ∧
    last.definition.WithinParent spec ∧
    ∀ checkpoint, state.PhaseCheckpointed workflowId checkpoint → last.definition.Fits checkpoint

/-! ## What the checks of a revision ensure -/

section

variable {state next : SessionState} {event : SessionEvent} {spec : AgentSessionSpec}
  {reservation : WorkflowReservation} {payload : WorkflowRevisedPayload}

/-- The definitions of a revision event are valid. -/
theorem definitions_valid (h : event.payload = .workflowRevised payload) :
    payload.previousDefinition.valid = true ∧ payload.definition.valid = true := by
  have hvalid := event.payload_valid
  simp only [h, SessionPayload.valid, Bool.and_eq_true] at hvalid
  exact ⟨hvalid.1.2, hvalid.2⟩

theorem checkRevisionExtends_eq_ok {u : Unit} (hevent : event.payload = .workflowRevised payload)
    (h : checkRevisionExtends reservation payload = .ok u) :
    payload.revision = reservation.revision.getD 1 + 1 ∧
      digestOf payload.previousDefinition.toJson = reservation.definitionDigest ∧
      payload.previousDefinition.ExtendedBy payload.definition ∧
      payload.previousDefinition.steps.length = reservation.stepCount := by
  obtain ⟨hprevious, hdefinition⟩ := definitions_valid hevent
  obtain ⟨hrevision, h⟩ := reject_bind_eq_ok_iff.mp h
  obtain ⟨hpinned, h⟩ := reject_bind_eq_ok_iff.mp h
  have happended := reject_eq_ok_iff.mp h
  simp only [Bool.or_eq_false_iff, decide_eq_false_iff_not, not_not] at hrevision hpinned happended
  obtain ⟨⟨⟨⟨hworkflow, hworkflow'⟩, hdigest⟩, hcount⟩, -⟩ := hpinned
  obtain ⟨⟨⟨hprovider, hparallel⟩, hlonger⟩, hphases⟩ := happended
  have htake := faithful_phases.eq_of_canonicalJson_eq
    (fun phase hphase => payload.definition.phases_valid hdefinition phase
      (List.mem_of_mem_take hphase))
    (payload.previousDefinition.phases_valid hprevious) hphases
  refine ⟨hrevision, hdigest, ⟨?_, Nat.lt_of_not_le hlonger, hworkflow'.trans hworkflow.symm,
    hprovider, hparallel⟩, hcount⟩
  rw [← htake]
  exact List.take_prefix _ _

theorem checkRevisionStep_eq_ok {step : WorkflowStep} {u : Unit}
    (h : checkRevisionStep state spec step = .ok u) :
    (step.childSpec.authorityRef = spec.authorityRef ∧ step.childSpec.policyRef = spec.policyRef) ∧
      ∀ entry ∈ step.childSpec.limits.entries, entry.2 ≤ spec.limits.limit entry.1 := by
  obtain ⟨hauthority, h⟩ := reject_bind_eq_ok_iff.mp h
  simp only [Bool.or_eq_false_iff, decide_eq_false_iff_not, not_not] at hauthority
  refine ⟨⟨hauthority.1.2, hauthority.2⟩, ?_⟩
  split at h
  next => exact (throw_eq_ok_iff.mp h).elim
  next hnone => simpa using hnone

theorem checkRevisionResources_eq_ok {definition : WorkflowDefinition} {u : Unit}
    (h : checkRevisionResources spec definition = .ok u) :
    ∀ name ∈ ["max_tokens", "max_tool_calls", "max_turns"],
      (definition.steps.map (·.childSpec.limits.limit name)).sum ≤ spec.limits.limit name := by
  unfold checkRevisionResources at h
  split at h
  next => exact (throw_eq_ok_iff.mp h).elim
  next hnone => simpa using hnone

theorem assertWorkflowCheckpoint_eq_ok {checkpoint : WorkflowPhaseCheckpointedPayload}
    {definition : Option WorkflowDefinition} {u : Unit}
    (h : assertWorkflowCheckpoint checkpoint definition = .ok u) :
    ∃ pinned, definition = some pinned ∧ pinned.Fits checkpoint := by
  unfold assertWorkflowCheckpoint at h
  split at h
  next => exact (throw_eq_ok_iff.mp h).elim
  next pinned =>
    split at h
    next => exact (throw_eq_ok_iff.mp h).elim
    next phase hfind =>
      have hsame := reject_eq_ok_iff.mp h
      simp only [Bool.or_eq_false_iff, decide_eq_false_iff_not, not_not] at hsame
      obtain ⟨⟨⟨-, hmode⟩, hsteps⟩, hchildren⟩ := hsame
      exact ⟨pinned, rfl, phase, hfind, hmode,
        faithful_texts.eq_of_canonicalJson_eq trivial trivial hsteps,
        faithful_texts.eq_of_canonicalJson_eq trivial trivial hchildren⟩

/-- A definition pinned by a history is one of its definitions. -/
theorem exists_of_pinnedDefinition {history : List WorkflowRevision} {definitionDigest : Digest}
    {definition : WorkflowDefinition}
    (h : pinnedDefinition history definitionDigest = some definition) :
    ∃ revision ∈ history, revision.definition = definition := by
  obtain ⟨revision, hfind, hdefinition⟩ := Option.map_eq_some_iff.mp h
  exact ⟨revision, List.mem_of_find?_eq_some hfind, hdefinition⟩

theorem checkRevisionCheckpoints_eq_ok {workflowId : Identifier} {history : List WorkflowRevision}
    {u : Unit} (h : checkRevisionCheckpoints state workflowId history = .ok u)
    {checkpoint : WorkflowPhaseCheckpointedPayload}
    (hcheckpoint : state.PhaseCheckpointed workflowId checkpoint) :
    ∃ revision ∈ history, revision.definition.Fits checkpoint := by
  obtain ⟨hworkflow, eventId, hmem⟩ := hcheckpoint
  have hfits := forM_eq_ok h (.phase checkpoint eventId)
    (List.mem_filter.mpr ⟨hmem, decide_eq_true hworkflow⟩)
  obtain ⟨pinned, hpinned, hfits⟩ := assertWorkflowCheckpoint_eq_ok hfits
  obtain ⟨revision, hrevision, rfl⟩ := exists_of_pinnedDefinition hpinned
  exact ⟨revision, hrevision, hfits⟩

/-- A checkpoint accepted under a revised reservation fits one of its definitions. -/
theorem checkRevisedCheckpoint_eq_ok {checkpoint : WorkflowPhaseCheckpointedPayload}
    {revisions : List WorkflowRevision} {u : Unit}
    (h : checkRevisedCheckpoint state reservation checkpoint = .ok u)
    (hrevision : reservation.revision.isSome = true) (hrevisions : reservation.revisions = some revisions) :
    ∃ revision ∈ revisions, revision.definition.Fits checkpoint := by
  obtain ⟨revision, hrevision⟩ := Option.isSome_iff_exists.mp hrevision
  rw [checkRevisedCheckpoint, hrevision] at h
  obtain ⟨-, h⟩ := reject_bind_eq_ok_iff.mp h
  obtain ⟨pinned, hpinned, hfits⟩ := assertWorkflowCheckpoint_eq_ok h
  rw [hrevisions] at hpinned
  obtain ⟨revision, hmem, rfl⟩ := exists_of_pinnedDefinition hpinned
  exact ⟨revision, hmem, hfits⟩

end

/-! ## Definitions of a stream -/

/-- The definitions that a revision event carries. -/
def SessionEvent.definitions (event : SessionEvent) : List WorkflowDefinition :=
  match event.payload with
  | .workflowRevised payload => [payload.previousDefinition, payload.definition]
  | _ => []

/-- No two definitions of the stream with different texts have the same digest. -/
def DigestsDiffer (events : List SessionEvent) : Prop :=
  ∀ a ∈ events.flatMap SessionEvent.definitions, ∀ b ∈ events.flatMap SessionEvent.definitions,
    digestOf a.toJson = digestOf b.toJson → canonicalJson a.toJson = canonicalJson b.toJson

theorem DigestsDiffer.of_isPrefix {past events : List SessionEvent} (h : DigestsDiffer events)
    (hpast : past <+: events) : DigestsDiffer past := by
  have hsubset : ∀ a ∈ past.flatMap SessionEvent.definitions,
      a ∈ events.flatMap SessionEvent.definitions := by
    intro a ha
    obtain ⟨event, hevent, ha⟩ := List.mem_flatMap.mp ha
    exact List.mem_flatMap.mpr ⟨event, hpast.subset hevent, ha⟩
  exact fun a ha b hb => h a (hsubset a ha) b (hsubset b hb)

/-! ## Revised reservations along a stream -/

/-- A chain of revisions together with where its definitions come from. -/
structure Revised (past : List SessionEvent) (state : SessionState) (spec : AgentSessionSpec)
    (workflowId : Identifier) (reservation : WorkflowReservation)
    (revisions : List WorkflowRevision) : Prop extends
    RevisionChain state spec workflowId reservation revisions where
  revision : reservation.revision = some revisions.length
  recorded : ∀ revision ∈ revisions, revision.definition.valid = true ∧
    revision.definition ∈ past.flatMap SessionEvent.definitions
  phases : ∀ revision ∈ revisions, ∀ last, revisions.getLast? = some last →
    revision.definition.phases <+: last.definition.phases

/-- A reservation has a revision number exactly when it has revisions, and they
form a chain. -/
structure ReservationRevised (past : List SessionEvent) (state : SessionState)
    (workflowId : Identifier) (reservation : WorkflowReservation) : Prop where
  unrevised : reservation.revisions = none → reservation.revision = none
  revised : ∀ revisions, reservation.revisions = some revisions →
    ∃ spec, state.spec = some spec ∧ Revised past state spec workflowId reservation revisions

/-- What a claim or a release leaves alone. -/
structure SameRevisions (a b : WorkflowReservation) : Prop where
  revision : a.revision = b.revision
  revisions : a.revisions = b.revisions
  definitionDigest : a.definitionDigest = b.definitionDigest
  stepCount : a.stepCount = b.stepCount
  childSessionIds : a.childSessionIds = b.childSessionIds

section

variable {past : List SessionEvent} {state next : SessionState} {event : SessionEvent}
  {workflowId : Identifier} {reservation other : WorkflowReservation}

theorem mem_definitions_concat {definition : WorkflowDefinition}
    (h : definition ∈ past.flatMap SessionEvent.definitions) :
    definition ∈ (past ++ [event]).flatMap SessionEvent.definitions := by
  rw [List.flatMap_append]
  exact List.mem_append_left _ h

/-- New checkpoints that fit some definition of the chain keep it. -/
theorem ReservationRevised.keep (h : ReservationRevised past state workflowId reservation)
    (hsame : SameRevisions other reservation) (hspec : next.spec = state.spec)
    (hcheckpoints : ∀ checkpoint, next.PhaseCheckpointed workflowId checkpoint →
      state.PhaseCheckpointed workflowId checkpoint ∨
        ∀ revisions, reservation.revisions = some revisions →
          ∃ revision ∈ revisions, revision.definition.Fits checkpoint) :
    ReservationRevised (past ++ [event]) next workflowId other := by
  constructor
  · intro hnone
    rw [hsame.revision]
    exact h.unrevised (hsame.revisions.symm.trans hnone)
  · intro revisions hrevisions
    have hbefore := hsame.revisions.symm.trans hrevisions
    obtain ⟨spec, hstate, hrevised⟩ := h.revised revisions hbefore
    obtain ⟨last, hlast, hdigest, hcount, hchildren, hwithin, hfits⟩ := hrevised.last
    refine ⟨spec, hspec.trans hstate, ⟨hrevised.numbers, hrevised.chain, last, hlast,
      hsame.definitionDigest.trans hdigest, hsame.stepCount.trans hcount,
      hsame.childSessionIds.trans hchildren, hwithin, ?_⟩, hsame.revision.trans hrevised.revision,
      ?_, hrevised.phases⟩
    · intro checkpoint hcheckpoint
      rcases hcheckpoints checkpoint hcheckpoint with hold | hnew
      · exact hfits checkpoint hold
      · obtain ⟨revision, hmem, hfit⟩ := hnew revisions hbefore
        exact hfit.mono (hrevised.phases revision hmem last hlast)
    · intro revision hmem
      exact ⟨(hrevised.recorded revision hmem).1,
        mem_definitions_concat (hrevised.recorded revision hmem).2⟩

/-- The history that a revision continues ends in the definition it extends. -/
structure HistoryEnds (events : List SessionEvent) (history : List WorkflowRevision)
    (payload : WorkflowRevisedPayload) : Prop where
  numbers : history.map (·.revision) = List.range' 1 history.length
  chain : history.IsChain fun a b => a.definition.ExtendedBy b.definition
  last : ∃ last, history.getLast? = some last ∧ last.definition = payload.previousDefinition
  phases : ∀ revision ∈ history,
    revision.definition.phases <+: payload.previousDefinition.phases
  recorded : ∀ revision ∈ history, revision.definition.valid = true ∧
    revision.definition ∈ events.flatMap SessionEvent.definitions
  revision : payload.revision = history.length + 1

theorem mem_definitions_of_revised {payload : WorkflowRevisedPayload}
    (h : event.payload = .workflowRevised payload) :
    payload.previousDefinition ∈ (past ++ [event]).flatMap SessionEvent.definitions ∧
      payload.definition ∈ (past ++ [event]).flatMap SessionEvent.definitions := by
  simp [List.flatMap_append, SessionEvent.definitions, h]

/-- Equal digests make the definition that a revision extends the last one. -/
theorem ReservationRevised.historyEnds {payload : WorkflowRevisedPayload}
    (h : ReservationRevised past state workflowId reservation)
    (hdigests : DigestsDiffer (past ++ [event])) (hpayload : event.payload = .workflowRevised payload)
    (hextends : checkRevisionExtends reservation payload = .ok ()) :
    HistoryEnds (past ++ [event]) (reservation.history payload.previousDefinition) payload := by
  obtain ⟨hrevision, hdigest, -⟩ := checkRevisionExtends_eq_ok hpayload hextends
  have hprevious := (definitions_valid hpayload).1
  have hrecorded : payload.previousDefinition ∈ (past ++ [event]).flatMap SessionEvent.definitions :=
    (mem_definitions_of_revised hpayload).1
  cases hrevisions : reservation.revisions with
  | none =>
      rw [h.unrevised hrevisions] at hrevision
      rw [WorkflowReservation.history, hrevisions, Option.getD_none]
      refine ⟨rfl, List.IsChain.singleton _, ⟨_, rfl, rfl⟩, by simp, ?_, hrevision⟩
      intro revision hmem
      rw [List.mem_singleton.mp hmem]
      exact ⟨hprevious, hrecorded⟩
  | some revisions =>
      obtain ⟨spec, -, hrevised⟩ := h.revised revisions hrevisions
      obtain ⟨last, hlast, hpinned, -⟩ := hrevised.last
      have hmem := List.mem_of_getLast? hlast
      have hsame : last.definition = payload.previousDefinition :=
        faithful_definition.eq_of_canonicalJson_eq (hrevised.recorded last hmem).1 hprevious
          (hdigests _ (mem_definitions_concat (hrevised.recorded last hmem).2) _ hrecorded
            (hpinned.symm.trans hdigest.symm))
      rw [hrevised.revision] at hrevision
      rw [WorkflowReservation.history, hrevisions, Option.getD_some]
      refine ⟨hrevised.numbers, hrevised.chain, ⟨last, hlast, hsame⟩, ?_, ?_, hrevision⟩
      · intro revision hrevision
        rw [← hsame]
        exact hrevised.phases revision hrevision last hlast
      · intro revision hrevision
        exact ⟨(hrevised.recorded revision hrevision).1,
          mem_definitions_concat (hrevised.recorded revision hrevision).2⟩

/-- A revision extends the chain by its definition. -/
theorem HistoryEnds.revise {payload : WorkflowRevisedPayload} {spec : AgentSessionSpec}
    (h : HistoryEnds (past ++ [event]) (reservation.history payload.previousDefinition) payload)
    (hpayload : event.payload = .workflowRevised payload)
    (hextended : payload.previousDefinition.ExtendedBy payload.definition)
    (hspec : next.spec = some spec) (hwithin : payload.definition.WithinParent spec)
    (hcheckpoints : ∀ checkpoint, next.PhaseCheckpointed workflowId checkpoint →
      ∃ revision ∈ reservation.history payload.previousDefinition,
        revision.definition.Fits checkpoint) :
    ReservationRevised (past ++ [event]) next workflowId (reservation.revise event payload) := by
  obtain ⟨last, hlast, hprevious⟩ := h.last
  have hphases : ∀ revision ∈ reservation.history payload.previousDefinition,
      revision.definition.phases <+: payload.definition.phases :=
    fun revision hrevision => (h.phases revision hrevision).trans hextended.phases
  refine ⟨by simp [WorkflowReservation.revise], ?_⟩
  rintro _ ⟨⟩
  refine ⟨spec, hspec, ⟨?_, ?_, ⟨_, List.getLast?_concat, rfl, rfl, rfl, hwithin, ?_⟩⟩, ?_, ?_, ?_⟩
  · rw [List.map_append, List.length_append, List.length_singleton, List.range'_concat, h.numbers,
      List.map_singleton, h.revision]
    simp [Nat.add_comm]
  · refine List.isChain_append.mpr ⟨h.chain, List.IsChain.singleton _, ?_⟩
    intro a ha b hb
    obtain rfl := Option.some.inj (hlast.symm.trans ha)
    obtain rfl := Option.some.inj hb
    rw [hprevious]
    exact hextended
  · intro checkpoint hcheckpoint
    obtain ⟨revision, hrevision, hfits⟩ := hcheckpoints checkpoint hcheckpoint
    exact hfits.mono (hphases revision hrevision)
  · simp [WorkflowReservation.revise, h.revision]
  · intro revision hrevision
    rcases List.mem_append.mp hrevision with hold | hnew
    · exact h.recorded revision hold
    · rw [List.mem_singleton.mp hnew]
      exact ⟨(definitions_valid hpayload).2, (mem_definitions_of_revised hpayload).2⟩
  · intro revision hrevision found hfound
    rw [List.getLast?_concat, Option.some.injEq] at hfound
    subst hfound
    rcases List.mem_append.mp hrevision with hold | hnew
    · exact hphases revision hold
    · rw [List.mem_singleton.mp hnew]

end

/-! ## Frames -/

section

variable {realm realm' : Realm} {past : List SessionEvent} {before state next : SessionState}
  {event : SessionEvent} {workflowId : Identifier} {reservation : WorkflowReservation}

theorem spec_step (h : Transition realm state event realm' next)
    (hcreated : ∀ spec, event.payload ≠ .sessionCreated spec) : next.spec = state.spec := by
  cases h with
  | sessionCreated hpayload => exact absurd hpayload (hcreated _)
  | _ => rfl

/-- A phase checkpoint was there before, or the event records it. -/
theorem phaseCheckpointed_step (h : Transition realm state event realm' next)
    {checkpoint : WorkflowPhaseCheckpointedPayload}
    (hcheckpoint : next.PhaseCheckpointed workflowId checkpoint) :
    state.PhaseCheckpointed workflowId checkpoint ∨
      event.payload = .workflowPhaseCheckpointed checkpoint ∧
        checkpoint.workflowId = workflowId := by
  obtain ⟨hworkflow, eventId, hmem⟩ := hcheckpoint
  cases h with
  | workflowCheckpointed =>
      rcases List.mem_append.mp hmem with hold | hnew
      · exact .inl ⟨hworkflow, eventId, hold⟩
      · exact absurd hnew (by simp)
  | workflowPhaseCheckpointed hpayload =>
      rcases List.mem_append.mp hmem with hold | hnew
      · exact .inl ⟨hworkflow, eventId, hold⟩
      · obtain ⟨rfl, -⟩ := WorkflowCheckpoint.phase.inj (List.mem_singleton.mp hnew)
        exact .inr ⟨hpayload, hworkflow⟩
  | _ => exact .inl ⟨hworkflow, eventId, hmem⟩

/-- The first event creates the session, and no other does. -/
theorem currentSequence_of_created {spec : AgentSessionSpec} {u : Unit}
    (h : checkAdmission before event = .ok u) (hcreated : event.payload = .sessionCreated spec) :
    before.currentSequence = 0 := by
  have hsequence := (checkAdmission_eq_ok h).1
  obtain ⟨-, h⟩ := reject_bind_eq_ok_iff.mp h
  obtain ⟨-, h⟩ := reject_bind_eq_ok_iff.mp h
  cases hterminal : before.terminalEvent with
  | some terminal =>
      rw [hterminal] at h
      exact (nomatch h)
  | none =>
      rw [hterminal] at h
      obtain ⟨-, h⟩ := reject_bind_eq_ok_iff.mp h
      obtain ⟨honce, -⟩ := reject_bind_eq_ok_iff.mp h
      simp only [hcreated, Bool.and_true, decide_eq_false_iff_not] at honce
      omega

theorem reviseWorkflow_of_applyEvent {payload : WorkflowRevisedPayload}
    (h : applyEvent realm state event = .ok (realm', next))
    (hpayload : event.payload = .workflowRevised payload) :
    reviseWorkflow state event payload = .ok next := by
  rw [applyEvent, hpayload] at h
  exact (keep_eq_ok h).2

theorem checkRevisedCheckpoint_of_applyEvent {checkpoint : WorkflowPhaseCheckpointedPayload}
    (h : applyEvent realm state event = .ok (realm', next))
    (hpayload : event.payload = .workflowPhaseCheckpointed checkpoint)
    (hreservation : state.workflowReservations.get? checkpoint.workflowId = some reservation) :
    checkRevisedCheckpoint state reservation checkpoint = .ok () := by
  rw [applyEvent, hpayload] at h
  obtain ⟨found, -, hfound, -, -, hcheck, -⟩ := applyWorkflowPhaseCheckpointed_eq_ok (keep_eq_ok h).2
  obtain rfl := Option.some.inj (hreservation.symm.trans hfound)
  exact hcheck

/-! ## Runs -/

/-- Every reservation of a stream has a chain of revisions, and there is none before
the session is created. -/
structure RevisionsChained (past : List SessionEvent) (state : SessionState) : Prop where
  created : state.currentSequence = 0 → ∀ workflowId,
    state.workflowReservations.get? workflowId = none
  reservations : ∀ workflowId reservation,
    state.workflowReservations.get? workflowId = some reservation →
    ReservationRevised past state workflowId reservation

theorem revisionsChained_step (h : RevisionsChained past before)
    (hdigests : DigestsDiffer (past ++ [event])) (hadmission : checkAdmission before event = .ok ())
    (happly : applyEvent realm (before.advance event) event = .ok (realm', next)) :
    RevisionsChained (past ++ [event]) (next.see event.eventId) := by
  have htransition := applyEvent_transition happly
  constructor
  · have hsequence := (checkAdmission_eq_ok hadmission).1
    intro hzero
    have hadvanced : (next.see event.eventId).currentSequence = event.sequence := by
      cases htransition <;> rfl
    omega
  · intro workflowId reservation hreservation
    -- a creation finds no reservation, so that the specification stays as it is
    have hspec : before.workflowReservations.get? workflowId ≠ none →
        (next.see event.eventId).spec = before.spec := by
      intro hsome
      have hcreated : ∀ spec, event.payload ≠ .sessionCreated spec := fun spec hpayload =>
        hsome (h.created (currentSequence_of_created hadmission hpayload) workflowId)
      have hframe := spec_step htransition hcreated
      exact hframe
    have hcheckpoints : ∀ found, before.workflowReservations.get? workflowId = some found →
        ∀ checkpoint, (next.see event.eventId).PhaseCheckpointed workflowId checkpoint →
          before.PhaseCheckpointed workflowId checkpoint ∨
            ∀ revisions, found.revisions = some revisions →
              ∃ revision ∈ revisions, revision.definition.Fits checkpoint := by
      intro found hfound checkpoint hcheckpoint
      rcases phaseCheckpointed_step htransition hcheckpoint with hold | ⟨hpayload, rfl⟩
      · exact .inl hold
      · refine .inr fun revisions hrevisions => ?_
        obtain ⟨spec, -, hrevised⟩ := (h.reservations _ found hfound).revised revisions hrevisions
        exact checkRevisedCheckpoint_eq_ok
          (checkRevisedCheckpoint_of_applyEvent happly hpayload hfound)
          (by rw [hrevised.revision]; rfl) hrevisions
    have hstep := reservationStep_of_transition htransition workflowId
    rw [show next.workflowReservations.get? workflowId = some reservation from hreservation] at hstep
    generalize hbefore : (before.advance event).workflowReservations.get? workflowId = found at hstep
    cases hstep with
    | keep =>
        exact (h.reservations _ _ hbefore).keep ⟨rfl, rfl, rfl, rfl, rfl⟩
          (hspec (Option.ne_none_iff_exists'.mpr ⟨_, hbefore⟩)) (hcheckpoints _ hbefore)
    | reserve => exact ⟨fun _ => rfl, fun _ hnone => nomatch hnone⟩
    | reclaim =>
        exact (h.reservations _ _ hbefore).keep ⟨rfl, rfl, rfl, rfl, rfl⟩
          (hspec (Option.ne_none_iff_exists'.mpr ⟨_, hbefore⟩)) (hcheckpoints _ hbefore)
    | release =>
        exact (h.reservations _ _ hbefore).keep ⟨rfl, rfl, rfl, rfl, rfl⟩
          (hspec (Option.ne_none_iff_exists'.mpr ⟨_, hbefore⟩)) (hcheckpoints _ hbefore)
    | @revise payload old hpayload hid =>
        subst hid
        obtain ⟨found, spec, hfound, -, -, hstate, hextends, -, hsteps, hresources, hhistory, -⟩ :=
          reviseWorkflow_eq_ok (reviseWorkflow_of_applyEvent happly hpayload)
        obtain rfl := Option.some.inj (hbefore.symm.trans hfound)
        have hends := (h.reservations _ _ hbefore).historyEnds hdigests hpayload hextends
        have hwithin : payload.definition.WithinParent spec :=
          ⟨fun step hstep => (checkRevisionStep_eq_ok (forM_eq_ok hsteps step hstep)).1,
            fun step hstep => (checkRevisionStep_eq_ok (forM_eq_ok hsteps step hstep)).2,
            checkRevisionResources_eq_ok hresources⟩
        refine hends.revise hpayload (checkRevisionExtends_eq_ok hpayload hextends).2.2.1
          ((hspec (Option.ne_none_iff_exists'.mpr ⟨_, hbefore⟩)).trans hstate) hwithin ?_
        intro checkpoint hcheckpoint
        refine checkRevisionCheckpoints_eq_ok hhistory ?_
        rcases phaseCheckpointed_step htransition hcheckpoint with hold | ⟨hcontra, -⟩
        · exact hold
        · rw [hpayload] at hcontra
          cases hcontra

end

/-- The revisions of a reservation in an accepted stream, whose definitions differ in
their digests when they differ, form a chain that its checkpoints and its parent's
limits fit. -/
theorem workflow_revision_chain {realm : Realm} {events : List SessionEvent} {state : SessionState}
    (h : Accepted realm events state) (hdigests : DigestsDiffer events) {workflowId : Identifier}
    {reservation : WorkflowReservation} {revisions : List WorkflowRevision}
    (hreservation : state.workflowReservations.get? workflowId = some reservation)
    (hrevisions : reservation.revisions = some revisions) :
    ∃ spec, state.spec = some spec ∧
      RevisionChain state spec workflowId reservation revisions := by
  have hchained : DigestsDiffer events → RevisionsChained events state := by
    refine h.applied (P := fun past reached => DigestsDiffer past → RevisionsChained past reached)
      (fun _ => ⟨fun _ _ => rfl, fun _ _ hnone => nomatch hnone⟩) ?_
    intro past before event realm₁ realm₂ next _ hpast hadmission happly hdigests
    exact revisionsChained_step (hpast (hdigests.of_isPrefix (List.prefix_append _ _))) hdigests
      hadmission happly
  obtain ⟨spec, hspec, hrevised⟩ :=
    ((hchained hdigests).reservations workflowId reservation hreservation).revised revisions hrevisions
  exact ⟨spec, hspec, hrevised.toRevisionChain⟩

namespace Sample

def childStep (stepId childId : String) (hstep : isIdentifier stepId = true := by exact Eq.refl true)
    (hchild : isIdentifier childId = true := by exact Eq.refl true) : WorkflowStep where
  stepId := ⟨stepId, hstep⟩
  childSpec := { spec with
    sessionId := ⟨childId, hchild⟩
    parentSessionId := some (ident "s1")
    limits := ⟨1, 100, 1000, 1, 1, 1⟩ }
  turnId := ident "t1"
  message := input

def firstPhase : WorkflowPhase := ⟨ident "ph1", .pipeline, [childStep "st1" "ch1"]⟩

def secondPhase : WorkflowPhase := ⟨ident "ph2", .parallel, [childStep "st2" "ch2"]⟩

def definition : WorkflowDefinition := ⟨ident "w1", ident "p1", 1, 1000, [firstPhase]⟩

def revisedDefinition : WorkflowDefinition := { definition with phases := [firstPhase, secondPhase] }

/-- A workflow is revised, and then takes a checkpoint made under its first definition. -/
def revisedWorkflow : List SessionEvent :=
  [created,
    event "e2" 2 (.workflowReserved ⟨ident "w1", digestOf definition.toJson, ident "k1",
      ⟨"2026-01-01T00:01:00Z", Eq.refl true⟩, 1, [ident "ch1"]⟩),
    childAttached,
    event "e4" 4 (.workflowRevised ⟨ident "w1", reference "session-event://e2", 2, definition,
      revisedDefinition⟩),
    event "e5" 5 (.workflowPhaseCheckpointed ⟨ident "w1", digestOf definition.toJson,
      reference "session-event://e2", ident "ph1", .pipeline, [ident "st1"], [ident "ch1"],
      reference "checkpoint"⟩)]

end Sample

theorem revisedWorkflow_chained : ∃ state spec reservation revisions,
    Accepted ⟨false⟩ Sample.revisedWorkflow state ∧ revisions.length = 2 ∧
      RevisionChain state spec (Sample.ident "w1") reservation revisions := by
  obtain ⟨state, haccepted, hstate⟩ := acceptsWith_iff.mp
    (show acceptsWith ⟨false⟩ Sample.revisedWorkflow (fun state =>
      ((state.workflowReservations.get? (Sample.ident "w1")).bind (·.revisions)).map List.length =
        some 2) = true by decide +kernel)
  obtain ⟨revisions, hrevisions, hlength⟩ := Option.map_eq_some_iff.mp (of_decide_eq_true hstate)
  obtain ⟨reservation, hreservation, hrevisions⟩ := Option.bind_eq_some_iff.mp hrevisions
  have hne : digestOf Sample.definition.toJson ≠ digestOf Sample.revisedDefinition.toJson := by
    decide +kernel
  have hdefinitions : Sample.revisedWorkflow.flatMap SessionEvent.definitions =
      [Sample.definition, Sample.revisedDefinition] := rfl
  have hdigests : DigestsDiffer Sample.revisedWorkflow := by
    rw [DigestsDiffer, hdefinitions]
    simp [hne, hne.symm]
  obtain ⟨spec, -, hchain⟩ := workflow_revision_chain haccepted hdigests hreservation hrevisions
  exact ⟨state, spec, reservation, revisions, haccepted, hlength, hchain⟩

end Hseos
