import Hseos.Session.History

/-! # Children and workflows

The events that attach children and reserve, revise, reclaim, checkpoint and
release workflows.
-/

namespace Hseos

variable {state next : SessionState} {event : SessionEvent}

def applyChildAttached (state : SessionState) (childSessionId : Identifier) : Replay SessionState := do
  reject (some childSessionId = state.sessionId)
    (replayError "session cannot attach itself as a child" "AGENT_SESSION_SELF_CHILD")
  reject (childSessionId ∈ state.children)
    (replayError "child session is already attached" "AGENT_SESSION_DUPLICATE_CHILD")
  let spec ← requireSpec state
  reject (spec.limits.maxChildren ≤ state.children.length)
    (replayError "session child limit is exhausted" "AGENT_SESSION_CHILD_LIMIT_EXCEEDED")
  return { state with children := state.children ++ [childSessionId] }

theorem applyChildAttached_eq_ok {childSessionId : Identifier}
    (h : applyChildAttached state childSessionId = .ok next) :
    next = { state with children := state.children ++ [childSessionId] } ∧
      some childSessionId ≠ state.sessionId ∧ childSessionId ∉ state.children ∧
      ∃ spec, state.spec = some spec ∧ state.children.length < spec.limits.maxChildren := by
  obtain ⟨hself, h⟩ := reject_bind_eq_ok_iff.mp h
  obtain ⟨hfresh, h⟩ := reject_bind_eq_ok_iff.mp h
  obtain ⟨spec, hspec, h⟩ := bind_eq_ok_iff.mp h
  obtain ⟨hlimit, h⟩ := reject_bind_eq_ok_iff.mp h
  exact ⟨(pure_eq_ok_iff.mp h).symm, by simpa using hself, by simpa using hfresh, spec,
    requireSpec_eq_ok hspec, by simpa using hlimit⟩

def applySubagentRequested (state : SessionState) (event : SessionEvent)
    (payload : SubagentRequestedPayload) : Replay SessionState := do
  reject (state.subagentRequest.isSome || state.turnOrder ≠ [])
    (replayError "subagent request must be unique and precede execution"
      "AGENT_SESSION_SUBAGENT_REQUEST_INVALID")
  return { state with subagentRequest := some ⟨payload, event.eventId⟩ }

theorem applySubagentRequested_eq_ok {payload : SubagentRequestedPayload}
    (h : applySubagentRequested state event payload = .ok next) :
    next = { state with subagentRequest := some ⟨payload, event.eventId⟩ } := by
  obtain ⟨-, h⟩ := reject_bind_eq_ok_iff.mp h
  exact (pure_eq_ok_iff.mp h).symm

/-- The checkpoints of workflows that have no reservation. -/
def SessionState.legacyCheckpoints (state : SessionState) : List WorkflowCheckpoint :=
  state.workflowCheckpoints.filter fun checkpoint =>
    !(state.workflowReservations.slot checkpoint.workflowId).truthy

/-- A reservation that has just been made. -/
def newReservation (event : SessionEvent) (payload : WorkflowReservedPayload) :
    WorkflowReservation where
  workflowId := payload.workflowId
  definitionDigest := payload.definitionDigest
  claimId := payload.claimId
  claimExpiresAt := payload.claimExpiresAt
  stepCount := payload.stepCount
  childSessionIds := payload.childSessionIds
  eventId := event.eventId
  claimRef := sessionEventRef event.eventId
  released := none
  revision := none
  revisions := none

def applyWorkflowReserved (state : SessionState) (event : SessionEvent)
    (payload : WorkflowReservedPayload) : Replay SessionState := do
  reject (state.workflowReservations.slot payload.workflowId).truthy
    (replayError "workflow reservation is already durable"
      "AGENT_SESSION_WORKFLOW_RESERVATION_DUPLICATE")
  let reservations := state.workflowReservations.values
  let reservedSteps := (reservations.map (·.stepCount)).sum
  let legacySteps := (state.legacyCheckpoints.map (·.stepCount)).sum
  let spec ← requireSpec state
  reject (spec.limits.maxWorkflowSteps < reservedSteps + legacySteps + payload.stepCount)
    (replayError "workflow reservation exceeds the parent step limit"
      "AGENT_SESSION_WORKFLOW_STEP_LIMIT_EXCEEDED")
  let newChildIds := payload.childSessionIds.filter (· ∉ state.children)
  reject (spec.limits.maxChildren < state.children.length + newChildIds.length)
    (replayError "workflow reservation exceeds the parent child limit"
      "AGENT_SESSION_WORKFLOW_CHILD_LIMIT_EXCEEDED")
  reject (reservations.any (·.released.isNone))
    (replayError "parent already has an active workflow reservation"
      "AGENT_SESSION_WORKFLOW_RESERVATION_ACTIVE")
  return state.setReservation payload.workflowId (newReservation event payload)

theorem applyWorkflowReserved_eq_ok {payload : WorkflowReservedPayload}
    (h : applyWorkflowReserved state event payload = .ok next) :
    state.workflowReservations.get? payload.workflowId = none ∧
      next = state.setReservation payload.workflowId (newReservation event payload) ∧
      (∀ reservation ∈ state.workflowReservations.values, reservation.released.isSome = true) ∧
      ∃ spec, state.spec = some spec ∧
        (state.workflowReservations.values.map (·.stepCount)).sum + payload.stepCount ≤
          spec.limits.maxWorkflowSteps ∧
        state.children.length + (payload.childSessionIds.filter (· ∉ state.children)).length ≤
          spec.limits.maxChildren := by
  obtain ⟨hfresh, h⟩ := reject_bind_eq_ok_iff.mp h
  obtain ⟨spec, hspec, h⟩ := bind_eq_ok_iff.mp h
  obtain ⟨hsteps, h⟩ := reject_bind_eq_ok_iff.mp h
  obtain ⟨hchildren, h⟩ := reject_bind_eq_ok_iff.mp h
  obtain ⟨hactive, h⟩ := reject_bind_eq_ok_iff.mp h
  simp only [decide_eq_false_iff_not, not_lt] at hsteps hchildren
  refine ⟨JsObject.get?_eq_none_of_slot_not_truthy hfresh, (pure_eq_ok_iff.mp h).symm, ?_, spec,
    requireSpec_eq_ok hspec, by omega, hchildren⟩
  intro reservation hmem
  have hreleased := List.any_eq_false.mp hactive reservation hmem
  exact Option.isSome_iff_ne_none.mpr (by simpa using hreleased)

def checkpointInvalid : ReplayFailure :=
  replayError "workflow checkpoint differs from its pinned phase"
    "AGENT_SESSION_WORKFLOW_CHECKPOINT_INVALID"

def assertWorkflowCheckpoint (checkpoint : WorkflowPhaseCheckpointedPayload)
    (definition : Option WorkflowDefinition) : Replay Unit :=
  match definition with
  | none => throw checkpointInvalid
  | some definition =>
      match definition.phases.find? (·.phaseId = checkpoint.phaseId) with
      | none => throw checkpointInvalid
      | some phase =>
          reject (checkpoint.definitionDigest ≠ digestOf definition.toJson ||
              checkpoint.mode ≠ phase.mode ||
              canonicalJson (.ofTexts checkpoint.completedStepIds) ≠
                canonicalJson (.ofTexts phase.stepIds) ||
              canonicalJson (.ofTexts checkpoint.childSessionIds) ≠
                canonicalJson (.ofTexts phase.childSessionIds))
            checkpointInvalid

/-- The definition that a revision history pins under a digest. -/
def pinnedDefinition (history : List WorkflowRevision) (definitionDigest : Digest) :
    Option WorkflowDefinition :=
  (history.find? (·.definitionDigest = definitionDigest)).map (·.definition)

/-- The revisions of a reservation; before the first one, the definition it was made with. -/
def WorkflowReservation.history (reservation : WorkflowReservation)
    (previous : WorkflowDefinition) : List WorkflowRevision :=
  reservation.revisions.getD
    [⟨1, reservation.definitionDigest, previous, reservation.eventId⟩]

/-- The revision extends the pinned definition by phases only. -/
def checkRevisionExtends (reservation : WorkflowReservation) (payload : WorkflowRevisedPayload) :
    Replay Unit := do
  let previous := payload.previousDefinition
  let definition := payload.definition
  reject (payload.revision ≠ reservation.revision.getD 1 + 1)
    (replayError "workflow revision must advance exactly once"
      "AGENT_SESSION_WORKFLOW_REVISION_INVALID")
  reject (previous.workflowId ≠ payload.workflowId || definition.workflowId ≠ payload.workflowId ||
      digestOf previous.toJson ≠ reservation.definitionDigest ||
      previous.steps.length ≠ reservation.stepCount ||
      canonicalJson (.ofTexts previous.childSessionIds) ≠
        canonicalJson (.ofTexts reservation.childSessionIds))
    (replayError "workflow revision does not extend the pinned definition"
      "AGENT_SESSION_WORKFLOW_DEFINITION_CONFLICT")
  reject (definition.subagentProviderId ≠ previous.subagentProviderId ||
      definition.maxParallelism ≠ previous.maxParallelism ||
      definition.phases.length ≤ previous.phases.length ||
      canonicalJson (phasesJson (definition.phases.take previous.phases.length)) ≠
        canonicalJson (phasesJson previous.phases))
    (replayError "workflow revisions may only append phases"
      "AGENT_SESSION_WORKFLOW_REVISION_RETROACTIVE")

/-- The children and steps of the revision fit the parent session. -/
def checkRevisionLimits (state : SessionState) (spec : AgentSessionSpec)
    (reservation : WorkflowReservation) (payload : WorkflowRevisedPayload) : Replay Unit := do
  let childIds := payload.definition.childSessionIds
  let others := state.workflowReservations.values.filter (·.workflowId ≠ payload.workflowId)
  let foreignChildren := others.flatMap (·.childSessionIds)
  reject (childIds.any (· ∈ foreignChildren))
    (replayError "workflow child identity belongs to another reservation"
      "AGENT_SESSION_WORKFLOW_CHILD_INVALID")
  let legacy := state.legacyCheckpoints
  reject (spec.limits.maxWorkflowSteps < payload.definition.steps.length +
      (others.map (·.stepCount)).sum + (legacy.map (·.stepCount)).sum)
    (replayError "workflow revision exceeds the parent step limit"
      "AGENT_SESSION_WORKFLOW_STEP_LIMIT_EXCEEDED")
  reject (spec.limits.maxChildren < (state.children ++ childIds ++ foreignChildren).dedup.length)
    (replayError "workflow revision exceeds the parent child limit"
      "AGENT_SESSION_WORKFLOW_CHILD_LIMIT_EXCEEDED")
  reject (others ≠ [] || legacy ≠ [] ||
      state.children.any (· ∉ reservation.childSessionIds) || state.turnOrder ≠ [] ||
      state.operationIds ≠ [] || 0 < state.toolInvocations.size ||
      state.reconciliationReservedTokens ≠ 0)
    (replayError "workflow revision has unknown competing resource commitments"
      "AGENT_SESSION_WORKFLOW_BUDGET_UNKNOWN")

/-- A step's child keeps the parent's authority and limits. -/
def checkRevisionStep (state : SessionState) (spec : AgentSessionSpec) (step : WorkflowStep) :
    Replay Unit := do
  let child := step.childSpec
  reject (some child.sessionId = state.sessionId || child.parentSessionId ≠ state.sessionId ||
      child.authorityRef ≠ spec.authorityRef || child.policyRef ≠ spec.policyRef)
    (replayError "workflow child changes parent authority"
      "AGENT_SESSION_WORKFLOW_AUTHORITY_WIDENING")
  match child.limits.entries.find? fun entry => spec.limits.limit entry.1 < entry.2 with
  | some entry => throw (.replay "workflow child widens a parent limit"
      "AGENT_SESSION_WORKFLOW_LIMIT_WIDENING" [("limit", .str entry.1)])
  | none => return ()

/-- The children together stay within the parent's resources. -/
def checkRevisionResources (spec : AgentSessionSpec) (definition : WorkflowDefinition) :
    Replay Unit := do
  match ["max_tokens", "max_tool_calls", "max_turns"].find? fun name =>
      spec.limits.limit name < (definition.steps.map (·.childSpec.limits.limit name)).sum with
  | some name => throw (.replay "workflow revision exceeds aggregate resources"
      "AGENT_SESSION_WORKFLOW_RESOURCE_LIMIT_EXCEEDED" [("limit", .str name)])
  | none =>
      reject (spec.limits.maxDurationMs < definition.windows * definition.joinTimeoutMs)
        (replayError "workflow revision exceeds original duration"
          "AGENT_SESSION_WORKFLOW_DURATION_LIMIT_EXCEEDED")

/-- Every checkpoint of the workflow fits a definition of the history. -/
def checkRevisionCheckpoints (state : SessionState) (workflowId : Identifier)
    (history : List WorkflowRevision) : Replay Unit :=
  (state.workflowCheckpoints.filter (·.workflowId = workflowId)).forM fun checkpoint =>
    match checkpoint with
    | .step .. => throw checkpointInvalid
    | .phase payload _ =>
        assertWorkflowCheckpoint payload (pinnedDefinition history payload.definitionDigest)

/-- The reservation after a revision. -/
def WorkflowReservation.revise (reservation : WorkflowReservation) (event : SessionEvent)
    (payload : WorkflowRevisedPayload) : WorkflowReservation :=
  { reservation with
    revision := some payload.revision
    revisions := some (reservation.history payload.previousDefinition ++
      [⟨payload.revision, digestOf payload.definition.toJson, payload.definition, event.eventId⟩])
    definitionDigest := digestOf payload.definition.toJson
    stepCount := payload.definition.steps.length
    childSessionIds := payload.definition.childSessionIds }

/-- The progress of workflows after a revision: one under way follows the new definition. -/
def revisedWorkflows (state : SessionState) (payload : WorkflowRevisedPayload) :
    JsObject Identifier WorkflowProgress :=
  match state.workflows.get? payload.workflowId with
  | some progress => state.workflows.set payload.workflowId
      { progress with definitionDigest := digestOf payload.definition.toJson }
  | none => state.workflows

def reviseWorkflow (state : SessionState) (event : SessionEvent) (payload : WorkflowRevisedPayload) :
    Replay SessionState := do
  let inactive := replayError "workflow revision requires the active uncancelled claim"
    "AGENT_SESSION_WORKFLOW_CLAIM_INVALID"
  match state.workflowReservations.slot payload.workflowId with
  | .absent | .inherited => throw inactive
  | .own reservation =>
      reject (reservation.released.isSome || reservation.claimRef ≠ payload.claimRef.val ||
        state.cancellationRequest.isSome) inactive
      checkRevisionExtends reservation payload
      let spec ← requireSpec state
      checkRevisionLimits state spec reservation payload
      payload.definition.steps.forM (checkRevisionStep state spec)
      checkRevisionResources spec payload.definition
      checkRevisionCheckpoints state payload.workflowId
        (reservation.history payload.previousDefinition)
      return { state.setReservation payload.workflowId (reservation.revise event payload) with
        workflows := revisedWorkflows state payload }

theorem reviseWorkflow_eq_ok {payload : WorkflowRevisedPayload}
    (h : reviseWorkflow state event payload = .ok next) :
    ∃ reservation spec, state.workflowReservations.get? payload.workflowId = some reservation ∧
      reservation.released = none ∧ reservation.claimRef = payload.claimRef.val ∧
      state.spec = some spec ∧ checkRevisionExtends reservation payload = .ok () ∧
      checkRevisionLimits state spec reservation payload = .ok () ∧
      payload.definition.steps.forM (checkRevisionStep state spec) = .ok () ∧
      checkRevisionResources spec payload.definition = .ok () ∧
      checkRevisionCheckpoints state payload.workflowId
        (reservation.history payload.previousDefinition) = .ok () ∧
      next = { state.setReservation payload.workflowId (reservation.revise event payload) with
        workflows := revisedWorkflows state payload } := by
  unfold reviseWorkflow at h
  dsimp only at h
  cases hslot : state.workflowReservations.slot payload.workflowId with
  | absent =>
      rw [hslot] at h
      exact (throw_eq_ok_iff.mp h).elim
  | inherited =>
      rw [hslot] at h
      exact (throw_eq_ok_iff.mp h).elim
  | own reservation =>
      rw [hslot] at h
      obtain ⟨hactive, h⟩ := reject_bind_eq_ok_iff.mp h
      obtain ⟨⟨⟩, hextends, h⟩ := bind_eq_ok_iff.mp h
      obtain ⟨spec, hspec, h⟩ := bind_eq_ok_iff.mp h
      obtain ⟨⟨⟩, hlimits, h⟩ := bind_eq_ok_iff.mp h
      obtain ⟨⟨⟩, hsteps, h⟩ := bind_eq_ok_iff.mp h
      obtain ⟨⟨⟩, hresources, h⟩ := bind_eq_ok_iff.mp h
      obtain ⟨⟨⟩, hcheckpoints, h⟩ := bind_eq_ok_iff.mp h
      simp only [Bool.or_eq_false_iff, decide_eq_false_iff_not, not_not] at hactive
      have hreleased : reservation.released = none := by simpa using hactive.1.1
      exact ⟨reservation, spec, JsObject.slot_eq_own_iff.mp hslot, hreleased, hactive.1.2,
        requireSpec_eq_ok hspec, hextends, hlimits, hsteps, hresources, hcheckpoints,
        (pure_eq_ok_iff.mp h).symm⟩

/-- The reservation under a new claim. -/
def WorkflowReservation.reclaim (reservation : WorkflowReservation) (event : SessionEvent)
    (payload : WorkflowReclaimedPayload) : WorkflowReservation :=
  { reservation with
    claimId := payload.claimId
    claimExpiresAt := payload.claimExpiresAt
    claimRef := sessionEventRef event.eventId }

def applyWorkflowReclaimed (state : SessionState) (event : SessionEvent)
    (payload : WorkflowReclaimedPayload) : Replay SessionState := do
  let mismatch := replayError "workflow reclaim does not match the active claim"
    "AGENT_SESSION_WORKFLOW_RECLAIM_INVALID"
  match state.workflowReservations.slot payload.workflowId with
  | .absent | .inherited => throw mismatch
  | .own reservation =>
      reject (reservation.released.isSome ||
        reservation.definitionDigest ≠ payload.definitionDigest ||
        reservation.claimRef ≠ payload.priorClaimRef.val ||
        dateParse event.occurredAt ≤ dateParse reservation.claimExpiresAt) mismatch
      return state.setReservation payload.workflowId (reservation.reclaim event payload)

theorem applyWorkflowReclaimed_eq_ok {payload : WorkflowReclaimedPayload}
    (h : applyWorkflowReclaimed state event payload = .ok next) :
    ∃ reservation, state.workflowReservations.get? payload.workflowId = some reservation ∧
      reservation.released = none ∧ reservation.claimRef = payload.priorClaimRef.val ∧
      dateParse reservation.claimExpiresAt < dateParse event.occurredAt ∧
      next = state.setReservation payload.workflowId (reservation.reclaim event payload) := by
  unfold applyWorkflowReclaimed at h
  dsimp only at h
  cases hslot : state.workflowReservations.slot payload.workflowId with
  | absent =>
      rw [hslot] at h
      exact (throw_eq_ok_iff.mp h).elim
  | inherited =>
      rw [hslot] at h
      exact (throw_eq_ok_iff.mp h).elim
  | own reservation =>
      rw [hslot] at h
      obtain ⟨hmatch, h⟩ := reject_bind_eq_ok_iff.mp h
      simp only [Bool.or_eq_false_iff, decide_eq_false_iff_not, not_not, not_le] at hmatch
      obtain ⟨⟨⟨hreleased, -⟩, hclaim⟩, hexpired⟩ := hmatch
      exact ⟨reservation, JsObject.slot_eq_own_iff.mp hslot, by simpa using hreleased, hclaim,
        hexpired, (pure_eq_ok_iff.mp h).symm⟩

/-- The reservation after its release. -/
def WorkflowReservation.release (reservation : WorkflowReservation) (release : WorkflowRelease) :
    WorkflowReservation :=
  { reservation with released := some release }

def applyWorkflowReleased (state : SessionState) (event : SessionEvent)
    (payload : WorkflowReleasedPayload) : Replay SessionState := do
  let mismatch := replayError "workflow release does not match one active reservation"
    "AGENT_SESSION_WORKFLOW_RELEASE_INVALID"
  match state.workflowReservations.slot payload.workflowId with
  | .absent | .inherited => throw mismatch
  | .own reservation =>
      reject (reservation.released.isSome ||
        reservation.definitionDigest ≠ payload.definitionDigest ||
        reservation.claimRef ≠ payload.claimRef.val) mismatch
      return state.setReservation payload.workflowId
        (reservation.release ⟨payload.status, event.eventId⟩)

theorem applyWorkflowReleased_eq_ok {payload : WorkflowReleasedPayload}
    (h : applyWorkflowReleased state event payload = .ok next) :
    ∃ reservation, state.workflowReservations.get? payload.workflowId = some reservation ∧
      reservation.released = none ∧ reservation.claimRef = payload.claimRef.val ∧
      next = state.setReservation payload.workflowId
        (reservation.release ⟨payload.status, event.eventId⟩) := by
  unfold applyWorkflowReleased at h
  dsimp only at h
  cases hslot : state.workflowReservations.slot payload.workflowId with
  | absent =>
      rw [hslot] at h
      exact (throw_eq_ok_iff.mp h).elim
  | inherited =>
      rw [hslot] at h
      exact (throw_eq_ok_iff.mp h).elim
  | own reservation =>
      rw [hslot] at h
      obtain ⟨hmatch, h⟩ := reject_bind_eq_ok_iff.mp h
      simp only [Bool.or_eq_false_iff, decide_eq_false_iff_not, not_not] at hmatch
      obtain ⟨⟨hreleased, -⟩, hclaim⟩ := hmatch
      exact ⟨reservation, JsObject.slot_eq_own_iff.mp hslot, by simpa using hreleased, hclaim,
        (pure_eq_ok_iff.mp h).symm⟩

/-- `reservation?.revision`. -/
def Slot.revision? (reservation : Slot WorkflowReservation) : Option Nat :=
  reservation.own?.bind (·.revision)

def applyWorkflowCheckpointed (state : SessionState) (event : SessionEvent)
    (payload : WorkflowCheckpointedPayload) : Replay SessionState := do
  reject (state.workflowReservations.slot payload.workflowId).revision?.isSome
    (replayError "revised workflows require pinned phase checkpoints"
      "AGENT_SESSION_WORKFLOW_CHECKPOINT_INVALID")
  return { state with
    workflowCheckpoints := state.workflowCheckpoints ++ [.step payload event.eventId] }

theorem applyWorkflowCheckpointed_eq_ok {payload : WorkflowCheckpointedPayload}
    (h : applyWorkflowCheckpointed state event payload = .ok next) :
    (∀ reservation, state.workflowReservations.get? payload.workflowId = some reservation →
      reservation.revision = none) ∧
      next = { state with
        workflowCheckpoints := state.workflowCheckpoints ++ [.step payload event.eventId] } := by
  obtain ⟨hrevision, h⟩ := reject_bind_eq_ok_iff.mp h
  refine ⟨?_, (pure_eq_ok_iff.mp h).symm⟩
  intro reservation hget
  simpa [Slot.revision?, JsObject.own?_slot, hget] using hrevision

def claimInvalid (message : String) : ReplayFailure :=
  replayError message "AGENT_SESSION_WORKFLOW_CLAIM_INVALID"

/-- A revised workflow takes checkpoints only while claimed, of a phase it pins. -/
def checkRevisedCheckpoint (state : SessionState) (reservation : WorkflowReservation)
    (payload : WorkflowPhaseCheckpointedPayload) : Replay Unit :=
  match reservation.revision with
  | none => return ()
  | some _ => do
      reject (reservation.released.isSome || state.cancellationRequest.isSome)
        (claimInvalid "revised workflow checkpoint requires an active claim")
      assertWorkflowCheckpoint payload
        (pinnedDefinition (reservation.revisions.getD []) payload.definitionDigest)

def applyWorkflowPhaseCheckpointed (state : SessionState) (event : SessionEvent)
    (payload : WorkflowPhaseCheckpointedPayload) : Replay SessionState := do
  let fenced := claimInvalid "workflow checkpoint is fenced by a different claim"
  match state.workflowReservations.slot payload.workflowId with
  | .absent | .inherited => throw fenced
  | .own reservation =>
      let revised := reservation.revision.isSome
      checkRevisedCheckpoint state reservation payload
      reject (reservation.claimRef ≠ payload.claimRef.val) fenced
      reject (payload.childSessionIds.any (· ∉ state.children))
        (replayError "workflow checkpoint references an unattached child"
          "AGENT_SESSION_WORKFLOW_CHILD_INVALID")
      let progress := (state.workflows.get? payload.workflowId).getD
        ⟨if revised then reservation.definitionDigest else payload.definitionDigest, []⟩
      reject (!revised && progress.definitionDigest ≠ payload.definitionDigest)
        (replayError "workflow identifier has a different durable definition"
          "AGENT_SESSION_WORKFLOW_DEFINITION_CONFLICT")
      reject (payload.phaseId ∈ progress.phases)
        (replayError "workflow phase is already checkpointed"
          "AGENT_SESSION_WORKFLOW_PHASE_DUPLICATE")
      let completed := ((state.workflowCheckpoints.filter
        (·.workflowId = payload.workflowId)).map (·.completedSteps)).sum
      let spec ← requireSpec state
      let limit := if reservation.stepCount = 0 then spec.limits.maxWorkflowSteps
        else reservation.stepCount
      reject (limit < completed + payload.completedStepIds.length)
        (replayError "workflow step limit is exhausted" "AGENT_SESSION_WORKFLOW_STEP_LIMIT_EXCEEDED")
      return { state with
        workflows := state.workflows.set payload.workflowId
          { progress with phases := progress.phases ++ [payload.phaseId] }
        workflowCheckpoints := state.workflowCheckpoints ++ [.phase payload event.eventId] }

theorem applyWorkflowPhaseCheckpointed_eq_ok {payload : WorkflowPhaseCheckpointedPayload}
    (h : applyWorkflowPhaseCheckpointed state event payload = .ok next) :
    ∃ reservation workflows, state.workflowReservations.get? payload.workflowId = some reservation ∧
      reservation.claimRef = payload.claimRef.val ∧
      (reservation.revision.isSome = true → reservation.released = none) ∧
      checkRevisedCheckpoint state reservation payload = .ok () ∧
      next = { state with
        workflows := workflows
        workflowCheckpoints := state.workflowCheckpoints ++ [.phase payload event.eventId] } ∧
      (reservation.stepCount ≠ 0 → ((state.workflowCheckpoints.filter
        (·.workflowId = payload.workflowId)).map (·.completedSteps)).sum +
          payload.completedStepIds.length ≤ reservation.stepCount) := by
  unfold applyWorkflowPhaseCheckpointed at h
  dsimp only at h
  cases hslot : state.workflowReservations.slot payload.workflowId with
  | absent =>
      rw [hslot] at h
      exact (throw_eq_ok_iff.mp h).elim
  | inherited =>
      rw [hslot] at h
      exact (throw_eq_ok_iff.mp h).elim
  | own reservation =>
      rw [hslot] at h
      obtain ⟨⟨⟩, hrevised, h⟩ := bind_eq_ok_iff.mp h
      obtain ⟨hclaim, h⟩ := reject_bind_eq_ok_iff.mp h
      obtain ⟨-, h⟩ := reject_bind_eq_ok_iff.mp h
      obtain ⟨-, h⟩ := reject_bind_eq_ok_iff.mp h
      obtain ⟨-, h⟩ := reject_bind_eq_ok_iff.mp h
      obtain ⟨spec, -, h⟩ := bind_eq_ok_iff.mp h
      obtain ⟨hlimit, h⟩ := reject_bind_eq_ok_iff.mp h
      refine ⟨reservation, _, JsObject.slot_eq_own_iff.mp hslot, by simpa using hclaim, ?_,
        hrevised, (pure_eq_ok_iff.mp h).symm, ?_⟩
      · intro hrevision
        obtain ⟨revision, hrevision⟩ := Option.isSome_iff_exists.mp hrevision
        rw [checkRevisedCheckpoint, hrevision] at hrevised
        obtain ⟨hactive, -⟩ := reject_bind_eq_ok_iff.mp hrevised
        rw [Bool.or_eq_false_iff] at hactive
        simpa using hactive.1
      · intro hcount
        rw [if_neg hcount] at hlimit
        simpa using hlimit

end Hseos
