import Hseos.Contracts.Canonical
import Hseos.Contracts.Workflow

/-! # Workflow definitions and their canonical texts

Valid definitions with the same canonical text are equal.
-/

namespace Hseos

theorem faithful_limits : Faithful (fun _ => True) AgentLimits.toJson := by
  have hwellFormed : ∀ limits : AgentLimits, limits.toJson.wellFormed = true := fun _ => rfl
  refine ⟨fun _ => hwellFormed _, ?_⟩
  intro a b _ _ h
  have hfield := h.field? (hwellFormed a) (hwellFormed b)
  have hturns := Faithful.ofNat.member trivial trivial (a := a.maxTurns) (b := b.maxTurns)
    rfl rfl (hfield "max_turns")
  have htokens := Faithful.ofNat.member trivial trivial (a := a.maxTokens) (b := b.maxTokens)
    rfl rfl (hfield "max_tokens")
  have hduration := Faithful.ofNat.member trivial trivial (a := a.maxDurationMs)
    (b := b.maxDurationMs) rfl rfl (hfield "max_duration_ms")
  have hcalls := Faithful.ofNat.member trivial trivial (a := a.maxToolCalls) (b := b.maxToolCalls)
    rfl rfl (hfield "max_tool_calls")
  have hchildren := Faithful.ofNat.member trivial trivial (a := a.maxChildren) (b := b.maxChildren)
    rfl rfl (hfield "max_children")
  have hsteps := Faithful.ofNat.member trivial trivial (a := a.maxWorkflowSteps)
    (b := b.maxWorkflowSteps) rfl rfl (hfield "max_workflow_steps")
  obtain ⟨maxTurns, maxTokens, maxDurationMs, maxToolCalls, maxChildren, maxWorkflowSteps⟩ := a
  dsimp only at hturns htokens hduration hcalls hchildren hsteps
  rw [hturns, htokens, hduration, hcalls, hchildren, hsteps]

theorem faithful_execution : Faithful (fun _ => True) Execution.toJson := by
  have hwellFormed : ∀ execution : Execution, execution.toJson.wellFormed = true := by
    intro execution
    cases execution <;> rfl
  refine ⟨fun _ => hwellFormed _, ?_⟩
  intro a b _ _ h
  have hfield := h.field? (hwellFormed a) (hwellFormed b)
  -- two kinds of execution differ in their mode
  cases a with
  | kernel providerA modelA =>
      cases b with
      | kernel providerB modelB =>
          have hprovider := Faithful.refined.member trivial trivial (a := providerA)
            (b := providerB) rfl rfl (hfield "model_provider_id")
          have hmodel := Faithful.refined.member trivial trivial (a := modelA) (b := modelB)
            rfl rfl (hfield "model")
          rw [hprovider, hmodel]
      | delegated =>
          exact absurd (Faithful.str.member trivial trivial (a := "kernel") (b := "delegated")
            rfl rfl (hfield "mode")) (by decide)
  | delegated providerA profileA =>
      cases b with
      | kernel =>
          exact absurd (Faithful.str.member trivial trivial (a := "delegated") (b := "kernel")
            rfl rfl (hfield "mode")) (by decide)
      | delegated providerB profileB =>
          have hprovider := Faithful.refined.member trivial trivial (a := providerA)
            (b := providerB) rfl rfl (hfield "runtime_provider_id")
          have hprofile := Faithful.refined.member trivial trivial (a := profileA) (b := profileB)
            rfl rfl (hfield "profile")
          rw [hprovider, hprofile]

/-- A text or `null`. -/
theorem faithful_nullableText {check : String → Bool} :
    Faithful (fun _ => True) (Json.ofNullable (@Json.ofText check)) where
  wellFormed {value} _ := by cases value <;> rfl
  injective {a b} _ _ h := by
    cases a <;> cases b <;>
      simp_all [Json.SameUpToOrder, Json.ofNullable, Json.ofText, Json.sorted, Subtype.ext_iff]

theorem faithful_sessionSpec :
    Faithful (fun spec : AgentSessionSpec => spec.valid = true) AgentSessionSpec.toJson := by
  have hmetadata : ∀ {spec : AgentSessionSpec}, spec.valid = true →
      spec.metadata.canonicalObject = true := by
    intro spec h
    simp only [AgentSessionSpec.valid, Bool.and_eq_true] at h
    exact h.1.2
  have hwellFormed : ∀ {spec : AgentSessionSpec}, spec.valid = true →
      spec.toJson.wellFormed = true := by
    intro spec h
    have hparent := faithful_nullableText.wellFormed (a := spec.parentSessionId) trivial
    have hexecution := faithful_execution.wellFormed (a := spec.execution) trivial
    have hlimits := faithful_limits.wellFormed (a := spec.limits) trivial
    have hobject := faithful_canonicalObject.wellFormed (hmetadata h)
    have hversion : (Json.ofNat 1).wellFormed = true := rfl
    simp_all [AgentSessionSpec.toJson, Json.wellFormed, Json.wellFormedMembers, Json.ofText]
  refine ⟨hwellFormed, ?_⟩
  intro a b ha hb h
  have hfield := h.field? (hwellFormed ha) (hwellFormed hb)
  have hsession := Faithful.refined.member trivial trivial (a := a.sessionId) (b := b.sessionId)
    rfl rfl (hfield "session_id")
  have hagent := Faithful.refined.member trivial trivial (a := a.agentId) (b := b.agentId)
    rfl rfl (hfield "agent_id")
  have hparent := faithful_nullableText.member trivial trivial (a := a.parentSessionId)
    (b := b.parentSessionId) rfl rfl (hfield "parent_session_id")
  have hauthority := Faithful.refined.member trivial trivial (a := a.authorityRef)
    (b := b.authorityRef) rfl rfl (hfield "authority_ref")
  have hpolicy := Faithful.refined.member trivial trivial (a := a.policyRef) (b := b.policyRef)
    rfl rfl (hfield "policy_ref")
  have hexecution := faithful_execution.member trivial trivial (a := a.execution)
    (b := b.execution) rfl rfl (hfield "execution")
  have hlimits := faithful_limits.member trivial trivial (a := a.limits) (b := b.limits)
    rfl rfl (hfield "limits")
  have hobject := faithful_canonicalObject.member (hmetadata ha) (hmetadata hb) rfl rfl
    (hfield "metadata")
  obtain ⟨sessionId, agentId, parentSessionId, authorityRef, policyRef, execution, limits,
    metadata⟩ := a
  dsimp only at hsession hagent hparent hauthority hpolicy hexecution hlimits hobject
  rw [hsession, hagent, hparent, hauthority, hpolicy, hexecution, hlimits, hobject]

theorem faithful_workflowStep :
    Faithful (fun step : WorkflowStep => step.valid = true) WorkflowStep.toJson := by
  have hparts : ∀ {step : WorkflowStep}, step.valid = true →
      step.childSpec.valid = true ∧ step.message.valid = true := by
    intro step h
    simp only [WorkflowStep.valid, Bool.and_eq_true] at h
    exact h.1
  have hwellFormed : ∀ {step : WorkflowStep}, step.valid = true →
      step.toJson.wellFormed = true := by
    intro step h
    have hspec := faithful_sessionSpec.wellFormed (hparts h).1
    have hmessage := faithful_message.wellFormed (hparts h).2
    simp [WorkflowStep.toJson, Json.wellFormed, Json.wellFormedMembers, Json.ofText, hspec, hmessage]
  refine ⟨hwellFormed, ?_⟩
  intro a b ha hb h
  have hfield := h.field? (hwellFormed ha) (hwellFormed hb)
  have hstep := Faithful.refined.member trivial trivial (a := a.stepId) (b := b.stepId)
    rfl rfl (hfield "step_id")
  have hspec := faithful_sessionSpec.member (hparts ha).1 (hparts hb).1 rfl rfl
    (hfield "child_spec")
  have hturn := Faithful.refined.member trivial trivial (a := a.turnId) (b := b.turnId)
    rfl rfl (hfield "turn_id")
  have hmessage := faithful_message.member (hparts ha).2 (hparts hb).2 rfl rfl (hfield "message")
  obtain ⟨stepId, childSpec, turnId, message⟩ := a
  dsimp only at hstep hspec hturn hmessage
  rw [hstep, hspec, hturn, hmessage]

theorem WorkflowMode.text_injective {a b : WorkflowMode} (h : a.text = b.text) : a = b := by
  cases a <;> cases b <;> first | rfl | exact absurd h (by decide)

theorem faithful_phase :
    Faithful (fun phase : WorkflowPhase => phase.valid = true) WorkflowPhase.toJson := by
  have hsteps : ∀ {phase : WorkflowPhase}, phase.valid = true →
      ∀ step ∈ phase.steps, step.valid = true := by
    intro phase h
    simp only [WorkflowPhase.valid, Bool.and_eq_true, List.all_eq_true] at h
    exact h.1.2
  have hwellFormed : ∀ {phase : WorkflowPhase}, phase.valid = true →
      phase.toJson.wellFormed = true := by
    intro phase h
    have hlist := faithful_workflowStep.arr.wellFormed (hsteps h)
    simp [WorkflowPhase.toJson, Json.wellFormed, Json.wellFormedMembers, Json.ofText,
      show Json.wellFormedItems _ = true from hlist]
  refine ⟨hwellFormed, ?_⟩
  intro a b ha hb h
  have hfield := h.field? (hwellFormed ha) (hwellFormed hb)
  have hphase := Faithful.refined.member trivial trivial (a := a.phaseId) (b := b.phaseId)
    rfl rfl (hfield "phase_id")
  have hmode := WorkflowMode.text_injective (Faithful.str.member trivial trivial
    (a := a.mode.text) (b := b.mode.text) rfl rfl (hfield "mode"))
  have hlist := faithful_workflowStep.arr.member (hsteps ha) (hsteps hb) rfl rfl (hfield "steps")
  obtain ⟨phaseId, mode, steps⟩ := a
  dsimp only at hphase hmode hlist
  rw [hphase, hmode, hlist]

theorem WorkflowDefinition.phases_valid {definition : WorkflowDefinition}
    (h : definition.valid = true) : ∀ phase ∈ definition.phases, phase.valid = true := by
  simp only [WorkflowDefinition.valid, Bool.and_eq_true, List.all_eq_true] at h
  exact h.1.1.1.1.2

theorem faithful_phases :
    Faithful (fun phases : List WorkflowPhase => ∀ phase ∈ phases, phase.valid = true) phasesJson :=
  faithful_phase.arr

theorem faithful_definition :
    Faithful (fun definition : WorkflowDefinition => definition.valid = true)
      WorkflowDefinition.toJson := by
  have hwellFormed : ∀ {definition : WorkflowDefinition}, definition.valid = true →
      definition.toJson.wellFormed = true := by
    intro definition h
    have hphases := faithful_phases.wellFormed (definition.phases_valid h)
    have hversion : (Json.ofNat 1).wellFormed = true := rfl
    have hparallel : (Json.ofNat definition.maxParallelism).wellFormed = true := rfl
    have htimeout : (Json.ofNat definition.joinTimeoutMs).wellFormed = true := rfl
    simp [WorkflowDefinition.toJson, Json.wellFormed, Json.wellFormedMembers, Json.ofText, hversion,
      hparallel, htimeout, hphases]
  refine ⟨hwellFormed, ?_⟩
  intro a b ha hb h
  have hfield := h.field? (hwellFormed ha) (hwellFormed hb)
  have hworkflow := Faithful.refined.member trivial trivial (a := a.workflowId) (b := b.workflowId)
    rfl rfl (hfield "workflow_id")
  have hprovider := Faithful.refined.member trivial trivial (a := a.subagentProviderId)
    (b := b.subagentProviderId) rfl rfl (hfield "subagent_provider_id")
  have hparallel := Faithful.ofNat.member trivial trivial (a := a.maxParallelism)
    (b := b.maxParallelism) rfl rfl (hfield "max_parallelism")
  have htimeout := Faithful.ofNat.member trivial trivial (a := a.joinTimeoutMs)
    (b := b.joinTimeoutMs) rfl rfl (hfield "join_timeout_ms")
  have hphases := faithful_phases.member (a.phases_valid ha) (b.phases_valid hb) rfl rfl
    (hfield "phases")
  obtain ⟨workflowId, subagentProviderId, maxParallelism, joinTimeoutMs, phases⟩ := a
  dsimp only at hworkflow hprovider hparallel htimeout hphases
  rw [hworkflow, hprovider, hparallel, htimeout, hphases]

end Hseos
