import Hseos.Contracts.Agent

/-! # Workflow contracts -/

namespace Hseos

/-- `WorkflowStepSchema`. -/
structure WorkflowStep where
  stepId : Identifier
  childSpec : AgentSessionSpec
  turnId : Identifier
  message : AgentMessage
  deriving DecidableEq

namespace WorkflowStep

def valid (step : WorkflowStep) : Bool :=
  step.childSpec.valid && step.message.valid && step.message.role = .user

def toJson (step : WorkflowStep) : Json :=
  .obj [("step_id", .ofText step.stepId), ("child_spec", step.childSpec.toJson),
    ("turn_id", .ofText step.turnId), ("message", step.message.toJson)]

end WorkflowStep

inductive WorkflowMode where
  | parallel
  | pipeline
  deriving DecidableEq

def WorkflowMode.text : WorkflowMode → String
  | .parallel => "parallel"
  | .pipeline => "pipeline"

/-- `WorkflowPhaseSchema`. -/
structure WorkflowPhase where
  phaseId : Identifier
  mode : WorkflowMode
  steps : List WorkflowStep
  deriving DecidableEq

namespace WorkflowPhase

def stepIds (phase : WorkflowPhase) : List Identifier := phase.steps.map (·.stepId)

def childSessionIds (phase : WorkflowPhase) : List Identifier :=
  phase.steps.map (·.childSpec.sessionId)

def valid (phase : WorkflowPhase) : Bool :=
  1 ≤ phase.steps.length && phase.steps.length ≤ 256 && phase.steps.all (·.valid) &&
    phase.stepIds.Nodup

def toJson (phase : WorkflowPhase) : Json :=
  .obj [("phase_id", .ofText phase.phaseId), ("mode", .str phase.mode.text),
    ("steps", .arr (phase.steps.map WorkflowStep.toJson))]

end WorkflowPhase

/-- `WorkflowDefinitionSchema`. -/
structure WorkflowDefinition where
  workflowId : Identifier
  subagentProviderId : Identifier
  maxParallelism : Nat
  joinTimeoutMs : Nat
  phases : List WorkflowPhase
  deriving DecidableEq

/-- The phases as a JSON array. -/
def phasesJson (phases : List WorkflowPhase) : Json := .arr (phases.map WorkflowPhase.toJson)

namespace WorkflowDefinition

def steps (definition : WorkflowDefinition) : List WorkflowStep :=
  definition.phases.flatMap (·.steps)

def childSessionIds (definition : WorkflowDefinition) : List Identifier :=
  definition.steps.map (·.childSpec.sessionId)

def valid (definition : WorkflowDefinition) : Bool :=
  intWithin 1 256 definition.maxParallelism && intWithin 1 3600000 definition.joinTimeoutMs &&
    1 ≤ definition.phases.length && definition.phases.length ≤ 128 &&
    definition.phases.all (·.valid) && (definition.phases.map (·.phaseId)).Nodup &&
    (definition.steps.map (·.stepId)).Nodup && definition.childSessionIds.Nodup &&
    definition.steps.length ≤ 4096

def toJson (definition : WorkflowDefinition) : Json :=
  .obj [("schema_version", .ofNat 1), ("workflow_id", .ofText definition.workflowId),
    ("subagent_provider_id", .ofText definition.subagentProviderId),
    ("max_parallelism", .ofNat definition.maxParallelism),
    ("join_timeout_ms", .ofNat definition.joinTimeoutMs),
    ("phases", phasesJson definition.phases)]

/-- Windows of steps that run one after the other. -/
def windows (definition : WorkflowDefinition) : Nat :=
  (definition.phases.map fun phase =>
    if phase.mode = .pipeline then phase.steps.length
    else (phase.steps.length + definition.maxParallelism - 1) / definition.maxParallelism).sum

end WorkflowDefinition

end Hseos
