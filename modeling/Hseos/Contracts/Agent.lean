import Hseos.Contracts.Common

/-! # Agent contracts

Sessions, messages, tool outcomes and model requests. A record here has the
fields of the contract; `valid` is what its schema checks beyond their types.
-/

namespace Hseos

/-! ## Sessions -/

/-- `AgentLimitsSchema`. -/
structure AgentLimits where
  maxTurns : Nat
  maxTokens : Nat
  maxDurationMs : Nat
  maxToolCalls : Nat
  maxChildren : Nat
  maxWorkflowSteps : Nat
  deriving DecidableEq

namespace AgentLimits

def valid (limits : AgentLimits) : Bool :=
  intWithin 1 maxSafeInteger limits.maxTurns && intWithin 1 maxSafeInteger limits.maxTokens &&
    intWithin 1 maxSafeInteger limits.maxDurationMs &&
    intWithin 0 maxSafeInteger limits.maxToolCalls &&
    intWithin 0 maxSafeInteger limits.maxChildren &&
    intWithin 0 maxSafeInteger limits.maxWorkflowSteps

/-- `Object.entries(limits)`. -/
def entries (limits : AgentLimits) : List (String × Nat) :=
  [("max_turns", limits.maxTurns), ("max_tokens", limits.maxTokens),
    ("max_duration_ms", limits.maxDurationMs), ("max_tool_calls", limits.maxToolCalls),
    ("max_children", limits.maxChildren), ("max_workflow_steps", limits.maxWorkflowSteps)]

/-- `limits[name]`. -/
def limit (limits : AgentLimits) (name : String) : Nat :=
  ((limits.entries.find? fun entry => entry.1 = name).map Prod.snd).getD 0

def toJson (limits : AgentLimits) : Json :=
  .obj (limits.entries.map fun entry => (entry.1, .ofNat entry.2))

end AgentLimits

/-- `KernelExecutionSchema` and `DelegatedExecutionSchema`. -/
inductive Execution where
  | kernel (modelProviderId : Identifier) (model : ModelName)
  | delegated (runtimeProviderId : Identifier) (profile : Identifier)
  deriving DecidableEq

def Execution.toJson : Execution → Json
  | .kernel modelProviderId model =>
      .obj [("mode", .str "kernel"), ("model_provider_id", .ofText modelProviderId),
        ("model", .ofText model)]
  | .delegated runtimeProviderId profile =>
      .obj [("mode", .str "delegated"), ("runtime_provider_id", .ofText runtimeProviderId),
        ("profile", .ofText profile)]

/-- `AgentSessionSpecSchema`. -/
structure AgentSessionSpec where
  sessionId : Identifier
  agentId : Identifier
  parentSessionId : Option Identifier
  authorityRef : Reference
  policyRef : Reference
  execution : Execution
  limits : AgentLimits
  metadata : Json
  deriving DecidableEq

namespace AgentSessionSpec

def valid (spec : AgentSessionSpec) : Bool :=
  spec.limits.valid && spec.metadata.canonicalObject && spec.parentSessionId ≠ some spec.sessionId

def toJson (spec : AgentSessionSpec) : Json :=
  .obj [("schema_version", .ofNat 1), ("session_id", .ofText spec.sessionId),
    ("agent_id", .ofText spec.agentId),
    ("parent_session_id", .ofNullable .ofText spec.parentSessionId),
    ("authority_ref", .ofText spec.authorityRef), ("policy_ref", .ofText spec.policyRef),
    ("execution", spec.execution.toJson), ("limits", spec.limits.toJson),
    ("metadata", spec.metadata)]

end AgentSessionSpec

/-! ## Messages -/

/-- `AgentToolCallSchema`. -/
structure AgentToolCall where
  toolCallId : Identifier
  name : Identifier
  input : Json
  deriving DecidableEq

def AgentToolCall.toJson (call : AgentToolCall) : Json :=
  .obj [("tool_call_id", .ofText call.toolCallId), ("name", .ofText call.name),
    ("input", call.input)]

inductive Role where
  | system
  | user
  | assistant
  | tool
  deriving DecidableEq

def Role.text : Role → String
  | .system => "system"
  | .user => "user"
  | .assistant => "assistant"
  | .tool => "tool"

/-- `AgentMessageSchema`. -/
structure AgentMessage where
  role : Role
  content : String
  name : Option Identifier := none
  toolCallId : Option Identifier := none
  toolCalls : Option (List AgentToolCall) := none
  deriving DecidableEq

namespace AgentMessage

def valid (message : AgentMessage) : Bool :=
  (message.toolCallId.isSome == decide (message.role = .tool)) &&
    (message.toolCalls.isNone || message.role = .assistant) &&
    (message.toolCalls.getD []).length ≤ 128 &&
    ((message.toolCalls.getD []).map (·.toolCallId)).Nodup &&
    (message.toolCalls.getD []).all (·.input.canonicalObject)

def toJson (message : AgentMessage) : Json :=
  .obj ([("role", .str message.role.text), ("content", .str message.content)] ++
    Json.member? "name" .ofText message.name ++
    Json.member? "tool_call_id" .ofText message.toolCallId ++
    Json.member? "tool_calls" (fun calls => .arr (calls.map AgentToolCall.toJson)) message.toolCalls)

end AgentMessage

/-- A list of messages as a JSON array. -/
def messagesJson (messages : List AgentMessage) : Json := .arr (messages.map AgentMessage.toJson)

/-! ## Tools -/

/-- `ToolDefinitionSchema`. -/
structure ToolDefinition where
  name : Identifier
  description : Refined (lengthWithin 1 8192)
  inputSchema : Json
  governanceRef : Reference
  deriving DecidableEq

def ToolDefinition.toJson (tool : ToolDefinition) : Json :=
  .obj [("name", .ofText tool.name), ("description", .ofText tool.description),
    ("input_schema", tool.inputSchema), ("governance_ref", .ofText tool.governanceRef)]

/-- `ToolDefinitionsSchema`. -/
def validTools (tools : List ToolDefinition) : Bool :=
  tools.all (·.inputSchema.canonicalObject) && (tools.map (·.name)).Nodup

inductive ToolStatus where
  | succeeded
  | failed
  | cancelled
  | uncertain
  deriving DecidableEq

def ToolStatus.text : ToolStatus → String
  | .succeeded => "succeeded"
  | .failed => "failed"
  | .cancelled => "cancelled"
  | .uncertain => "uncertain"

/-- `ToolExecutionErrorSchema`. -/
structure ToolExecutionError where
  code : String
  message : String
  retryable : Bool
  deriving DecidableEq

def ToolExecutionError.toJson (error : ToolExecutionError) : Json :=
  .obj [("code", .str error.code), ("message", .str error.message),
    ("retryable", .bool error.retryable)]

/-- `ToolExecutionResultSchema`. -/
structure ToolExecutionResult where
  invocationId : Identifier
  sessionId : Identifier
  turnId : Identifier
  toolCallId : Identifier
  name : Identifier
  status : ToolStatus
  operationId : Option Identifier
  result : Json
  error : Option ToolExecutionError
  evidenceRefs : List String
  warnings : List String
  replayed : Bool
  deriving DecidableEq

namespace ToolExecutionResult

def errorCode (outcome : ToolExecutionResult) : Option String := outcome.error.map (·.code)

def valid (outcome : ToolExecutionResult) : Bool :=
  outcome.result.canonical &&
    outcome.error.all (fun error => error.code ≠ "" && error.message ≠ "") &&
    (match outcome.status with
    | .succeeded => outcome.operationId.isSome && outcome.error.isNone
    | _ => outcome.result = .null && outcome.error.isSome && !outcome.replayed) &&
    (match outcome.status with
    | .cancelled => outcome.errorCode = some "EXECUTION_CANCELLED"
    | .uncertain => outcome.errorCode = some "EXECUTION_OUTCOME_IN_DOUBT"
    | .failed => outcome.errorCode ∉
        [some "EXECUTION_CANCELLED", some "EXECUTION_OUTCOME_IN_DOUBT"]
    | .succeeded => true) &&
    outcome.evidenceRefs.Nodup && outcome.warnings.Nodup

end ToolExecutionResult

/-! ## Model requests -/

/-- The `parameters` of a model request. -/
structure ModelParameters where
  maxOutputTokens : Nat
  temperature : Option JsNumber
  stop : List String
  deriving DecidableEq

namespace ModelParameters

def toJson (parameters : ModelParameters) : Json :=
  .obj [("max_output_tokens", .ofNat parameters.maxOutputTokens),
    ("temperature", .ofNullable .num parameters.temperature), ("stop", .ofStrings parameters.stop)]

def valid (parameters : ModelParameters) : Bool :=
  intWithin 1 maxSafeInteger parameters.maxOutputTokens &&
    parameters.temperature.all (fun value => value.printed && value.between0 2) &&
    parameters.stop.length ≤ 16 &&
    parameters.stop.all (fun text => boundedString 16384 text && text ≠ "") &&
    byteLength parameters.toJson.stringify ≤ 262144

end ModelParameters

/-- `ModelRequestSchema`. -/
structure ModelRequest where
  requestId : Identifier
  sessionId : Identifier
  turnId : Identifier
  providerId : Identifier
  model : ModelName
  messages : List AgentMessage
  tools : List ToolDefinition
  parameters : ModelParameters
  deriving DecidableEq

namespace ModelRequest

def valid (request : ModelRequest) : Bool :=
  request.messages ≠ [] && request.messages.all (·.valid) && validTools request.tools &&
    request.parameters.valid

def members (request : ModelRequest) : List (String × Json) :=
  [("schema_version", .ofNat 1), ("request_id", .ofText request.requestId),
    ("session_id", .ofText request.sessionId), ("turn_id", .ofText request.turnId),
    ("provider_id", .ofText request.providerId), ("model", .ofText request.model),
    ("messages", messagesJson request.messages),
    ("tools", .arr (request.tools.map ToolDefinition.toJson)),
    ("parameters", request.parameters.toJson)]

def toJson (request : ModelRequest) : Json := .obj request.members

end ModelRequest

inductive MediaType where
  | png
  | jpeg
  | webp
  deriving DecidableEq

def MediaType.text : MediaType → String
  | .png => "image/png"
  | .jpeg => "image/jpeg"
  | .webp => "image/webp"

/-- `ArtifactRefSchema`. -/
def isArtifactRef (s : String) : Bool :=
  "artifact://sha256/".toList <+: chars s && isSha256 (String.ofList ((chars s).drop 18))

/-- `ContentPartSchema`. -/
inductive ContentPart where
  | text (value : Refined (boundedString 1048576))
  | image (sourceRef : Reference) (mediaType : MediaType) (digest : Sha256Text) (bytes : Nat)
      (artifactRef : Refined isArtifactRef)
  deriving DecidableEq

namespace ContentPart

def valid : ContentPart → Bool
  | .text _ => true
  | .image _ _ _ bytes _ => intWithin 1 5242880 bytes

def toJson : ContentPart → Json
  | .text value => .obj [("type", .str "text"), ("text", .ofText value)]
  | .image sourceRef mediaType digest bytes artifactRef =>
      .obj [("type", .str "image"), ("source_ref", .ofText sourceRef),
        ("media_type", .str mediaType.text), ("digest", .ofText digest), ("bytes", .ofNat bytes),
        ("artifact_ref", .ofText artifactRef)]

end ContentPart

/-- `ModelRequestV2Schema`: a request with optional content parts. -/
structure ModelRequestV2 where
  request : ModelRequest
  parts : Option (List ContentPart)
  deriving DecidableEq

namespace ModelRequestV2

def valid (assembled : ModelRequestV2) : Bool :=
  assembled.request.valid &&
    assembled.parts.all fun parts =>
      1 ≤ parts.length && parts.length ≤ 8 && parts.all ContentPart.valid

def toJson (assembled : ModelRequestV2) : Json :=
  .obj (assembled.request.members ++
    Json.member? "parts" (fun parts => .arr (parts.map ContentPart.toJson)) assembled.parts)

end ModelRequestV2

end Hseos
