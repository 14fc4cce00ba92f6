import Hseos.Contracts.Context
import Hseos.Contracts.Workflow

/-! # Event contracts

The events a model provider streams and the events a session is made of.
-/

namespace Hseos

/-- `NORMALIZED_ERROR_CODES`. -/
inductive NormalizedErrorCode where
  | invalidRequest | unauthorized | policyDenied | capabilityUnavailable | rateLimited | timeout
  | cancelled | providerUnavailable | protocolError | budgetExceeded | toolFailed | internalError
  deriving DecidableEq

def NormalizedErrorCode.text : NormalizedErrorCode → String
  | .invalidRequest => "invalid_request"
  | .unauthorized => "unauthorized"
  | .policyDenied => "policy_denied"
  | .capabilityUnavailable => "capability_unavailable"
  | .rateLimited => "rate_limited"
  | .timeout => "timeout"
  | .cancelled => "cancelled"
  | .providerUnavailable => "provider_unavailable"
  | .protocolError => "protocol_error"
  | .budgetExceeded => "budget_exceeded"
  | .toolFailed => "tool_failed"
  | .internalError => "internal_error"

/-- `MAX_EVENT_DELTA_BYTES`. -/
def maxEventDeltaBytes : Nat := 262144

/-- `MAX_RUNTIME_TOOL_INPUT_BYTES`. -/
def maxRuntimeToolInputBytes : Nat := 1048576

/-- `MAX_MODEL_EVENTS_PER_STEP`. -/
def maxModelEventsPerStep : Nat := 4096

/-- `MAX_MODEL_STREAM_BYTES_PER_STEP`. -/
def maxModelStreamBytesPerStep : Nat := 16777216

/-- `MODEL_TERMINAL_RESERVE_BYTES`. -/
def modelTerminalReserveBytes : Nat := 8192

abbrev DeltaText := Refined (boundedString maxEventDeltaBytes)

/-! ## Model streams -/

inductive FinishReason where
  | stop
  | toolCalls
  | length
  | cancelled
  deriving DecidableEq

def FinishReason.text : FinishReason → String
  | .stop => "stop"
  | .toolCalls => "tool_calls"
  | .length => "length"
  | .cancelled => "cancelled"

/-- The payload of a model event, by event type. -/
inductive ModelStreamPayload where
  | contentDelta (text : DeltaText)
  | reasoningDelta (text : DeltaText)
  | toolCallDelta (toolCallId : Identifier) (name : Option Identifier) (argumentsDelta : DeltaText)
  | usage (inputTokens outputTokens cachedTokens : Nat)
  | completed (finishReason : FinishReason) (providerResponseRef : Reference)
  | failed (errorCode : NormalizedErrorCode) (message : Refined (lengthWithin 1 4096))
      (retryable : Bool)
  deriving DecidableEq

namespace ModelStreamPayload

def eventType : ModelStreamPayload → String
  | .contentDelta .. => "content.delta"
  | .reasoningDelta .. => "reasoning.delta"
  | .toolCallDelta .. => "tool_call.delta"
  | .usage .. => "usage"
  | .completed .. => "completed"
  | .failed .. => "failed"

def toJson : ModelStreamPayload → Json
  | .contentDelta text | .reasoningDelta text => .obj [("text", .ofText text)]
  | .toolCallDelta toolCallId name argumentsDelta =>
      .obj [("tool_call_id", .ofText toolCallId), ("name", .ofNullable .ofText name),
        ("arguments_delta", .ofText argumentsDelta)]
  | .usage inputTokens outputTokens cachedTokens =>
      .obj [("input_tokens", .ofNat inputTokens), ("output_tokens", .ofNat outputTokens),
        ("cached_tokens", .ofNat cachedTokens)]
  | .completed finishReason providerResponseRef =>
      .obj [("finish_reason", .str finishReason.text),
        ("provider_response_ref", .ofText providerResponseRef)]
  | .failed errorCode message retryable =>
      .obj [("error_code", .str errorCode.text), ("message", .ofText message),
        ("retryable", .bool retryable)]

def valid : ModelStreamPayload → Bool
  | .usage inputTokens outputTokens cachedTokens =>
      intWithin 0 maxSafeInteger inputTokens && intWithin 0 maxSafeInteger outputTokens &&
        intWithin 0 maxSafeInteger cachedTokens
  | _ => true

end ModelStreamPayload

/-- `ModelStreamEventSchema`. -/
structure ModelStreamEvent where
  providerId : Identifier
  requestId : Identifier
  sequence : Nat
  payload : ModelStreamPayload
  deriving DecidableEq

namespace ModelStreamEvent

def toJson (event : ModelStreamEvent) : Json :=
  .obj [("schema_version", .ofNat 1), ("provider_id", .ofText event.providerId),
    ("request_id", .ofText event.requestId), ("event_type", .str event.payload.eventType),
    ("sequence", .ofNat event.sequence), ("payload", event.payload.toJson)]

def valid (event : ModelStreamEvent) : Bool :=
  intWithin 0 maxSafeInteger event.sequence && event.payload.valid

/-- `['completed', 'failed'].includes(event.event_type)`. -/
def isTerminal (event : ModelStreamEvent) : Bool :=
  match event.payload with
  | .completed .. | .failed .. => true
  | _ => false

/-- The reason of a `completed` event. -/
def finishReason? (event : ModelStreamEvent) : Option FinishReason :=
  match event.payload with
  | .completed reason _ => some reason
  | _ => none

/-- The text of a `content.delta` event. -/
def contentText? (event : ModelStreamEvent) : Option String :=
  match event.payload with
  | .contentDelta text => some text.val
  | _ => none

end ModelStreamEvent

/-! ## Session events -/

structure ForkedPayload where
  parentSessionId : Identifier
  parentSequence : Nat
  deriving DecidableEq

structure ModelRequestStartedPayload where
  turnId : Identifier
  stepId : Identifier
  request : ModelRequest
  sourceEventIds : List Identifier
  deriving DecidableEq

structure ModelStreamedPayload where
  turnId : Identifier
  stepId : Option Identifier
  providerId : Identifier
  event : ModelStreamEvent
  deriving DecidableEq

structure ToolStartedPayload where
  turnId : Identifier
  stepId : Identifier
  invocationId : Identifier
  toolCallId : Identifier
  name : Identifier
  input : Json
  idempotencyKey : Identifier
  deriving DecidableEq

/-- The payload of `tool.execution.completed` and `tool.execution.reconciled`. -/
structure ToolOutcomePayload where
  turnId : Identifier
  stepId : Identifier
  outcome : ToolExecutionResult
  deriving DecidableEq

structure OperationLinkedPayload where
  turnId : Identifier
  toolCallId : Identifier
  operationId : Identifier
  deriving DecidableEq

structure SubagentRequestedPayload where
  providerId : Identifier
  turnId : Identifier
  message : AgentMessage
  deriving DecidableEq

structure WorkflowReservedPayload where
  workflowId : Identifier
  definitionDigest : Digest
  claimId : Identifier
  claimExpiresAt : Timestamp
  stepCount : Nat
  childSessionIds : List Identifier
  deriving DecidableEq

structure WorkflowRevisedPayload where
  workflowId : Identifier
  claimRef : Reference
  revision : Nat
  previousDefinition : WorkflowDefinition
  definition : WorkflowDefinition
  deriving DecidableEq

structure WorkflowReclaimedPayload where
  workflowId : Identifier
  definitionDigest : Digest
  claimId : Identifier
  claimExpiresAt : Timestamp
  priorClaimRef : Reference
  deriving DecidableEq

inductive WorkflowStatus where
  | completed
  | cancelled
  | failed
  deriving DecidableEq

structure WorkflowReleasedPayload where
  workflowId : Identifier
  definitionDigest : Digest
  claimRef : Reference
  status : WorkflowStatus
  deriving DecidableEq

structure WorkflowCheckpointedPayload where
  workflowId : Identifier
  stepId : Identifier
  checkpointRef : Reference
  deriving DecidableEq

structure WorkflowPhaseCheckpointedPayload where
  workflowId : Identifier
  definitionDigest : Digest
  claimRef : Reference
  phaseId : Identifier
  mode : WorkflowMode
  completedStepIds : List Identifier
  childSessionIds : List Identifier
  checkpointRef : Reference
  deriving DecidableEq

inductive CancellationSource where
  | user
  | deadline
  | dispose
  deriving DecidableEq

abbrev ReasonText := Refined (lengthWithin 1 2048)

structure CancellationRequestedPayload where
  reason : ReasonText
  cascade : Bool
  source : CancellationSource
  deriving DecidableEq

/-- The payload of a session event, by event type. -/
inductive SessionPayload where
  | sessionCreated (spec : AgentSessionSpec)
  | sessionResumed (fromSequence : Nat)
  | sessionReconciled (reportSha256 : Sha256Text) (reservedTokens : Nat)
  | sessionForked (payload : ForkedPayload)
  | turnStarted (turnId : Identifier) (input : AgentMessage)
  | contextAssembled (payload : ContextAssembledPayload)
  | modelRevisionRequested (turnId stepId : Identifier) (feedback : Refined (lengthWithin 1 65536))
  | modelRequestStarted (payload : ModelRequestStartedPayload)
  | modelStreamed (payload : ModelStreamedPayload)
  | toolExecutionStarted (payload : ToolStartedPayload)
  | toolExecutionCompleted (payload : ToolOutcomePayload)
  | toolExecutionReconciled (payload : ToolOutcomePayload)
  | toolOperationLinked (payload : OperationLinkedPayload)
  | compactionCompleted (record : CompactionRecord)
  | childAttached (childSessionId : Identifier) (authorityCeilingRef : Reference)
  | subagentRequested (payload : SubagentRequestedPayload)
  | workflowReserved (payload : WorkflowReservedPayload)
  | workflowRevised (payload : WorkflowRevisedPayload)
  | workflowReclaimed (payload : WorkflowReclaimedPayload)
  | workflowReleased (payload : WorkflowReleasedPayload)
  | workflowCheckpointed (payload : WorkflowCheckpointedPayload)
  | workflowPhaseCheckpointed (payload : WorkflowPhaseCheckpointedPayload)
  | sessionCancellationRequested (payload : CancellationRequestedPayload)
  | sessionCancelled (reason : ReasonText) (cascade : Bool)
  | sessionCompleted (outcomeRef : Reference)
  | sessionFailed (errorCode : NormalizedErrorCode) (message : Refined (lengthWithin 1 4096))
      (retryable : Bool)
  deriving DecidableEq

namespace SessionPayload

def eventType : SessionPayload → String
  | .sessionCreated .. => "session.created"
  | .sessionResumed .. => "session.resumed"
  | .sessionReconciled .. => "session.reconciled"
  | .sessionForked .. => "session.forked"
  | .turnStarted .. => "turn.started"
  | .contextAssembled .. => "context.assembled"
  | .modelRevisionRequested .. => "model.revision.requested"
  | .modelRequestStarted .. => "model.request.started"
  | .modelStreamed .. => "model.streamed"
  | .toolExecutionStarted .. => "tool.execution.started"
  | .toolExecutionCompleted .. => "tool.execution.completed"
  | .toolExecutionReconciled .. => "tool.execution.reconciled"
  | .toolOperationLinked .. => "tool.operation_linked"
  | .compactionCompleted .. => "compaction.completed"
  | .childAttached .. => "child.attached"
  | .subagentRequested .. => "subagent.requested"
  | .workflowReserved .. => "workflow.reserved"
  | .workflowRevised .. => "workflow.revised"
  | .workflowReclaimed .. => "workflow.reclaimed"
  | .workflowReleased .. => "workflow.released"
  | .workflowCheckpointed .. => "workflow.checkpointed"
  | .workflowPhaseCheckpointed .. => "workflow.phase.checkpointed"
  | .sessionCancellationRequested .. => "session.cancellation.requested"
  | .sessionCancelled .. => "session.cancelled"
  | .sessionCompleted .. => "session.completed"
  | .sessionFailed .. => "session.failed"

/-- What `SessionEventSchema` checks of a payload in an event of session `sessionId`. -/
def valid (sessionId : Identifier) : SessionPayload → Bool
  | .sessionCreated spec => spec.valid && sessionId = spec.sessionId
  | .sessionResumed fromSequence => intWithin 0 maxSafeInteger fromSequence
  | .sessionReconciled _ reservedTokens => intWithin 0 maxSafeInteger reservedTokens
  | .sessionForked payload => intWithin 1 maxSafeInteger payload.parentSequence
  | .turnStarted _ input => input.valid && input.role = .user
  | .contextAssembled payload =>
      payload.valid && sessionId = payload.request.request.sessionId &&
        payload.turnId = payload.request.request.turnId
  | .modelRevisionRequested .. => true
  | .modelRequestStarted payload =>
      payload.request.valid && payload.sourceEventIds ≠ [] &&
        payload.sourceEventIds.length ≤ 4096 && payload.sourceEventIds.Nodup &&
        sessionId = payload.request.sessionId && payload.turnId = payload.request.turnId
  | .modelStreamed payload => payload.event.valid && payload.providerId = payload.event.providerId
  | .toolExecutionStarted payload =>
      payload.input.canonicalObject &&
        byteLength payload.input.stringify ≤ maxRuntimeToolInputBytes
  | .toolExecutionCompleted payload | .toolExecutionReconciled payload =>
      payload.outcome.valid && sessionId = payload.outcome.sessionId &&
        payload.turnId = payload.outcome.turnId
  | .toolOperationLinked _ => true
  | .compactionCompleted record => record.valid
  | .childAttached .. => true
  | .subagentRequested payload => payload.message.valid
  | .workflowReserved payload =>
      intWithin 1 4096 payload.stepCount && 1 ≤ payload.childSessionIds.length &&
        payload.childSessionIds.length ≤ 4096 && payload.childSessionIds.Nodup &&
        payload.stepCount = payload.childSessionIds.length
  | .workflowRevised payload =>
      intWithin 2 maxSafeInteger payload.revision && payload.previousDefinition.valid &&
        payload.definition.valid
  | .workflowReclaimed _ | .workflowReleased _ | .workflowCheckpointed _ => true
  | .workflowPhaseCheckpointed payload =>
      1 ≤ payload.completedStepIds.length && payload.completedStepIds.length ≤ 256 &&
        payload.completedStepIds.length = payload.childSessionIds.length &&
        payload.completedStepIds.Nodup && payload.childSessionIds.Nodup
  | .sessionCancellationRequested _ | .sessionCancelled .. | .sessionCompleted _
  | .sessionFailed .. => true

/-- The payload of an event that ends a session. -/
def isTerminal : SessionPayload → Bool
  | .sessionCancelled .. | .sessionCompleted .. | .sessionFailed .. => true
  | _ => false

end SessionPayload

/-- An event that `SessionEventSchema` accepts. -/
structure SessionEvent where
  eventId : Identifier
  sessionId : Identifier
  sequence : Nat
  occurredAt : Timestamp
  payload : SessionPayload
  valid : (intWithin 1 maxSafeInteger sequence && payload.valid sessionId) = true
  deriving DecidableEq

namespace SessionEvent

def eventType (event : SessionEvent) : String := event.payload.eventType

theorem payload_valid (event : SessionEvent) : event.payload.valid event.sessionId = true :=
  (Bool.and_eq_true_iff.mp event.valid).2

end SessionEvent

end Hseos
