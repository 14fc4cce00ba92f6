import Hseos.Foundation.IsoDate
import Hseos.Governed.Contract
import Hseos.Ledger.Registry

/-! # Operations and their facts

The identity of a governed operation, and the facts that its execution makes
durable. Every fact passes the event registry before it is handed to the ledger.
-/

namespace Hseos

/-! ## Clocks -/

/-- What `clock.now()` does: it throws, or it returns an instant or an invalid date. -/
abbrev ClockReading := Except Thrown (Option Int)

/-- `canonicalTime(clock.now())`, as an instant. -/
def canonicalTime (reading : ClockReading) : Except Thrown Int := do
  let value ← reading
  match value.filter isDate with
  | some instant => return instant
  | none => throw (governedError "Clock returned an invalid timestamp" "EXECUTION_GOVERNANCE_FAILED")

/-- The text of the instant some milliseconds later. -/
def deadlineText (startedAt : Int) (timeoutMs : Nat) : Except Thrown String :=
  if isDate (startedAt + timeoutMs) then .ok (isoString (startedAt + timeoutMs))
  else .error { Thrown.ofError "RangeError" "" "Invalid time value" with code := .undefined }

/-! ## Operations -/

/-- `deterministicOperationId`. -/
def deterministicOperationId (tool idempotencyKey : String) : String :=
  let hex := Sha256.hexDigest (utf8 (chars tool ++ '\x00' :: chars idempotencyKey))
  let part (start stop : Nat) : List Char := (hex.drop start).take (stop - start)
  String.ofList (part 0 8 ++ '-' :: part 8 12 ++ ['-', '5'] ++ part 13 16 ++ ['-', '8'] ++
    part 17 20 ++ '-' :: part 20 32)

/-- `digest`. -/
def inputDigest (input : Json) : String := sha256Hex input.stableJson

structure Operation where
  operationId : String
  tool : String
  capability : String
  actor : Json
  resourceScope : Json
  idempotencyKey : String
  correlationId : Json
  causationId : Json
  deadline : String
  deriving DecidableEq

/-! ## Facts -/

structure AuthorizedFact where
  tool : String
  capability : String
  inputSchemaVersion : Nat
  outputSchemaVersion : Nat
  reversibility : Reversibility
  policyVersion : String
  deadline : String
  cancellationPolicy : CancellationPolicy
  idempotencyKey : String
  resourceScope : Json
  inputDigest : String
  warnings : List String
  approvalId : Option String
  deriving DecidableEq

structure StartedFact where
  tool : String
  provider : String
  idempotencyKey : String
  dispatchAttempt : Nat
  deadline : String
  deriving DecidableEq

/-- The error of a failed execution. -/
structure ProviderFailure where
  code : String
  message : String
  retryable : Bool
  deriving DecidableEq

/-- The payload of a fact, by event type. -/
inductive FactPayload where
  | authorized (fact : AuthorizedFact)
  | started (fact : StartedFact)
  | succeeded (result : Json) (outputSchemaVersion : Nat) (receiptRef : Option String)
      (warnings : List String)
  | failed (error : ProviderFailure) (receiptRef : Option String) (warnings : List String)
  | cancelled (reason phase : String) (receiptRef : Option String) (warnings : List String)
  | uncertain (reason : String) (receiptRef : Option String) (warnings : List String)
  deriving DecidableEq

namespace FactPayload

def eventType : FactPayload → String
  | .authorized _ => "ExecutionAuthorized"
  | .started _ => "ExecutionStarted"
  | .succeeded .. => "ExecutionSucceeded"
  | .failed .. => "ExecutionFailed"
  | .cancelled .. => "ExecutionCancelled"
  | .uncertain .. => "ExecutionOutcomeUncertain"

/-- `TERMINAL_EVENTS.has(type)`. -/
def isTerminal : FactPayload → Bool
  | .authorized _ | .started _ => false
  | _ => true

def isAuthorized : FactPayload → Bool
  | .authorized _ => true
  | _ => false

def isStarted : FactPayload → Bool
  | .started _ => true
  | _ => false

def strings (texts : List String) : Json := .arr (texts.map .str)

def receipt (receiptRef : Option String) : List (String × Json) :=
  Json.member? "provider_receipt_ref" .str receiptRef

def toJson : FactPayload → Json
  | .authorized fact =>
      .obj ([("tool", .str fact.tool), ("capability", .str fact.capability),
        ("input_schema_version", .ofNat fact.inputSchemaVersion),
        ("output_schema_version", .ofNat fact.outputSchemaVersion),
        ("reversibility", .str fact.reversibility.text), ("policy_version", .str fact.policyVersion),
        ("deadline", .str fact.deadline),
        ("cancellation_policy", .str fact.cancellationPolicy.text),
        ("idempotency_key", .str fact.idempotencyKey), ("resource_scope", fact.resourceScope),
        ("input_digest", .str fact.inputDigest), ("warnings", strings fact.warnings)] ++
        Json.member? "approval_id" .str fact.approvalId)
  | .started fact =>
      .obj [("tool", .str fact.tool), ("provider", .str fact.provider),
        ("idempotency_key", .str fact.idempotencyKey),
        ("dispatch_attempt", .ofNat fact.dispatchAttempt), ("deadline", .str fact.deadline)]
  | .succeeded result outputSchemaVersion receiptRef warnings =>
      .obj ([("result", result), ("output_schema_version", .ofNat outputSchemaVersion)] ++
        receipt receiptRef ++ [("warnings", strings warnings)])
  | .failed error receiptRef warnings =>
      .obj ([("error", .obj [("code", .str error.code), ("message", .str error.message),
        ("retryable", .bool error.retryable)])] ++ receipt receiptRef ++
        [("warnings", strings warnings)])
  | .cancelled reason phase receiptRef warnings =>
      .obj ([("reason", .str reason), ("phase", .str phase)] ++ receipt receiptRef ++
        [("warnings", strings warnings)])
  | .uncertain reason receiptRef warnings =>
      .obj ([("reason", .str reason)] ++ receipt receiptRef ++ [("warnings", strings warnings)])

end FactPayload

structure Fact where
  eventId : String
  occurredAt : String
  correlationId : Json
  causationId : Json
  actor : Json
  operationId : String
  payload : FactPayload
  evidenceRefs : List String
  deriving DecidableEq

def Fact.toJson (fact : Fact) : Json :=
  .obj [("event_id", .str fact.eventId), ("event_type", .str fact.payload.eventType),
    ("schema_version", .ofNat 1), ("occurred_at", .str fact.occurredAt),
    ("correlation_id", fact.correlationId), ("causation_id", fact.causationId),
    ("actor", fact.actor), ("operation_id", .str fact.operationId),
    ("payload", fact.payload.toJson), ("evidence_refs", FactPayload.strings fact.evidenceRefs)]

/-- An error of the ledger as a thrown value. -/
def LedgerError.thrown : LedgerError → Thrown
  | .typeError => { Thrown.ofError "TypeError" "" "Cannot read properties of null" with
      code := .undefined }
  | .schema message code => .ofError "EventSchemaError" code message
  | .invalidEvent message => .ofError "InvalidEventError" "EXECUTION_EVENT_INVALID" message
  | .duplicateEvent _ => .ofError "DuplicateEventError" "EXECUTION_EVENT_ID_CONFLICT"
      "Event identifiers already exist with different or partial content"
  | .concurrencyConflict aggregateType aggregateId expectedVersion currentVersion =>
      .ofError "ConcurrencyConflictError" "EXECUTION_STREAM_VERSION_CONFLICT"
        ("Expected " ++ aggregateType ++ "/" ++ aggregateId ++ " at version " ++
          toString expectedVersion ++ ", current version is " ++ toString currentVersion)
  | .constraint message => .ofError "SqliteError" "SQLITE_CONSTRAINT" message
  | .syntaxError => { Thrown.ofError "SyntaxError" "" "Unexpected token" with code := .undefined }

/-- What a fact takes from outside: its identifier and the time. -/
structure FactStamp where
  eventId : Except Thrown String
  now : ClockReading

/-- `_fact`. -/
def makeFact (operation : Operation) (payload : FactPayload) (evidenceRefs : List String)
    (stamp : FactStamp) : Except Thrown Fact := do
  let eventId ← stamp.eventId
  let occurredAt ← canonicalTime stamp.now
  let fact : Fact := {
    eventId, occurredAt := isoString occurredAt, correlationId := operation.correlationId,
    causationId := operation.causationId, actor := operation.actor,
    operationId := operation.operationId, payload, evidenceRefs }
  match createExecutionEventRegistry.validateForAppend fact.toJson with
  | .error error => throw error.thrown
  | .ok () => return fact

/-- The fact was made for an operation, with a payload that the registry accepts. -/
structure Fact.Made (fact : Fact) (operation : Operation) (payload : FactPayload)
    (evidenceRefs : List String) : Prop where
  payload : fact.payload = payload
  evidenceRefs : fact.evidenceRefs = evidenceRefs
  operationId : fact.operationId = operation.operationId
  correlationId : fact.correlationId = operation.correlationId
  causationId : fact.causationId = operation.causationId
  actor : fact.actor = operation.actor
  valid : createExecutionEventRegistry.validateForAppend fact.toJson = .ok ()

theorem makeFact_eq_ok {operation : Operation} {payload : FactPayload} {evidenceRefs : List String}
    {stamp : FactStamp} {fact : Fact} (h : makeFact operation payload evidenceRefs stamp = .ok fact) :
    fact.Made operation payload evidenceRefs := by
  obtain ⟨eventId, -, h⟩ := bind_eq_ok_iff.mp h
  obtain ⟨occurredAt, -, h⟩ := bind_eq_ok_iff.mp h
  dsimp only at h
  split at h
  next => exact (throw_eq_ok_iff.mp h).elim
  next hvalid =>
    obtain rfl := pure_eq_ok_iff.mp h
    exact ⟨rfl, rfl, rfl, rfl, rfl, rfl, hvalid⟩

end Hseos
