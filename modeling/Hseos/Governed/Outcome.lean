import Hseos.Governed.Fact

/-! # Outcomes

What an execution makes of the facts it finds, and of each way its own dispatch
can end: the terminal fact it records and the envelope it returns.
-/

namespace Hseos

/-! ## Requests that passed their checks -/

/-- An execution that has its operation: what the later steps read. -/
structure Prepared where
  contract : ExecutionContract
  input : Json
  operation : Operation
  inputDigest : String
  /-- `new Date(deadline).getTime()`. -/
  deadline : Int
  warnings : List String
  policyApproval : Bool

namespace Prepared

def operationId (prepared : Prepared) : String := prepared.operation.operationId

def requiresApproval (prepared : Prepared) : Bool :=
  prepared.contract.needsApproval || prepared.policyApproval

/-- The payload of `ExecutionAuthorized`. -/
def authorizedFact (prepared : Prepared) (approvalId : Option String) : AuthorizedFact where
  tool := prepared.contract.name
  capability := prepared.contract.capability
  inputSchemaVersion := prepared.contract.inputSchema.version
  outputSchemaVersion := prepared.contract.outputSchema.version
  reversibility := prepared.contract.reversibility
  policyVersion := prepared.contract.policyVersion
  deadline := prepared.operation.deadline
  cancellationPolicy := prepared.contract.cancellationPolicy
  idempotencyKey := prepared.operation.idempotencyKey
  resourceScope := prepared.operation.resourceScope
  inputDigest := prepared.inputDigest
  warnings := prepared.warnings
  approvalId := approvalId

/-- The payload of `ExecutionStarted`. -/
def startedFact (prepared : Prepared) : StartedFact where
  tool := prepared.contract.name
  provider := prepared.contract.provider
  idempotencyKey := prepared.operation.idempotencyKey
  dispatchAttempt := 1
  deadline := prepared.operation.deadline

end Prepared

/-! ## Existing facts -/

/-- `!==` between values that were read from the ledger and from a request: no two
objects are the same. -/
def strictlyDiffer : Json → Json → Bool
  | .arr _, _ | .obj _, _ => true
  | a, b => a ≠ b

/-- The identifiers of a fact are those of the operation. -/
def Fact.sameOperation (fact : Fact) (operation : Operation) : Bool :=
  fact.operationId = operation.operationId &&
    !strictlyDiffer fact.correlationId operation.correlationId &&
    !strictlyDiffer fact.causationId operation.causationId

/-- The `ExecutionAuthorized` fact was made for this request. -/
def Fact.authorizes (fact : Fact) (prepared : Prepared) : Bool :=
  let operation := prepared.operation
  match fact.payload with
  | .authorized payload =>
      payload.tool = operation.tool && payload.idempotencyKey = operation.idempotencyKey &&
        payload.inputDigest = prepared.inputDigest &&
        payload.capability = prepared.contract.capability &&
        payload.policyVersion = prepared.contract.policyVersion &&
        payload.inputSchemaVersion = prepared.contract.inputSchema.version &&
        payload.outputSchemaVersion = prepared.contract.outputSchema.version &&
        payload.resourceScope.stableJson = operation.resourceScope.stableJson &&
        fact.actor.stableJson = operation.actor.stableJson &&
        !strictlyDiffer fact.correlationId operation.correlationId &&
        !strictlyDiffer fact.causationId operation.causationId
  | _ => false

/-- The stream was started for another request. -/
def scopeConflict (prepared : Prepared) (existing : List Fact) (authorized : Option Fact) : Bool :=
  existing.any (fun fact => !fact.sameOperation prepared.operation) ||
    !authorized.any fun fact => fact.authorizes prepared

/-- The envelope for a terminal fact that is already durable. -/
def replayEnvelope (operationId : String) (terminal : FactPayload)
    (evidence : List String) : Option Envelope :=
  let fallback (message : String) : String :=
    if message = "" then "Execution did not succeed" else message
  let failure (message code : String) (retryable : Bool) (warnings : List String) : Envelope :=
    failureEnvelope { governedError (fallback message) code with retryable } (some operationId)
      evidence warnings
  match terminal with
  | .succeeded result _ _ warnings =>
      some (executionEnvelope true (some ⟨operationId, result, true⟩) none evidence warnings)
  | .failed error _ warnings =>
      let code := if error.code = "" then "EXECUTION_FAILED" else error.code
      some (failure error.message code error.retryable warnings)
  | .cancelled reason _ _ warnings => some (failure reason "EXECUTION_CANCELLED" false warnings)
  | .uncertain reason _ warnings =>
      some (failure reason "EXECUTION_OUTCOME_IN_DOUBT" false warnings)
  | .authorized _ | .started _ => none

/-- The warnings of an execution that started and never ended. -/
def authorizedWarnings (authorized : Option Fact) : List String :=
  match authorized.map Fact.payload with
  | some (.authorized fact) => fact.warnings
  | _ => []

/-- `_readExisting`. -/
def readExisting (prepared : Prepared) (existing : List Fact) : Except Thrown (Option Envelope) :=
  if existing = [] then .ok none
  else
    let authorized := existing.find? (·.payload.isAuthorized)
    if scopeConflict prepared existing authorized then
      .error (governedError "Idempotency key is already bound to a different operation scope"
        "EXECUTION_IDEMPOTENCY_SCOPE_CONFLICT")
    else
      let evidence := existing.flatMap (·.evidenceRefs)
      let inDoubt := failureEnvelope
        (governedError
          "Execution started without a durable terminal fact; automatic replay is prohibited"
          "EXECUTION_OUTCOME_IN_DOUBT")
        (some prepared.operationId) evidence (authorizedWarnings authorized)
      let terminal := existing.reverse.find? (·.payload.isTerminal)
      .ok (some ((terminal.bind fun fact =>
        replayEnvelope prepared.operationId fact.payload evidence).getD inDoubt))

/-! ## Provider results -/

/-- A field that is absent or an array of strings. -/
def stringArray? (value : Option Json) : Option (List String) :=
  match value with
  | none => some []
  | some (.arr items) => items.mapM Json.string?
  | some _ => none

structure ProviderMetadata where
  evidence : List String
  warnings : List String
  receiptRef : Option String
  deriving DecidableEq

def providerResultInvalid (message : String) : Thrown :=
  governedError message "EXECUTION_PROVIDER_RESULT_INVALID"

/-- The receipt reference of a result, which may be absent. -/
def receiptRef? (value : Option Json) : Except Thrown (Option String) :=
  match value with
  | none => .ok none
  | some (.str text) =>
      if text = "" then
        .error (providerResultInvalid "Provider receipt_ref must be a non-empty string")
      else .ok (some text)
  | some _ => .error (providerResultInvalid "Provider receipt_ref must be a non-empty string")

/-- `providerMetadata`. -/
def providerMetadata (result : Json) : Except Thrown ProviderMetadata :=
  match stringArray? (result.field? "evidence") with
  | none => .error (providerResultInvalid "Provider evidence must be an array of strings")
  | some evidence =>
      match stringArray? (result.field? "warnings") with
      | none => .error (providerResultInvalid "Provider warnings must be an array of strings")
      | some warnings => do
          let receiptRef ← receiptRef? (result.field? "receipt_ref")
          return ⟨evidence ++ receiptRef.toList, warnings, receiptRef⟩

/-! ## Ends of a dispatch -/

/-- How an execution that has started comes to an end. -/
inductive Ending where
  /-- The signal was aborted before the dispatch. -/
  | aborted
  /-- The deadline passed before the dispatch. -/
  | expired
  /-- The dispatch threw, or the deadline passed first. -/
  | threw (error : Thrown) (deadlineExceeded : Bool)
  /-- The provider returned a value. -/
  | returned (result : Json)

/-- What an execution records and returns when it ends: the terminal fact, unless its
type does not exist, and the evidence and the warnings of the two envelopes. -/
structure Outcome where
  payload : Option FactPayload
  evidenceRefs : List String
  /-- The evidence of the envelope that reports a failed append. -/
  evidence : List String
  warnings : List String
  envelope : List String → Envelope

/-- `outcome` in `typeByOutcome[outcome]`, with the default for a falsy one. -/
def outcomeKey (contract : ExecutionContract) (error : Thrown) (deadlineExceeded : Bool) : String :=
  if deadlineExceeded then "uncertain"
  else if error.outcome.truthy then error.outcome.shown
  else if contract.reversibility = .readOnly then "failed"
  else "uncertain"

/-- `providerError`. -/
def providerError (error : Thrown) : ProviderFailure where
  code := match error.code with | .text code => code | .other .. => "PROVIDER_EXECUTION_FAILED"
  message := match error.message with
    | .text message => message
    | .other .. => "Provider execution failed"
  retryable := error.retryable

section

variable (prepared : Prepared) (approvalEvidence : List String)

/-- A failure that is recorded with the given fact and reported as the given error. -/
def failureOutcome (payload : Option FactPayload) (evidenceRefs evidence : List String)
    (warnings : List String) (error : Thrown) : Outcome where
  payload := payload
  evidenceRefs := evidenceRefs
  evidence := evidence
  warnings := warnings
  envelope := failureEnvelope error (some prepared.operationId) evidence

/-- The end of a dispatch that threw. -/
def threwOutcome (error : Thrown) (deadlineExceeded : Bool) : Outcome :=
  let normalized := providerError error
  let receiptRef := error.receiptRef.bind ErrorField.nonEmpty?
  let warnings := prepared.warnings ++
    (if error.receiptRef.isSome && receiptRef.isNone then ["provider_error_receipt_ref_invalid"]
      else [])
  let key := outcomeKey prepared.contract error deadlineExceeded
  let evidence := approvalEvidence ++ receiptRef.toList
  let fails (payload : FactPayload) (error : Thrown) : Outcome :=
    failureOutcome prepared (some payload) receiptRef.toList evidence warnings error
  let reason := if deadlineExceeded then "provider deadline exceeded after dispatch began"
    else normalized.message
  if key = "cancelled" then
    fails (.cancelled normalized.message "dispatch" receiptRef warnings)
      (governedError normalized.message "EXECUTION_CANCELLED")
  else if key = "failed" then
    fails (.failed normalized receiptRef warnings)
      { governedError normalized.message normalized.code with retryable := normalized.retryable }
  else if key ∈ objectPrototypeKeys then
    -- The table of types finds an inherited function, which names no event type.
    failureOutcome prepared none receiptRef.toList evidence warnings
      (governedError normalized.message normalized.code)
  else
    fails (.uncertain reason receiptRef warnings) (governedError reason "EXECUTION_OUTCOME_IN_DOUBT")

/-- A result that the runtime refuses: uncertain after a mutation, failed otherwise. -/
def refusedOutcome (error : ProviderFailure) (reason : String) (receiptRef : Option String)
    (evidenceRefs evidence warnings : List String) : Outcome :=
  let uncertain := prepared.contract.reversibility ≠ .readOnly
  failureOutcome prepared
    (some (if uncertain then .uncertain reason receiptRef warnings
      else .failed error none warnings))
    evidenceRefs evidence warnings
    (governedError error.message (if uncertain then "EXECUTION_OUTCOME_IN_DOUBT" else error.code))

/-- The code and the message of an error the runtime made itself. -/
def Thrown.failure (error : Thrown) : ProviderFailure :=
  ⟨error.code.shown, error.message.shown, false⟩

/-- The end of a dispatch that returned a value. -/
def returnedOutcome (result : Json) : Outcome :=
  match result.field? "data" with
  | none =>
      let invalid := (providerResultInvalid "Provider result must contain data").failure
      refusedOutcome prepared invalid invalid.message none [] approvalEvidence prepared.warnings
  | some data =>
      match providerMetadata result with
      | .error error =>
          let invalid := error.failure
          refusedOutcome prepared invalid invalid.message none [] approvalEvidence prepared.warnings
      | .ok metadata =>
          let evidence := approvalEvidence ++ metadata.evidence
          let warnings := prepared.warnings ++ metadata.warnings
          match prepared.contract.validateOutput (some data) with
          | .error error =>
              refusedOutcome prepared error.failure
                "provider completed but output schema validation failed" metadata.receiptRef
                metadata.receiptRef.toList evidence warnings
          | .ok output => {
              payload := some (.succeeded output prepared.contract.outputSchema.version
                metadata.receiptRef warnings)
              evidenceRefs := evidence
              evidence := evidence
              warnings := warnings
              envelope := executionEnvelope true (some ⟨prepared.operationId, output, false⟩) none
                evidence }

/-- What an execution records and returns for the way it ends. -/
def outcomeOf : Ending → Outcome
  | .aborted => failureOutcome prepared
      (some (.cancelled "cancelled before provider dispatch" "pre_dispatch" none prepared.warnings))
      [] approvalEvidence prepared.warnings (governedError "Execution cancelled" "EXECUTION_CANCELLED")
  | .expired => failureOutcome prepared
      (some (.cancelled "execution deadline expired before provider dispatch" "pre_dispatch" none
        prepared.warnings))
      [] approvalEvidence prepared.warnings dispatchDeadlineError
  | .threw error deadlineExceeded => threwOutcome prepared approvalEvidence error deadlineExceeded
  | .returned result => returnedOutcome prepared approvalEvidence result

end

end Hseos
