import Hseos.Governed.ApprovalStore
import Hseos.Governed.Outcome

/-! # Governed execution runtime

Calls of `execute` and `cancelQueued` that share one ledger and one approval
store. A call runs from one await or database operation to the next, so that a
run is any interleaving of such steps; what a step learns from outside comes with
the action. The ledger appends to a stream when it stands at the expected version
and may fail for reasons of its own.
-/

namespace Hseos

/-! ## Requests -/

/-- `request.signal`: nothing, something that is not an `AbortSignal`, or one. -/
inductive RequestSignal where
  | absent
  | invalid
  | present
  deriving DecidableEq

structure ExecutionRequest where
  body : Json
  signal : RequestSignal
  deriving DecidableEq

/-- What the provider registry answers. -/
inductive ProviderLookup where
  | threw
  | missing
  | found
  deriving DecidableEq

inductive CallKind where
  | execute
  | cancelQueued
  deriving DecidableEq

/-- A request whose own fields passed their checks. -/
structure Admitted where
  contract : ExecutionContract
  input : Json
  actor : Json
  resourceScope : Json

def requestInvalid (message : String) : Thrown := governedError message "EXECUTION_REQUEST_INVALID"

def checkFailureMode (contract : ExecutionContract) : Except Thrown Unit :=
  reject (contract.failureMode ≠ .failClosed)
    (governedError ("Failure mode " ++ contract.failureMode.text ++
      " is reserved but not implemented by execution runtime v1")
      "EXECUTION_FAILURE_MODE_NOT_IMPLEMENTED")

def checkProvider : ProviderLookup → Except Thrown Unit
  | .threw => .error (governedError "Provider registry lookup failed"
      "EXECUTION_PROVIDER_RESOLUTION_FAILED")
  | .missing => .error (governedError "Provider is unavailable" "EXECUTION_PROVIDER_NOT_FOUND")
  | .found => .ok ()

/-- The member of a request, `null` when it is missing. -/
def ExecutionRequest.member (request : ExecutionRequest) (name : String) : Json :=
  (request.body.field? name).getD .null

/-- The actor does not declare an identifier and a type. -/
def actorUndeclared (actor : Json) : Bool :=
  !isNonEmptyString (actor.field? "id") || !isNonEmptyString (actor.field? "type")

/-- The checks of `execute` before its first await. -/
def admitExecution (registry : ContractRegistry) (lookup : ProviderLookup)
    (request : ExecutionRequest) : Except Thrown Admitted := do
  reject (!request.body.isObject) (requestInvalid "Execution request must be an object")
  let contract ← registry.resolve (request.body.field? "tool")
  checkFailureMode contract
  checkProvider lookup
  let input ← contract.validateInput (request.body.field? "input")
  let actor := request.member "actor"
  reject (!actor.isObject) (requestInvalid "actor must be an object")
  reject (actorUndeclared actor) (requestInvalid "actor must declare non-empty id and type")
  let resourceScope := request.member "resource_scope"
  reject (!resourceScope.isObject) (requestInvalid "resource_scope must be an object")
  reject (memberNames resourceScope = []) (requestInvalid "resource_scope must not be empty")
  reject (request.signal = .invalid) (requestInvalid "signal must implement the AbortSignal contract")
  return ⟨contract, input, actor, resourceScope⟩

/-- The checks of `cancelQueued` before its first await. -/
def admitCancellation (registry : ContractRegistry) (request : ExecutionRequest) :
    Except Thrown Admitted := do
  reject (!request.body.isObject) (requestInvalid "Execution request must be an object")
  let contract ← registry.resolve (request.body.field? "tool")
  checkFailureMode contract
  reject (contract.cancellationPolicy ≠ .cooperative)
    (governedError "Tool contract does not permit cancellation" "EXECUTION_CANCELLATION_REFUSED")
  let input ← contract.validateInput (request.body.field? "input")
  let actor := request.member "actor"
  reject (!actor.isObject || actorUndeclared actor)
    (requestInvalid "actor must declare non-empty id and type")
  let resourceScope := request.member "resource_scope"
  reject (!resourceScope.isObject || memberNames resourceScope = [])
    (requestInvalid "resource_scope must be a non-empty object")
  return ⟨contract, input, actor, resourceScope⟩

/-- The word for what a decision is about. -/
def CallKind.noun : CallKind → String
  | .execute => "execution"
  | .cancelQueued => "cancellation"

def checkAuthority (kind : CallKind) (decision : Except Thrown Json) : Except Thrown Unit := do
  let decision ← decision
  reject (decision.field? "allowed" ≠ some (.bool true))
    (governedError ("Authority evaluation denied " ++ kind.noun) "EXECUTION_AUTHORITY_DENIED")

/-- A flag that is absent or a boolean. -/
def flag? (value : Option Json) : Option Bool :=
  match value with
  | none => some false
  | some (.bool value) => some value
  | some _ => none

/-- Whether the policy asks for an approval, and its warnings. -/
def checkPolicy (kind : CallKind) (contract : ExecutionContract) (decision : Except Thrown Json) :
    Except Thrown (Bool × List String) := do
  let decision ← decision
  reject (decision.field? "allowed" ≠ some (.bool true))
    (governedError ("Policy evaluation denied " ++ kind.noun) "EXECUTION_POLICY_DENIED")
  reject (decision.field? "policy_version" ≠ some (.str contract.policyVersion))
    (governedError "Policy version does not match the tool contract"
      "EXECUTION_POLICY_VERSION_MISMATCH")
  match flag? (decision.field? "requires_approval"), stringArray? (decision.field? "warnings") with
  | some approval, some warnings => return (approval, warnings)
  | _, _ => throw (governedError "Policy decision has an invalid shape"
      "EXECUTION_POLICY_DECISION_INVALID")

/-- The idempotency key of a request: `execute` makes one up when there is none. -/
def idempotencyKey (kind : CallKind) (request : ExecutionRequest) (generated : String) :
    Except Thrown String :=
  let given := request.body.field? "idempotency_key"
  match kind, (given.bind Json.string?).filter (· ≠ "") with
  | _, some key => .ok key
  | .execute, none =>
      if given.isNone && generated ≠ "" then .ok generated
      else .error (requestInvalid "idempotency_key must be a non-empty string")
  | .cancelQueued, none => .error
      (requestInvalid "Queued cancellation requires its original idempotency key")

/-- The default of `causation_id`. -/
def CallKind.causation (kind : CallKind) (operationId : String) : String :=
  match kind with
  | .execute => "request:" ++ operationId
  | .cancelQueued => "scheduler-cancel:" ++ operationId

/-- `request[name] || fallback`. -/
def ExecutionRequest.orElse (request : ExecutionRequest) (name fallback : String) : Json :=
  ((request.body.field? name).filter Json.truthy).getD (.str fallback)

/-- The operation of an admitted request. -/
def prepare (kind : CallKind) (request : ExecutionRequest) (admitted : Admitted) (key : String)
    (policyApproval : Bool) (warnings : List String) (clock : ClockReading) :
    Except Thrown Prepared := do
  let operationId := deterministicOperationId admitted.contract.name key
  let startedAt ← canonicalTime clock
  let deadline ← deadlineText startedAt admitted.contract.timeoutMs
  return {
    contract := admitted.contract
    input := admitted.input
    operation := {
      operationId := operationId
      tool := admitted.contract.name
      capability := admitted.contract.capability
      actor := admitted.actor
      resourceScope := admitted.resourceScope
      idempotencyKey := key
      correlationId := request.orElse "correlation_id" operationId
      causationId := request.orElse "causation_id" (kind.causation operationId)
      deadline := deadline }
    inputDigest := inputDigest admitted.input
    deadline := startedAt + admitted.contract.timeoutMs
    warnings := warnings
    policyApproval := policyApproval }

/-! ## Calls -/

/-- An execution that recorded its end. -/
structure Recorded where
  prepared : Prepared
  approvalEvidence : List String
  ending : Ending
  /-- The warning of a projection that could not be reconciled. -/
  reconcile : Option String

/-- Where a call stands: at an await, before a database operation, or at its end. -/
inductive Phase where
  | authorizing (admitted : Admitted)
  | deciding (admitted : Admitted)
  | reading (prepared : Prepared)
  | resolving (prepared : Prepared)
  | starting (prepared : Prepared) (approvalId : Option String)
  | cancelling (prepared : Prepared)
  | started (prepared : Prepared) (approvalEvidence : List String)
  | dispatching (prepared : Prepared) (approvalEvidence : List String)
  | persisting (prepared : Prepared) (approvalEvidence : List String) (ending : Ending)
  | finished (envelope : Envelope) (recorded : Option Recorded)

structure Call where
  kind : CallKind
  request : ExecutionRequest
  phase : Phase

/-- The execution streams, by operation identifier. -/
abbrev Streams := String → List Fact

structure GovernedState where
  streams : Streams
  approvals : ApprovalStore
  calls : List Call
  /-- The invocations of `provider.execute`, oldest first. -/
  dispatched : List Prepared

def GovernedState.initial : GovernedState := ⟨fun _ => [], .empty, [], []⟩

/-- The dependencies that do not change. -/
structure GovernedRuntime where
  contracts : ContractRegistry
  /-- There are an approval store and a resolver. -/
  approvalBoundary : Bool

/-- The call ends with an error, before anything was recorded. -/
def failed (error : Thrown) (operationId : Option String) (warnings : List String) : Phase :=
  .finished (failureEnvelope error operationId [] warnings) none

/-- The call ends with an error of an operation that was prepared. -/
def Prepared.fails (prepared : Prepared) (error : Thrown) : Phase :=
  failed error (some prepared.operationId) prepared.warnings

/-! ## Ledger -/

/-- The ledger takes no events without textual identifiers. -/
def Fact.storable (fact : Fact) : Bool :=
  isNonEmptyString (some fact.correlationId) && isNonEmptyString (some fact.causationId)

/-- The payload as it is read back: the result is parsed from its stable text. -/
def FactPayload.stored : FactPayload → FactPayload
  | .succeeded result outputSchemaVersion receiptRef warnings =>
      .succeeded result.stableValue outputSchemaVersion receiptRef warnings
  | payload => payload

/-- The fact as it is read back. -/
def Fact.stored (fact : Fact) : Fact := { fact with payload := fact.payload.stored }

/-- `ledger.append`, which may fail for reasons of its own. -/
def appendFacts (streams : Streams) (operationId : String) (expectedVersion : Nat)
    (facts : List Fact) (failure : Option Thrown) : Except Thrown Streams :=
  match failure with
  | some error => .error error
  | none => do
      reject (!facts.all Fact.storable)
        (LedgerError.invalidEvent "correlation_id must be a non-empty string").thrown
      reject ((streams operationId).length ≠ expectedVersion)
        (LedgerError.concurrencyConflict "execution" operationId expectedVersion
          (streams operationId).length).thrown
      return Function.update streams operationId
        (streams operationId ++ facts.map Fact.stored)

/-! ## Steps of a call -/

def afterAuthority (kind : CallKind) (admitted : Admitted) (decision : Except Thrown Json) : Phase :=
  match checkAuthority kind decision with
  | .error error => failed error none []
  | .ok () => .deciding admitted

def afterPolicy (kind : CallKind) (request : ExecutionRequest) (admitted : Admitted)
    (decision : Except Thrown Json) (generated : String) (clock : ClockReading) : Phase :=
  match checkPolicy kind admitted.contract decision with
  | .error error => failed error none []
  | .ok (policyApproval, warnings) =>
      match idempotencyKey kind request generated with
      | .error error => failed error none warnings
      | .ok key =>
          match prepare kind request admitted key policyApproval warnings clock with
          | .error error =>
              failed error (some (deterministicOperationId admitted.contract.name key)) warnings
          | .ok prepared => .reading prepared

/-- What an execution does when its operation has no facts. -/
def beginOperation (runtime : GovernedRuntime) (prepared : Prepared) : Phase :=
  if prepared.requiresApproval then
    if runtime.approvalBoundary then .resolving prepared
    else prepared.fails
      (governedError "Explicit approval is required but no approval boundary is available"
        "EXECUTION_APPROVAL_REQUIRED")
  else .starting prepared none

def afterRead (runtime : GovernedRuntime) (kind : CallKind) (prepared : Prepared)
    (existing : Except Thrown (List Fact)) : Phase :=
  match existing >>= readExisting prepared with
  | .error error => prepared.fails error
  | .ok (some envelope) => .finished envelope none
  | .ok none =>
      match kind with
      | .execute => beginOperation runtime prepared
      | .cancelQueued => .cancelling prepared

def afterResolve (prepared : Prepared) (answer : Except Thrown Json) : Phase :=
  match answer with
  | .error error => prepared.fails error
  | .ok value =>
      match (value.string?).filter (· ≠ "") with
      | none => prepared.fails
          (governedError "Explicit approval is required" "EXECUTION_APPROVAL_REQUIRED")
      | some approvalId => .starting prepared (some approvalId)

/-- The two start facts of an execution. -/
def startFacts (prepared : Prepared) (approvalId : Option String) (approvalEvidence : List String)
    (stamps : FactStamp × FactStamp) : Except Thrown (List Fact) := do
  let authorized ← makeFact prepared.operation (.authorized (prepared.authorizedFact approvalId))
    approvalEvidence stamps.1
  let started ← makeFact prepared.operation (.started prepared.startedFact) [] stamps.2
  return [authorized, started]

/-- The evidence of the approval that was named, if it exists. -/
def approvalEvidence (approvals : ApprovalStore) (approvalId : Option String) : List String :=
  (approvalId.bind approvals.get).toList.map (·.evidenceRef)

/-- The start facts are appended, with the consumption of the approval if there is one. -/
def startOperation (state : GovernedState) (prepared : Prepared) (approvalId : Option String)
    (stamps : FactStamp × FactStamp) (now : ClockReading) (failure : Option Thrown) :
    Except Thrown (List String × ApprovalStore × Streams) := do
  let facts ← startFacts prepared approvalId (approvalEvidence state.approvals approvalId) stamps
  let appended := appendFacts state.streams prepared.operationId 0 facts failure
  match approvalId with
  | none => do
      let streams ← appended
      return ([], state.approvals, streams)
  | some approvalId => do
      let now ← canonicalTime now
      let (approval, approvals, streams) ← state.approvals.consume
        ⟨approvalId, prepared.operationId, prepared.operation.resourceScope,
          prepared.contract.policyVersion, isoString now⟩ appended
      return ([approval.evidenceRef], approvals, streams)

/-- What a started execution does before the dispatch; `none` stands for the dispatch. -/
def beforeDispatch (request : ExecutionRequest) (prepared : Prepared) (aborted : Bool)
    (now : ClockReading) : Except Thrown (Option Ending) :=
  if request.signal = .present && aborted &&
      prepared.contract.cancellationPolicy = .cooperative then .ok (some .aborted)
  else do
    let now ← canonicalTime now
    return if prepared.deadline - now ≤ 0 then some .expired else none

/-- `cause.code || cause.message`. -/
def Thrown.cause (error : Thrown) : String :=
  if error.code.truthy then error.code.shown else error.message.shown

/-- `_terminalPersistenceFailure`. -/
def terminalPersistenceFailure (operationId : String) (evidence warnings : List String)
    (cause : Thrown) : Envelope :=
  failureEnvelope
    (governedError "Provider dispatch began but the terminal outcome could not be persisted; automatic replay is prohibited"
      "EXECUTION_OUTCOME_IN_DOUBT")
    (some operationId) evidence (warnings ++ ["terminal_append_failed:" ++ cause.cause])

/-- `_appendOutcome`. -/
def appendOutcome (streams : Streams) (prepared : Prepared) (outcome : Outcome) (stamp : FactStamp)
    (failure : Option Thrown) : Except Thrown Streams :=
  match outcome.payload with
  | none => .error
      (LedgerError.schema "Unregistered event type" "EXECUTION_EVENT_TYPE_UNREGISTERED").thrown
  | some payload => do
      let fact ← makeFact prepared.operation payload outcome.evidenceRefs stamp
      appendFacts streams prepared.operationId 2 [fact] failure

/-- The facts of an operation that is cancelled before it starts. -/
def cancellationFacts (prepared : Prepared) (stamps : FactStamp × FactStamp × FactStamp) :
    Except Thrown (List Fact) := do
  let facts ← startFacts prepared none [] (stamps.1, stamps.2.1)
  let cancelled ← makeFact prepared.operation
    (.cancelled "cancelled by governed scheduler before provider dispatch" "scheduler_queue" none
      prepared.warnings) [] stamps.2.2
  return facts ++ [cancelled]

/-! ## Runs -/

/-- What happens next: a call is made, an approval is issued, or the call of an index
goes on with what it waited for. -/
inductive Action where
  | execute (request : ExecutionRequest) (lookup : ProviderLookup)
  | cancelQueued (request : ExecutionRequest)
  | issue (record : Json)
  | authority (call : Nat) (decision : Except Thrown Json)
  | policy (call : Nat) (decision : Except Thrown Json) (generated : String) (clock : ClockReading)
  | read (call : Nat) (failure : Option Thrown)
  | resolve (call : Nat) (answer : Except Thrown Json)
  | start (call : Nat) (stamps : FactStamp × FactStamp) (now : ClockReading)
      (failure : Option Thrown)
  | dispatch (call : Nat) (aborted : Bool) (now : ClockReading)
  | settle (call : Nat) (ending : Ending)
  | record (call : Nat) (stamp : FactStamp) (failure : Option Thrown) (reconcile : Option String)
  | cancel (call : Nat) (stamps : FactStamp × FactStamp × FactStamp) (failure : Option Thrown)
      (reconcile : Option String)

/-- A provider can only throw or return. -/
def Ending.ofProvider : Ending → Bool
  | .threw .. | .returned _ => true
  | .aborted | .expired => false

def GovernedState.setPhase (state : GovernedState) (index : Nat) (phase : Phase) : GovernedState :=
  { state with calls := state.calls.modify index fun call => { call with phase := phase } }

def beginCall (kind : CallKind) (request : ExecutionRequest) (admitted : Except Thrown Admitted) :
    Call where
  kind := kind
  request := request
  phase := match admitted with
    | .error error => failed error none []
    | .ok admitted => .authorizing admitted

/-- The step of the start facts. -/
def stepStart (state : GovernedState) (index : Nat) (prepared : Prepared)
    (approvalId : Option String) (stamps : FactStamp × FactStamp) (now : ClockReading)
    (failure : Option Thrown) : GovernedState :=
  match startOperation state prepared approvalId stamps now failure with
  | .error error => state.setPhase index (prepared.fails error)
  | .ok (evidence, approvals, streams) =>
      { state.setPhase index (.started prepared evidence) with
        approvals := approvals, streams := streams }

/-- The step before the dispatch, and the dispatch. -/
def stepDispatch (state : GovernedState) (index : Nat) (request : ExecutionRequest)
    (prepared : Prepared) (approvalEvidence : List String) (aborted : Bool) (now : ClockReading) :
    GovernedState :=
  match beforeDispatch request prepared aborted now with
  | .error error => state.setPhase index (prepared.fails error)
  | .ok (some ending) => state.setPhase index (.persisting prepared approvalEvidence ending)
  | .ok none =>
      { state.setPhase index (.dispatching prepared approvalEvidence) with
        dispatched := state.dispatched ++ [prepared] }

/-- The step of the terminal fact. -/
def stepRecord (state : GovernedState) (index : Nat) (prepared : Prepared)
    (approvalEvidence : List String) (ending : Ending) (stamp : FactStamp) (failure : Option Thrown)
    (reconcile : Option String) : GovernedState :=
  let outcome := outcomeOf prepared approvalEvidence ending
  match appendOutcome state.streams prepared outcome stamp failure with
  | .error error => state.setPhase index (.finished (terminalPersistenceFailure
      prepared.operationId outcome.evidence outcome.warnings error) none)
  | .ok streams =>
      { state.setPhase index (.finished
          (outcome.envelope (outcome.warnings ++ reconcile.toList))
          (some ⟨prepared, approvalEvidence, ending, reconcile⟩)) with
        streams := streams }

/-- The step that records a cancellation before the start. -/
def stepCancel (state : GovernedState) (index : Nat) (prepared : Prepared)
    (stamps : FactStamp × FactStamp × FactStamp) (failure : Option Thrown)
    (reconcile : Option String) : GovernedState :=
  match cancellationFacts prepared stamps >>= fun facts =>
      appendFacts state.streams prepared.operationId 0 facts failure with
  | .error error => state.setPhase index (prepared.fails error)
  | .ok streams =>
      { state.setPhase index (.finished (failureEnvelope
          (governedError "Execution cancelled before provider dispatch" "EXECUTION_CANCELLED")
          (some prepared.operationId) [] (prepared.warnings ++ reconcile.toList)) none) with
        streams := streams }

/-- One action. -/
def governedStep (runtime : GovernedRuntime) (state : GovernedState) (action : Action) :
    Except Disabled GovernedState :=
  let phase? (index : Nat) : Option (Call × Phase) :=
    state.calls[index]?.map fun call => (call, call.phase)
  match action with
  | .execute request lookup => .ok { state with
      calls := state.calls ++
        [beginCall .execute request (admitExecution runtime.contracts lookup request)] }
  | .cancelQueued request => .ok { state with
      calls := state.calls ++
        [beginCall .cancelQueued request (admitCancellation runtime.contracts request)] }
  | .issue record =>
      match state.approvals.issue record with
      | .error _ => .ok state
      | .ok approvals => .ok { state with approvals := approvals }
  | .authority index decision =>
      match phase? index with
      | some (call, .authorizing admitted) =>
          .ok (state.setPhase index (afterAuthority call.kind admitted decision))
      | _ => .error .disabled
  | .policy index decision generated clock =>
      match phase? index with
      | some (call, .deciding admitted) => .ok (state.setPhase index
          (afterPolicy call.kind call.request admitted decision generated clock))
      | _ => .error .disabled
  | .read index failure =>
      match phase? index with
      | some (call, .reading prepared) =>
          let existing := match failure with
            | some error => .error error
            | none => .ok (state.streams prepared.operationId)
          .ok (state.setPhase index (afterRead runtime call.kind prepared existing))
      | _ => .error .disabled
  | .resolve index answer =>
      match phase? index with
      | some (_, .resolving prepared) =>
          .ok (state.setPhase index (afterResolve prepared answer))
      | _ => .error .disabled
  | .start index stamps now failure =>
      match phase? index with
      | some (_, .starting prepared approvalId) =>
          .ok (stepStart state index prepared approvalId stamps now failure)
      | _ => .error .disabled
  | .dispatch index aborted now =>
      match phase? index with
      | some (call, .started prepared approvalEvidence) =>
          .ok (stepDispatch state index call.request prepared approvalEvidence aborted now)
      | _ => .error .disabled
  | .settle index ending =>
      match phase? index with
      | some (_, .dispatching prepared approvalEvidence) =>
          if ending.ofProvider then
            .ok (state.setPhase index (.persisting prepared approvalEvidence ending))
          else .error .disabled
      | _ => .error .disabled
  | .record index stamp failure reconcile =>
      match phase? index with
      | some (_, .persisting prepared approvalEvidence ending) =>
          .ok (stepRecord state index prepared approvalEvidence ending stamp failure reconcile)
      | _ => .error .disabled
  | .cancel index stamps failure reconcile =>
      match phase? index with
      | some (_, .cancelling prepared) =>
          .ok (stepCancel state index prepared stamps failure reconcile)
      | _ => .error .disabled

end Hseos
