import Hseos.Contracts.Event
import Hseos.Foundation.Run

/-! # Delegated runtime sessions

The facts that are recorded of a delegated session, and the state they are folded
into. A canonical UTC text is known by its instant in milliseconds.
-/

namespace Hseos.Delegated

/-! ## Errors -/

/-- What the host and its callers read of a thrown value. -/
structure HostError where
  message : String
  code : String := "DELEGATED_RUNTIME_INVALID"
  errorCode : Option NormalizedErrorCode := none
  retryable : Bool := false
  deriving DecidableEq

abbrev Result := Except HostError

/-- `new Date(NaN).toISOString()`. -/
def invalidDate : HostError := { message := "Invalid time value", code := "" }

/-! ## Records -/

/-- A manifest that passed `RuntimeProviderManifestSchema`: its provider and the rest of it. -/
structure RuntimeProviderManifest where
  providerId : Identifier
  declared : Json
  deriving DecidableEq

inductive ApprovalDecision where
  | approved | denied
  deriving DecidableEq

/-- The payloads of `RuntimeEventSchema`. -/
inductive RuntimePayload where
  | sessionStarted (hseosSessionId : Identifier)
  | messageDelta (turnId : Identifier) (text : DeltaText)
  | toolCall (turnId toolCallId name : Identifier) (input : Json)
  | approvalOutcome (toolCallId : Identifier) (decision : ApprovalDecision) (approvalRef : Reference)
  | sessionCompleted (outcomeRef : Reference)
  | sessionFailed (errorCode : NormalizedErrorCode) (message : Refined (lengthWithin 1 4096))
      (retryable : Bool)
  deriving DecidableEq

structure RuntimeEvent where
  providerId : Identifier
  runtimeSessionId : String
  sequence : Nat
  occurredAt : Timestamp
  payload : RuntimePayload
  deriving DecidableEq

/-- The event ends the runtime session. -/
def RuntimeEvent.isTerminal (event : RuntimeEvent) : Bool :=
  match event.payload with
  | .sessionCompleted _ | .sessionFailed .. => true
  | _ => false

structure TurnRequest where
  requestId : Identifier
  turnId : Identifier
  message : AgentMessage
  deriving DecidableEq

structure CancelRequest where
  requestId : Identifier
  reason : String
  deriving DecidableEq

structure Failure where
  requestId : Identifier
  errorCode : NormalizedErrorCode
  message : String
  retryable : Bool
  deriving DecidableEq

/-- The payload of `delegated.worker.attached` and `delegated.worker.heartbeat`. -/
structure WorkerLease where
  requestId : Identifier
  workerId : Identifier
  leaseEpoch : Nat
  leaseTtlMs : Nat
  leaseExpiresAt : Int
  deriving DecidableEq

structure WorkerDrain where
  requestId : Identifier
  workerId : Identifier
  leaseEpoch : Nat
  deferShutdownMs : Nat
  drainDeadlineAt : Int
  reason : String
  deriving DecidableEq

structure WorkerCheckpoint where
  requestId : Identifier
  workerId : Identifier
  leaseEpoch : Nat
  checkpointSequence : Nat
  reason : String
  deriving DecidableEq

/-- The payload of `delegated.worker.orphaned` and `delegated.worker.retired`. -/
structure WorkerTerminal where
  requestId : Identifier
  workerId : Identifier
  leaseEpoch : Nat
  reason : String
  deriving DecidableEq

/-- The events of `EVENT_SCHEMAS` with their payloads. -/
inductive Fact where
  | created (requestId : Identifier) (spec : AgentSessionSpec)
  | bound (runtimeSessionId : String) (manifest : RuntimeProviderManifest)
  | turnRequested (turn : TurnRequest)
  | dispatchStarted (requestId : Identifier)
  | cancelRequested (cancel : CancelRequest)
  | failed (failure : Failure)
  | outcomeUncertain (failure : Failure)
  | eventRecorded (event : RuntimeEvent)
  | attached (lease : WorkerLease)
  | heartbeat (lease : WorkerLease)
  | drainRequested (drain : WorkerDrain)
  | parked (checkpoint : WorkerCheckpoint)
  | orphaned (terminal : WorkerTerminal)
  | retired (terminal : WorkerTerminal)
  deriving DecidableEq

def Fact.eventType : Fact → String
  | .created .. => "delegated.runtime.created"
  | .bound .. => "delegated.runtime.bound"
  | .turnRequested _ => "delegated.turn.requested"
  | .dispatchStarted _ => "delegated.turn.dispatch_started"
  | .cancelRequested _ => "delegated.cancel.requested"
  | .failed _ => "delegated.runtime.failed"
  | .outcomeUncertain _ => "delegated.runtime.outcome_uncertain"
  | .eventRecorded _ => "delegated.runtime.event_recorded"
  | .attached _ => "delegated.worker.attached"
  | .heartbeat _ => "delegated.worker.heartbeat"
  | .drainRequested _ => "delegated.worker.drain_requested"
  | .parked _ => "delegated.worker.parked"
  | .orphaned _ => "delegated.worker.orphaned"
  | .retired _ => "delegated.worker.retired"

/-- A row of the session's stream. Its identifier is derived from the session, the event type
and the key, which is also its `causation_id`. -/
structure Row where
  streamSequence : Nat
  key : String
  fact : Fact
  occurredAt : Int
  correlationId : String
  actor : Json
  deriving DecidableEq

/-! ## State -/

inductive WorkerStatus where
  | unassigned | attached | draining | parked | orphaned | retired
  deriving DecidableEq

structure Worker where
  status : WorkerStatus := .unassigned
  workerId : Option Identifier := none
  leaseEpoch : Nat := 0
  leaseTtlMs : Option Nat := none
  leaseExpiresAt : Option Int := none
  drainDeadlineAt : Option Int := none
  drainRequestId : Option Identifier := none
  drainReason : Option String := none
  drainDeferShutdownMs : Option Nat := none
  checkpointSequence : Option Nat := none
  deriving DecidableEq

structure State where
  sessionId : Identifier
  traceId : Option String := none
  version : Nat := 0
  spec : Option AgentSessionSpec := none
  manifest : Option RuntimeProviderManifest := none
  runtimeSessionId : Option String := none
  runtimeSequence : Nat := 0
  terminal : Bool := false
  terminalEvent : Option RuntimeEvent := none
  pendingTurn : Option TurnRequest := none
  dispatchStarted : Bool := false
  cancelRequest : Option CancelRequest := none
  failed : Option Failure := none
  runtimeEvents : List RuntimeEvent := []
  lastOccurredAt : Option Int := none
  worker : Worker := {}
  deriving DecidableEq

def initialState (sessionId : Identifier) : State := { sessionId }

/-! ## Clocks and traces -/

/-- The latest instant of a `Date`. -/
def maxInstant : Int := 8640000000000000

def addMilliseconds (timestamp : Int) (milliseconds : Nat) : Result Int :=
  if timestamp + milliseconds > maxInstant then
    .error { message := "worker deadline exceeds the supported clock range" }
  else .ok (timestamp + milliseconds)

/-- `boundedIdentity`. -/
def boundedIdentity (value : String) (label : String) : Result Unit :=
  reject (value = "" || byteLength (chars value) > 1024 ||
      (chars value).any fun c => c.toNat ≤ 32 || c.toNat = 127)
    { message := s!"{label} is invalid", code := "AGENT_TRACE_LINEAGE_INVALID" }

/-- `TRACE_ID`, but for the identifier of zeros. -/
def isTraceId (value : String) : Bool :=
  (chars value).length = 32 && (chars value).all Sha256.isHexChar &&
    (chars value).any (· ≠ '0')

def canonicalTraceId (seed : String) : Result String := do
  boundedIdentity seed "trace seed"
  return if isTraceId seed then seed
  else String.ofList ((chars (sha256Hex ("hseos-trace\x00".toList ++ chars seed))).take 32)

/-! ## Facts -/

def invalidFact (message : String) : HostError := { message }

def fenced (message : String) : HostError := { message, code := "DELEGATED_WORKER_FENCED" }

def assertWorkerIdentity (state : State) (workerId : Identifier) (leaseEpoch : Nat) : Result Unit :=
  reject (state.worker.workerId ≠ some workerId || state.worker.leaseEpoch ≠ leaseEpoch)
    (fenced "delegated worker fencing token is invalid")

/-- The provider that a delegated specification names. -/
def runtimeProviderId? (spec : AgentSessionSpec) : Option Identifier :=
  match spec.execution with
  | .delegated runtimeProviderId _ => some runtimeProviderId
  | .kernel .. => none

/-- `Math.min` with a deadline that may be absent. -/
def capped (expiry : Int) (deadline : Option Int) : Int := deadline.elim expiry (min expiry)

section

variable (state : State) (occurredAt : Int)

def applyCreated (spec : AgentSessionSpec) : Result State := do
  reject (state.version ≠ 0 || spec.sessionId ≠ state.sessionId || (runtimeProviderId? spec).isNone)
    (invalidFact "delegated runtime creation fact is invalid")
  return { state with spec := some spec }

def applyBound (runtimeSessionId : String) (manifest : RuntimeProviderManifest) :
    Result State := do
  reject (state.manifest.isSome || (state.spec.bind runtimeProviderId?) ≠ some manifest.providerId)
    (invalidFact "delegated runtime binding fact is invalid")
  return { state with manifest := some manifest, runtimeSessionId := some runtimeSessionId }

/-- Whether an event starts the session of another identifier. -/
def startsOther (event : RuntimeEvent) : Bool :=
  match event.payload with
  | .sessionStarted hseosSessionId => hseosSessionId ≠ state.sessionId
  | _ => false

def applyEventRecorded (event : RuntimeEvent) : Result State := do
  reject (state.manifest.map (·.providerId) ≠ some event.providerId ||
      state.runtimeSessionId ≠ some event.runtimeSessionId ||
      event.sequence ≠ state.runtimeSequence + 1)
    (invalidFact "runtime event does not continue the durable provider binding")
  reject (startsOther state event)
    (invalidFact "runtime start event belongs to another HSEOS session")
  reject state.terminal (invalidFact "runtime event follows a terminal fact")
  let next := { state with
    runtimeSequence := event.sequence, runtimeEvents := state.runtimeEvents ++ [event] }
  return if event.isTerminal then
    { next with terminal := true, terminalEvent := some event, pendingTurn := none }
  else next

def applyTurnRequested (turn : TurnRequest) : Result State := do
  reject (state.manifest.isNone || state.terminal || state.pendingTurn.isSome)
    (invalidFact "delegated turn fact is invalid")
  return { state with pendingTurn := some turn, dispatchStarted := false }

def applyDispatchStarted (requestId : Identifier) : Result State := do
  reject (state.pendingTurn.map (·.requestId) ≠ some requestId || state.dispatchStarted ||
      state.terminal) (invalidFact "delegated dispatch fact is invalid")
  return { state with dispatchStarted := true }

def applyCancelRequested (cancel : CancelRequest) : Result State := do
  reject (state.manifest.isNone || state.terminal)
    (invalidFact "delegated cancellation fact is invalid")
  reject state.cancelRequest.isSome (invalidFact "duplicate delegated cancellation fact")
  return { state with cancelRequest := some cancel }

def applyFailed (failure : Failure) : Result State := do
  reject state.terminal (invalidFact "delegated failure follows a terminal fact")
  return { state with failed := some failure, terminal := true, pendingTurn := none }

def applyAttached (lease : WorkerLease) : Result State := do
  let canonicalExpiry ← addMilliseconds occurredAt lease.leaseTtlMs
  reject (state.manifest.isNone || state.terminal ||
      state.worker.status ∉ [WorkerStatus.unassigned, .parked, .orphaned, .retired] ||
      lease.leaseEpoch ≠ state.worker.leaseEpoch + 1 || lease.leaseExpiresAt ≠ canonicalExpiry ||
      (state.worker.status = .retired && state.worker.workerId = some lease.workerId))
    (invalidFact "delegated worker attachment fact is invalid")
  return { state with
    worker := { status := .attached, workerId := some lease.workerId, leaseEpoch := lease.leaseEpoch,
                leaseTtlMs := some lease.leaseTtlMs, leaseExpiresAt := some lease.leaseExpiresAt } }

def applyHeartbeat (lease : WorkerLease) : Result State := do
  assertWorkerIdentity state lease.workerId lease.leaseEpoch
  let requestedExpiry ← addMilliseconds occurredAt lease.leaseTtlMs
  reject (state.worker.status ∉ [WorkerStatus.attached, .draining] ||
      state.worker.leaseTtlMs ≠ some lease.leaseTtlMs ||
      lease.leaseExpiresAt ≠ capped requestedExpiry state.worker.drainDeadlineAt ||
      state.worker.leaseExpiresAt.any (lease.leaseExpiresAt ≤ ·))
    (invalidFact "delegated worker heartbeat fact is invalid")
  return { state with worker.leaseExpiresAt := some lease.leaseExpiresAt }

def applyDrainRequested (drain : WorkerDrain) : Result State := do
  assertWorkerIdentity state drain.workerId drain.leaseEpoch
  let requestedDeadline ← addMilliseconds occurredAt drain.deferShutdownMs
  match state.worker.leaseExpiresAt with
  | none => throw invalidDate
  | some leaseExpiresAt =>
      reject (state.worker.status ≠ .attached ||
          drain.drainDeadlineAt ≠ min requestedDeadline leaseExpiresAt ||
          drain.drainDeadlineAt ≤ occurredAt)
        (invalidFact "delegated worker drain fact is invalid")
      return { state with
        worker := { state.worker with
          status := .draining, drainDeadlineAt := some drain.drainDeadlineAt,
          drainRequestId := some drain.requestId, drainReason := some drain.reason,
          drainDeferShutdownMs := some drain.deferShutdownMs } }

def applyParked (checkpoint : WorkerCheckpoint) : Result State := do
  assertWorkerIdentity state checkpoint.workerId checkpoint.leaseEpoch
  reject (state.worker.status ≠ .draining || state.dispatchStarted ||
      checkpoint.checkpointSequence ≠ state.runtimeSequence ||
      state.worker.drainReason ≠ some checkpoint.reason ||
      state.worker.leaseExpiresAt.any (· ≤ occurredAt) ||
      state.worker.drainDeadlineAt.any (· ≤ occurredAt))
    (invalidFact "delegated worker checkpoint fact is invalid")
  return { state with
    worker := { state.worker with
      status := .parked, checkpointSequence := some checkpoint.checkpointSequence,
      leaseExpiresAt := none, drainDeadlineAt := none } }

/-- The reason that an expired worker is orphaned for. -/
def orphanReason (worker : Worker) : String :=
  if worker.drainDeadlineAt.any (· ≤ occurredAt) then "defer_expired" else "lease_expired"

/-- The lease or the drain window of a worker is over. -/
def expired (worker : Worker) : Bool :=
  worker.drainDeadlineAt.any (· ≤ occurredAt) || worker.leaseExpiresAt.any (· ≤ occurredAt)

def applyOrphaned (terminal : WorkerTerminal) : Result State := do
  assertWorkerIdentity state terminal.workerId terminal.leaseEpoch
  reject (state.worker.status ∉ [WorkerStatus.attached, .draining] ||
      !expired occurredAt state.worker || terminal.reason ≠ orphanReason occurredAt state.worker)
    (invalidFact "delegated worker orphan fact is invalid")
  return { state with
    worker := { state.worker with
      status := .orphaned, leaseExpiresAt := none, drainDeadlineAt := none } }

def applyRetired (terminal : WorkerTerminal) : Result State := do
  assertWorkerIdentity state terminal.workerId terminal.leaseEpoch
  reject (!state.terminal && state.worker.status ∉ [WorkerStatus.parked, .orphaned])
    (invalidFact "delegated worker retirement fact is invalid")
  return { state with worker.status := .retired }

/-- The branches of `applyFact`. -/
def applyPayload : Fact → Result State
  | .created _ spec => applyCreated state spec
  | .bound runtimeSessionId manifest => applyBound state runtimeSessionId manifest
  | .eventRecorded event => applyEventRecorded state event
  | .turnRequested turn => applyTurnRequested state turn
  | .dispatchStarted requestId => applyDispatchStarted state requestId
  | .cancelRequested cancel => applyCancelRequested state cancel
  | .failed failure | .outcomeUncertain failure => applyFailed state failure
  | .attached lease => applyAttached state occurredAt lease
  | .heartbeat lease => applyHeartbeat state occurredAt lease
  | .drainRequested drain => applyDrainRequested state occurredAt drain
  | .parked checkpoint => applyParked state occurredAt checkpoint
  | .orphaned terminal => applyOrphaned state occurredAt terminal
  | .retired terminal => applyRetired state terminal

end

def sequenceInvalid (message : String) : HostError :=
  { message, code := "DELEGATED_RUNTIME_SEQUENCE_INVALID" }

def traceFragmented (message : String) : HostError :=
  { message, code := "DELEGATED_RUNTIME_TRACE_FRAGMENTED" }

/-- `applyFact`. -/
def applyFact (state : State) (row : Row) : Result State := do
  reject (row.streamSequence ≠ state.version + 1)
    (sequenceInvalid "delegated runtime ledger sequence is discontinuous")
  reject (state.lastOccurredAt.any (row.occurredAt < ·))
    (sequenceInvalid "delegated runtime clock regressed")
  let rowTraceId ← canonicalTraceId row.correlationId
  reject (state.traceId.any (· ≠ rowTraceId))
    (traceFragmented "delegated runtime trace lineage is fragmented")
  let next ← applyPayload { state with traceId := some rowTraceId } row.occurredAt row.fact
  return { next with version := row.streamSequence, lastOccurredAt := some row.occurredAt }

/-- `DelegatedRuntimeStore.read`. -/
def read (sessionId : Identifier) (rows : List Row) : Result State :=
  run applyFact (initialState sessionId) rows

end Hseos.Delegated
