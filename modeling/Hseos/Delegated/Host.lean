import Hseos.Delegated.Store
import Hseos.Foundation.Pool

/-! # The delegated runtime host

The operations of the host, as programs over the store, the clock and the provider.
Inputs are what their contracts let pass.
-/

namespace Hseos.Delegated

/-! ## Errors -/

def hostError (message : String) : HostError := { message }

def inDoubt (message : String) : HostError :=
  { message, code := "DELEGATED_RUNTIME_OUTCOME_IN_DOUBT" }

/-! ## Inputs -/

structure ClaimInput where
  requestId : Identifier
  workerId : Identifier
  leaseTtlMs : Nat
  deriving DecidableEq

/-- `WorkerFencedInputSchema`. -/
structure FencedInput where
  requestId : Identifier
  workerId : Identifier
  leaseEpoch : Nat
  deriving DecidableEq

structure DrainInput extends FencedInput where
  deferShutdownMs : Nat
  reason : String
  deriving DecidableEq

structure ParkInput extends FencedInput where
  reason : String
  deriving DecidableEq

structure CreateInput where
  requestId : Identifier
  spec : AgentSessionSpec
  traceId : Option String
  deriving DecidableEq

/-- The worker and the epoch that a call names, if it names them. -/
structure Lease where
  workerId : Option Identifier
  leaseEpoch : Option Nat
  deriving DecidableEq

structure SendInput where
  turn : TurnRequest
  lease : Lease
  deriving DecidableEq

structure CancelInput where
  cancel : CancelRequest
  lease : Lease
  deriving DecidableEq

def FencedInput.lease (input : FencedInput) : Lease := ⟨some input.workerId, some input.leaseEpoch⟩

/-! ## Outcomes -/

/-- A turn or a cancellation that waits for the provider's next event. -/
structure Draining where
  requestId : Identifier
  current : State
  deriving DecidableEq

/-- Where an operation ends: with a state, or with an event to wait for. -/
inductive Outcome where
  | settled (state : State)
  | draining (draining : Draining)
  deriving DecidableEq

/-- `while (!current.terminal)`. -/
def drainFrom (requestId : Identifier) (current : State) : Outcome :=
  if current.terminal then .settled current else .draining ⟨requestId, current⟩

/-! ## Shared parts -/

variable (host : Host)

/-- `#assertWorkerLease`. -/
def assertWorkerLease (state : State) (lease : Lease) (now : Int) (statuses : List WorkerStatus) :
    Result Unit :=
  reject (state.worker.status ∉ statuses || state.worker.workerId ≠ lease.workerId ||
      some state.worker.leaseEpoch ≠ lease.leaseEpoch || expired now state.worker)
    (fenced "delegated worker lease is stale or fenced")

/-- `#expireWorkerIfNeeded`. -/
def expireWorkerIfNeeded (state : State) (now : Int) (requestId : Identifier) : Operates State :=
  match state.worker.workerId with
  | some workerId =>
      if state.terminal || state.worker.status ∉ [WorkerStatus.attached, .draining] ||
          !expired now state.worker then
        pure state
      else
        append host
          { expectedVersion := state.version
            fact := .orphaned { requestId, workerId, leaseEpoch := state.worker.leaseEpoch,
                                reason := orphanReason now state.worker }
            key := s!"{requestId.val}:orphan:{state.worker.leaseEpoch}"
            occurredAt := some now }
  | none => pure state

/-- `#continuable`. -/
def continuable (lease : Lease) : Operates State := do
  let state ← ask (.read .continuable)
  Program.check state.manifest.isNone (inDoubt "delegated runtime is not durably bound")
  Program.check state.terminal (hostError "delegated runtime is terminal")
  Program.check state.dispatchStarted (inDoubt "delegated dispatch outcome is uncertain")
  if state.worker.status = .unassigned then
    Program.check (lease.workerId.isSome || lease.leaseEpoch.isSome)
      (fenced "session has no worker lease")
  else do
    let now ← ask .clock
    liftM (assertWorkerLease state lease now [.attached])
  return state

/-- `#reattach`. -/
def reattach (state : State) : Operates Unit := do
  ask .provider
  let manifest ← ask .manifest
  Program.check (some manifest ≠ state.manifest)
    (hostError "runtime provider manifest drifted from the durable binding")
  let result ← ask .resume
  Program.check (!result.accepted || result.terminal)
    (hostError "runtime provider failed exact reattachment")

/-- The continuation check after the provider was reattached, which is closed if it fails. -/
def recheck (lease : Lease) : Operates State :=
  tryCatch (continuable lease) fun error => do
    let _ ← (tryCatch (ask .close) fun _ => pure ())
    throw error

/-- `normalizedFailure`. -/
def normalizedFailure (requestId : Identifier) (error : HostError) : Failure where
  requestId
  errorCode := error.errorCode.getD .providerUnavailable
  message := "delegated runtime operation failed"
  retryable := error.retryable

/-- `#fail`. -/
def fail (requestId : Identifier) (error : HostError) (outcomeUncertain : Bool) :
    Operates State := do
  let current ← ask (.read .failing)
  if current.terminal then return current
  else
    append host
      { expectedVersion := current.version
        fact := if outcomeUncertain then .outcomeUncertain (normalizedFailure requestId error)
          else .failed (normalizedFailure requestId error)
        key := s!"{requestId.val}:failed" }

/-- `correlateStreamEvent` for the first event of a stream. -/
def correlates (state : State) (event : RuntimeEvent) : Bool :=
  event.sequence = state.runtimeSequence + 1 &&
    state.manifest.map (·.providerId) = some event.providerId &&
    state.runtimeSessionId = some event.runtimeSessionId && !startsOther state event

/-- `#next`. -/
def nextEvent (state : State) : Operates RuntimeEvent := do
  let event ← ask .next
  Program.check (!correlates state event)
    { message := "RuntimeProvider.events mismatch", code := "AGENT_PORT_CORRELATION_INVALID" }
  return event

/-- `#recordRuntimeEvent`. -/
def recordRuntimeEvent (state : State) (event : RuntimeEvent) (requestId : Identifier) :
    Operates State :=
  append host
    { expectedVersion := state.version
      fact := .eventRecorded event
      key := s!"{requestId.val}:runtime:{event.sequence}" }

/-- One round of `#drainToTerminal`. -/
def drainToTerminal (draining : Draining) : Operates Outcome :=
  tryCatch (do
    let event ← nextEvent draining.current
    let current ← recordRuntimeEvent host draining.current event draining.requestId
    return drainFrom draining.requestId current)
    fun error => .settled <$> fail host draining.requestId error true

/-! ## Workers -/

def claimWorker (input : ClaimInput) : Operates State := do
  let state ← ask (.read .operation)
  Program.check (state.manifest.isNone || state.terminal)
    (hostError "worker requires a live durably bound session")
  let now ← ask .clock
  let state ← expireWorkerIfNeeded host state now input.requestId
  Program.check (state.worker.status = .retired && state.worker.workerId = some input.workerId)
    (fenced "retired worker cannot reclaim its former binding")
  Program.check (state.worker.status ∉ [WorkerStatus.unassigned, .parked, .orphaned, .retired])
    { message := "session already has a live worker lease", code := "DELEGATED_WORKER_LEASE_CONFLICT" }
  let leaseExpiresAt ← liftM (addMilliseconds now input.leaseTtlMs)
  append host
    { expectedVersion := state.version
      fact := .attached { requestId := input.requestId, workerId := input.workerId,
                          leaseEpoch := state.worker.leaseEpoch + 1,
                          leaseTtlMs := input.leaseTtlMs, leaseExpiresAt }
      key := input.requestId.val
      occurredAt := some now }

def heartbeatWorker (input : FencedInput) : Operates State := do
  let state ← ask (.read .operation)
  let now ← ask .clock
  let state ← expireWorkerIfNeeded host state now input.requestId
  liftM (assertWorkerLease state input.lease now [.attached, .draining])
  let leaseTtlMs := state.worker.leaseTtlMs.getD 0
  let requestedExpiry ← liftM (addMilliseconds now leaseTtlMs)
  let leaseExpiresAt := capped requestedExpiry state.worker.drainDeadlineAt
  Program.check (state.worker.leaseExpiresAt.any (leaseExpiresAt ≤ ·))
    (hostError "heartbeat does not advance the worker lease")
  append host
    { expectedVersion := state.version
      fact := .heartbeat { requestId := input.requestId, workerId := input.workerId,
                           leaseEpoch := input.leaseEpoch, leaseTtlMs, leaseExpiresAt }
      key := input.requestId.val
      occurredAt := some now }

/-- The durable drain is the one that the input asks for. -/
def drainMatches (state : State) (input : DrainInput) : Bool :=
  state.worker.workerId = some input.workerId && state.worker.leaseEpoch = input.leaseEpoch &&
    state.worker.drainRequestId = some input.requestId &&
    state.worker.drainReason = some input.reason &&
    state.worker.drainDeferShutdownMs = some input.deferShutdownMs

def drainWorker (input : DrainInput) : Operates State := do
  let state ← ask (.read .operation)
  if state.worker.status = .draining ∧ drainMatches state input then return state
  else do
    let now ← ask .clock
    let state ← expireWorkerIfNeeded host state now input.requestId
    liftM (assertWorkerLease state input.lease now [.attached])
    let requestedDeadline ← liftM (addMilliseconds now input.deferShutdownMs)
    let drainDeadlineAt := capped requestedDeadline state.worker.leaseExpiresAt
    Program.check (drainDeadlineAt ≤ now) (hostError "worker has no bounded drain window")
    append host
      { expectedVersion := state.version
        fact := .drainRequested { requestId := input.requestId, workerId := input.workerId,
                                  leaseEpoch := input.leaseEpoch,
                                  deferShutdownMs := input.deferShutdownMs, drainDeadlineAt,
                                  reason := input.reason }
        key := input.requestId.val
        occurredAt := some now }

def parkWorker (input : ParkInput) : Operates State := do
  let state ← ask (.read .operation)
  if state.worker.status = .parked ∧ state.worker.workerId = some input.workerId ∧
      state.worker.leaseEpoch = input.leaseEpoch ∧
      state.worker.drainRequestId = some input.requestId ∧
      state.worker.drainReason = some input.reason then
    return state
  else do
    let now ← ask .clock
    let state ← expireWorkerIfNeeded host state now input.requestId
    liftM (assertWorkerLease state input.lease now [.draining])
    Program.check state.dispatchStarted
      (inDoubt "worker cannot checkpoint an outcome-in-doubt dispatch")
    append host
      { expectedVersion := state.version
        fact := .parked { requestId := input.requestId, workerId := input.workerId,
                          leaseEpoch := input.leaseEpoch,
                          checkpointSequence := state.runtimeSequence, reason := input.reason }
        key := input.requestId.val
        occurredAt := some now }

def drainAndParkWorker (input : DrainInput) : Operates State := do
  let state ← ask (.read .operation)
  Program.check (state.worker.status ∈ [WorkerStatus.draining, .parked] && !drainMatches state input)
    (fenced "delegated worker shutdown does not match the durable drain")
  if state.worker.status = .parked then return state
  else do
    if state.worker.status ≠ .draining then
      let _ ← drainWorker host input
    parkWorker host { toFencedInput := input.toFencedInput, reason := input.reason }

def sweepWorker (requestId : Identifier) : Operates State := do
  let state ← ask (.read .operation)
  let now ← ask .clock
  expireWorkerIfNeeded host state now requestId

def retireWorker (input : ParkInput) : Operates State := do
  let state ← ask (.read .operation)
  Program.check (state.worker.workerId ≠ some input.workerId ||
      state.worker.leaseEpoch ≠ input.leaseEpoch)
    (fenced "stale worker cannot retire this binding")
  append host
    { expectedVersion := state.version
      fact := .retired { requestId := input.requestId, workerId := input.workerId,
                         leaseEpoch := input.leaseEpoch, reason := input.reason }
      key := input.requestId.val }

/-! ## Sessions -/

/-- `#recordInitialEvent`. -/
def recordInitialEvent (state : State) (requestId : Identifier) : Operates State := do
  let event ← nextEvent state
  Program.check (event.sequence ≠ 1 || match event.payload with
      | .sessionStarted _ => false
      | _ => true) (hostError "runtime provider omitted the canonical start event")
  recordRuntimeEvent host state event requestId

/-- The creation of the runtime session, once its intent is durable. -/
def bindRuntime (input : CreateInput) (state : State) : Operates State := do
  let result ← ask .create
  Program.check (!result.accepted || result.terminal)
    (hostError "runtime provider rejected or terminalized create")
  let manifest ← ask .manifest
  let state ← append host
    { expectedVersion := state.version
      fact := .bound result.runtimeSessionId manifest
      key := s!"{input.requestId.val}:bound" }
  recordInitialEvent host state input.requestId

/-- The rest of `create`. A failure before the provider's own `create` is reached leaves
nothing in doubt. -/
def createRuntime (input : CreateInput) (state : State) : Operates State := do
  let opened ← tryCatch (Except.ok <$> ask .provider) fun error => pure (.error error)
  match opened with
  | .error error => fail host input.requestId error false
  | .ok _ =>
      tryCatch (bindRuntime host input state) fun error => fail host input.requestId error true

/-- The answer to the creation of a session that is there. -/
def existingSession (input : CreateInput) (state : State) : Result State := do
  match input.traceId with
  | none => pure ()
  | some traceId => do
      let canonical ← canonicalTraceId traceId
      reject (some canonical ≠ state.traceId)
        (traceFragmented "create cannot replace the durable delegated trace")
  reject (state.spec ≠ some input.spec) (hostError "delegated session already exists")
  reject (state.manifest.isNone && !state.terminal)
    (inDoubt "delegated create outcome is uncertain")
  return state

def create (input : CreateInput) : Operates State := do
  Program.check (runtimeProviderId? input.spec).isNone
    (hostError "delegated host requires delegated execution")
  let state ← ask (.read .operation)
  if 0 < state.version then liftM (existingSession input state)
  else do
    Program.check (input.spec.parentSessionId.isSome && input.traceId.isNone)
      { message := "a delegated child requires its inherited trace root"
        code := "DELEGATED_RUNTIME_TRACE_REQUIRED" }
    let state ← append host
      { expectedVersion := 0
        fact := .created input.requestId input.spec
        key := input.requestId.val
        traceId := input.traceId }
    createRuntime host input state

/-- The intent of a turn, unless it is durable already. -/
def requestTurn (input : SendInput) (state : State) : Operates State :=
  if state.pendingTurn.isNone then
    append host
      { expectedVersion := state.version
        fact := .turnRequested input.turn
        key := input.turn.requestId.val }
  else pure state

def resumeAndSend (input : SendInput) : Operates Outcome := do
  let requestId := input.turn.requestId
  let state ← continuable input.lease
  Program.check (state.pendingTurn.any (· ≠ input.turn))
    (hostError "a different delegated turn is already pending")
  reattach state
  let state ← recheck input.lease
  let state ← requestTurn host input state
  let state ← append host
    { expectedVersion := state.version
      fact := .dispatchStarted requestId
      key := s!"{requestId.val}:dispatch" }
  tryCatch (do
    ask .send
    let result ← ask .sent
    Program.check (!result.accepted) (hostError "runtime provider rejected send")
    return drainFrom requestId state)
    fun error => .settled <$> fail host requestId error true

/-- The intent of a cancellation, unless it is durable already. -/
def requestCancel (input : CancelInput) (state : State) : Operates State :=
  if state.cancelRequest.isNone then
    append host
      { expectedVersion := state.version
        fact := .cancelRequested input.cancel
        key := input.cancel.requestId.val }
  else pure state

def resumeAndCancel (input : CancelInput) : Operates Outcome := do
  let requestId := input.cancel.requestId
  let state ← ask (.read .operation)
  if state.terminal then return .settled state
  else do
    let state ← continuable input.lease
    Program.check (state.cancelRequest.any (· ≠ input.cancel))
      (hostError "a different delegated cancellation is already pending")
    reattach state
    let state ← recheck input.lease
    let state ← requestCancel host input state
    tryCatch (do
      let result ← ask .cancel
      Program.check (!result.accepted || !result.terminal)
        (hostError "runtime provider did not settle cancellation")
      return drainFrom requestId state)
      fun error => .settled <$> fail host requestId error true

/-! ## Calls -/

inductive Operation where
  | claimWorker (input : ClaimInput)
  | heartbeatWorker (input : FencedInput)
  | drainWorker (input : DrainInput)
  | parkWorker (input : ParkInput)
  | drainAndParkWorker (input : DrainInput)
  | sweepWorker (requestId : Identifier)
  | retireWorker (input : ParkInput)
  | create (input : CreateInput)
  | resumeAndSend (input : SendInput)
  | resumeAndCancel (input : CancelInput)
  deriving DecidableEq

/-- An operation that a host was asked for. -/
structure Call where
  host : Host
  operation : Operation
  deriving DecidableEq

def programOf : Operation → Operates Outcome
  | .claimWorker input => .settled <$> claimWorker host input
  | .heartbeatWorker input => .settled <$> heartbeatWorker host input
  | .drainWorker input => .settled <$> drainWorker host input
  | .parkWorker input => .settled <$> parkWorker host input
  | .drainAndParkWorker input => .settled <$> drainAndParkWorker host input
  | .sweepWorker requestId => .settled <$> sweepWorker host requestId
  | .retireWorker input => .settled <$> retireWorker host input
  | .create input => .settled <$> create host input
  | .resumeAndSend input => resumeAndSend host input
  | .resumeAndCancel input => resumeAndCancel host input

/-- The calls on one session by any number of hosts. -/
def sessions (sessionId : Identifier) : System Call Request Reply (Result Outcome) Input Shared where
  process call := (programOf call.host call.operation).run
  again call
    | .ok (.draining draining) => some (drainToTerminal call.host draining).run
    | _ => none
  answer := answer sessionId

end Hseos.Delegated
