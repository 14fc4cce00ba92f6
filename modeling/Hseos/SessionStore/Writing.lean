import Hseos.SessionStore.Reading

/-! # Writing sessions

Appending to a session and forking a child from it. Both prepare what they write
from the durable streams and leave it to the ledger to write it in one transaction.
-/

namespace Hseos.SessionStore

/-- The request of `append`. Its events are accepted by the schema. -/
structure AppendRequest where
  sessionId : Identifier
  expectedVersion : Nat
  events : List SessionEvent
  correlationId : Option String
  causationId : Option String
  actor : Option Json
  deriving DecidableEq

/-- What a successful call returns for one request. -/
structure Receipt where
  currentVersion : Nat
  idempotent : Bool
  events : List SessionEvent
  positions : List Nat
  deriving DecidableEq

/-- `cloneActor`, of a JSON value. -/
def cloneActor (actor : Json) : Except Failure Json := do
  reject (!actor.isObject)
    (.store "actor must be a plain JSON object" "AGENT_SESSION_ACTOR_INVALID")
  return actor

/-- The checks of the events of a request that read nothing. -/
def assertEvents (request : AppendRequest) : Except Failure Unit := do
  (request.events.zipIdx (request.expectedVersion + 1)).forM fun entry => do
    assertNoSensitiveFields entry.1
    reject (entry.1.sessionId ≠ request.sessionId)
      (storeError "event belongs to a different session")
    reject (entry.1.sequence ≠ entry.2)
      (.store "event sequence does not continue expected_version" "AGENT_SESSION_SEQUENCE_INVALID")
  reject (!(request.events.map (·.eventId)).Nodup)
    (storeError "event identifiers must be unique within an append")

/-- The correlation identifier of the rows to be written. -/
def resolveCorrelation (request : AppendRequest) (durableCorrelation : Option String) :
    Except Failure String :=
  match durableCorrelation, request.correlationId with
  | some durable, none => .ok durable
  | some durable, some asked => do
      let askedTrace ← canonicalTraceId asked
      let durableTrace ← canonicalTraceId durable
      reject (askedTrace ≠ durableTrace)
        (fragmented "append cannot replace the durable session trace")
      return durable
  | none, asked => canonicalTraceId ((asked.filter (· ≠ "")).getD request.sessionId.val)

/-- The cause of the first event of the append. -/
def firstCausation (request : AppendRequest) (current : List SessionRow) : String :=
  ((request.causationId.filter (· ≠ "")).or
    ((if request.expectedVersion = 0 then none else current[request.expectedVersion - 1]?).map
      (·.event.eventId.val))).getD (rootAnchor request.sessionId)

/-- An attachment that the ledger holds or that the pending append of the parent adds. -/
def attachmentCandidate (parentRows : List SessionRow) (pending : Option PreparedAppend)
    (causationId : String) (child : Identifier) : Option (String × String) :=
  ((attachmentOf parentRows causationId child).map fun row =>
    (row.correlationId, row.causationId)).or
  ((pending.bind fun request => request.events.find? fun prepared =>
      attachesChild prepared.event = some child && prepared.event.eventId.val = causationId).map
    fun prepared => (prepared.correlationId, prepared.causationId))

/-- The check that a child's first append has the anchor that a later read asks for. -/
def assertNewChild (table : Table) (request : AppendRequest) (pending : Option PreparedAppend)
    (correlation causationId : String) (parentSessionId : Identifier) : Except Failure Unit := do
  let invalid := causationError "child session causation anchor is invalid"
  let parentRows ← hydratedStream table parentSessionId
  match forkPayload? request.events[1]?,
      attachmentCandidate parentRows pending causationId request.sessionId with
  | some fork, some (attachmentCorrelation, attachmentCausation) => do
      reject (fork.parentSessionId ≠ parentSessionId) invalid
      let attached ← canonicalTraceId attachmentCorrelation
      let durable ← canonicalTraceId correlation
      reject (attached ≠ durable || !(branchRow parentRows fork).any fun branch =>
        attachmentCausation = branch.event.eventId.val) invalid
  | _, _ => throw invalid

/-- The check of the first append of a session. -/
def assertFirstAppend (table : Table) (request : AppendRequest) (pending : Option PreparedAppend)
    (correlation causationId : String) : Except Failure Unit :=
  match request.events with
  | [] => .ok ()
  | first :: _ =>
      if request.expectedVersion ≠ 0 then .ok ()
      else do
        let spec ← createdSpec first
        match spec.parentSessionId with
        | none =>
            reject (causationId ≠ rootAnchor request.sessionId)
              (causationError "root session causation anchor is invalid")
        | some parentSessionId =>
            assertNewChild table request pending correlation causationId parentSessionId

/-- The events of an append, each caused by the one before it. -/
def preparedEvents (request : AppendRequest) (correlationId causationId : String) (actor : Json) :
    List PreparedEvent :=
  (request.events.zip (causationId :: request.events.map (·.eventId.val))).map fun entry =>
    { eventId := ledgerEventId request.sessionId entry.1.eventId
      occurredAt := canonicalTimestamp entry.1.occurredAt
      correlationId, causationId := entry.2, actor
      operationId := linkedOperation entry.1
      event := entry.1 }

/-- The events continue the stream, or are the ones that it has at that place. -/
def assertContinues (view : View) (request : AppendRequest) (current : List SessionRow) :
    Call Unit :=
  if current.length = request.expectedVersion then do
    let state ← replay view request.sessionId none false
    let _ ← replayEvents state request.events
    return ()
  else
    liftM (reject (!(request.expectedVersion < current.length &&
        ((current.map (·.event)).drop request.expectedVersion).take request.events.length =
          request.events))
      (Failure.store "expected_version does not match the durable session stream"
        "AGENT_SESSION_VERSION_CONFLICT"))

/-- `_prepareAppend`, by a store with the given actor. -/
def prepareAppend (view : View) (storeActor : Json) (request : AppendRequest)
    (pending : Option PreparedAppend) : Call PreparedAppend := do
  reject (request.events = []) (storeError "events must be a non-empty array")
  let actor ← cloneActor (request.actor.getD storeActor)
  assertEvents request
  let current ← hydratedStream view.table request.sessionId
  let durableCorrelation ← assertUniformSessionTrace current
  assertSessionCausation view.table current
  let correlation ← resolveCorrelation request durableCorrelation
  assertContinues view request current
  let causation := firstCausation request current
  assertFirstAppend view.table request pending correlation causation
  return {
    sessionId := request.sessionId, expectedVersion := request.expectedVersion,
    events := preparedEvents request correlation causation actor }

/-- `_formatResult`. -/
def formatResult (result : AppendResult) : Except Failure Receipt := do
  let rows ← hydrateAll result.rows
  return ⟨result.currentVersion, result.idempotent, rows.map (·.event), rows.map (·.position)⟩

/-- What a call makes of the table when its transaction was committed, and its result. -/
structure Written (α : Type) where
  table : Table
  result : Except Failure α

/-- `append`, up to the end of its transaction. -/
def append (view : View) (storeActor : Json) (request : AppendRequest) : Call (Written Receipt) := do
  let prepared ← prepareAppend view storeActor request none
  let (result, table) ← ledgerAppend view.table prepared
  return ⟨table, formatResult result⟩

/-! ## Forks -/

structure ForkEventIds where
  attached : Identifier
  created : Identifier
  forked : Identifier
  requested : Option Identifier
  deriving DecidableEq

/-- The request of `forkSession`. -/
structure ForkRequest where
  parentSessionId : Identifier
  parentSequence : Nat
  childSpec : AgentSessionSpec
  childRequest : Option SubagentRequestedPayload
  eventIds : ForkEventIds
  occurredAt : Timestamp
  correlationId : Option String
  actor : Option Json
  deriving DecidableEq

structure ForkReceipt where
  parent : Receipt
  child : Receipt
  deriving DecidableEq

/-- An event that the schema accepts. -/
def parseEvent (eventId sessionId : Identifier) (sequence : Nat) (occurredAt : Timestamp)
    (payload : SessionPayload) : Except Failure SessionEvent :=
  if h : (intWithin 1 maxSafeInteger sequence && payload.valid sessionId) = true then
    .ok ⟨eventId, sessionId, sequence, occurredAt, payload, h⟩
  else .error (.contract "session event")

/-- What a fork must not widen. -/
def assertAttenuated (parent child : AgentSessionSpec) : Except Failure Unit := do
  reject (child.authorityRef ≠ parent.authorityRef || child.policyRef ≠ parent.policyRef)
    (.store "fork cannot alter authority or policy" "AGENT_SESSION_FORK_AUTHORITY_WIDENING")
  reject (child.limits.entries.any fun entry => parent.limits.limit entry.1 < entry.2)
    (.store "fork resource limits cannot exceed the parent" "AGENT_SESSION_FORK_LIMIT_WIDENING")

/-- The event by which the parent already attaches the child. -/
def existingAttachment (parentRows : List SessionRow) (child : Identifier) : Option SessionEvent :=
  (parentRows.map (·.event)).find? fun event => attachesChild event = some child

/-- The checks of a fork against the parent's present state. -/
def assertFork (request : ForkRequest) (parentState : SessionState)
    (attachment : Option SessionEvent) : Except Failure Unit := do
  let spec := request.childSpec
  reject (!spec.valid) (.contract "child session spec")
  reject (spec.parentSessionId ≠ some request.parentSessionId)
    (.store "child session spec must name the fork parent" "AGENT_SESSION_FORK_PARENT_MISMATCH")
  match parentState.spec with
  | none => throw .typeError
  | some parentSpec => do
      assertAttenuated parentSpec spec
      reject (request.childRequest.isSome && request.eventIds.requested.isNone)
        (storeError "fork requires explicit attached, created, forked and optional request event identifiers")
      reject (attachment.any (·.eventId ≠ request.eventIds.attached))
        (.store "child session is already attached with a different event"
          "AGENT_SESSION_CHILD_ID_CONFLICT")
      reject (attachment.isNone && parentSpec.limits.maxChildren ≤ parentState.children.length)
        (.store "parent session child limit is exhausted" "AGENT_SESSION_CHILD_LIMIT_EXCEEDED")

/-- A fork keeps the trace of its parent. -/
def assertForkTrace (request : ForkRequest) (parentTrace : SessionTrace) : Except Failure Unit :=
  match request.correlationId with
  | none => .ok ()
  | some asked => do
      let trace ← canonicalTraceId asked
      reject (trace ≠ parentTrace.traceId) (fragmented "fork cannot replace the parent trace")

/-- The event that attaches the child to its parent. -/
def attachedEvent (request : ForkRequest) (sequence : Nat) : Except Failure SessionEvent :=
  parseEvent request.eventIds.attached request.parentSessionId sequence request.occurredAt
    (.childAttached request.childSpec.sessionId request.childSpec.authorityRef)

/-- The first events of the child. -/
def childEvents (request : ForkRequest) : Except Failure (List SessionEvent) := do
  let spec := request.childSpec
  let created ← parseEvent request.eventIds.created spec.sessionId 1 request.occurredAt
    (.sessionCreated spec)
  let forked ← parseEvent request.eventIds.forked spec.sessionId 2 request.occurredAt
    (.sessionForked ⟨request.parentSessionId, request.parentSequence⟩)
  match request.childRequest, request.eventIds.requested with
  | some payload, some requestedId => do
      let requested ← parseEvent requestedId spec.sessionId 3 request.occurredAt
        (.subagentRequested payload)
      return [created, forked, requested]
  | _, _ => return [created, forked]

/-- The append that attaches the child, caused by the event that it is forked from. -/
def parentAppend (request : ForkRequest) (sourceRows : List SessionRow) (sequence : Nat)
    (parentTrace : SessionTrace) (attached : SessionEvent) : AppendRequest where
  sessionId := request.parentSessionId
  expectedVersion := sequence - 1
  events := [attached]
  correlationId := some parentTrace.traceId
  causationId := sourceRows.getLast?.map (·.event.eventId.val)
  actor := request.actor

/-- The append that creates the child, caused by its attachment. -/
def childAppend (request : ForkRequest) (parentTrace : SessionTrace) (children : List SessionEvent) :
    AppendRequest where
  sessionId := request.childSpec.sessionId
  expectedVersion := 0
  events := children
  correlationId := some parentTrace.traceId
  causationId := some request.eventIds.attached.val
  actor := request.actor

/-- The sequence of the child's attachment. -/
def attachmentSequence (attachment : Option SessionEvent) (parentRows : List SessionRow) : Nat :=
  (attachment.map (·.sequence)).getD (parentRows.length + 1)

/-- `forkSession`, up to the end of its transaction. -/
def forkSession (view : View) (storeActor : Json) (request : ForkRequest) :
    Call (Written ForkReceipt) := do
  let parentId := request.parentSessionId
  let sourceRows ← readSession view.table parentId (some request.parentSequence)
  let sourceState ← replayEvents .initial (sourceRows.map (·.event))
  reject (sourceState.currentSequence ≠ request.parentSequence)
    (Failure.store "fork source sequence does not exist" "AGENT_SESSION_FORK_SOURCE_NOT_FOUND")
  let parentRows ← readSession view.table parentId none
  let parentState ← replayEvents .initial (parentRows.map (·.event))
  let attachment := existingAttachment parentRows request.childSpec.sessionId
  assertFork request parentState attachment
  let sequence := attachmentSequence attachment parentRows
  let parentTrace ← traceContext view.table parentId
  assertForkTrace request parentTrace
  let attached ← attachedEvent request sequence
  let parentRequest ← prepareAppend view storeActor
    (parentAppend request sourceRows sequence parentTrace attached) none
  let children ← childEvents request
  let childRequest ← prepareAppend view storeActor (childAppend request parentTrace children)
    (some parentRequest)
  let (parentResult, childResult, table) ← ledgerAppendBoth view.table parentRequest childRequest
  return ⟨table, do
    let parent ← formatResult parentResult
    let child ← formatResult childResult
    return ⟨parent, child⟩⟩

end Hseos.SessionStore
