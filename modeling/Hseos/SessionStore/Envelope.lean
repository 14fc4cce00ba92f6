import Hseos.Foundation.IsoDate
import Hseos.SessionStore.Trace

/-! # Session envelopes

The rows that carry session events in the ledger, and the ledger as the session
store uses it. A row keeps the event that its payload text encodes. What a row of
another aggregate says is never read here.
-/

namespace Hseos

/-! ## Forbidden fields

The members with names of the schema's own are not sensitive, so only the values
whose member names a caller chooses are searched.
-/

def AgentMessage.values (message : AgentMessage) : List Json :=
  (message.toolCalls.getD []).map (·.input)

def ModelRequest.values (request : ModelRequest) : List Json :=
  request.messages.flatMap AgentMessage.values ++ request.tools.map (·.inputSchema)

def WorkflowDefinition.values (definition : WorkflowDefinition) : List Json :=
  definition.steps.flatMap fun step => step.childSpec.metadata :: step.message.values

def SessionPayload.values : SessionPayload → List Json
  | .sessionCreated spec => [spec.metadata]
  | .turnStarted _ input => input.values
  | .contextAssembled payload => payload.request.request.values
  | .modelRequestStarted payload => payload.request.values
  | .toolExecutionStarted payload => [payload.input]
  | .toolExecutionCompleted payload | .toolExecutionReconciled payload => [payload.outcome.result]
  | .compactionCompleted record => record.replacementMessages.flatMap AgentMessage.values
  | .subagentRequested payload => payload.message.values
  | .workflowRevised payload => payload.previousDefinition.values ++ payload.definition.values
  | _ => []

namespace SessionStore

def assertNoSensitiveFields (event : SessionEvent) : Except Failure Unit :=
  reject (event.payload.values.any fun value => (value.sensitive? "event").isSome)
    (.store "credential-bearing fields are forbidden in session events"
      "AGENT_SESSION_SECRET_FORBIDDEN")

/-! ## Rows -/

/-- The first thirty-two hexadecimal digits, grouped as a UUID. -/
def uuidText (hex : List Char) : String :=
  String.ofList (hex.take 8 ++ '-' :: (hex.drop 8).take 4 ++ '-' :: (hex.drop 12).take 4 ++
    '-' :: (hex.drop 16).take 4 ++ '-' :: (hex.drop 20).take 12)

/-- `ledgerEventId`. -/
def ledgerEventId (sessionId eventId : Identifier) : String :=
  uuidText (Sha256.hexDigest (utf8 (chars sessionId.val ++ '\x00' :: chars eventId.val)))

/-- `new Date(timestamp).toISOString()`. -/
def canonicalTimestamp (timestamp : Timestamp) : String := isoString (dateParse timestamp)

/-- The operation that an event links. -/
def linkedOperation (event : SessionEvent) : Option Identifier :=
  match event.payload with
  | .toolOperationLinked payload => some payload.operationId
  | _ => none

/-- The column values of a row that the caller decides. -/
structure Candidate where
  eventId : String
  sessionId : Identifier
  streamSequence : Nat
  occurredAt : String
  correlationId : String
  causationId : String
  actorJson : List Char
  operationId : Option Identifier
  event : SessionEvent
  deriving DecidableEq

structure SessionRow extends Candidate where
  position : Nat
  deriving DecidableEq

/-- The rows of session events, in the order of their positions. -/
abbrev Table := List SessionRow

def hydrateSessionEvent (row : SessionRow) : Except Failure SessionRow := do
  assertNoSensitiveFields row.event
  reject (row.event.sessionId ≠ row.sessionId || row.event.sequence ≠ row.streamSequence ||
      row.eventId ≠ ledgerEventId row.event.sessionId row.event.eventId)
    (.store "session envelope identity does not match the ledger row"
      "AGENT_SESSION_ENVELOPE_MISMATCH")
  reject (row.operationId ≠ linkedOperation row.event)
    (.store "session operation reference does not match the ledger row"
      "AGENT_SESSION_OPERATION_MISMATCH")
  return row

/-- An event as the store hands it to the ledger. -/
structure PreparedEvent where
  eventId : String
  occurredAt : String
  correlationId : String
  causationId : String
  actor : Json
  operationId : Option Identifier
  event : SessionEvent
  deriving DecidableEq

structure PreparedAppend where
  sessionId : Identifier
  expectedVersion : Nat
  events : List PreparedEvent
  deriving DecidableEq

/-- The row values of an event of a session. -/
def PreparedEvent.candidate (prepared : PreparedEvent) (sessionId : Identifier) (sequence : Nat) :
    Candidate where
  eventId := prepared.eventId
  sessionId := sessionId
  streamSequence := sequence
  occurredAt := prepared.occurredAt
  correlationId := prepared.correlationId
  causationId := prepared.causationId
  actorJson := prepared.actor.stableJson
  operationId := prepared.operationId
  event := prepared.event

/-! ## The ledger -/

def ledgerCheck {α : Type} (x : Except LedgerError α) : Except Failure α := x.mapError .ledger

/-- What the ledger checks of an event before the database is touched. -/
def normalizeEvent (prepared : PreparedEvent) (sessionId : Identifier) (sequence : Nat) :
    Except Failure Candidate := do
  reject (!isUuid prepared.eventId) (.ledger (.invalidEvent "event_id must be a UUID"))
  reject (prepared.correlationId = "")
    (.ledger (.invalidEvent "correlation_id must be a non-empty string"))
  reject (prepared.causationId = "")
    (.ledger (.invalidEvent "causation_id must be a non-empty string"))
  reject (!isUtcTimestamp prepared.occurredAt) (.ledger
    (.invalidEvent "occurred_at must be a canonical UTC timestamp with millisecond precision"))
  ledgerCheck (assertNoSensitivePayload prepared.actor "actor")
  return prepared.candidate sessionId sequence

/-- The candidates of a prepared append, numbered on from its version. -/
def ledgerPrepare (request : PreparedAppend) : Except Failure (List Candidate) := do
  let candidates ← (request.events.zipIdx (request.expectedVersion + 1)).mapM fun entry =>
    normalizeEvent entry.1 request.sessionId entry.2
  reject (!(candidates.map (·.eventId)).Nodup)
    (.ledger (.invalidEvent "event_id values must be unique within an append"))
  return candidates

namespace Table

def selectById (table : Table) (eventId : String) : Option SessionRow :=
  table.find? fun row => row.eventId = eventId

/-- The rows of one session. -/
def stream (table : Table) (sessionId : Identifier) : List SessionRow :=
  table.filter fun row => row.sessionId = sessionId

/-- `COALESCE(MAX(stream_sequence), 0)` over the rows of one session. -/
def selectVersion (table : Table) (sessionId : Identifier) : Nat :=
  ((table.stream sessionId).map (·.streamSequence)).foldl max 0

/-- The rows that new candidates become. -/
def insert (table : Table) (candidates : List Candidate) : Table :=
  table ++ (candidates.zipIdx (table.length + 1)).map fun entry =>
    { entry.1 with position := entry.2 }

/-- `readStream` between two versions. -/
def readStream (table : Table) (sessionId : Identifier) (fromVersion : Nat)
    (toVersion : Option Nat) : Except Failure (List SessionRow) := do
  reject (fromVersion < 1 || toVersion.any (· < fromVersion))
    (.ledger (.invalidEvent "Invalid stream version range"))
  return (table.stream sessionId).filter fun row =>
    fromVersion ≤ row.streamSequence && toVersion.all (row.streamSequence ≤ ·)

end Table

structure AppendResult where
  rows : List SessionRow
  currentVersion : Nat
  idempotent : Bool
  deriving DecidableEq

/-- `_appendRows` with the candidates of a prepared append. -/
def appendRows (table : Table) (request : PreparedAppend) (candidates : List Candidate) :
    Except Failure (AppendResult × Table) :=
  let found := fun (table : Table) (candidate : Candidate) => table.selectById candidate.eventId
  if candidates.any fun candidate => (found table candidate).isSome then
    if candidates.all fun candidate =>
        (found table candidate).any fun row => row.toCandidate = candidate then
      .ok (⟨candidates.filterMap (found table), table.selectVersion request.sessionId, true⟩, table)
    else .error (.ledger (.duplicateEvent (candidates.map (·.eventId))))
  else do
    let currentVersion := table.selectVersion request.sessionId
    reject (currentVersion ≠ request.expectedVersion)
      (.ledger (.concurrencyConflict "agent_session" request.sessionId.val request.expectedVersion
        currentVersion))
    let next := table.insert candidates
    return (⟨candidates.filterMap (found next), request.expectedVersion + candidates.length, false⟩,
      next)

/-- `ledger.append`. -/
def ledgerAppend (table : Table) (request : PreparedAppend) :
    Except Failure (AppendResult × Table) := do
  let candidates ← ledgerPrepare request
  appendRows table request candidates

/-- `ledger.appendBatch` of two requests. -/
def ledgerAppendBoth (table : Table) (first second : PreparedAppend) :
    Except Failure (AppendResult × AppendResult × Table) := do
  let candidates ← ledgerPrepare first
  let others ← ledgerPrepare second
  let (result, middle) ← appendRows table first candidates
  let (other, last) ← appendRows middle second others
  return (result, other, last)

end SessionStore

end Hseos
