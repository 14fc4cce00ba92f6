import Hseos.Ledger.Event

/-! # Execution event ledger

The table `execution_events` and the two operations that write it. An operation
is one transaction: its inserts are committed together, or an error rolls all of
them back. What the table's column checks, foreign key and schema trigger accept
is a parameter, and so is the clock that stamps a row.
-/

namespace Hseos

structure Row extends Candidate where
  position : Nat
  recordedAt : String
  deriving DecidableEq

/-- `samePersistedEvent`; the row was found by the candidate's event identifier. -/
def samePersistedEvent (row : Row) (candidate : Candidate) : Bool :=
  row.eventType = candidate.eventType && row.stream.aggregateId = candidate.stream.aggregateId &&
    row.stream.aggregateType = candidate.stream.aggregateType &&
    row.streamSequence = candidate.streamSequence &&
    row.schemaVersion = candidate.schemaVersion && row.occurredAt = candidate.occurredAt &&
    row.correlationId = candidate.correlationId && row.causationId = candidate.causationId &&
    row.actorJson = candidate.actorJson && row.operationId = candidate.operationId &&
    row.payloadJson = candidate.payloadJson && row.evidenceRefsJson = candidate.evidenceRefsJson

/-- A row as callers see it. -/
structure StoredEvent where
  position : Nat
  eventId : String
  eventType : String
  stream : Stream
  streamSequence : Nat
  schemaVersion : Nat
  occurredAt : String
  correlationId : String
  causationId : String
  actor : Json
  operationId : Option String
  payload : Json
  evidenceRefs : Json
  recordedAt : String
  deriving DecidableEq

/-- `JSON.parse` of a column. -/
def parseColumn (text : List Char) : Except LedgerError Json :=
  match parseJson (String.ofList text) with
  | some value => .ok value
  | none => .error .syntaxError

def hydrate (row : Row) : Except LedgerError StoredEvent := do
  let actor ← parseColumn row.actorJson
  let payload ← parseColumn row.payloadJson
  let evidenceRefs ← parseColumn row.evidenceRefsJson
  return {
    position := row.position, eventId := row.eventId, eventType := row.eventType,
    stream := row.stream, streamSequence := row.streamSequence,
    schemaVersion := row.schemaVersion, occurredAt := row.occurredAt,
    correlationId := row.correlationId, causationId := row.causationId, actor,
    operationId := row.operationId, payload, evidenceRefs, recordedAt := row.recordedAt }

/-- The table and its AUTOINCREMENT counter. -/
structure Ledger where
  rows : List Row
  lastPosition : Nat
  deriving DecidableEq

def Ledger.empty : Ledger := ⟨[], 0⟩

namespace Ledger

def selectById (ledger : Ledger) (eventId : String) : Option Row :=
  ledger.rows.find? fun row => row.eventId = eventId

/-- The rows of one stream, in the order of their positions. -/
def streamRows (ledger : Ledger) (stream : Stream) : List Row :=
  ledger.rows.filter fun row => row.stream = stream

/-- `COALESCE(MAX(stream_sequence), 0)` over the stream. -/
def selectVersion (ledger : Ledger) (stream : Stream) : Nat :=
  ((ledger.streamRows stream).map (·.streamSequence)).foldl max 0

end Ledger

/-- The parts of the database that the ledger does not decide. -/
structure Database where
  /-- What the column checks, the foreign key and the schema trigger accept. -/
  accepts : Ledger → Candidate → Bool
  /-- The default of `recorded_at` for the row at a position. -/
  recordedAt : Nat → String

structure AppendResult where
  rows : List Row
  currentVersion : Nat
  idempotent : Bool
  deriving DecidableEq

/-- What a caller gets for one request. -/
structure AppendReceipt where
  currentVersion : Nat
  idempotent : Bool
  events : List StoredEvent
  deriving DecidableEq

section

variable (database : Database)

/-- One `INSERT`; the identity trigger refuses an event identifier or a stream
sequence that a row already has. -/
def insertRow (ledger : Ledger) (candidate : Candidate) : Except LedgerError Ledger := do
  reject (!database.accepts ledger candidate) (.constraint "execution_events constraint failed")
  reject (ledger.rows.any fun row => row.eventId = candidate.eventId ||
      (row.stream = candidate.stream && row.streamSequence = candidate.streamSequence))
    (.constraint "execution_events identity is immutable")
  let position := ledger.lastPosition + 1
  return ⟨ledger.rows ++ [{ candidate with position, recordedAt := database.recordedAt position }],
    position⟩

/-- `_appendRows`. -/
def appendRows (ledger : Ledger) (prepared : PreparedAppend) :
    Except LedgerError (AppendResult × Ledger) :=
  let existing := prepared.candidates.map fun candidate => ledger.selectById candidate.eventId
  if existing.any Option.isSome then
    if (existing.zip prepared.candidates).all fun p =>
        p.1.any fun row => samePersistedEvent row p.2 then
      .ok (⟨existing.reduceOption, ledger.selectVersion prepared.stream, true⟩, ledger)
    else .error (.duplicateEvent (prepared.candidates.map (·.eventId)))
  else do
    let currentVersion := ledger.selectVersion prepared.stream
    reject (currentVersion ≠ prepared.expectedVersion)
      (.concurrencyConflict prepared.stream.aggregateType prepared.stream.aggregateId
        prepared.expectedVersion currentVersion)
    let next ← run (insertRow database) ledger prepared.candidates
    let rows := prepared.candidates.map fun candidate => next.selectById candidate.eventId
    return (⟨rows.reduceOption, prepared.expectedVersion + prepared.candidates.length, false⟩, next)

/-- The body of `_appendBatchTransaction`. -/
def appendBatchRows (ledger : Ledger) :
    List PreparedAppend → Except LedgerError (List AppendResult × Ledger)
  | [] => .ok ([], ledger)
  | prepared :: rest => do
      let (result, next) ← appendRows database ledger prepared
      let (results, last) ← appendBatchRows next rest
      return (result :: results, last)

/-- `_recordResult`, without the metrics. -/
def recordResult (result : AppendResult) : Except LedgerError AppendReceipt := do
  let events ← result.rows.mapM hydrate
  return ⟨result.currentVersion, result.idempotent, events⟩

/-- A transaction with what is made of its result once it is committed. -/
def transaction {α β : Type} (ledger : Ledger) (body : Except LedgerError (α × Ledger))
    (finish : α → Except LedgerError β) : Except LedgerError β × Ledger :=
  match body with
  | .error error => (.error error, ledger)
  | .ok (result, next) => (finish result, next)

/-- `append`. -/
def append (registry : EventRegistry) (ledger : Ledger) (request : Json) :
    Except LedgerError AppendReceipt × Ledger :=
  match prepareAppend registry request with
  | .error error => (.error error, ledger)
  | .ok prepared => transaction ledger (appendRows database ledger prepared) recordResult

/-- `appendBatch`. -/
def appendBatch (registry : EventRegistry) (ledger : Ledger) (requests : List Json) :
    Except LedgerError (List AppendReceipt) × Ledger :=
  if requests = [] then (.error (.invalidEvent "append batch must be a non-empty array"), ledger)
  else
    match requests.mapM (prepareAppend registry) with
    | .error error => (.error error, ledger)
    | .ok prepared =>
        transaction ledger (appendBatchRows database ledger prepared) (·.mapM recordResult)

end

end Hseos
