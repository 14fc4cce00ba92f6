import Hseos.Delegated.State
import Hseos.Foundation.Process
import Hseos.Ledger.Event

/-! # The store of a delegated session

What a host asks of the ledger, the clock and the provider, how the ledger answers,
and the read and the append that every operation is made of.
-/

namespace Hseos.Delegated

/-! ## The ledger -/

/-- The members of a payload whose names no contract fixes. -/
def Fact.openJson : Fact → List Json
  | .created _ spec => [spec.metadata]
  | .bound _ manifest => [manifest.declared]
  | .turnRequested turn => (turn.message.toolCalls.getD []).map (·.input)
  | .eventRecorded event =>
      match event.payload with
      | .toolCall _ _ _ input => [input]
      | _ => []
  | _ => []

/-- The instants whose canonical text has a year of four digits. -/
def hasLedgerYear (instant : Int) : Bool :=
  -62167219200000 ≤ instant && instant < 253402300800000

/-- What the ledger refuses of a row before it looks at the stream. -/
def ledgerRefuses (row : Row) : Bool :=
  !hasLedgerYear row.occurredAt || row.fact.openJson.any fun value =>
    (value.nonFinite? "payload").isSome || (value.sensitive? "payload").isSome

def ledgerError (message code : String) : HostError := { message, code }

/-- `ledger.append` of one event: whether it was there already, and the rows it leaves. -/
def ledgerAppend (rows : List Row) (expectedVersion : Nat) (row : Row) :
    Result (Bool × List Row) := do
  reject (ledgerRefuses row) (ledgerError "event is invalid" "INVALID_EXECUTION_EVENT")
  match rows.find? fun other =>
      other.fact.eventType = row.fact.eventType && other.key = row.key with
  | some other =>
      if other = row then return (true, rows)
      else throw (ledgerError "event identifier already exists" "DUPLICATE_EXECUTION_EVENT")
  | none =>
      reject (rows.length ≠ expectedVersion)
        (ledgerError "stream version conflict" "EXECUTION_STREAM_VERSION_CONFLICT")
      return (false, rows ++ [row])

/-! ## Requests -/

/-- Which part of the host reads the session. -/
inductive Reader where
  | operation | continuable | appending | appended | failing
  deriving DecidableEq

/-- What a runtime provider answers to an operation. -/
structure OperationResult where
  runtimeSessionId : String
  accepted : Bool
  terminal : Bool
  deriving DecidableEq

/-- What an operation asks for, one atomic step each. -/
inductive Request where
  | clock
  | read (reader : Reader)
  | append (expectedVersion : Nat) (row : Row)
  /-- `#provider`: a provider of the right shape and identity. -/
  | provider
  | manifest
  | create
  | resume
  /-- The invocation of `provider.send`, and its settlement. -/
  | send
  | sent
  | cancel
  | next
  | close
  deriving DecidableEq

abbrev Value : Request → Type
  | .clock => Int
  | .read _ => State
  | .append .. => Bool
  | .manifest => RuntimeProviderManifest
  | .create | .resume | .sent | .cancel => OperationResult
  | .next => RuntimeEvent
  | .provider | .send | .close => Unit

abbrev Reply (request : Request) : Type := Result (Value request)

/-- The programs of the host. -/
abbrev Operates (α : Type) := Program Request Reply HostError α

def ask (request : Request) : Operates (Value request) := Program.perform request

/-! ## The store -/

/-- One process that works on sessions: the actor of its store. -/
structure Host where
  actor : Json
  deriving DecidableEq

structure AppendInput where
  expectedVersion : Nat
  fact : Fact
  key : String
  occurredAt : Option Int := none
  traceId : Option String := none

/-- The trace of an append: the one of the session once it has one. -/
def resolveTrace (current : State) (given : Option String) : Result String := do
  let resolved ← match current.traceId with
    | some traceId => pure traceId
    | none => canonicalTraceId (given.getD current.sessionId.val)
  match given with
  | none => return resolved
  | some traceId => do
      let canonical ← canonicalTraceId traceId
      reject (canonical ≠ resolved)
        (traceFragmented "append cannot replace the durable delegated trace")
      return resolved

/-- The row of an append, checked against the state that the session was read in. -/
def checkRow (host : Host) (input : AppendInput) (timestamp : Int) (current : State) :
    Result Row := do
  let correlationId ← resolveTrace current input.traceId
  reject (current.lastOccurredAt.any (timestamp < ·))
    (sequenceInvalid "delegated runtime clock regressed")
  let row : Row :=
    { streamSequence := input.expectedVersion + 1, key := input.key, fact := input.fact,
      occurredAt := timestamp, correlationId, actor := host.actor }
  let _ ← applyFact current row
  return row

/-- The instant of an append. -/
def timestampOf (occurredAt : Option Int) : Operates Int :=
  match occurredAt with
  | some timestamp => pure timestamp
  | none => ask .clock

/-- `DelegatedRuntimeStore.append`, of whose result the host reads the state. -/
def append (host : Host) (input : AppendInput) : Operates State := do
  let timestamp ← timestampOf input.occurredAt
  let current ← ask (.read .appending)
  let row ← checkRow host input timestamp current
  let _ ← ask (.append input.expectedVersion row)
  ask (.read .appended)

/-! ## What the requests are answered -/

/-- The stream of the session, and how often `provider.send` was invoked. -/
structure Shared where
  rows : List Row
  sends : Nat
  deriving DecidableEq

/-- What the world behind the ledger decides of an answer. -/
inductive Input where
  | go
  | fail (error : HostError)
  | instant (timestamp : Int)
  | manifest (manifest : RuntimeProviderManifest)
  | operation (result : OperationResult)
  | event (event : RuntimeEvent)
  deriving DecidableEq

/-- The answer to a request. Any request but the invocation of `send` may fail. -/
def answer (sessionId : Identifier) : (request : Request) → Input → Shared →
    Option (Reply request × Shared)
  | .send, .go, shared => some (.ok (), { shared with sends := shared.sends + 1 })
  | .send, _, _ => none
  | _, .fail error, shared => some (.error error, shared)
  | .clock, .instant timestamp, shared => some (.ok timestamp, shared)
  | .read _, .go, shared => some (read sessionId shared.rows, shared)
  | .append expectedVersion row, .go, shared =>
      match ledgerAppend shared.rows expectedVersion row with
      | .ok (idempotent, rows) => some (.ok idempotent, { shared with rows })
      | .error error => some (.error error, shared)
  | .manifest, .manifest manifest, shared => some (.ok manifest, shared)
  | .create, .operation result, shared => some (.ok result, shared)
  | .resume, .operation result, shared => some (.ok result, shared)
  | .sent, .operation result, shared => some (.ok result, shared)
  | .cancel, .operation result, shared => some (.ok result, shared)
  | .next, .event event, shared => some (.ok event, shared)
  | .provider, .go, shared => some (.ok (), shared)
  | .close, .go, shared => some (.ok (), shared)
  | _, _, _ => none

end Hseos.Delegated
