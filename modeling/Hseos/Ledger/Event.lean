import Hseos.Ledger.Registry

/-! # Ledger events

What a request has to pass before the database is touched: the checks of every
event, and the row values it becomes.
-/

namespace Hseos

/-! ## Forbidden payload fields -/

/-- A character outside `[a-zA-Z0-9]` separates words. -/
def isSeparator (c : Char) : Bool := !c.isAlphanum

/-- An underscore goes between a lower-case letter or a digit and an upper-case letter. -/
def splitCamelCase : List Char → List Char
  | a :: b :: rest =>
      if (a.isLower || a.isDigit) && b.isUpper then a :: '_' :: splitCamelCase (b :: rest)
      else a :: splitCamelCase (b :: rest)
  | text => text

/-- Each run of separators becomes one underscore. -/
def joinWords : List Char → List Char
  | a :: b :: rest =>
      if isSeparator a then
        if isSeparator b then joinWords (b :: rest) else '_' :: joinWords (b :: rest)
      else a :: joinWords (b :: rest)
  | [a] => if isSeparator a then ['_'] else [a]
  | [] => []

def trimUnderscores (text : List Char) : List Char :=
  ((text.dropWhile (· = '_')).reverse.dropWhile (· = '_')).reverse

def normalizeKey (key : String) : String :=
  String.ofList ((trimUnderscores (joinWords (splitCamelCase (chars key)))).map Char.toLower)

/-- `SENSITIVE_KEYS`. -/
def sensitiveKeys : List String :=
  ["access_token", "api_key", "approval_token", "auth", "authentication", "authorization",
    "client_secret", "cookie", "credential", "credentials", "password", "private_key",
    "refresh_token", "secret", "session_cookie", "set_cookie", "token"]

/-- The last words of `SENSITIVE_KEY_SUFFIX`. -/
def sensitiveWords : List String := ["credential", "credentials", "password", "secret", "token"]

def isSensitiveKey (key : String) : Bool :=
  let normalizedKey := normalizeKey key
  normalizedKey ∈ sensitiveKeys || sensitiveWords.any fun word =>
    normalizedKey = word || ('_' :: chars word) <:+ chars normalizedKey

namespace Json

mutual

/-- The path of the first member with a sensitive name. -/
def sensitive? (path : String) : Json → Option String
  | .arr items => sensitiveItem? path 0 items
  | .obj members => sensitiveMember? path members
  | _ => none

def sensitiveItem? (path : String) (index : Nat) : List Json → Option String
  | [] => none
  | item :: rest =>
      (sensitive? s!"{path}[{index}]" item).or (sensitiveItem? path (index + 1) rest)

def sensitiveMember? (path : String) : List (String × Json) → Option String
  | [] => none
  | (name, value) :: rest =>
      if isSensitiveKey name then some s!"{path}.{name}"
      else (sensitive? s!"{path}.{name}" value).or (sensitiveMember? path rest)

end

end Json

def assertNoSensitivePayload (value : Json) (path : String) : Except LedgerError Unit :=
  match value.sensitive? path with
  | some path =>
      .error (.invalidEvent s!"Sensitive field is forbidden in event payload: {path}")
  | none => .ok ()

/-! ## Field formats -/

/-- A text that fits a mask: `d` stands for a digit, `h` for a hexadecimal digit,
and every other character for itself. -/
def fitsMask : List Char → List Char → Bool
  | [], [] => true
  | 'd' :: mask, c :: text => c.isDigit && fitsMask mask text
  | 'h' :: mask, c :: text => (hexValue? c).isSome && fitsMask mask text
  | m :: mask, c :: text => m = c && fitsMask mask text
  | _, _ => false

/-- `UUID_PATTERN`. -/
def isUuid (text : String) : Bool :=
  fitsMask "hhhhhhhh-hhhh-hhhh-hhhh-hhhhhhhhhhhh".toList (chars text)

/-- A date and time that `toISOString` prints. -/
def isUtcTimestamp (text : String) : Bool :=
  fitsMask "dddd-dd-ddTdd:dd:dd.dddZ".toList (chars text) && isTimestamp text

def requireString (value : Option Json) (label : String) : Except LedgerError String :=
  match value.bind Json.string? with
  | some text =>
      if text = "" then .error (.invalidEvent s!"{label} must be a non-empty string") else .ok text
  | none => .error (.invalidEvent s!"{label} must be a non-empty string")

/-- `requireString` where `null` may be allowed. -/
def requireStringOrNull (value : Option Json) (label : String) (nullable : Bool) :
    Except LedgerError (Option String) :=
  if nullable then
    match value with
    | some .null => .ok none
    | some (.str text) =>
        if text = "" then .error (.invalidEvent s!"{label} must be a non-empty string or null")
        else .ok (some text)
    | _ => .error (.invalidEvent s!"{label} must be a non-empty string or null")
  else some <$> requireString value label

def requireVersion (value : Option Json) : Except LedgerError Nat :=
  match value.bind Json.natural? with
  | some version => .ok version
  | none => .error (.invalidEvent "expected_version must be a non-negative integer")

def requireEvents (value : Option Json) : Except LedgerError (List Json) :=
  match value with
  | some (.arr (event :: rest)) => .ok (event :: rest)
  | _ => .error (.invalidEvent "events must be a non-empty array")

/-! ## Candidates -/

structure Stream where
  aggregateType : String
  aggregateId : String
  deriving DecidableEq

/-- The column values of a row that the caller decides. -/
structure Candidate where
  eventId : String
  eventType : String
  stream : Stream
  streamSequence : Nat
  schemaVersion : Nat
  occurredAt : String
  correlationId : String
  causationId : String
  actorJson : List Char
  operationId : Option String
  payloadJson : List Char
  evidenceRefsJson : List Char
  deriving DecidableEq

def normalizeEvent (event : Json) (stream : Stream) (sequence : Nat) :
    Except LedgerError Candidate := do
  reject (!event.isObject) (.invalidEvent "Each event must be an object")
  let eventId ← requireString (event.field? "event_id") "event_id"
  reject (!isUuid eventId) (.invalidEvent "event_id must be a UUID")
  let eventType ← requireString (event.field? "event_type") "event_type"
  let occurredAt ← requireString (event.field? "occurred_at") "occurred_at"
  let correlationId ← requireString (event.field? "correlation_id") "correlation_id"
  let causationId ← requireString (event.field? "causation_id") "causation_id"
  let operationId ← requireStringOrNull (event.field? "operation_id") "operation_id"
    (stream.aggregateType ≠ "execution")
  let schemaVersion := ((event.field? "schema_version").bind Json.natural?).getD 0
  reject (schemaVersion < 1) (.invalidEvent "schema_version must be a positive integer")
  reject (!isUtcTimestamp occurredAt)
    (.invalidEvent "occurred_at must be a canonical UTC timestamp with millisecond precision")
  let actor := (event.field? "actor").getD .null
  reject (!actor.isObject) (.invalidEvent "actor must be an object")
  reject (event.field? "payload").isNone (.invalidEvent "payload is required")
  let payload := (event.field? "payload").getD .null
  let evidenceRefs := (event.field? "evidence_refs").getD (.arr [])
  reject (match evidenceRefs with
      | .arr items => !(items.all fun item => item.string?.isSome)
      | _ => true)
    (.invalidEvent "evidence_refs must be an array of strings")
  assertStrictJson .invalidEvent actor "actor"
  assertStrictJson .invalidEvent payload "payload"
  assertNoSensitivePayload actor "actor"
  assertNoSensitivePayload payload "payload"
  return {
    eventId, eventType, stream, streamSequence := sequence, schemaVersion, occurredAt,
    correlationId, causationId, actorJson := actor.stableJson, operationId,
    payloadJson := payload.stableJson, evidenceRefsJson := evidenceRefs.stableJson }

/-- The candidates of the events of a request, numbered on from a sequence. -/
def normalizeEvents (stream : Stream) : Nat → List Json → Except LedgerError (List Candidate)
  | _, [] => .ok []
  | sequence, event :: rest => do
      let candidate ← normalizeEvent event stream sequence
      let others ← normalizeEvents stream (sequence + 1) rest
      return candidate :: others

/-- A request that passed every check made outside the database. -/
structure PreparedAppend where
  stream : Stream
  expectedVersion : Nat
  candidates : List Candidate
  deriving DecidableEq

/-- The events of an execution stream are of registered types. -/
def validateEvents (registry : EventRegistry) (aggregateType : String) (events : List Json) :
    Except LedgerError Unit :=
  if aggregateType = "execution" then events.forM registry.validateForAppend else .ok ()

/-- `_prepareAppend`. -/
def prepareAppend (registry : EventRegistry) (request : Json) :
    Except LedgerError PreparedAppend := do
  reject (request = .null) .typeError
  let aggregateId ← requireString (request.field? "aggregate_id") "aggregate_id"
  let aggregateType ← requireString (request.field? "aggregate_type") "aggregate_type"
  let expectedVersion ← requireVersion (request.field? "expected_version")
  let events ← requireEvents (request.field? "events")
  validateEvents registry aggregateType events
  let stream : Stream := ⟨aggregateType, aggregateId⟩
  let candidates ← normalizeEvents stream (expectedVersion + 1) events
  reject (!(candidates.map (·.eventId)).Nodup)
    (.invalidEvent "event_id values must be unique within an append")
  return { stream, expectedVersion, candidates }

end Hseos
