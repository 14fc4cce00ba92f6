import Hseos.Contracts.Common
import Hseos.Foundation.IsoDate
import Hseos.Foundation.Run

/-! # Message streams

The events of one message between two agents, and the state they fold to. A
canonical UTC text is known here by the instant it stands for, and the payload
of a row by the object that its text parses to.
-/

namespace Hseos.Messages

/-- The instant of a canonical UTC text. -/
structure Moment where
  ms : Int
  isDate : isDate ms = true
  deriving DecidableEq

inductive Code where
  | invalid
  | streamInvalid
  | storeFull
  | rateLimited
  | inboxFull
  | dedupConflict
  | concurrencyConflict
  | clockRegression
  | ackInvalid
  | principalMismatch
  | adapterInvalid
  | adapterFailure
  deriving DecidableEq

/-- An `AgentMessageTransportError`, or whatever an inbound policy throws. -/
inductive Failure where
  | transport (message : String) (code : Code)
  | policy
  deriving DecidableEq

def invalid (message : String) : Failure := .transport message .invalid

def streamInvalid (message : String) : Failure := .transport message .streamInvalid

/-! ## Messages -/

/-- The fields of a send request. -/
structure Message where
  schemaVersion : Int
  messageId : String
  senderId : String
  recipientId : String
  idempotencyKey : String
  text : String
  ttlMs : Int
  deriving DecidableEq

/-- `IDENTIFIER`, which counts characters, and the names that are refused with it. -/
def isIdentifierText (value : String) : Bool :=
  let text := chars value
  1 ≤ text.length && text.length ≤ 256 &&
    text.all (fun c => !isJsSpace c && 32 ≤ c.toNat && c.toNat ≠ 127) &&
    value ∉ ["__proto__", "prototype", "constructor"]

def identifier (value label : String) : Except Failure String :=
  if isIdentifierText value then .ok value else .error (invalid (label ++ " is invalid"))

@[simp] theorem identifier_eq_ok_iff {value label out : String} :
    identifier value label = .ok out ↔ isIdentifierText value = true ∧ value = out := by
  unfold identifier
  split
  next h => simp [h]
  next h => simp [h]

def maxTextBytes : Nat := 65536

def maxTtlMs : Int := 604800000

def parseSend (value : Message) : Except Failure Message := do
  reject (value.schemaVersion ≠ 1) (invalid "message schema version is unsupported")
  let bytes := byteLength (chars value.text)
  reject (bytes < 1 || maxTextBytes < bytes) (invalid "message text exceeds its byte contract")
  reject (value.ttlMs < 1 || maxTtlMs < value.ttlMs) (invalid "message ttl is invalid")
  let messageId ← identifier value.messageId "message_id"
  let senderId ← identifier value.senderId "sender_id"
  let recipientId ← identifier value.recipientId "recipient_id"
  let idempotencyKey ← identifier value.idempotencyKey "idempotency_key"
  .ok { schemaVersion := 1, messageId, senderId, recipientId, idempotencyKey, text := value.text,
        ttlMs := value.ttlMs }

/-- What `parseSend` asks of a message. -/
structure Message.WellFormed (m : Message) : Prop where
  schemaVersion : m.schemaVersion = 1
  text : 1 ≤ byteLength (chars m.text) ∧ byteLength (chars m.text) ≤ maxTextBytes
  ttl : 1 ≤ m.ttlMs ∧ m.ttlMs ≤ maxTtlMs
  messageId : isIdentifierText m.messageId = true
  senderId : isIdentifierText m.senderId = true
  recipientId : isIdentifierText m.recipientId = true
  idempotencyKey : isIdentifierText m.idempotencyKey = true

theorem parseSend_eq_ok_iff {value m : Message} :
    parseSend value = .ok m ↔ value.WellFormed ∧ m = value := by
  unfold parseSend
  simp only [bind_eq_ok_iff, reject_eq_ok_iff, identifier_eq_ok_iff, decide_eq_false_iff_not,
    ne_eq, not_not, Bool.or_eq_false_iff, not_lt, Except.ok.injEq]
  constructor
  · rintro ⟨-, hschema, -, ⟨hlow, hhigh⟩, -, ⟨hmin, hmax⟩, _, ⟨hid, rfl⟩, _, ⟨hsender, rfl⟩, _,
      ⟨hrecipient, rfl⟩, _, ⟨hkey, rfl⟩, rfl⟩
    refine ⟨⟨hschema, ⟨by omega, hhigh⟩, ⟨by omega, hmax⟩, hid, hsender, hrecipient, hkey⟩, ?_⟩
    rw [← hschema]
  · rintro ⟨h, rfl⟩
    have htext := h.text
    have httl := h.ttl
    refine ⟨(), h.schemaVersion, (), ⟨by omega, htext.2⟩, (), ⟨by omega, httl.2⟩, _,
      ⟨h.messageId, rfl⟩, _, ⟨h.senderId, rfl⟩, _, ⟨h.recipientId, rfl⟩, _,
      ⟨h.idempotencyKey, rfl⟩, ?_⟩
    rw [← h.schemaVersion]

/-! ## Events -/

inductive Status where
  | enqueued
  | delivered
  | held
  | refused
  | expired
  deriving DecidableEq

/-- The keys of `STATUS_EVENTS`. -/
inductive Transition where
  | delivered
  | held
  | refused
  | expired
  | acknowledged
  deriving DecidableEq

/-- The type of an event: the enqueue, a value of `STATUS_EVENTS`, or another text. -/
inductive EventType where
  | enqueued
  | transition (to_ : Transition)
  | other (name : String)
  deriving DecidableEq

inductive Payload where
  | enqueue (message : Message) (createdAt expiresAt : Moment)
  | reason (text : String)
  deriving DecidableEq

/-- A row of `agent_message_events`. -/
structure Row where
  position : Nat
  messageId : String
  sequence : Nat
  eventType : EventType
  occurredAt : Moment
  senderId : String
  recipientId : String
  idempotencyKey : String
  payload : Payload
  deriving DecidableEq

namespace Transition

def expectedReason : Transition → String
  | .delivered => "inbound_accept"
  | .held => "inbound_hold"
  | .refused => "inbound_refuse"
  | .expired => "ttl_elapsed"
  | .acknowledged => "recipient_ack"

/-- The status a message has after the transition, from the one it had. -/
def next (to_ : Transition) (status : Status) : Status :=
  match to_ with
  | .delivered => .delivered
  | .held => .held
  | .refused => .refused
  | .expired => .expired
  | .acknowledged => status

/-- The statuses a transition may start from. -/
def allowed (to_ : Transition) (status : Status) : Bool :=
  if to_ = .acknowledged then status = .delivered
  else
    match status with
    | .enqueued => to_ ∈ [.delivered, .held, .refused]
    | .held => to_ ∈ [.delivered, .refused, .expired]
    | .delivered => to_ ∈ [.expired]
    | .refused => false
    | .expired => false

end Transition

/-! ## The state of a message -/

structure MessageState where
  message : Message
  version : Nat
  createdAt : Moment
  expiresAt : Moment
  status : Status
  acknowledged : Bool
  reason : Option String
  lastOccurredAt : Moment
  deriving DecidableEq

def boundedReason (value : String) : Except Failure String :=
  if 1 ≤ jsLength value ∧ jsLength value ≤ 256 then .ok value
  else .error (streamInvalid "message transition reason is invalid")

/-- The first event of a stream. -/
def applyEnqueued (row : Row) : Except Failure MessageState :=
  match row.payload with
  | .reason _ => .error (invalid "persisted enqueue payload has non-canonical fields")
  | .enqueue payload createdAt expiresAt => do
      let message ← parseSend payload
      reject (createdAt ≠ row.occurredAt || expiresAt.ms ≠ createdAt.ms + message.ttlMs ||
          row.messageId ≠ message.messageId || row.senderId ≠ message.senderId ||
          row.recipientId ≠ message.recipientId || row.idempotencyKey ≠ message.idempotencyKey)
        (streamInvalid "persisted enqueue identity is inconsistent")
      .ok { message, version := row.sequence, createdAt, expiresAt, status := .enqueued,
            acknowledged := false, reason := none, lastOccurredAt := row.occurredAt }

/-- A transition of a message, for a reason. -/
def applyStatus (state : MessageState) (row : Row) (reason : String) : Except Failure MessageState := do
  reject (state.acknowledged || row.senderId ≠ state.message.senderId ||
      row.recipientId ≠ state.message.recipientId ||
      row.idempotencyKey ≠ state.message.idempotencyKey)
    (streamInvalid "message transition identity is invalid")
  match row.eventType with
  | .transition to_ => do
      let atOrAfterExpiry : Bool := state.expiresAt.ms ≤ row.occurredAt.ms
      reject (reason ≠ to_.expectedReason ||
          (if to_ = .expired then !atOrAfterExpiry else atOrAfterExpiry))
        (streamInvalid "message transition time or reason is invalid")
      reject (!to_.allowed state.status)
        (streamInvalid (if to_ = .acknowledged then "only delivered messages can be acknowledged"
          else "message status transition is invalid"))
      .ok { state with
        status := to_.next state.status
        acknowledged := state.acknowledged || to_ = .acknowledged
        reason := some reason
        version := row.sequence
        lastOccurredAt := row.occurredAt }
  | _ => .error (streamInvalid "message transition is invalid")

/-- The events after the first. -/
def applyTransition (state : Option MessageState) (row : Row) : Except Failure MessageState :=
  match row.payload with
  | .enqueue .. => .error (invalid "persisted transition payload has non-canonical fields")
  | .reason text => do
      let reason ← boundedReason text
      match state with
      | none => .error (streamInvalid "message transition identity is invalid")
      | some state => applyStatus state row reason

/-- The version of a stream, of which nothing is known before its first event. -/
def versionOf (state : Option MessageState) : Nat := (state.map MessageState.version).getD 0

/-- One event of the stream of a message, `none` being the state before the first. -/
def applyEvent (messageId : String) (state : Option MessageState) (row : Row) :
    Except Failure MessageState := do
  reject (row.position < 1 || maxSafeInteger < row.position || row.sequence < 1 ||
      maxSafeInteger < row.sequence)
    (streamInvalid "message event position is invalid")
  let _ ← identifier row.messageId "message_id"
  let _ ← identifier row.senderId "sender_id"
  let _ ← identifier row.recipientId "recipient_id"
  let _ ← identifier row.idempotencyKey "idempotency_key"
  reject (row.sequence ≠ versionOf state + 1 || row.messageId ≠ messageId ||
      state.any (row.occurredAt.ms < ·.lastOccurredAt.ms))
    (streamInvalid "message stream is discontinuous")
  match row.eventType with
  | .enqueued => do
      reject state.isSome (streamInvalid "message enqueue is duplicated")
      applyEnqueued row
  | _ => applyTransition state row

/-- The step with which a stream is folded. -/
def step (messageId : String) (state : Option MessageState) (row : Row) :
    Except Failure (Option MessageState) := do
  let next ← applyEvent messageId state row
  .ok (some next)

end Hseos.Messages
