import Hseos.Foundation.Unique
import Hseos.Messages.Stream

/-! # The message store

The operations of `SqliteAgentMessageStore` on its table of events, each as it runs
inside a transaction: a failure means that the transaction is rolled back. The two
operations that ask the inbound policy are cut where they ask.
-/

namespace Hseos.Messages

def maxMessages : Nat := 10000

/-- What the relays over one store are configured with. -/
structure Limits where
  maxInbox : Nat
  rateLimit : Nat
  rateWindowMs : Nat
  deriving DecidableEq

inductive Decision where
  | accept
  | hold
  | refuse
  deriving DecidableEq

def Decision.text : Decision → String
  | .accept => "accept"
  | .hold => "hold"
  | .refuse => "refuse"

/-- The status that a decision gives a message. -/
def Decision.transition : Decision → Transition
  | .accept => .delivered
  | .hold => .held
  | .refuse => .refused

def conflict (message : String) : Failure := .transport message .concurrencyConflict

/-! ## The table -/

/-- One `INSERT`, under `UNIQUE(message_id, sequence)` and the unique index over the senders
and idempotency keys of the enqueue events. Positions count up from one. -/
def insert (rows : List Row) (row : Row) : Except Failure (List Row) := do
  reject (rows.any fun r => r.messageId = row.messageId && r.sequence = row.sequence)
    (conflict "message store concurrency conflict")
  reject (row.eventType = .enqueued && rows.any fun r => r.eventType = .enqueued &&
      r.senderId = row.senderId && r.idempotencyKey = row.idempotencyKey)
    (conflict "message store concurrency conflict")
  .ok (rows ++ [{ row with position := rows.length + 1 }])

/-- The rows of a message in the order in which they were inserted. -/
def rowsOf (rows : List Row) (messageId : String) : List Row :=
  rows.filter (·.messageId = messageId)

/-- The rows of a message, `ORDER BY sequence`. -/
def stream (rows : List Row) (messageId : String) : List Row :=
  (rowsOf rows messageId).mergeSort fun a b => a.sequence ≤ b.sequence

def readUnsafe (rows : List Row) (messageIdValue : String) : Except Failure (Option MessageState) := do
  let messageId ← identifier messageIdValue "message_id"
  run (step messageId) none (stream rows messageId)

/-- The identifiers of the stored messages, `ORDER BY MIN(position)`. -/
def messageIds (rows : List Row) : List String := unique (rows.map Row.messageId)

def statesUnsafe (rows : List Row) : Except Failure (List MessageState) := do
  reject (maxMessages < (messageIds rows).length)
    (.transport "message store exceeds its reconstruction bound" .storeFull)
  let states ← (messageIds rows).mapM (readUnsafe rows)
  .ok states.reduceOption

def findByIdempotencyUnsafe (rows : List Row) (senderId idempotencyKey : String) :
    Except Failure (Option MessageState) :=
  match rows.find? (fun r => r.eventType = .enqueued && r.senderId = senderId &&
      r.idempotencyKey = idempotencyKey) with
  | some row => readUnsafe rows row.messageId
  | none => .ok none

/-- The row that a transition writes; its position is set when it is inserted. -/
def transitionRow (state : MessageState) (to_ : Transition) (reason : String) (occurredAt : Moment) :
    Row where
  position := 0
  messageId := state.message.messageId
  sequence := state.version + 1
  eventType := .transition to_
  occurredAt := occurredAt
  senderId := state.message.senderId
  recipientId := state.message.recipientId
  idempotencyKey := state.message.idempotencyKey
  payload := .reason reason

def transitionUnsafe (rows : List Row) (state : MessageState) (to_ : Transition) (reason : String)
    (occurredAt : Moment) : Except Failure (Option MessageState × List Row) := do
  let reason ← boundedReason reason
  let rows ← insert rows (transitionRow state to_ reason occurredAt)
  let found ← readUnsafe rows state.message.messageId
  .ok (found, rows)

def assertStoreTimeUnsafe (rows : List Row) (now : Moment) : Except Failure Unit :=
  reject (rows.getLast?.any (now.ms < ·.occurredAt.ms))
    (.transport "message store clock regressed" .clockRegression)

/-! ## Expiry -/

/-- The message is in the inbox of its recipient. -/
def MessageState.isWaiting (state : MessageState) : Bool :=
  (state.status = .held || state.status = .delivered) && !state.acknowledged

/-- The message is in an inbox past its time. -/
def MessageState.isDue (state : MessageState) (now : Moment) : Bool :=
  state.isWaiting && state.expiresAt.ms ≤ now.ms

def expireOne (now : Moment) (rows : List Row) (state : MessageState) : Except Failure (List Row) :=
  if state.isDue now then Except.map Prod.snd (transitionUnsafe rows state .expired "ttl_elapsed" now)
  else .ok rows

def expireUnsafe (rows : List Row) (now : Moment) : Except Failure (List Row) := do
  let states ← statesUnsafe rows
  states.foldlM (expireOne now) rows

/-- How every transaction starts. -/
def enter (rows : List Row) (now : Moment) : Except Failure (List Row) := do
  assertStoreTimeUnsafe rows now
  expireUnsafe rows now

/-! ## Sending -/

def addMilliseconds (value : Moment) (milliseconds : Int) : Except Failure Moment :=
  if h : isDate (value.ms + milliseconds) = true then .ok ⟨value.ms + milliseconds, h⟩
  else .error (invalid "message expiry exceeds the supported clock range")

/-- The message was created by the sender at or after the instant. -/
def MessageState.isRecent (state : MessageState) (senderId : String) (cutoff : Int) : Bool :=
  state.message.senderId = senderId && cutoff ≤ state.createdAt.ms

/-- The message waits for the recipient. -/
def MessageState.isFor (state : MessageState) (recipientId : String) : Bool :=
  state.message.recipientId = recipientId && state.isWaiting

def enforceBounds (limits : Limits) (message : Message) (now : Moment) (rows : List Row) :
    Except Failure Unit := do
  let states ← statesUnsafe rows
  reject (maxMessages ≤ states.length) (.transport "message store is full" .storeFull)
  let cutoff := now.ms - limits.rateWindowMs
  reject (limits.rateLimit ≤ (states.filter (·.isRecent message.senderId cutoff)).length)
    (.transport "sender rate limit exceeded" .rateLimited)
  reject (limits.maxInbox ≤ (states.filter (·.isFor message.recipientId)).length)
    (.transport "recipient inbox is full" .inboxFull)

/-- `atomicSend` up to the decision: the message of an identical earlier request, or that
there is none. -/
def beginSend (limits : Limits) (message : Message) (now : Moment) (rows : List Row) :
    Except Failure (Option MessageState × List Row) := do
  let rows ← enter rows now
  let replay ← findByIdempotencyUnsafe rows message.senderId message.idempotencyKey
  match replay with
  | some state => do
      reject (state.message ≠ message)
        (.transport "idempotency key conflicts with another message" .dedupConflict)
      .ok (some state, rows)
  | none => do
      enforceBounds limits message now rows
      .ok (none, rows)

def enqueueRow (message : Message) (now expiresAt : Moment) : Row where
  position := 0
  messageId := message.messageId
  sequence := 1
  eventType := .enqueued
  occurredAt := now
  senderId := message.senderId
  recipientId := message.recipientId
  idempotencyKey := message.idempotencyKey
  payload := .enqueue message now expiresAt

def decisionRow (message : Message) (now : Moment) (decision : Decision) : Row where
  position := 0
  messageId := message.messageId
  sequence := 2
  eventType := .transition decision.transition
  occurredAt := now
  senderId := message.senderId
  recipientId := message.recipientId
  idempotencyKey := message.idempotencyKey
  payload := .reason ("inbound_" ++ decision.text)

/-- `atomicSend` after the decision. -/
def finishSend (limits : Limits) (message : Message) (now : Moment) (decision : Decision)
    (rows : List Row) : Except Failure (Option MessageState × List Row) := do
  let replay ← findByIdempotencyUnsafe rows message.senderId message.idempotencyKey
  reject replay.isSome (conflict "message changed during policy evaluation")
  enforceBounds limits message now rows
  let expiresAt ← addMilliseconds now message.ttlMs
  let rows ← insert rows (enqueueRow message now expiresAt)
  let rows ← insert rows (decisionRow message now decision)
  let found ← readUnsafe rows message.messageId
  .ok (found, rows)

/-! ## Acknowledging and flushing -/

/-- The transaction of `acknowledgeAtomic`, which commits the expiry when it has nothing to
acknowledge. -/
def acknowledgeUnsafe (messageId recipientId : String) (now : Moment) (rows : List Row) :
    Except Failure (Option MessageState × List Row) := do
  let rows ← enter rows now
  let found ← readUnsafe rows messageId
  match found with
  | some state =>
      if state.message.recipientId ≠ recipientId ∨ state.status ≠ .delivered ∨
          state.acknowledged = true ∨ state.expiresAt.ms ≤ now.ms then .ok (none, rows)
      else transitionUnsafe rows state .acknowledged "recipient_ack" now
  | none => .ok (none, rows)

/-- `flushHeldAtomic` up to the first decision: the messages to decide on. -/
def beginFlush (recipientId : String) (now : Moment) (rows : List Row) :
    Except Failure (List MessageState × List Row) := do
  let rows ← enter rows now
  let states ← statesUnsafe rows
  .ok (states.filter (fun state => state.message.recipientId = recipientId && state.status = .held),
    rows)

/-- `flushHeldAtomic` after the decision on one message. -/
def flushOne (now : Moment) (state : MessageState) (decision : Decision) (rows : List Row) :
    Except Failure (Option MessageState × List Row) :=
  match decision with
  | .hold => .ok (some state, rows)
  | .accept => transitionUnsafe rows state .delivered "inbound_accept" now
  | .refuse => transitionUnsafe rows state .refused "inbound_refuse" now

end Hseos.Messages
