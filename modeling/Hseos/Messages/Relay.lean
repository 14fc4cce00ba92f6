import Hseos.Messages.Store
import Mathlib.Logic.Function.Basic

/-! # Relays over one store

Any number of local relays, each bound to its principal and with a clock of its own,
that call into one store. The inbound policy runs inside the transaction that asks it
and may itself call any relay: the calls made until it answers run inside that
transaction, on savepoints of their own. The open transactions form a stack.
-/

namespace Hseos.Messages

/-! ## Requests and answers -/

structure ReceiveRequest where
  schemaVersion : Int
  recipientId : String
  limit : Int
  deriving DecidableEq

structure AckRequest where
  schemaVersion : Int
  recipientId : String
  messageId : String
  deriving DecidableEq

structure FlushRequest where
  schemaVersion : Int
  recipientId : String
  deriving DecidableEq

inductive Request where
  | send (value : Message)
  | receive (value : ReceiveRequest)
  | acknowledge (value : AckRequest)
  | flushHeld (value : FlushRequest)
  deriving DecidableEq

inductive Answer where
  | sent (found : Option MessageState) (replayed : Bool)
  | states (found : List MessageState)
  | acknowledged (found : MessageState)
  deriving DecidableEq

/-- What an inbound policy is asked about. -/
structure Inbound where
  senderId : String
  recipientId : String
  text : String
  deriving DecidableEq

def Message.inbound (message : Message) : Inbound where
  senderId := message.senderId
  recipientId := message.recipientId
  text := message.text

/-- How an inbound policy ends: with a decision, another value, or an exception. -/
inductive Verdict where
  | decided (decision : Decision)
  | unknown
  | throws
  deriving DecidableEq

/-! ## Relays -/

/-- A transaction that waits for the inbound policy, with the table to which it is rolled
back if it fails. -/
inductive Frame (ι : Type) where
  | send (relay : ι) (savepoint : List Row) (message : Message) (now : Moment)
  | flush (relay : ι) (savepoint : List Row) (request : FlushRequest) (now : Moment)
      (state : MessageState) (rest outcomes : List MessageState)

def Frame.savepoint {ι : Type} : Frame ι → List Row
  | .send _ savepoint _ _ => savepoint
  | .flush _ savepoint _ _ _ _ _ => savepoint

/-- The store, and what each relay remembers. -/
structure World (ι : Type) where
  rows : List Row
  lastNowMs : ι → Option Int
  sending : ι → Bool
  frames : List (Frame ι)

def World.initial (ι : Type) : World ι where
  rows := []
  lastNowMs := fun _ => none
  sending := fun _ => false
  frames := []

/-- The relays over one store. -/
structure Network (ι : Type) where
  principal : ι → String
  limits : Limits

/-- A call on a relay with the value of its clock, an `expire` of the store, or the end of the
policy that was asked last. A time that is not canonical is `none`. -/
inductive Event (ι : Type) where
  | call (relay : ι) (request : Request) (clock : Option Moment)
  | expire (now : Option Moment)
  | decide (verdict : Verdict)

/-- The policy is asked, a relay answers a request, an `expire` returns, or there is no policy that
could end. -/
inductive Outcome (ι : Type) where
  | asks (inbound : Inbound)
  | answers (relay : ι) (request : Request) (result : Except Failure Answer)
  | expires (result : Except Failure Unit)
  | idle

/-- `#now`. -/
def relayNow (lastNowMs : Option Int) (clock : Option Moment) : Except Failure Moment :=
  match clock with
  | none => .error (invalid "relay clock must be canonical UTC")
  | some now =>
      if lastNowMs.any (now.ms < ·) then
        .error (.transport "relay clock regressed" .clockRegression)
      else .ok now

/-- The recipient that a request claims is the principal of the relay. -/
def claimRecipient (label principal : String) (schemaVersion : Int) (recipientIdValue : String) :
    Except Failure Unit := do
  reject (schemaVersion ≠ 1) (invalid (label ++ " schema version is unsupported"))
  let recipientId ← identifier recipientIdValue "recipient_id"
  reject (recipientId ≠ principal)
    (.transport "recipient claim is not bound to this relay principal" .principalMismatch)

/-- What a relay checks before it reads its clock. -/
def admitted (principal : String) (sending : Bool) : Request → Except Failure Unit
  | .send value => do
      reject sending (conflict "reentrant send is forbidden")
      let message ← parseSend value
      reject (message.senderId ≠ principal)
        (.transport "sender claim is not bound to this relay principal" .principalMismatch)
  | .receive value => do
      claimRecipient "receive" principal value.schemaVersion value.recipientId
      reject (value.limit < 1 || 128 < value.limit) (invalid "receive limit is invalid")
  | .acknowledge value => do
      claimRecipient "ack" principal value.schemaVersion value.recipientId
      let _ ← identifier value.messageId "message_id"
      .ok ()
  | .flushHeld value => claimRecipient "flush" principal value.schemaVersion value.recipientId

def received (value : ReceiveRequest) (states : List MessageState) : List MessageState :=
  (states.filter fun state => state.message.recipientId = value.recipientId &&
    state.status = .delivered && !state.acknowledged).take value.limit.toNat

variable {ι : Type} [DecidableEq ι]

/-- A request that was admitted at a time. -/
def Network.perform (net : Network ι) (w : World ι) (relay : ι) (request : Request) (now : Moment) :
    Outcome ι × World ι :=
  match request with
  | .send message =>
      match beginSend net.limits message now w.rows with
      | .error failure => (.answers relay request (.error failure), w)
      | .ok (some state, rows) =>
          (.answers relay request (.ok (.sent (some state) true)), { w with rows })
      | .ok (none, rows) =>
          (.asks message.inbound,
            { w with
              rows
              sending := Function.update w.sending relay true
              frames := .send relay w.rows message now :: w.frames })
  | .receive value =>
      match enter w.rows now with
      | .error failure => (.answers relay request (.error failure), w)
      | .ok rows =>
          (.answers relay request (Except.map (fun states => .states (received value states))
            (statesUnsafe rows)), { w with rows })
  | .acknowledge value =>
      match acknowledgeUnsafe value.messageId value.recipientId now w.rows with
      | .error failure => (.answers relay request (.error failure), w)
      | .ok (some state, rows) => (.answers relay request (.ok (.acknowledged state)), { w with rows })
      | .ok (none, rows) =>
          (.answers relay request (.error (.transport "message cannot be acknowledged" .ackInvalid)),
            { w with rows })
  | .flushHeld value =>
      match beginFlush value.recipientId now w.rows with
      | .error failure => (.answers relay request (.error failure), w)
      | .ok ([], rows) => (.answers relay request (.ok (.states [])), { w with rows })
      | .ok (state :: rest, rows) =>
          (.asks state.message.inbound,
            { w with rows, frames := .flush relay w.rows value now state rest [] :: w.frames })

def Network.call (net : Network ι) (w : World ι) (relay : ι) (request : Request)
    (clock : Option Moment) : Outcome ι × World ι :=
  match admitted (net.principal relay) (w.sending relay) request with
  | .error failure => (.answers relay request (.error failure), w)
  | .ok _ =>
      match relayNow (w.lastNowMs relay) clock with
      | .error failure => (.answers relay request (.error failure), w)
      | .ok now =>
          net.perform { w with lastNowMs := Function.update w.lastNowMs relay (some now.ms) } relay
            request now

def World.expire (w : World ι) (now : Option Moment) : Outcome ι × World ι :=
  match now with
  | none => (.expires (.error (invalid "expiration time must be canonical UTC")), w)
  | some now =>
      match enter w.rows now with
      | .error failure => (.expires (.error failure), w)
      | .ok rows => (.expires (.ok ()), { w with rows })

/-- A decision on the message that a flush asked about: the next question, or the answer. -/
def World.flushNext (w : World ι) (relay : ι) (savepoint : List Row) (request : FlushRequest) (now : Moment)
    (rest outcomes : List MessageState) : Except Failure (Option MessageState × List Row) →
    Outcome ι × World ι
  | .error failure => (.answers relay (.flushHeld request) (.error failure), { w with rows := savepoint })
  | .ok (found, rows) =>
      match rest with
      | [] =>
          (.answers relay (.flushHeld request) (.ok (.states (outcomes ++ found.toList))), { w with rows })
      | next :: rest =>
          (.asks next.message.inbound,
            { w with
              rows
              frames := .flush relay savepoint request now next rest (outcomes ++ found.toList) :: w.frames })

/-- The failure of a policy that did not decide. -/
def Verdict.decision : Verdict → Except Failure Decision
  | .decided decision => .ok decision
  | .unknown => .error (invalid "inbound policy returned an invalid decision")
  | .throws => .error .policy

/-- The end of the policy that was asked last. -/
def Network.decide (net : Network ι) (w : World ι) (verdict : Verdict) : Outcome ι × World ι :=
  match w.frames with
  | [] => (.idle, w)
  | .send relay savepoint message now :: frames =>
      let w := { w with sending := Function.update w.sending relay false, frames }
      match verdict.decision >>= fun decision => finishSend net.limits message now decision w.rows with
      | .error failure =>
          (.answers relay (.send message) (.error failure), { w with rows := savepoint })
      | .ok (found, rows) => (.answers relay (.send message) (.ok (.sent found false)), { w with rows })
  | .flush relay savepoint request now state rest outcomes :: frames =>
      { w with frames }.flushNext relay savepoint request now rest outcomes
        (verdict.decision >>= fun decision => flushOne now state decision w.rows)

def Network.step (net : Network ι) (w : World ι) : Event ι → Outcome ι × World ι
  | .call relay request clock => net.call w relay request clock
  | .expire now => w.expire now
  | .decide verdict => net.decide w verdict

/-- The world after any calls and decisions, in the order in which they happened. -/
def Network.after (net : Network ι) (events : List (Event ι)) : World ι :=
  events.foldl (fun w event => (net.step w event).2) (World.initial ι)

end Hseos.Messages
