import Hseos.Foundation.Run
import Mathlib.Data.List.Nodup
import Mathlib.Logic.Function.Basic

/-! # The escalation outbox

Any number of watchers deliver the queued escalations of one ledger. A delivery goes
from one read or write of the file, one notification or one statement to the next, and
the watchers take these steps in any order; each may stop for good after any of them.
Instants are milliseconds since the epoch.
-/

namespace Hseos.Liveness

/-! ## Rows and lines -/

structure EscalationEntry where
  session : String
  agent : String
  state : String
  cause : String
  escalateTo : String
  detail : String
  blockedAgeS : Option Nat
  createdAt : Int
  deriving DecidableEq

/-- What `enqueue` puts in a row. -/
structure OutboxItem where
  kind : String
  entry : EscalationEntry
  title : String
  deriving DecidableEq

structure OutboxRow where
  id : Nat
  item : OutboxItem
  createdAt : Int
  deliveredAt : Option Int
  attempts : Nat
  nextAttemptAt : Option Int
  gaveUpAt : Option Int
  lastError : Option String
  deriving DecidableEq

/-- A line of `escalations.jsonl`. -/
structure EscalationLine where
  outboxId : Nat
  entry : EscalationEntry
  deriving DecidableEq

/-- What a delivery reads of a pending row. -/
structure PendingRow where
  id : Nat
  item : OutboxItem
  attempts : Nat
  deriving DecidableEq

namespace PendingRow

def line (row : PendingRow) : EscalationLine := ⟨row.id, row.item.entry⟩

end PendingRow

/-! ## Deliveries -/

/-- Where a watcher is in `deliverOutbox`: before which step, with the instant of the call, the
row in hand and the rows after it. -/
inductive Progress where
  | idle
  | pruning (now : Int)
  | selecting (now : Int)
  /-- At the head of the loop. -/
  | turning (now : Int) (rest : List PendingRow)
  /-- Before `escalationLineExists`. -/
  | checking (now : Int) (row : PendingRow) (rest : List PendingRow)
  | appending (now : Int) (row : PendingRow) (rest : List PendingRow)
  | notifying (now : Int) (row : PendingRow) (rest : List PendingRow)
  /-- Before the row is marked as delivered. -/
  | marking (now : Int) (row : PendingRow) (rest : List PendingRow)
  /-- In the handler of an error. -/
  | failing (now : Int) (row : PendingRow) (rest : List PendingRow) (message : String)
  deriving DecidableEq

namespace Progress

/-- The rows that the watcher has read and not finished, the one in hand first. -/
def rows : Progress → List PendingRow
  | idle | pruning _ | selecting _ => []
  | turning _ rest => rest
  | checking _ row rest | appending _ row rest | notifying _ row rest | marking _ row rest
  | failing _ row rest _ => row :: rest

end Progress

/-- The ledger's outbox, the file, and the watchers. -/
structure Outbox (ι : Type) where
  rows : List OutboxRow
  /-- The last number of `AUTOINCREMENT`. -/
  lastId : Nat
  lines : List EscalationLine
  /-- The rows of which a notification was shown, oldest first. -/
  notified : List Nat
  progress : ι → Progress

/-- A step. What may throw comes with the message of its error, if it does. -/
inductive OutboxAction (ι : Type) where
  | enqueue (item : OutboxItem) (now : Int)
  | start (watcher : ι) (now : Int)
  | prune (watcher : ι) (error : Option String)
  | select (watcher : ι) (error : Option String)
  /-- The next row, unless the time budget is spent. -/
  | turn (watcher : ι) (inBudget : Bool)
  /-- Reads the file; an unreadable file has no lines. -/
  | check (watcher : ι) (readable : Bool)
  | append (watcher : ι) (error : Option String)
  | notify (watcher : ι) (error : Option String)
  | mark (watcher : ι) (error : Option String)
  | giveUpOrRetry (watcher : ι) (error : Option String)
  | crash (watcher : ι)
  deriving DecidableEq

def notifyBatch : Nat := 10

def outboxRetentionMs : Int := 7 * 86400 * 1000

/-- The delay before the next attempt, in seconds. -/
def notifyDelayS (attempts : Nat) : Nat := min 3600 (60 * 2 ^ (attempts - 1))

namespace OutboxRow

/-- The row is one that `DELETE` takes: it was settled long ago. -/
def expired (cutoff : Int) (row : OutboxRow) : Bool :=
  row.deliveredAt.any (· < cutoff) || row.gaveUpAt.any (· < cutoff)

/-- The row is one that `SELECT` takes. -/
def pending (stamp : Int) (row : OutboxRow) : Bool :=
  row.deliveredAt.isNone && row.gaveUpAt.isNone && row.nextAttemptAt.all (· ≤ stamp)

def toPending (row : OutboxRow) : PendingRow := ⟨row.id, row.item, row.attempts⟩

/-- The row after a notification that failed. -/
def afterFailure (maxAttempts : Nat) (now : Int) (attempts : Nat) (message : String)
    (row : OutboxRow) : OutboxRow :=
  if maxAttempts ≤ attempts then
    { row with attempts := attempts, gaveUpAt := some now, lastError := some message }
  else
    { row with
      attempts := attempts
      nextAttemptAt := some (now + notifyDelayS attempts * 1000)
      lastError := some message }

/-- The row after it was delivered. -/
def afterDelivery (now : Int) (row : OutboxRow) : OutboxRow :=
  { row with deliveredAt := some now, lastError := none }

end OutboxRow

namespace Outbox

variable {ι : Type}

def initial : Outbox ι := ⟨[], 0, [], [], fun _ => .idle⟩

def hasLine (s : Outbox ι) (id : Nat) : Bool := s.lines.any (·.outboxId = id)

/-- The rows that `SELECT` returns. -/
def batch (s : Outbox ι) (stamp : Int) : List PendingRow :=
  ((s.rows.filter (·.pending stamp)).take notifyBatch).map (·.toPending)

def updateRow (s : Outbox ι) (id : Nat) (change : OutboxRow → OutboxRow) : Outbox ι :=
  { s with rows := s.rows.map fun row => if row.id = id then change row else row }

variable [DecidableEq ι]

def goTo (s : Outbox ι) (watcher : ι) (progress : Progress) : Outbox ι :=
  { s with progress := Function.update s.progress watcher progress }

def step (maxAttempts : Nat) (s : Outbox ι) : OutboxAction ι → Except Disabled (Outbox ι)
  | .enqueue item now =>
      let row : OutboxRow := ⟨s.lastId + 1, item, now, none, 0, none, none, none⟩
      .ok { s with rows := s.rows ++ [row], lastId := s.lastId + 1 }
  | .start watcher now =>
      match s.progress watcher with
      | .idle => .ok (s.goTo watcher (.pruning now))
      | _ => .error .disabled
  | .prune watcher error =>
      match s.progress watcher, error with
      | .pruning now, none =>
          let kept := s.rows.filter fun row => !row.expired (now - outboxRetentionMs)
          .ok ({ s with rows := kept }.goTo watcher (.selecting now))
      | .pruning _, some _ => .ok (s.goTo watcher .idle)
      | _, _ => .error .disabled
  | .select watcher error =>
      match s.progress watcher, error with
      | .selecting now, none => .ok (s.goTo watcher (.turning now (s.batch now)))
      | .selecting _, some _ => .ok (s.goTo watcher .idle)
      | _, _ => .error .disabled
  | .turn watcher inBudget =>
      match s.progress watcher with
      | .turning now (row :: rest) =>
          .ok (s.goTo watcher (if inBudget then .checking now row rest else .idle))
      | .turning _ [] => .ok (s.goTo watcher .idle)
      | _ => .error .disabled
  | .check watcher readable =>
      match s.progress watcher with
      | .checking now row rest =>
          .ok (s.goTo watcher
            (if readable && s.hasLine row.id then .notifying now row rest
            else .appending now row rest))
      | _ => .error .disabled
  | .append watcher error =>
      match s.progress watcher, error with
      | .appending now row rest, none =>
          .ok ({ s with lines := s.lines ++ [row.line] }.goTo watcher (.notifying now row rest))
      | .appending now row rest, some message => .ok (s.goTo watcher (.failing now row rest message))
      | _, _ => .error .disabled
  | .notify watcher error =>
      match s.progress watcher, error with
      | .notifying now row rest, none =>
          .ok ({ s with notified := s.notified ++ [row.id] }.goTo watcher (.marking now row rest))
      | .notifying now row rest, some message => .ok (s.goTo watcher (.failing now row rest message))
      | _, _ => .error .disabled
  | .mark watcher error =>
      match s.progress watcher, error with
      | .marking now row rest, none =>
          .ok ((s.updateRow row.id (·.afterDelivery now)).goTo watcher (.turning now rest))
      | .marking now row rest, some message => .ok (s.goTo watcher (.failing now row rest message))
      | _, _ => .error .disabled
  | .giveUpOrRetry watcher error =>
      match s.progress watcher, error with
      | .failing now row rest message, none =>
          .ok ((s.updateRow row.id
            (·.afterFailure maxAttempts now (row.attempts + 1) message)).goTo watcher
              (.turning now rest))
      -- The handler's own statement threw: the call ends.
      | .failing .., some _ => .ok (s.goTo watcher .idle)
      | _, _ => .error .disabled
  | .crash watcher => .ok (s.goTo watcher .idle)

end Outbox

end Hseos.Liveness
