import Hseos.Foundation.Run
import Hseos.Foundation.Unique
import Hseos.Liveness.Classify
import Hseos.Liveness.Outbox

/-! # The watchdog

A cycle looks at the world for every run that is in violation and then, in one
transaction, decides for every run what to record. Watchers and agents write to the same
ledger in between.
-/

namespace Hseos.Liveness

/-! ## The ledger -/

/-- The rows of `as_liveness_events`, oldest first. -/
structure Ledger where
  rows : List EventRow

namespace Ledger

def recordEvent (db : Ledger) (session agent : String) (body : Body) (now : Int) : Ledger :=
  ⟨db.rows ++ [⟨session, agent, ⟨db.rows.length + 1, now, body⟩⟩]⟩

/-- The report, and the wait that it declares. -/
def recordReport (db : Ledger) (session agent : String) (value : Declaration) (truth : Option Truth)
    (sourceKey : Option String) (now : Int) : Ledger :=
  let reported := db.recordEvent session agent (.report value truth sourceKey) now
  match value.waitingOn with
  | none => reported
  | some wait => reported.recordEvent session agent (.waitDeclared wait) now

def eventsOf (db : Ledger) (key : String × String) : List Event :=
  (db.rows.filter fun row => (row.session, row.agent) = key).map (·.event)

def lookbackMs : Int := 7 * 86400 * 1000

/-- The runs with an event of the last days, in the order of their first events. -/
def loadRuns (db : Ledger) (now : Int) : List RawRun :=
  let keys := (unique (db.rows.map fun row => (row.session, row.agent))).filter fun key =>
    (db.eventsOf key).any fun event => now - lookbackMs ≤ event.ts
  keys.map fun key => ⟨key.1, key.2, db.eventsOf key⟩

end Ledger

/-! ## Reconciliation -/

/-- The world as a cycle sees it. -/
structure WatchIo where
  readHead : String → Option String
  isPidAlive : Int → Bool
  /-- The file exists. -/
  statFile : String → Bool

/-- What a cycle sees within its transaction without an observation from before. -/
def inertIo : WatchIo := ⟨fun _ => none, fun _ => true, fun _ => false⟩

structure Reconcile where
  active : Bool
  conditionMet : Bool
  /-- The worktree's head when it was read. -/
  current : Option String
  deriving DecidableEq

def findTruth (events : List Event) : Option Truth :=
  (findLast events (·.truth?.isSome)).bind (·.body.truth?)

def reconcileRun (truth : Option Truth) (io : WatchIo) : Reconcile :=
  match truth with
  | none => ⟨false, false, none⟩
  | some truth =>
      let current := match truth.worktree, truth.head with
        | some worktree, some _ => io.readHead worktree
        | _, _ => none
      { active := current.isSome && decide (current ≠ truth.head)
        conditionMet := truth.pid.any (fun pid => !io.isPidAlive pid) || truth.statusFile.any io.statFile
        current := current }

/-- A classified run with what the cycle will do about it. -/
structure EvaluatedRun where
  run : Run
  reasonCode : ReasonCode
  truth : Option Truth
  reconcile : Option Reconcile
  action : WatchAction

def EvaluatedRun.key (item : EvaluatedRun) : String × String := (item.run.session, item.run.agent)

/-- What a cycle saw of the runs before its transaction. -/
abbrev Observed := String × String → Option Reconcile

/-- The run's agent or workflow ended, according to the ledger. -/
abbrev EndedRunStatus := String × String → Option String

/-- The classification after the world was looked at. -/
def Run.reconciled (run : Run) (ended : Option String) (reconcile : Reconcile) : Run :=
  match ended with
  | some ended =>
      { run with
        state := .done
        overdue := false
        violation := false
        detail := "reconciled: " ++ ended ++ " in the agent-state ledger; not woken" }
  | none =>
      if reconcile.active then
        { run with
          state := .running
          overdue := false
          violation := false
          detail := "reconciled: worktree HEAD moved since the last event, so the agent progressed" }
      else run

def evaluateRun (config : Config) (now : Int) (io : WatchIo) (reconcileCache : Option Observed)
    (endedRunStatus : EndedRunStatus) (raw : RawRun) : Option EvaluatedRun :=
  (classifyRun raw config now).map fun (run, reasonCode) =>
    let truth := findTruth raw.events
    if run.violation then
      let key := (raw.session, raw.agent)
      let fresh := reconcileRun truth (if reconcileCache.isSome then inertIo else io)
      let reconcile := (reconcileCache.bind (· key)).getD fresh
      let judged := run.reconciled (endedRunStatus key) reconcile
      ⟨judged, reasonCode, truth, some reconcile, planAction judged config now⟩
    else ⟨run, reasonCode, truth, none, planAction run config now⟩

def evaluateRuns (db : Ledger) (config : Config) (now : Int) (io : WatchIo)
    (reconcileCache : Option Observed) (endedRunStatus : EndedRunStatus) : List EvaluatedRun :=
  (db.loadRuns now).filterMap (evaluateRun config now io reconcileCache endedRunStatus)

/-- What the first evaluation leaves to the transaction. -/
def observe (evaluated : List EvaluatedRun) : Observed := fun key =>
  (evaluated.find? fun item => item.reconcile.isSome && decide (item.key = key)).bind (·.reconcile)

/-! ## The transaction of a cycle -/

/-- What the transaction has written so far. -/
structure Cycle where
  db : Ledger
  wakesThisCycle : Nat
  enqueued : List OutboxItem

namespace EvaluatedRun

def wakeReason (item : EvaluatedRun) (config : Config) (attempt : Nat) : String :=
  let met := if item.reconcile.any (·.conditionMet) then
    "the awaited condition appears satisfied (pid exited or status file present); " else ""
  item.run.state.text ++ ": " ++ item.run.detail ++ "; " ++ met ++ "attempt " ++
    toString attempt ++ "/" ++ toString config.maxWakeAttempts ++ "; message the agent asking it " ++
    "to continue or to declare DONE|BLOCKED|FAILED|WAITING_ON in a LIVENESS line"

/-- The cause of an escalation. -/
def cause (item : EvaluatedRun) : OverdueReason :=
  if (item.run.wait.map (·.wakeVia)) = some .human then .waitingOnHuman else .wakeExhausted

/-- The agent's own progress, which the worktree shows. -/
def progressBody (item : EvaluatedRun) : Body :=
  .heartbeat (some { item.truth.getD ⟨none, none, none, none⟩ with
    head := item.reconcile.bind (·.current) })

/-- The events that only say what was found. -/
def findings (item : EvaluatedRun) : List Body :=
  (if item.run.state = .running ∧ item.run.overdue ∧ item.run.leaseOverdueRecorded = false then
    [.overdue .leaseExpired item.reasonCode false false] else []) ++
  (if item.run.violation ∧ item.run.violationRecorded = false then
    [.idleViolation item.run.state item.reasonCode item.run.detail] else [])

def wakeBody (item : EvaluatedRun) (config : Config) : Body :=
  let attempt := item.run.attempts + 1
  .wakeSent attempt item.run.state item.reasonCode (item.wakeReason config attempt)

def escalateBody (item : EvaluatedRun) : Body :=
  .overdue item.cause
    (if item.cause = .wakeExhausted then .wakeExhausted else .waitDeadlineExceeded) true false

def notifyBody (item : EvaluatedRun) : Body :=
  .overdue (.toldOf item.run.state) item.reasonCode false true

/-- The entry of the escalation or the notification. -/
def entry (item : EvaluatedRun) (config : Config) (cause : OverdueReason) (now : Int) :
    EscalationEntry :=
  { session := item.run.session
    agent := item.run.agent
    state := item.run.state.text
    cause := cause.text
    escalateTo := config.escalateTo
    detail := item.run.detail
    blockedAgeS := if item.action = .notify then item.run.blockedAgeS else none
    createdAt := now }

end EvaluatedRun

namespace Cycle

def record (cycle : Cycle) (item : EvaluatedRun) (now : Int) (body : Body) : Cycle :=
  { cycle with db := cycle.db.recordEvent item.run.session item.run.agent body now }

def enqueue (cycle : Cycle) (item : OutboxItem) : Cycle :=
  { cycle with enqueued := cycle.enqueued ++ [item] }

/-- What the transaction does for one run. -/
def decideRun (config : Config) (now : Int) (cycle : Cycle) (item : EvaluatedRun) : Cycle :=
  if item.reconcile.any (·.active) then cycle.record item now item.progressBody
  else
    let found := item.findings.foldl (fun cycle body => cycle.record item now body) cycle
    match item.action with
    | .none => found
    | .wake =>
        -- A wake that is one too many is deferred.
        if config.maxWakesPerCycle ≤ found.wakesThisCycle then found
        else { found.record item now (item.wakeBody config) with
          wakesThisCycle := found.wakesThisCycle + 1 }
    | .escalate =>
        (found.record item now item.escalateBody).enqueue ⟨"escalation",
          item.entry config item.cause now,
          "HSEOS liveness: " ++ item.run.agent ++ " needs a human"⟩
    | .notify =>
        (found.record item now item.notifyBody).enqueue ⟨"notification",
          item.entry config (.toldOf item.run.state) now,
          "HSEOS liveness: " ++ item.run.agent ++ " is " ++ item.run.state.text⟩

end Cycle

/-- The transaction: the runs are decided in the order of their last events. -/
def decideRuns (db : Ledger) (config : Config) (now : Int) (observed : Observed)
    (endedRunStatus : EndedRunStatus) : Cycle :=
  let runs := evaluateRuns db config now inertIo (some observed) endedRunStatus
  (runs.mergeSort fun a b => a.run.lastEventAt ≤ b.run.lastEventAt).foldl (Cycle.decideRun config now)
    ⟨db, 0, []⟩

/-! ## Watchers and agents -/

/-- The ledger, what the watchers queued, and what each watcher saw before its transaction. -/
structure Watchers (ι : Type) where
  db : Ledger
  enqueued : List OutboxItem
  observed : ι → Option (Int × Observed)

inductive WatchStep (ι : Type) where
  /-- An event of an agent. -/
  | record (session agent : String) (body : Body) (now : Int)
  | report (session agent : String) (value : Declaration) (truth : Option Truth)
      (sourceKey : Option String) (now : Int)
  | observe (watcher : ι) (now : Int) (io : WatchIo) (endedRunStatus : EndedRunStatus)
  | decide (watcher : ι) (endedRunStatus : EndedRunStatus)
  /-- The watcher stops, or its transaction fails. -/
  | stop (watcher : ι)

namespace Watchers

variable {ι : Type} [DecidableEq ι]

def initial : Watchers ι := ⟨⟨[]⟩, [], fun _ => none⟩

def step (config : Config) (s : Watchers ι) : WatchStep ι → Except Disabled (Watchers ι)
  | .record session agent body now =>
      if body.isAgent then .ok { s with db := s.db.recordEvent session agent body now }
      else .error .disabled
  | .report session agent value truth sourceKey now =>
      .ok { s with db := s.db.recordReport session agent value truth sourceKey now }
  | .observe watcher now io endedRunStatus =>
      let seen := observe (evaluateRuns s.db config now io none endedRunStatus)
      .ok { s with observed := Function.update s.observed watcher (some (now, seen)) }
  | .decide watcher endedRunStatus =>
      match s.observed watcher with
      | none => .error .disabled
      | some (now, seen) =>
          let cycle := decideRuns s.db config now seen endedRunStatus
          .ok { db := cycle.db
                enqueued := s.enqueued ++ cycle.enqueued
                observed := Function.update s.observed watcher none }
  | .stop watcher => .ok { s with observed := Function.update s.observed watcher none }

end Watchers

end Hseos.Liveness
