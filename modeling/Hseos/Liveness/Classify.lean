import Hseos.Liveness.Event

/-! # The classification of a run

The state of a run at an instant, computed from its events alone, and what the watchdog
may do about it.
-/

namespace Hseos.Liveness

structure Config where
  stallTimeoutS : Nat
  heartbeatTtlS : Nat
  maxWakeAttempts : Nat
  maxWakesPerCycle : Nat
  maxWaitDeadlineS : Nat
  escalateTo : String

def seconds (ms : Int) : Nat := (ms / 1000).toNat

structure Run where
  session : String
  agent : String
  state : RunState
  reported : Option DeclaredState
  lastEventAt : Int
  lastActivityAt : Option Int
  lastTurnEndAt : Option Int
  leaseExpiresAt : Option Int
  overdue : Bool
  violation : Bool
  wait : Option WaitingOn
  detail : String
  attempts : Nat
  lastWakeAt : Option Int
  escalated : Bool
  violationRecorded : Bool
  idleForS : Nat
  blockedAgeS : Option Nat
  terminalNotified : Bool
  stalledAfterTurnEnd : Bool
  wakeCodes : List ReasonCode
  lastWake : Option Event
  leaseOverdueRecorded : Bool

namespace RawRun

/-- The id after which the events of the current incident come. -/
def incidentStart (raw : RawRun) : Nat :=
  max (((findLast raw.events (·.isReport)).map (·.id)).getD 0)
    (((findLast raw.events (·.isEscalation)).map (·.id)).getD 0)

/-- The events since the last report and the last escalation. -/
def episode (raw : RawRun) : List Event := raw.events.filter (raw.incidentStart < ·.id)

/-- No heartbeat came after the last declaration. -/
def declCurrent (raw : RawRun) : Bool :=
  match findLast raw.events (·.isDeclaration) with
  | none => false
  | some lastDecl => (findLast raw.events (·.isHeartbeat)).all (·.id ≤ lastDecl.id)

/-- No agent event came after the last escalation. -/
def incidentClosed (raw : RawRun) : Bool :=
  match findLast raw.events (·.isEscalation) with
  | none => false
  | some lastEscalation =>
      !raw.events.any fun event => event.body.isAgent && lastEscalation.id < event.id

/-- The last wait, or else the one of the last report. -/
def wait (raw : RawRun) : Option WaitingOn :=
  ((findLast raw.events (·.wait?.isSome)).bind (·.body.wait?)).or
    (((findLast raw.events (·.isReport)).bind (·.body.declaration?)).bind (·.waitingOn))

/-- Silence counts from the last activity, or from the first event of the agent. -/
def silentS (raw : RawRun) (now : Int) : Nat :=
  let reference := (findLast raw.events (·.isActivity)).or (raw.events.find? (·.body.isAgent))
  seconds (now - (reference.map (·.ts)).getD now)

end RawRun

/-- The record that the classification starts from. -/
def initialRun (raw : RawRun) (config : Config) (now : Int) (lastAgent : Event) : Run :=
  let lastActivity := findLast raw.events (·.isActivity)
  let lastReport := findLast raw.events (·.isReport)
  let wakes := raw.episode.filter (·.body.isWake)
  { session := raw.session
    agent := raw.agent
    state := .running
    reported := lastReport.bind fun event => event.body.declaration?.map (·.state)
    lastEventAt := lastAgent.ts
    lastActivityAt := lastActivity.map (·.ts)
    lastTurnEndAt := (findLast raw.events (·.isTurnEnd)).map (·.ts)
    leaseExpiresAt := lastActivity.map fun event => event.ts + config.heartbeatTtlS * 1000
    overdue := false
    violation := false
    wait := none
    detail := ""
    attempts := wakes.length
    lastWakeAt := wakes.getLast?.map (·.ts)
    escalated := raw.incidentClosed
    violationRecorded := raw.episode.any (·.body.isIdleViolation)
    idleForS := seconds (now - lastAgent.ts)
    blockedAgeS := none
    terminalNotified := false
    stalledAfterTurnEnd := false
    wakeCodes := raw.events.filterMap (·.body.wakeCode?)
    lastWake := wakes.getLast?
    leaseOverdueRecorded := raw.episode.any (·.body.isLeaseExpired) }

namespace Run

/-- A current declaration other than of a wait. -/
def declared (run : Run) (raw : RawRun) (now : Int) : Run :=
  let word := (run.reported.map (·.text)).getD "null"
  -- The age counts from the last report; without one the state is not terminal.
  let age := seconds (now - ((findLast raw.events (·.isReport)).map (·.ts)).getD now)
  let notified := raw.events.any fun event => event.body.isNotice &&
    (findLast raw.events (·.isDeclaration)).any (·.id < event.id)
  match run.reported with
  | some .blocked | some .failed =>
      { run with
        state := if run.reported = some .blocked then .blocked else .failed
        blockedAgeS := some age
        terminalNotified := notified
        detail := "declared " ++ word ++ " " ++ toString age ++ "s ago" }
  | _ => { run with state := .done, detail := "declared " ++ word }

/-- A current declaration of a wait. -/
def waiting (run : Run) (wait : Option WaitingOn) (now : Int) : Run :=
  match wait with
  | some wait =>
      if now < wait.deadlineMs then
        { run with
          wait := some wait
          state := .waitingOk
          detail := "waiting on \"" ++ wait.condition ++ "\" until " ++ wait.deadlineAt }
      else
        { run with
          wait := some wait
          state := .waitingOverdue
          overdue := true
          violation := true
          detail := "WAITING_ON \"" ++ wait.condition ++ "\" is " ++
            toString (seconds (now - wait.deadlineMs)) ++ "s past its deadline" }
  | none =>
      { run with
        state := .waitingOverdue
        overdue := true
        violation := true
        detail := "WAITING_ON \"?\" is missing its deadline" }

/-- The turn ended without a declaration. -/
def turnEnded (run : Run) (config : Config) (idleS : Nat) : Run :=
  if config.stallTimeoutS < idleS then
    { run with
      state := .stalled
      violation := true
      overdue := true
      stalledAfterTurnEnd := true
      detail := "no new event for " ++ toString idleS ++ "s after the turn ended (stall_timeout_s=" ++
        toString config.stallTimeoutS ++ ")" }
  else
    { run with
      state := .idleNoState
      violation := true
      detail := "turn ended " ++ toString idleS ++ "s ago without a valid LIVENESS declaration" }

/-- In the middle of a turn. -/
def midTurn (run : Run) (config : Config) (silentS : Nat) : Run :=
  if config.stallTimeoutS < silentS then
    { run with
      state := .stalled
      overdue := true
      violation := true
      detail := "no activity for " ++ toString silentS ++ "s mid-turn (stall_timeout_s=" ++
        toString config.stallTimeoutS ++ ")" }
  else if config.heartbeatTtlS < silentS then
    { run with
      overdue := true
      violation := true
      detail := "heartbeat lease lapsed " ++ toString (silentS - config.heartbeatTtlS) ++
        "s ago (heartbeat_ttl_s=" ++ toString config.heartbeatTtlS ++ "); not proof of death" }
  else
    { run with detail := "active " ++ toString silentS ++ "s ago" }

end Run

/-- Nothing is said of a run without an event of its agent. -/
def classifyCore (raw : RawRun) (config : Config) (now : Int) : Option Run :=
  match findLast raw.events (·.isAgent) with
  | none => none
  | some lastAgent =>
      let run := initialRun raw config now lastAgent
      if raw.declCurrent then
        some (if run.reported = some .waitingOn then run.waiting raw.wait now
          else run.declared raw now)
      else
        match findLast raw.events (·.isTurnEnd) with
        | some lastTurnEnd =>
            if (findLast raw.events (·.isActivity)).all (·.id < lastTurnEnd.id) then
              some (run.turnEnded config (seconds (now - lastTurnEnd.ts)))
            else some (run.midTurn config (raw.silentS now))
        | none => some (run.midTurn config (raw.silentS now))

def reasonCodeFor (run : Run) : ReasonCode :=
  match run.state with
  | .idleNoState => .noStateAtStop
  | .waitingOverdue => .waitDeadlineExceeded
  | .blocked => .blockedPending
  | .stalled => if run.stalledAfterTurnEnd then .noStateAtStop else .stallNoActivity
  | .waitingOk => .waitingOnDeclared
  | _ => if run.overdue then .heartbeatLeaseExpired else .declared

/-- A classified run with its reason code. -/
def classifyRun (raw : RawRun) (config : Config) (now : Int) : Option (Run × ReasonCode) :=
  (classifyCore raw config now).map fun run => (run, reasonCodeFor run)

/-! ## Actions -/

/-- The seconds between a wake and what follows it. -/
def wakeDelayS (attempts : Nat) : Nat := min 300 (60 * 2 ^ (attempts - 1))

inductive WatchAction where
  | none
  | wake
  | escalate
  | notify
  deriving DecidableEq

def planAction (run : Run) (config : Config) (now : Int) : WatchAction :=
  let rested := run.lastWakeAt.all fun wakeAt => wakeDelayS run.attempts ≤ seconds (now - wakeAt)
  if run.state = .blocked ∨ run.state = .failed then
    if run.terminalNotified then .none else .notify
  else if run.violation = false ∨ run.escalated then .none
  else if (run.wait.map (·.wakeVia)) = some .human then .escalate
  else if run.attempts < config.maxWakeAttempts then
    if run.attempts = 0 ∨ rested then .wake else .none
  else if rested then .escalate else .none

end Hseos.Liveness
