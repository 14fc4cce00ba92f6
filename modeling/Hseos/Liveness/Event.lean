import Mathlib.Data.List.Basic
import Mathlib.Algebra.Ring.Nat
import Mathlib.Algebra.Ring.Int.Defs

/-! # Liveness events

The ledger's rows of one table: what the agents declare and what the watchdog records.
Instants are milliseconds since the epoch.
-/

namespace Hseos.Liveness

/-! ## What an agent declares -/

/-- `LIVENESS_STATES`. -/
inductive DeclaredState where
  | done
  | blocked
  | failed
  | waitingOn
  deriving DecidableEq

/-- The state's word. -/
def DeclaredState.text : DeclaredState → String
  | .done => "DONE"
  | .blocked => "BLOCKED"
  | .failed => "FAILED"
  | .waitingOn => "WAITING_ON"

inductive WakeVia where
  | commander
  | human
  deriving DecidableEq

/-- A wait that passed the schema: its deadline is a date. -/
structure WaitingOn where
  condition : String
  wakeVia : WakeVia
  deadlineAt : String
  /-- `Date.parse(deadline_at)`. -/
  deadlineMs : Int
  deriving DecidableEq

structure Declaration where
  state : DeclaredState
  reason : String
  evidence : Option String
  waitingOn : Option WaitingOn
  deriving DecidableEq

/-- What the declaration can be compared with in the world. -/
structure Truth where
  worktree : Option String
  head : Option String
  pid : Option Int
  statusFile : Option String
  deriving DecidableEq

/-- The states of a classified run. -/
inductive RunState where
  | running
  | waitingOk
  | waitingOverdue
  | stalled
  | idleNoState
  | blocked
  | failed
  | done
  deriving DecidableEq

def RunState.text : RunState → String
  | .running => "running"
  | .waitingOk => "waiting_ok"
  | .waitingOverdue => "waiting_overdue"
  | .stalled => "stalled"
  | .idleNoState => "idle_no_state"
  | .blocked => "blocked"
  | .failed => "failed"
  | .done => "done"

/-- `REASON_CODES`. -/
inductive ReasonCode where
  | declared
  | noStateAtStop
  | invalidLivenessLine
  | backgroundTaskActive
  | foregroundCapExceeded
  | waitDeadlineExceeded
  | wakeExhausted
  | evidenceUnverified
  | blockedPending
  | guardInternalError
  | stallNoActivity
  | heartbeatLeaseExpired
  | waitingOnDeclared
  deriving DecidableEq

/-- The reason of an `overdue` event. -/
inductive OverdueReason where
  | leaseExpired
  | wakeExhausted
  | waitingOnHuman
  /-- A state that a person was told of. -/
  | toldOf (state : RunState)
  deriving DecidableEq

def OverdueReason.text : OverdueReason → String
  | .leaseExpired => "lease_expired"
  | .wakeExhausted => "wake_exhausted"
  | .waitingOnHuman => "waiting_on_human"
  | .toldOf state => state.text

/-! ## Events -/

/-- The kinds of events with what their payloads say. -/
inductive Body where
  | heartbeat (truth : Option Truth)
  | turnEnd (truth : Option Truth)
  | waitDeclared (wait : WaitingOn)
  /-- With the key of the parked line that the report comes from. -/
  | report (value : Declaration) (truth : Option Truth) (sourceKey : Option String)
  | wakeSent (attempt : Nat) (state : RunState) (reasonCode : ReasonCode) (reason : String)
  | idleViolation (state : RunState) (reasonCode : ReasonCode) (detail : String)
  | overdue (reason : OverdueReason) (reasonCode : ReasonCode) (escalated notified : Bool)
  deriving DecidableEq

namespace Body

/-- `AGENT_KINDS`. -/
def isAgent : Body → Bool
  | .heartbeat _ | .turnEnd _ | .waitDeclared _ | .report .. => true
  | _ => false

/-- `ACTIVITY_KINDS`. -/
def isActivity : Body → Bool
  | .heartbeat _ | .waitDeclared _ | .report .. => true
  | _ => false

def isHeartbeat : Body → Bool
  | .heartbeat _ => true
  | _ => false

def isTurnEnd : Body → Bool
  | .turnEnd _ => true
  | _ => false

def isReport : Body → Bool
  | .report .. => true
  | _ => false

/-- A report or a wait. -/
def isDeclaration : Body → Bool
  | .report .. | .waitDeclared _ => true
  | _ => false

def isWake : Body → Bool
  | .wakeSent .. => true
  | _ => false

/-- An `overdue` event that went to a person. -/
def isEscalation : Body → Bool
  | .overdue _ _ escalated _ => escalated
  | _ => false

def isNotice : Body → Bool
  | .overdue _ _ _ notified => notified
  | _ => false

def isIdleViolation : Body → Bool
  | .idleViolation .. => true
  | _ => false

def isLeaseExpired : Body → Bool
  | .overdue .leaseExpired .. => true
  | _ => false

/-- The escalation after the last wake. -/
def isExhaustion : Body → Bool
  | .overdue .wakeExhausted _ escalated _ => escalated
  | _ => false

def wait? : Body → Option WaitingOn
  | .waitDeclared wait => some wait
  | _ => none

def declaration? : Body → Option Declaration
  | .report value .. => some value
  | _ => none

def truth? : Body → Option Truth
  | .heartbeat truth | .turnEnd truth | .report _ truth _ => truth
  | _ => none

def sourceKey? : Body → Option String
  | .report _ _ sourceKey => sourceKey
  | _ => none

def wakeCode? : Body → Option ReasonCode
  | .wakeSent _ _ reasonCode _ => some reasonCode
  | _ => none

end Body

/-- An event of a run. -/
structure Event where
  id : Nat
  ts : Int
  body : Body
  deriving DecidableEq

/-- A row of `as_liveness_events`. -/
structure EventRow where
  session : String
  agent : String
  event : Event
  deriving DecidableEq

/-- The events of one agent of a session. -/
structure RawRun where
  session : String
  agent : String
  events : List Event

/-! ## Lists of events -/

def findLast (events : List Event) (predicate : Body → Bool) : Option Event :=
  events.reverse.find? fun event => predicate event.body

section

variable {events before after : List Event} {predicate : Body → Bool} {event : Event}

theorem findLast_eq_none_iff :
    findLast events predicate = none ↔ ∀ event ∈ events, predicate event.body = false := by
  simp [findLast]

/-- The last event that satisfies a predicate is the one with none after it. -/
theorem findLast_eq_some_iff :
    findLast events predicate = some event ↔ ∃ before after, events = before ++ event :: after ∧
      predicate event.body = true ∧ ∀ later ∈ after, predicate later.body = false := by
  rw [findLast, List.find?_eq_some_iff_append]
  constructor
  · rintro ⟨hevent, later, earlier, hevents, hlater⟩
    refine ⟨earlier.reverse, later.reverse, ?_, hevent, fun other hother => ?_⟩
    · rw [← List.reverse_reverse events, hevents]
      simp
    · simpa using hlater other (List.mem_reverse.mp hother)
  · rintro ⟨before, after, rfl, hevent, hafter⟩
    exact ⟨hevent, after.reverse, before.reverse, by simp, fun other hother => by
      simp [hafter other (List.mem_reverse.mp hother)]⟩

/-- Events that do not satisfy the predicate do not count. -/
theorem findLast_append_of_none (hafter : ∀ later ∈ after, predicate later.body = false) :
    findLast (before ++ after) predicate = findLast before predicate := by
  have hnone : after.reverse.find? (fun event => predicate event.body) = none := by
    simpa using hafter
  rw [findLast, List.reverse_append, List.find?_append, hnone]
  rfl

theorem findLast_append_cons (hafter : ∀ later ∈ after, predicate later.body = false) :
    findLast (before ++ event :: after) predicate =
      if predicate event.body then some event else findLast before predicate := by
  split
  next hevent => exact findLast_eq_some_iff.mpr ⟨before, after, rfl, hevent, hafter⟩
  next hevent =>
    apply findLast_append_of_none
    intro later hlater
    rcases List.mem_cons.mp hlater with rfl | hlater
    · exact Bool.eq_false_iff.mpr hevent
    · exact hafter later hlater

end

/-- The ids increase from one on. -/
def Ordered (events : List Event) : Prop := (0 :: events.map (·.id)).Pairwise (· < ·)

namespace Ordered

variable {events before after : List Event} {event : Event}

theorem pos_of_mem (h : Ordered events) (hevent : event ∈ events) : 0 < event.id :=
  (List.pairwise_cons.mp h).1 _ (List.mem_map_of_mem hevent)

theorem lt_of_mem_before (h : Ordered (before ++ event :: after)) :
    ∀ earlier ∈ before, earlier.id < event.id := by
  have hpairs := (List.pairwise_cons.mp h).2
  rw [List.map_append, List.pairwise_append] at hpairs
  exact fun earlier hearlier =>
    hpairs.2.2 _ (List.mem_map_of_mem hearlier) _ (List.mem_map_of_mem List.mem_cons_self)

theorem lt_of_mem_after (h : Ordered (before ++ event :: after)) :
    ∀ later ∈ after, event.id < later.id := by
  have hpairs := (List.pairwise_cons.mp h).2
  rw [List.map_append, List.pairwise_append, List.map_cons, List.pairwise_cons] at hpairs
  exact fun later hlater => hpairs.2.1.1 _ (List.mem_map_of_mem hlater)

/-- The events with a larger id are the later ones. -/
theorem filter_lt (h : Ordered (before ++ event :: after)) :
    (before ++ event :: after).filter (event.id < ·.id) = after := by
  rw [List.filter_append, List.filter_cons_of_neg (by simp)]
  have hbefore : before.filter (event.id < ·.id) = [] := by
    rw [List.filter_eq_nil_iff]
    intro earlier hearlier
    have := h.lt_of_mem_before earlier hearlier
    simp only [decide_eq_true_eq]
    omega
  have hafter : after.filter (event.id < ·.id) = after := by
    rw [List.filter_eq_self]
    exact fun later hlater => decide_eq_true (h.lt_of_mem_after later hlater)
  rw [hbefore, hafter, List.nil_append]

theorem mem_after (h : Ordered (before ++ event :: after)) {later : Event}
    (hlater : later ∈ before ++ event :: after) (hid : event.id < later.id) : later ∈ after := by
  rw [← h.filter_lt]
  exact List.mem_filter.mpr ⟨hlater, decide_eq_true hid⟩

theorem le_of_not_mem_after (h : Ordered (before ++ event :: after)) {other : Event}
    (hother : other ∈ before ++ event :: after) (hafter : other ∉ after) : other.id ≤ event.id :=
  Nat.le_of_not_lt fun hid => hafter (h.mem_after hother hid)

/-- No event of a kind has a larger id than the last one. -/
theorem le_findLast (h : Ordered events) {predicate : Body → Bool} {last : Event}
    (hlast : findLast events predicate = some last) (hevent : event ∈ events)
    (hpredicate : predicate event.body = true) : event.id ≤ last.id := by
  obtain ⟨before, after, rfl, -, hafter⟩ := findLast_eq_some_iff.mp hlast
  apply h.le_of_not_mem_after hevent
  intro hmem
  rw [hafter event hmem] at hpredicate
  cases hpredicate

end Ordered

end Hseos.Liveness
