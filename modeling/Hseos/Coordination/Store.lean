import Hseos.Foundation.IsoDate
import Hseos.Foundation.Run

/-! # The activity store

Sessions, their claims and the events about them, in one database of the machine.
Each call is one transaction: when it throws, nothing of it stays.
-/

namespace Hseos.Coordination

/-! ## Rows -/

structure ActivityRow where
  id : String
  tool : String
  host : Option String
  repo : Option String
  worktree : Option String
  branch : Option String
  base : Option String
  intent : Option String
  pathsDeclared : List String
  identifiersDeclared : List String
  startedMs : Int
  heartbeatMs : Int
  endedMs : Option Int
  deriving DecidableEq

structure ClaimRow where
  fence : Nat
  key : String
  kind : String
  owner : String
  acquiredMs : Int
  expiresMs : Int
  overdueMs : Option Int
  releasedMs : Option Int
  deriving DecidableEq

inductive ReasonCode where
  | registered
  | reregistered
  | resumed
  | declared
  | ended
  | ownerEnded
  | claimHeld
  | acquired
  | released
  | ttlExpired
  /-- The code of an event that a caller has recorded. -/
  | given (code : String)
  deriving DecidableEq

/-- The events that callers of the store derive and have recorded. -/
inductive Recorded where
  | activityWarning (message : String)
  | overlapDetected (other file severity : String)
  | versionConflict (key source detail : String)
  | overlapConflict (key heldBy heldKey : String)
  deriving DecidableEq

/-- The type of an event with what its payload says. -/
inductive EventPayload where
  | activityRegistered (tool : String) (repo branch : Option String)
  | activityHeartbeat (claimsRenewed : Nat)
  | activityDeclared (paths identifiers : List String)
  | activityEnded (claimsReleased : Nat)
  | reservationConflict (key heldBy : String) (fence : Nat) (overdue : Bool)
  | claimAcquired (key kind : String) (fence : Nat)
  | claimReleased (key : String) (fence : Nat)
  | claimOverdue (key : String) (fence : Nat) (expiresAt : String)
  | recorded (event : Recorded)
  deriving DecidableEq

structure EventRow where
  seq : Nat
  tsMs : Int
  payload : EventPayload
  reasonCode : ReasonCode
  activityId : Option String
  dedupeKey : Option String
  deriving DecidableEq

/-- The tables. Rows of claims and of events are never deleted. -/
structure MachineStore where
  activities : List ActivityRow
  claims : List ClaimRow
  events : List EventRow
  deriving DecidableEq

namespace ActivityRow

def active (row : ActivityRow) : Bool := row.endedMs.isNone

end ActivityRow

namespace ClaimRow

/-- The claim is held: `released_ms IS NULL`. -/
def held (row : ClaimRow) : Bool := row.releasedMs.isNone

end ClaimRow

/-! ## Views -/

inductive StoreFailure where
  /-- `toISOString` of an instant that no date can hold. -/
  | rangeError
  /-- The unique index on the keys of held claims. -/
  | constraint
  deriving DecidableEq

structure Activity where
  id : String
  tool : String
  host : Option String
  repo : Option String
  worktree : Option String
  branch : Option String
  base : Option String
  intent : Option String
  pathsDeclared : List String
  identifiersDeclared : List String
  startedAt : String
  heartbeatAt : String
  endedAt : Option String
  deriving DecidableEq

structure Claim where
  key : String
  kind : String
  owner : String
  fence : Nat
  acquiredAt : String
  expiresAt : String
  overdue : Bool
  released : Bool
  deriving DecidableEq

/-- `new Date(instant).toISOString()`. -/
def toISOString (instant : Int) : Except StoreFailure String :=
  if isDate instant then .ok (isoString instant) else .error .rangeError

/-- An end at instant zero reads as no end. -/
def toEndedAt : Option Int → Except StoreFailure (Option String)
  | none => .ok none
  | some 0 => .ok none
  | some instant => (toISOString instant).map some

def toActivity (row : ActivityRow) : Except StoreFailure Activity := do
  let startedAt ← toISOString row.startedMs
  let heartbeatAt ← toISOString row.heartbeatMs
  let endedAt ← toEndedAt row.endedMs
  return ⟨row.id, row.tool, row.host, row.repo, row.worktree, row.branch, row.base, row.intent,
    row.pathsDeclared, row.identifiersDeclared, startedAt, heartbeatAt, endedAt⟩

def toClaim (row : ClaimRow) : Except StoreFailure Claim := do
  let acquiredAt ← toISOString row.acquiredMs
  let expiresAt ← toISOString row.expiresMs
  return ⟨row.key, row.kind, row.owner, row.fence, acquiredAt, expiresAt, row.overdueMs.isSome,
    row.releasedMs.isSome⟩

/-! ## Calls -/

/-- What a call reads from the clock of its store. -/
structure Clock where
  /-- The reading for the rows that the call writes. -/
  now : Int
  /-- The reading for the event of a sequence number. -/
  stamp : Nat → Int

structure Registration where
  id : String
  tool : String
  host : Option String
  repo : Option String
  worktree : Option String
  branch : Option String
  base : Option String
  intent : Option String
  pathsDeclared : List String
  identifiersDeclared : List String
  deriving DecidableEq

/-- The conflict that a refused reservation reports. -/
structure Conflict where
  heldBy : String
  fence : Nat
  overdue : Bool
  expiresAt : String
  deriving DecidableEq

inductive Answer where
  | registered (activity : Option Activity)
  | renewed (claims : Nat)
  | declared (activity : Option Activity)
  | ended (claims : Nat)
  | reserved (renewed : Bool) (claim : Claim)
  | claimHeld (conflict : Conflict)
  | released
  | staleFence (current : Option Nat)
  | overdue (claims : List Claim)
  | unknownActivity
  | recorded (seq : Option Nat)
  deriving DecidableEq

/-- A transaction: an answer and the tables that it commits. -/
abbrev Transaction := Except StoreFailure (Answer × MachineStore)

namespace MachineStore

variable (s : MachineStore) (clock : Clock)

def initial : MachineStore := ⟨[], [], []⟩

/-- `event`: an event with a key that an earlier one has is not recorded again. -/
def event (payload : EventPayload) (reasonCode : ReasonCode) (activityId : Option String)
    (dedupeKey : Option String) : MachineStore :=
  if dedupeKey.isSome && s.events.any (·.dedupeKey = dedupeKey) then s
  else
    let seq := s.events.length + 1
    { s with events := s.events ++
        [⟨seq, clock.stamp seq, payload, reasonCode, activityId, dedupeKey⟩] }

/-- `recordEvent`: an event that a caller derived, once for each key. -/
def recordEvent (event : Recorded) (code activityId dedupeKey : String) : Transaction :=
  let next := s.event clock (.recorded event) (.given code) (some activityId) (some dedupeKey)
  .ok (.recorded (if next.events.length = s.events.length then none else some next.events.length),
    next)

def updateActivity (id : String) (change : ActivityRow → ActivityRow) : MachineStore :=
  { s with activities := s.activities.map fun row => if row.id = id then change row else row }

def updateClaims (which : ClaimRow → Bool) (change : ClaimRow → ClaimRow) : MachineStore :=
  { s with claims := s.claims.map fun row => if which row then change row else row }

def findActivity (id : String) : Option ActivityRow := s.activities.find? (·.id = id)

/-- The activity, when it has not ended. -/
def findActive (id : String) : Option ActivityRow :=
  s.activities.find? fun row => row.id = id && row.active

/-- The held claim of a key. -/
def findHeld (key : String) : Option ClaimRow :=
  s.claims.find? fun row => row.key = key && row.held

def get (id : String) : Except StoreFailure (Option Activity) :=
  match s.findActivity id with
  | none => .ok none
  | some row => (toActivity row).map some

/-! ### Sessions -/

/-- The row of a new session. -/
def newActivity (activity : Registration) : ActivityRow :=
  ⟨activity.id, activity.tool, activity.host, activity.repo, activity.worktree, activity.branch,
    activity.base, activity.intent, activity.pathsDeclared, activity.identifiersDeclared, clock.now,
    clock.now, none⟩

/-- The row of a session that registers again: it is active again and keeps what it declared. -/
def reregister (activity : Registration) (row : ActivityRow) : ActivityRow :=
  { row with
    tool := activity.tool
    host := activity.host
    repo := activity.repo
    worktree := activity.worktree
    branch := activity.branch
    base := activity.base
    intent := activity.intent.or row.intent
    heartbeatMs := clock.now
    endedMs := none }

def upsertActivity (activity : Registration) : MachineStore :=
  if (s.findActivity activity.id).isSome then
    s.updateActivity activity.id (reregister clock activity)
  else { s with activities := s.activities ++ [newActivity clock activity] }

def register (activity : Registration) : Transaction := do
  let reason := if (s.findActivity activity.id).isSome then .reregistered else .registered
  let next := (s.upsertActivity clock activity).event clock
    (.activityRegistered activity.tool activity.repo activity.branch) reason (some activity.id) none
  let view ← next.get activity.id
  return (.registered view, next)

/-- The held claims of an owner. -/
def heldBy (owner : String) (row : ClaimRow) : Bool := row.owner = owner && row.held

/-- `expires_ms = ?, overdue_ms = NULL`. -/
def renew (expiresMs : Int) (row : ClaimRow) : ClaimRow :=
  { row with expiresMs := expiresMs, overdueMs := none }

/-- A session that was silent for longer than the store allows comes back. -/
def resumed (staleMs : Option Int) (row : ActivityRow) : Bool :=
  staleMs.any fun stale => stale < clock.now - row.heartbeatMs

def heartbeat (staleMs : Option Int) (id : String) (ttlS : Int) : Transaction :=
  match s.findActive id with
  | none => .ok (.unknownActivity, s)
  | some row =>
      let renewed := s.claims.countP (heldBy id)
      let next := (s.updateActivity id fun row => { row with heartbeatMs := clock.now }).updateClaims
        (heldBy id) (renew (clock.now + ttlS * 1000))
      let last := if resumed clock staleMs row then
          next.event clock (.activityHeartbeat renewed) .resumed (some id) none
        else next
      .ok (.renewed renewed, last)

/-- `[...new Set([...current, ...extra])]`. -/
def merge (current extra : List String) : List String :=
  (current ++ extra).foldl (fun seen value => if value ∈ seen then seen else seen ++ [value]) []

def declare (id : String) (paths identifiers : List String) (intent : Option String) :
    Transaction :=
  match s.findActive id with
  | none => .ok (.unknownActivity, s)
  | some row => do
      let next := (s.updateActivity id fun old => { old with
          pathsDeclared := merge row.pathsDeclared paths
          identifiersDeclared := merge row.identifiersDeclared identifiers
          intent := intent.or old.intent
          heartbeatMs := clock.now }).event clock (.activityDeclared paths identifiers) .declared
        (some id) none
      let view ← next.get id
      return (.declared view, next)

/-- `end`: the claims of the session are released with it. -/
def endActivity (id : String) : Transaction :=
  match s.findActive id with
  | none => .ok (.unknownActivity, s)
  | some _ =>
      let ended := s.updateActivity id fun row =>
        if row.active then { row with endedMs := some clock.now } else row
      let held := s.claims.filter (heldBy id)
      let released := ended.updateClaims (heldBy id) fun row =>
        { row with releasedMs := some clock.now }
      let told := held.foldl (fun next row =>
        next.event clock (.claimReleased row.key row.fence) .ownerEnded (some id) none) released
      .ok (.ended held.length,
        told.event clock (.activityEnded held.length) .ended (some id) none)

/-! ### Claims -/

/-- The claim is refused because another session holds the key. -/
def refuse (owner key : String) (held : ClaimRow) : Transaction := do
  let holder ← toClaim held
  let next := s.event clock (.reservationConflict key held.owner held.fence holder.overdue) .claimHeld
    (some owner)
    (some ("conflict:" ++ key ++ ":" ++ owner ++ ":" ++ toString held.fence))
  return (.claimHeld ⟨held.owner, held.fence, holder.overdue, holder.expiresAt⟩, next)

/-- `INSERT INTO claims`, with the next number of `AUTOINCREMENT`. -/
def insertClaim (owner kind key : String) (ttlS : Int) :
    Except StoreFailure (ClaimRow × MachineStore) := do
  reject (s.claims.any fun row => row.key = key && row.held) .constraint
  let row : ClaimRow := ⟨s.claims.length + 1, key, kind, owner, clock.now, clock.now + ttlS * 1000,
    none, none⟩
  return (row, { s with claims := s.claims ++ [row] })

def acquire (owner kind key : String) (ttlS : Int) : Transaction := do
  let (row, inserted) ← s.insertClaim clock owner kind key ttlS
  let next := inserted.event clock (.claimAcquired key kind row.fence) .acquired (some owner) none
  let view ← toClaim row
  return (.reserved false view, next)

/-- `reserve`: a key that another session holds is a conflict, also when its lease is overdue. -/
def reserve (owner kind key : String) (ttlS : Int) : Transaction :=
  match s.findActive owner with
  | none => .ok (.unknownActivity, s)
  | some _ =>
      match s.findHeld key with
      | none => s.acquire clock owner kind key ttlS
      | some held =>
          if held.owner = owner then do
            let view ← toClaim (renew (clock.now + ttlS * 1000) held)
            return (.reserved true view,
              s.updateClaims (·.fence = held.fence) (renew (clock.now + ttlS * 1000)))
          else s.refuse clock owner key held

/-- The held claim that a release names. -/
def named (key : String) (fence : Int) (row : ClaimRow) : Bool :=
  row.key = key && row.fence = fence && row.held

def release (key : String) (fence : Int) : Transaction :=
  if s.claims.any (named key fence) then
    let next := s.updateClaims (named key fence) fun row =>
      { row with releasedMs := some clock.now }
    .ok (.released, next.event clock (.claimReleased key fence.toNat) .released none none)
  else .ok (.staleFence ((s.findHeld key).map (·.fence)), s)

/-- A held claim past its expiry that is not flagged yet. -/
def lapsed (row : ClaimRow) : Bool :=
  row.held && row.overdueMs.isNone && row.expiresMs < clock.now

/-- One turn of the loop of `sweepOverdue`. -/
def flagOverdue (row : ClaimRow) : Except StoreFailure MachineStore := do
  let expiresAt ← toISOString row.expiresMs
  let flagged := s.updateClaims (·.fence = row.fence) fun row =>
    { row with overdueMs := some clock.now }
  return flagged.event clock (.claimOverdue row.key row.fence expiresAt) .ttlExpired (some row.owner)
    none

/-- `listClaims`. -/
def listClaims : Except StoreFailure (List Claim) := (s.claims.filter (·.held)).mapM toClaim

def sweepOverdue : Transaction := do
  let rows := s.claims.filter (lapsed clock)
  let next ← rows.foldlM (fun next row => next.flagOverdue clock row) s
  let views ← rows.mapM toClaim
  return (.overdue views, next)

end MachineStore

/-! ## Runs -/

inductive Operation where
  | register (activity : Registration)
  | heartbeat (id : String) (ttlS : Int)
  | declare (id : String) (paths identifiers : List String) (intent : Option String)
  | endActivity (id : String)
  | reserve (owner kind key : String) (ttlS : Int)
  | release (key : String) (fence : Int)
  | sweepOverdue
  | recordEvent (event : Recorded) (code activityId dedupeKey : String)
  deriving DecidableEq

/-- A call of an operation, with the readings of the clock of its store and the silence after
which that store takes a session for stale. -/
structure Call where
  operation : Operation
  clock : Clock
  staleMs : Option Int

namespace MachineStore

def transaction (s : MachineStore) (call : Call) : Transaction :=
  match call.operation with
  | .register activity => s.register call.clock activity
  | .heartbeat id ttlS => s.heartbeat call.clock call.staleMs id ttlS
  | .declare id paths identifiers intent => s.declare call.clock id paths identifiers intent
  | .endActivity id => s.endActivity call.clock id
  | .reserve owner kind key ttlS => s.reserve call.clock owner kind key ttlS
  | .release key fence => s.release call.clock key fence
  | .sweepOverdue => s.sweepOverdue call.clock
  | .recordEvent event code activityId dedupeKey =>
      s.recordEvent call.clock event code activityId dedupeKey

/-- The tables after a call: those that its transaction committed. -/
def step (s : MachineStore) (call : Call) : MachineStore :=
  match s.transaction call with
  | .ok (_, next) => next
  | .error _ => s

def after (s : MachineStore) (calls : List Call) : MachineStore := calls.foldl step s

end MachineStore

end Hseos.Coordination
