import Hseos.Coordination.Effects
import Hseos.Coordination.Key
import Hseos.Foundation.Attempt

/-! # The coordination service

Reservations and releases as sessions ask for them. Each use of the store is a
transaction of its own: what was committed stays when a later step throws.
-/

namespace Hseos.Coordination

structure Settings where
  kinds : List Kind
  ttlS : Nat
  /-- `enforce.publish_guard`. -/
  publishGuard : Bool

inductive VersionSource where
  | published
  | tag
  | candidate
  deriving DecidableEq

namespace VersionSource

def text : VersionSource → String
  | published => "published"
  | tag => "tag"
  | candidate => "candidate"

end VersionSource

structure VersionConflict where
  source : VersionSource
  detail : String
  deriving DecidableEq

/-- A held claim on other files that overlaps a path. -/
structure OverlapConflict where
  heldBy : String
  fence : Nat
  key : String
  overdue : Bool
  deriving DecidableEq

/-- What a reservation finds outside of the store: the clocks of its transactions, and what the
registry, the tags and the candidate file say of its version. -/
structure Surroundings where
  sweep : Clock
  reserve : Clock
  record : Clock
  versionConflicts : List VersionConflict

inductive Refusal where
  | invalidSession
  | invalidKey
  | kindNotEnabled
  | versionUnavailable (conflicts : List VersionConflict)
  | unknownActivity
  | invalidFence
  deriving DecidableEq

inductive Reply where
  | refused (reason : Refusal)
  | claimHeld (conflict : Conflict) (versions : List VersionConflict)
  | reserved (renewed : Bool) (claim : Claim) (versions : List VersionConflict)
      (overlaps : List OverlapConflict)
  deriving DecidableEq

/-- A call of the service over the store. -/
abbrev Service (α : Type) := Attempt MachineStore StoreFailure α

namespace Service

/-- A transaction of the store. -/
def commit (transaction : MachineStore → Transaction) : Service Answer := do
  let s ← get
  let (answer, next) ← liftM (transaction s)
  set next
  return answer

def recordEvent (clock : Clock) (event : Recorded) (code activityId dedupeKey : String) :
    Service Unit := do
  let _ ← commit fun s => s.recordEvent clock event code activityId dedupeKey
  return ()

def readActivity (id : String) : Service (Option Activity) := do
  let s ← get
  liftM (s.get id)

def readClaims : Service (List Claim) := do
  let s ← get
  liftM s.listClaims

/-- The sessions that are told of a conflict. -/
def notify (holders : List String) : Service Unit :=
  holders.eraseDups.forM fun holder => do
    let _ ← readActivity holder
    return ()

end Service

open Service

section

variable (casing : Casing)

/-- Whether a claim on a path of the same repository overlaps the path of a parsed key. -/
def overlaps (parsed : ParsedKey) (claim : Claim) : Bool :=
  match parseKey casing (chars claim.key) with
  | some other =>
      other.parts.getD 0 [] = parsed.parts.getD 0 [] &&
        globsOverlap (other.parts.getD 1 []) (parsed.parts.getD 1 [])
  | none => false

/-- `overlappingPathClaims`, of the claims that are listed. -/
def overlappingPathClaims (parsed : ParsedKey) (session : String) (claims : List Claim) :
    List OverlapConflict :=
  ((claims.filter fun claim =>
      claim.kind = "path" && claim.owner ≠ session && claim.key ≠ String.ofList parsed.key).filter
    (overlaps casing parsed)).map fun claim => ⟨claim.owner, claim.fence, claim.key, claim.overdue⟩

variable (settings : Settings) (around : Surroundings) (session : String)

def recordVersionConflict (parsed : ParsedKey) (conflict : VersionConflict) : Service Unit :=
  let key := String.ofList parsed.key
  recordEvent around.record (.versionConflict key conflict.source.text conflict.detail)
    (conflict.source.text ++ "_version") session
    ("conflict:" ++ key ++ ":" ++ session ++ ":" ++ conflict.source.text)

def recordOverlap (parsed : ParsedKey) (overlap : OverlapConflict) : Service Unit :=
  let key := String.ofList parsed.key
  recordEvent around.record (.overlapConflict key overlap.heldBy overlap.key) "claim_overlap" session
    ("conflict:" ++ key ++ ":" ++ session ++ ":" ++ toString overlap.fence)

/-- The overlaps that a granted reservation reports. -/
def reportOverlaps (parsed : ParsedKey) : Service (List OverlapConflict) :=
  if parsed.kind = .path then do
    let claims ← readClaims
    let found := overlappingPathClaims casing parsed session claims
    found.forM (recordOverlap around session parsed)
    return found
  else return []

/-- What follows the answer of the store. -/
def reply (parsed : ParsedKey) (versions : List VersionConflict) : Answer → Service Reply
  | .reserved renewed claim => do
      let overlaps ← reportOverlaps casing around session parsed
      notify (overlaps.map (·.heldBy))
      return .reserved renewed claim versions overlaps
  | .claimHeld conflict => do
      notify [conflict.heldBy]
      return .claimHeld conflict versions
  | _ => return .refused .unknownActivity

/-- `reserve`, of a key that was parsed. -/
def reserveParsed (parsed : ParsedKey) : Service Reply := do
  let _ ← readActivity session
  let _ ← commit fun s => s.sweepOverdue around.sweep
  let versions := if parsed.kind = .version then around.versionConflicts else []
  versions.forM (recordVersionConflict around session parsed)
  if versions ≠ [] && settings.publishGuard then return .refused (.versionUnavailable versions)
  else do
    let answer ← commit fun s => s.reserve around.reserve session parsed.kind.text
      (String.ofList parsed.key) settings.ttlS
    reply casing around session parsed versions answer

/-- `Coordination.reserve`. -/
def reserve (key : String) : Service Reply :=
  if validIdent (chars session) then
    match parseKey casing (chars key) with
    | none => return .refused .invalidKey
    | some parsed =>
        if parsed.kind ∈ settings.kinds then reserveParsed casing settings around session parsed
        else return .refused .kindNotEnabled
  else return .refused .invalidSession

/-- `Coordination.release`: the key goes to the store as the caller spells it. -/
def release (clock : Clock) (key : String) (fence : Int) : Service Answer :=
  commit fun s => s.release clock key fence

end

end Hseos.Coordination
