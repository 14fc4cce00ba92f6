import Hseos.Foundation.Attempt
import Hseos.Session.Replay
import Hseos.SessionStore.Envelope

/-! # Reading sessions

What a session store checks of a durable stream when it reads it, and its cached
replay. A call sees the table through one connection, outside a transaction
together with the `data_version` of the connection.
-/

namespace Hseos.SessionStore

/-! ## Lineage -/

/-- `assertUniformSessionTrace`. -/
def assertUniformSessionTrace (rows : List SessionRow) : Except Failure (Option String) := do
  let durableCorrelation := rows.head?.map (·.correlationId)
  reject (rows.any fun row => some row.correlationId ≠ durableCorrelation)
    (fragmented "session trace lineage is fragmented")
  return durableCorrelation

def rootAnchor (sessionId : Identifier) : String := "session-root:" ++ sessionId.val

/-- The event attaches a child to its session. -/
def attachesChild (event : SessionEvent) : Option Identifier :=
  match event.payload with
  | .childAttached childSessionId _ => some childSessionId
  | _ => none

/-- `forkEvent.payload`, of a `session.forked` event. -/
def forkPayload? (event : Option SessionEvent) : Option ForkedPayload :=
  event.bind fun event =>
    match event.payload with
    | .sessionForked payload => some payload
    | _ => none

/-- `events[0].payload.spec`. -/
def createdSpec (event : SessionEvent) : Except Failure AgentSessionSpec :=
  match event.payload with
  | .sessionCreated spec => .ok spec
  | _ => .error .typeError

/-- The row's event has an earlier event of its stream as its cause: the one before it,
or, for the attachment of a child, any. -/
def follows (lastId : Option Identifier) (earlierEventIds : List Identifier) (row : SessionRow) :
    Bool :=
  lastId.any (row.causationId = ·.val) ||
    ((attachesChild row.event).isSome && earlierEventIds.any (row.causationId = ·.val))

/-- Every row follows those before it. -/
def continuesLineage : Option Identifier → List Identifier → List SessionRow → Bool
  | _, _, [] => true
  | lastId, earlierEventIds, row :: rest =>
      follows lastId earlierEventIds row &&
        continuesLineage (some row.event.eventId) (earlierEventIds ++ [row.event.eventId]) rest

/-- The row that attaches a child through the event of a causation identifier. -/
def attachmentOf (parentRows : List SessionRow) (causationId : String) (child : Identifier) :
    Option SessionRow :=
  parentRows.find? fun row =>
    attachesChild row.event = some child && row.event.eventId.val = causationId

/-- The row that a session was forked from: `parentEvents[parent_sequence - 1]`. -/
def branchRow (parentRows : List SessionRow) (payload : ForkedPayload) : Option SessionRow :=
  if payload.parentSequence = 0 then none else parentRows[payload.parentSequence - 1]?

def hydrateAll (rows : List SessionRow) : Except Failure (List SessionRow) :=
  rows.mapM hydrateSessionEvent

/-- The rows of a session's stream, each checked. -/
def hydratedStream (table : Table) (sessionId : Identifier) : Except Failure (List SessionRow) :=
  hydrateAll (table.stream sessionId)

/-- The check of the first row of a child session. -/
def assertChildAnchor (parentRows : List SessionRow) (parentSessionId : Identifier)
    (first : SessionRow) (forkEvent : Option SessionEvent) : Except Failure Unit :=
  let invalid := causationError "child session causation anchor is invalid"
  match attachmentOf parentRows first.causationId first.event.sessionId, forkPayload? forkEvent with
  | some attachment, some fork => do
      let attached ← canonicalTraceId attachment.correlationId
      let durable ← canonicalTraceId first.correlationId
      reject (attached ≠ durable || first.position ≤ attachment.position ||
          fork.parentSessionId ≠ parentSessionId ||
          !(branchRow parentRows fork).any fun branch =>
            attachment.causationId = branch.event.eventId.val) invalid
  | _, _ => .error invalid

/-- The check of the first row of a session. -/
def assertAnchored (table : Table) (first : SessionRow) (forkEvent : Option SessionEvent) :
    Except Failure Unit := do
  let spec ← createdSpec first.event
  match spec.parentSessionId with
  | none =>
      reject (first.causationId ≠ rootAnchor first.event.sessionId)
        (causationError "root session causation anchor is invalid")
  | some parentSessionId => do
      let parentRows ← hydratedStream table parentSessionId
      assertChildAnchor parentRows parentSessionId first forkEvent

/-- `assertSessionCausation`. -/
def assertSessionCausation (table : Table) : List SessionRow → Except Failure Unit
  | [] => .ok ()
  | first :: rest => do
      assertAnchored table first (rest.head?.map (·.event))
      reject (!continuesLineage (some first.event.eventId) [first.event.eventId] rest)
        (causationError "session event causation does not continue durable lineage")

/-- `readSession` from the first version on. -/
def readSession (table : Table) (sessionId : Identifier) (toVersion : Option Nat) :
    Except Failure (List SessionRow) := do
  let found ← table.readStream sessionId 1 toVersion
  let _ ← assertUniformSessionTrace found
  let rows ← hydrateAll found
  assertSessionCausation table rows
  return rows

/-- What `traceContext` returns beside the session's identifier. -/
structure SessionTrace extends TraceContext where
  correlationId : String
  deriving DecidableEq

/-- `traceContext`. -/
def traceContext (table : Table) (sessionId : Identifier) : Except Failure SessionTrace := do
  match (table.stream sessionId).getLast? with
  | none => throw (.store "session trace does not exist" "AGENT_SESSION_TRACE_NOT_FOUND")
  | some last =>
      let rows ← hydratedStream table sessionId
      let correlation ← assertUniformSessionTrace rows
      assertSessionCausation table rows
      let correlationId := correlation.getD ""
      let context ← createTraceContext correlationId last.event.eventId.val
      return { context with correlationId }

/-! ## Cached replay -/

structure CacheEntry where
  state : SessionState
  revision : Nat
  correlation : Option String
  lastId : Option Identifier
  eventIds : List Identifier
  deriving DecidableEq

namespace CacheEntry

/-- The entry for a stream that was replayed from its first row. -/
def ofStream (table : Table) (id : Identifier) (state : SessionState) (revision : Nat)
    (rows : List SessionRow) : CacheEntry where
  state := state
  revision := revision
  correlation := ((table.stream id).find? fun row => row.streamSequence ≤ 1).map (·.correlationId)
  lastId := rows.getLast?.map (·.event.eventId)
  eventIds := rows.map (·.event.eventId)

/-- The entry after more rows. -/
def advance (previous : CacheEntry) (state : SessionState) (rows : List SessionRow) :
    CacheEntry :=
  { previous with
    state
    lastId := (rows.getLast?.map (·.event.eventId)).or previous.lastId
    eventIds := previous.eventIds ++ rows.map (·.event.eventId) }

end CacheEntry

/-- A `Map` of session identifiers, in insertion order. -/
abbrev Cache := List (Identifier × CacheEntry)

namespace Cache

def get? (cache : Cache) (id : Identifier) : Option CacheEntry :=
  (cache.find? fun entry => entry.1 = id).map Prod.snd

def delete (cache : Cache) (id : Identifier) : Cache := cache.filter fun entry => entry.1 ≠ id

def set (cache : Cache) (id : Identifier) (entry : CacheEntry) : Cache :=
  if (cache.get? id).isSome then
    cache.map fun old => if old.1 = id then (id, entry) else old
  else cache ++ [(id, entry)]

/-- A full cache drops its oldest entry for a new one. -/
def evict (cache : Cache) (id : Identifier) : Cache :=
  if 16 ≤ cache.length ∧ (cache.get? id).isNone then cache.drop 1 else cache

end Cache

/-- What a call finds beside the ledger: the realm of its process and the cache of its store. -/
structure Memory where
  realm : Realm
  cache : Cache
  deriving DecidableEq

abbrev Call := Attempt Memory Failure

/-- The ledger as one connection shows it. `revision` is its `data_version`, absent while the
connection is in a transaction; the schema does not change. -/
structure View where
  table : Table
  revision : Option Nat
  deriving DecidableEq

/-- `replaySessionEvents`, in the realm of the process. -/
def replayEvents (start : SessionState) (events : List SessionEvent) : Call SessionState := do
  let memory ← get
  let replayed := replaySessionEvents memory.realm start events
  set { memory with realm := replayed.1 }
  replayed.2.mapError Failure.replay

/-- The entry that a replay may go on from. -/
def reusable (view : View) (full : Bool) (toVersion : Option Nat) (previous : Option CacheEntry) :
    Option CacheEntry :=
  previous.filter fun entry =>
    !full && toVersion.isNone && view.revision = some entry.revision &&
      0 < entry.state.currentSequence

/-- The replay of the rows after a cached state. -/
def replayRest (view : View) (id : Identifier) (previous : CacheEntry) : Call SessionState := do
  let found ← view.table.readStream id (previous.state.currentSequence + 1) none
  if found = [] then return previous.state
  else do
    let rows ← hydrateAll found
    let correlation ← assertUniformSessionTrace rows
    reject (correlation ≠ previous.correlation) (fragmented "incremental session trace changed")
    reject (!continuesLineage previous.lastId previous.eventIds rows)
      (causationError "incremental session causation changed")
    let state ← replayEvents previous.state (rows.map (·.event))
    let memory ← get
    set { memory with cache := memory.cache.set id (previous.advance state rows) }
    return state

/-- The replay of a stream from its first row. -/
def replayAll (view : View) (id : Identifier) (toVersion : Option Nat) : Call SessionState := do
  let rows ← readSession view.table id toVersion
  let state ← replayEvents .initial (rows.map (·.event))
  match toVersion, view.revision with
  | none, some revision =>
      let memory ← get
      let entry := CacheEntry.ofStream view.table id state revision rows
      set { memory with cache := (memory.cache.evict id).set id entry }
      return state
  | _, _ => return state

/-- `replay`. -/
def replay (view : View) (id : Identifier) (toVersion : Option Nat) (full : Bool) :
    Call SessionState := do
  let memory ← get
  let cache := if view.revision.isNone then memory.cache.delete id else memory.cache
  set { memory with cache }
  match reusable view full toVersion (cache.get? id) with
  | some previous => replayRest view id previous
  | none => replayAll view id toVersion

end Hseos.SessionStore
