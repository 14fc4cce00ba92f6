import Hseos.SessionStore.Writing

/-! # Session stores of one process

Any number of store instances over any number of connections to one database. A
connection may hold a transaction open around the calls of its stores; another
connection sees its rows once they are committed. `data_version` is a counter that
moves for a connection whenever another one commits rows.
-/

namespace Hseos.SessionStore

structure Connection where
  dataVersion : Nat
  /-- What an open transaction sees. -/
  transaction : Option Table
  deriving DecidableEq

/-- The store instances, each with its connection and its default actor. -/
structure Deployment (κ σ : Type) where
  connection : σ → κ
  actor : σ → Json

structure World (κ σ : Type) where
  realm : Realm
  committed : Table
  connections : κ → Connection
  /-- The connection whose open transaction has written. -/
  writer : Option κ
  caches : σ → Cache

def World.initial (κ σ : Type) : World κ σ where
  realm := ⟨false⟩
  committed := []
  connections := fun _ => ⟨0, none⟩
  writer := none
  caches := fun _ => []

namespace World

variable {κ σ α : Type} [DecidableEq κ] [DecidableEq σ]

def view (world : World κ σ) (connection : κ) : View :=
  match (world.connections connection).transaction with
  | some table => ⟨table, none⟩
  | none => ⟨world.committed, some (world.connections connection).dataVersion⟩

def setTransaction (world : World κ σ) (connection : κ) (transaction : Option Table) : World κ σ :=
  { world with
    connections := Function.update world.connections connection
      { world.connections connection with transaction } }

/-- The rows a connection commits; every other connection can tell. -/
def publish (world : World κ σ) (connection : κ) (table : Table) : World κ σ :=
  if table = world.committed then world
  else { world with
    committed := table
    connections := fun other =>
      if other = connection then world.connections other
      else { world.connections other with dataVersion := (world.connections other).dataVersion + 1 } }

/-- A transaction of the ledger that leaves the table it is given: on its own, or within the
open transaction of its connection. One connection writes at a time, and only over the newest
rows. -/
def write (world : World κ σ) (connection : κ) (table : Table) : Except Failure (World κ σ) :=
  match (world.connections connection).transaction with
  | none =>
      if world.writer.isSome then .error .database else .ok (world.publish connection table)
  | some seen =>
      if table = seen then .ok world
      else if world.writer = some connection ∨ (world.writer = none ∧ seen = world.committed) then
        .ok { world.setTransaction connection (some table) with writer := some connection }
      else .error .database

/-- What a call leaves in the realm and in the cache of its store. -/
def remember (world : World κ σ) (store : σ) (memory : Memory) : World κ σ :=
  { world with realm := memory.realm, caches := Function.update world.caches store memory.cache }

def memory (world : World κ σ) (store : σ) : Memory := ⟨world.realm, world.caches store⟩

/-- A call that reads. -/
def reading (deployment : Deployment κ σ) (world : World κ σ) (store : σ)
    (call : View → Call α) : Except Failure α × World κ σ :=
  let done := (call (world.view (deployment.connection store))).outcome (world.memory store)
  (done.1, world.remember store done.2)

/-- A call that writes, unless the database refuses its transaction. -/
def writing (deployment : Deployment κ σ) (world : World κ σ) (store : σ) (refused : Bool)
    (call : View → Call (Written α)) : Except Failure α × World κ σ :=
  let connection := deployment.connection store
  let done := (call (world.view connection)).outcome (world.memory store)
  let after := world.remember store done.2
  match done.1 with
  | .error error => (.error error, after)
  | .ok written =>
      if refused then (.error .database, after)
      else
        match after.write connection written.table with
        | .error error => (.error error, after)
        | .ok next => (written.result, next)

def append (deployment : Deployment κ σ) (world : World κ σ) (store : σ) (refused : Bool)
    (request : AppendRequest) : Except Failure Receipt × World κ σ :=
  world.writing deployment store refused fun view =>
    SessionStore.append view (deployment.actor store) request

def fork (deployment : Deployment κ σ) (world : World κ σ) (store : σ) (refused : Bool)
    (request : ForkRequest) : Except Failure ForkReceipt × World κ σ :=
  world.writing deployment store refused fun view =>
    forkSession view (deployment.actor store) request

def replay (deployment : Deployment κ σ) (world : World κ σ) (store : σ) (id : Identifier)
    (toVersion : Option Nat) (full : Bool) : Except Failure SessionState × World κ σ :=
  world.reading deployment store fun view => SessionStore.replay view id toVersion full

end World

/-- What happens next in the process. -/
inductive Event (κ σ : Type) where
  | append (store : σ) (request : AppendRequest) (refused : Bool)
  | fork (store : σ) (request : ForkRequest) (refused : Bool)
  | replay (store : σ) (id : Identifier) (toVersion : Option Nat) (full : Bool)
  | begin (connection : κ)
  | commit (connection : κ)
  | rollback (connection : κ)

namespace World

variable {κ σ : Type} [DecidableEq κ] [DecidableEq σ]

def begin (world : World κ σ) (connection : κ) : World κ σ :=
  match (world.connections connection).transaction with
  | some _ => world
  | none => world.setTransaction connection (some world.committed)

def commit (world : World κ σ) (connection : κ) : World κ σ :=
  match (world.connections connection).transaction with
  | none => world
  | some table =>
      let ended := world.setTransaction connection none
      if world.writer = some connection then
        { ended.publish connection table with writer := none }
      else ended

def rollback (world : World κ σ) (connection : κ) : World κ σ :=
  match (world.connections connection).transaction with
  | none => world
  | some _ =>
      { world.setTransaction connection none with
        writer := if world.writer = some connection then none else world.writer }

def step (deployment : Deployment κ σ) (world : World κ σ) : Event κ σ → World κ σ
  | .append store request refused => (world.append deployment store refused request).2
  | .fork store request refused => (world.fork deployment store refused request).2
  | .replay store id toVersion full => (world.replay deployment store id toVersion full).2
  | .begin connection => world.begin connection
  | .commit connection => world.commit connection
  | .rollback connection => world.rollback connection

/-- The world after the given events. -/
def after (deployment : Deployment κ σ) (world : World κ σ) (events : List (Event κ σ)) :
    World κ σ :=
  events.foldl (step deployment) world

end World

end Hseos.SessionStore
