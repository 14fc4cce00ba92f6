import Hseos.Foundation.Run
import Mathlib.Logic.Function.Basic

/-! # Governed execution scheduler

A queue of requests in front of a governed port. The scheduler starts the head of
the queue when it may, runs exclusive requests alone, and persists the
cancellation of a queued request before it starts anything else. What the port
does comes with the actions, as do the callbacks of its promises.
-/

namespace Hseos

/-! ## Items -/

inductive ItemState where
  | queued
  | running
  | cancelling
  | settled
  deriving DecidableEq

/-- What does not change of an item. -/
structure Item (ρ : Type) where
  /-- Its place in the order of acceptance. -/
  id : Nat
  request : ρ
  exclusive : Bool
  cancellable : Bool
  deriving DecidableEq

/-- What changes of an item. -/
structure ItemStatus where
  state : ItemState
  cancelled : Bool
  /-- Its own controller was aborted. -/
  aborted : Bool
  settled : Bool
  deriving DecidableEq

def ItemStatus.initial : ItemStatus := ⟨.queued, false, false, false⟩

/-- Who called `item.resolve`. -/
inductive Resolver where
  | execution
  | cancellation
  | halt
  deriving DecidableEq

structure SchedulerLimits where
  maxConcurrency : Nat
  maxQueue : Nat
  maxConcurrency_pos : 1 ≤ maxConcurrency
  maxQueue_pos : 1 ≤ maxQueue

structure Scheduler (ρ : Type) where
  /-- The accepted items, oldest first. -/
  accepted : List (Item ρ)
  status : Nat → ItemStatus
  queue : List (Item ρ)
  activeItems : List (Item ρ)
  cancellationBarriers : Nat
  exclusiveRunning : Bool
  accepting : Bool
  /-- The calls of `item.resolve`, oldest first. -/
  resolutions : List (Nat × Resolver)
  /-- The items that were started, oldest first. -/
  started : List Nat

/-! ## Submissions -/

/-- `request.signal`. -/
inductive SubmittedSignal where
  | absent
  | invalid
  | aborted
  | pending
  deriving DecidableEq

structure Submission (ρ : Type) where
  request : ρ
  /-- The request is an object whose tool is a string. -/
  identifiesTool : Bool
  signal : SubmittedSignal
  /-- Whether the contract is exclusive, and whether it is cancellable; `none` when the
  resolver threw. -/
  contract : Option (Bool × Bool)

namespace Scheduler

variable {ρ : Type} (limits : SchedulerLimits) (s : Scheduler ρ)

def initial : Scheduler ρ where
  accepted := []
  status _ := .initial
  queue := []
  activeItems := []
  cancellationBarriers := 0
  exclusiveRunning := false
  accepting := true
  resolutions := []
  started := []

def setStatus (id : Nat) (change : ItemStatus → ItemStatus) : Scheduler ρ :=
  { s with status := Function.update s.status id (change (s.status id)) }

def stateOf (item : Item ρ) : ItemState := (s.status item.id).state

def isResolved (id : Nat) : Bool := s.resolutions.any fun resolution => resolution.1 = id

/-! ## Pumping -/

/-- The head of the queue leaves it and is started: `_start`. -/
def start (item : Item ρ) : Scheduler ρ :=
  { s.setStatus item.id fun status => { status with state := .running } with
    queue := s.queue.tail
    activeItems := s.activeItems ++ [item]
    exclusiveRunning := item.exclusive || s.exclusiveRunning
    started := s.started ++ [item.id] }

/-- The loop of `_pump` over the queue. -/
def pumpLoop : List (Item ρ) → Scheduler ρ → Scheduler ρ
  | [], s => s
  | next :: rest, s =>
      if next.exclusive then
        if s.activeItems ≠ [] then s else s.start next
      else if limits.maxConcurrency ≤ s.activeItems.length then s
      else pumpLoop rest (s.start next)

/-- Nothing may start now. -/
def blocked : Bool := s.exclusiveRunning || 0 < s.cancellationBarriers

def pump : Scheduler ρ := if s.blocked then s else pumpLoop limits s.queue s

/-! ## Cancellation of queued items -/

/-- `_cancelQueued` up to its first await. -/
def beginCancellation (item : Item ρ) : Scheduler ρ :=
  { s.setStatus item.id fun status =>
      { status with cancelled := true, state := .cancelling, aborted := true } with
    queue := s.queue.eraseP fun queued => queued.id = item.id
    activeItems := s.activeItems ++ [item]
    cancellationBarriers := s.cancellationBarriers + 1 }

/-- The item waits in the queue. -/
def isQueued (item : Item ρ) : Bool :=
  s.queue.any (fun queued => queued.id = item.id) && s.stateOf item = .queued

def cancelQueued (item : Item ρ) : Scheduler ρ :=
  if s.isQueued item then (s.beginCancellation item).pump limits else s

/-- `cancelFromSignal`. -/
def cancelFromSignal (item : Item ρ) : Scheduler ρ :=
  if s.stateOf item = .queued && item.cancellable then s.cancelQueued limits item else s

/-- The queue is settled and emptied: `_halt`. A cause without properties makes it
throw at the first item, before that one is resolved. -/
def halt (nullishCause : Bool) : Scheduler ρ :=
  let settledItems := if nullishCause then s.queue.take 1 else s.queue
  { s with
    accepting := false
    queue := []
    status := fun id =>
      if settledItems.any fun item => item.id = id then
        { s.status id with settled := true, state := .settled }
      else s.status id
    resolutions := s.resolutions ++
      if nullishCause then [] else s.queue.map fun item => (item.id, .halt) }

/-! ## Operations -/

/-- The item that a submission is accepted as. -/
def itemOf (submission : Submission ρ) : Item ρ where
  id := s.accepted.length
  request := submission.request
  exclusive := (submission.contract.map Prod.fst).getD true
  cancellable := (submission.contract.map Prod.snd).getD true

/-- A submission that is answered at once. -/
def rejects (submission : Submission ρ) : Bool :=
  !submission.identifiesTool || !s.accepting || submission.signal = .invalid ||
    limits.maxQueue ≤ s.queue.length

def push (item : Item ρ) : Scheduler ρ :=
  { s with accepted := s.accepted ++ [item], queue := s.queue ++ [item] }

def enqueue (submission : Submission ρ) : Scheduler ρ :=
  if s.rejects limits submission then s
  else
    let item := s.itemOf submission
    let pushed := s.push item
    let signalled :=
      if submission.signal = .aborted then pushed.cancelFromSignal limits item else pushed
    if signalled.stateOf item = .queued then signalled.pump limits else signalled

/-- `handle.cancel`. -/
def cancel (item : Item ρ) : Scheduler ρ :=
  let status := s.status item.id
  if status.cancelled || status.settled || status.aborted || !item.cancellable then s
  else if status.state = .queued then s.cancelQueued limits item
  else s.setStatus item.id fun status => { status with cancelled := true, aborted := true }

/-- `close` cancels what is queued, without pumping in between. -/
def closeQueued : Scheduler ρ :=
  (s.queue.foldl (fun s item =>
    if (s.status item.id).cancelled || !item.cancellable || !s.isQueued item then s
    else s.beginCancellation item) s).pump limits

/-- `close` cancels what is active. -/
def closeRunning : Scheduler ρ :=
  { s with status := fun id =>
      if s.activeItems.any fun item => item.id = id && item.cancellable && !(s.status id).cancelled
      then { s.status id with cancelled := true, aborted := true }
      else s.status id }

def close (cancelQueued cancelRunning : Bool) : Scheduler ρ :=
  let closed := { s with accepting := false }
  let emptied := if cancelQueued then closed.closeQueued limits else closed
  if cancelRunning then emptied.closeRunning else emptied

/-! ## Callbacks -/

def resolve (id : Nat) (resolver : Resolver) : Scheduler ρ :=
  { s with resolutions := s.resolutions ++ [(id, resolver)] }

/-- The item is settled and no longer active. -/
def settle (item : Item ρ) : Scheduler ρ :=
  { s.setStatus item.id fun status => { status with settled := true, state := .settled } with
    activeItems := s.activeItems.filter fun active => active.id ≠ item.id }

/-- The `finally` of an execution. -/
def finish (item : Item ρ) : Scheduler ρ :=
  let settled := s.settle item
  { settled with exclusiveRunning := !item.exclusive && settled.exclusiveRunning }.pump limits

/-- The `finally` of a queued cancellation. -/
def release (item : Item ρ) : Scheduler ρ :=
  let settled := s.settle item
  let released := { settled with cancellationBarriers := settled.cancellationBarriers - 1 }
  if released.accepting then released.pump limits else released

end Scheduler

/-! ## Runs -/

inductive SchedulerAction (ρ : Type) where
  | enqueue (submission : Submission ρ)
  | cancel (id : Nat)
  /-- The signal of an item's request is aborted. -/
  | abort (id : Nat)
  | close (cancelQueued cancelRunning : Bool)
  /-- `port.execute` settles and its result resolves the item. -/
  | executed (id : Nat)
  | finished (id : Nat)
  /-- `port.cancelQueued` settles with a cancellation, which resolves the item. -/
  | persisted (id : Nat)
  /-- It settles with anything else: the item is resolved and the scheduler halts. -/
  | refused (id : Nat) (nullishCause : Bool)
  | released (id : Nat)

namespace Scheduler

variable {ρ : Type} (limits : SchedulerLimits)

/-- An item with a handle. -/
def accepted? (s : Scheduler ρ) (id : Nat) : Except Disabled (Item ρ) :=
  match s.accepted.find? fun item => item.id = id with
  | some item => .ok item
  | none => .error .disabled

/-- An active item in a state, whose promise is resolved or not. -/
def active? (s : Scheduler ρ) (id : Nat) (state : ItemState) (resolved : Bool) :
    Except Disabled (Item ρ) :=
  match s.activeItems.find? fun item => item.id = id with
  | some item =>
      if s.stateOf item = state && s.isResolved id = resolved then .ok item else .error .disabled
  | none => .error .disabled

/-- One action. -/
def step (s : Scheduler ρ) : SchedulerAction ρ → Except Disabled (Scheduler ρ)
  | .enqueue submission => return s.enqueue limits submission
  | .cancel id => return s.cancel limits (← s.accepted? id)
  | .abort id => return s.cancelFromSignal limits (← s.accepted? id)
  | .close cancelQueued cancelRunning => return s.close limits cancelQueued cancelRunning
  | .executed id => return s.resolve (← s.active? id .running false).id .execution
  | .finished id => return s.finish limits (← s.active? id .running true)
  | .persisted id => return s.resolve (← s.active? id .cancelling false).id .cancellation
  | .refused id nullishCause =>
      return (s.resolve (← s.active? id .cancelling false).id .cancellation).halt nullishCause
  | .released id => return s.release limits (← s.active? id .cancelling true)

end Scheduler

end Hseos
