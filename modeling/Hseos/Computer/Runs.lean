import Hseos.Computer.Actions
import Hseos.Foundation.Run

/-! # Runs of a computer session

Actions, answers of the terminal, frames of the host's output and timers, in any order. The host
writes one reply for each line that reaches it, in the order of the lines.
-/

namespace Hseos.Computer

/-! ## Worlds -/

/-- What the host replies to each line: one line, a result with the sequence of its action. -/
structure Host where
  reply : Nat → List Char
  oneLine : ∀ seq, '\n' ∉ reply seq
  numbered : ∀ seq, 0 < seq → seq ≤ maxActions →
    (Channel.eventOf (reply seq)).field? "event" = some (.str "result") ∧
      (Channel.eventOf (reply seq)).field? "seq" = some (Json.ofNat seq)

/-- How an action came to its report. -/
inductive Answer where
  | reply (event : Json)
  | timedOut
  | closed
  | rejected (message : String)
  deriving DecidableEq

/-- An action that was reported. -/
structure Ended where
  seq : Nat
  action : Action
  /-- Whether its line reached the host. -/
  reached : Bool
  answer : Answer
  /-- Whether its own reply had been delivered by then. -/
  replied : Bool
  report : Report
  deriving DecidableEq

/-- A session, the lines that its host received, the output that was fed, and the actions that
ended. -/
structure World where
  session : Session
  received : List Nat
  fed : List Char
  log : List Ended

namespace World

/-- A session that was just opened. -/
def opened : World := ⟨⟨⟨[], false, [], false⟩, 0, 0, none, none⟩, [], [], []⟩

/-- What the host has written or will write. -/
def output (host : Host) (world : World) : List Char :=
  linesText (world.received.map host.reply)

/-- The replies that were delivered. -/
def delivered (world : World) : List (List Char) := (completeLines world.fed).1

/-- The report on an answer. -/
def reportFor (capturing : Capturing) (seq : Nat) (action : Action) : Answer → Report
  | .reply event => reportOf capturing seq action event
  | .timedOut => reportOf capturing seq action Channel.timeoutEvent
  | .closed => reportOf capturing seq action Channel.closedEvent
  | .rejected message => .refused "ENV_COMPUTER_ACTION_FAILED" message (some seq)

/-- The end of the action in flight. -/
def settle (capturing : Capturing) (world : World) (flight : Flight) (answer : Answer) : World :=
  let report := reportFor capturing flight.seq flight.action answer
  { world with
    session := world.session.finish report
    log := world.log ++
      [{ seq := flight.seq
         action := flight.action
         reached := flight.seq ∈ world.received
         answer := answer
         replied := flight.seq ∈ world.received.take world.delivered.length
         report := report }] }

/-- The world with another channel. -/
def withEvents (world : World) (events : Channel) : World :=
  { world with session := { world.session with events := events } }

end World

/-- What can happen next: an action is performed and its line reaches the host or not, the
terminal has taken or refused it, a frame of the output arrives, the timer of the wait fires, or
the channel is closed. -/
inductive Move where
  | perform (action : Action) (reaches : Bool)
  | accepted
  | rejected (message : String)
  | frame (text : List Char)
  | expire
  | close

namespace World

/-- `max_output_bytes`: what the broker passes on of the output of a session. -/
def maxOutputBytes : Nat := 65536

/-- The channel gave an event to the action that waits, or to none. -/
def resolved (capturing : Capturing) (world : World) (got : Option Json)
    (answer : Json → Answer) : World :=
  match world.session.flight, got with
  | some flight, some event => world.settle capturing flight (answer event)
  | _, _ => world

/-- One move; an error where it cannot happen. -/
def step (capturing : Capturing) (host : Host) (world : World) : Move → Except Unit World
  | .perform action reaches => do
      reject world.session.events.closed ()
      match world.session.perform action with
      | .error _ => .ok world
      | .ok session =>
          .ok { world with
            session := session
            received := if reaches then world.received ++ [session.seq] else world.received }
  | .accepted =>
      match world.session.flight with
      | some ⟨seq, action, false⟩ =>
          if seq ∈ world.received then
            match world.session.events.next with
            | (events, none) =>
                .ok { world with
                  session := { world.session with
                    events := events, flight := some ⟨seq, action, true⟩ } }
            | (events, some event) =>
                .ok ((world.withEvents events).settle capturing ⟨seq, action, false⟩
                  (if world.session.events.queue = [] then .closed else .reply event))
          else .error ()
      | _ => .error ()
  | .rejected message =>
      match world.session.flight with
      | some ⟨seq, action, false⟩ =>
          .ok (world.settle capturing ⟨seq, action, false⟩ (.rejected message))
      | _ => .error ()
  | .frame text =>
      if world.fed ++ text <+: world.output host ∧
          byteLength (world.fed ++ text) ≤ maxOutputBytes then
        let (events, got) := world.session.events.feed text
        .ok (({ world.withEvents events with fed := world.fed ++ text }).resolved capturing got
          .reply)
      else .error ()
  | .expire =>
      if world.session.events.waiting then
        let (events, got) := world.session.events.expire
        .ok ((world.withEvents events).resolved capturing got fun _ => .timedOut)
      else .error ()
  | .close =>
      let (events, got) := world.session.events.close
      .ok ((world.withEvents events).resolved capturing got fun _ => .closed)

end World

end Hseos.Computer
