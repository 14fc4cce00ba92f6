import Hseos.Computer.Channel

/-! # Actions of a computer session

One action at a time: its line goes to the host, and the first event that the channel has for it
is taken for its reply.
-/

namespace Hseos.Computer

/-! ## Reports -/

/-- A validated action. -/
structure Action where
  action : String
  args : Json
  deriving DecidableEq

/-- A screenshot that was stored: its media source and its capture. -/
structure Shot where
  digest : String
  media : Json
  capture : Json
  deriving DecidableEq

/-- What an action is reported with. -/
inductive Report where
  | refused (code cause : String) (seq : Option Nat)
  | executed (seq : Nat) (action : String) (targetAlive : Bool)
  | captured (seq : Nat) (shot : Shot)
  deriving DecidableEq

/-- What the service makes of the bytes of a screenshot. -/
structure Capturing where
  /-- `toScreenshot`, for a sequence, the encoded bytes and the host's claim. -/
  toScreenshot : Nat → String → Json → Except String (Option Shot)
  /-- Whether the output is untrusted display data. -/
  outputValid : Shot → Bool

/-- `HOST_CODE`. -/
def isHostCode (code : String) : Bool :=
  let rest := code.toList.drop 13
  "ENV_COMPUTER_".toList <+: code.toList && rest ≠ [] && rest.length ≤ 64 &&
    rest.all fun c => c.isUpper || c = '_'

/-- `BASE64`. -/
def isBase64 (text : String) : Bool :=
  let body := text.toList.reverse.dropWhile (· = '=')
  body ≠ [] && text.toList.length - body.length ≤ 2 &&
    body.all fun c => c.isAlphanum || c = '+' || c = '/'

/-- A report on an action that did not succeed. -/
def unsuccessful (seq : Nat) (action : Action) (code : String) : Report :=
  .refused code (action.action ++ " did not succeed") (some seq)

/-- The code of a failure that the host reports. -/
def hostCode (event : Json) : String :=
  match event.field? "code" with
  | some (.str code) => if isHostCode code then code else "ENV_COMPUTER_ACTION_FAILED"
  | _ => "ENV_COMPUTER_ACTION_FAILED"

/-- The report on a screenshot that the host has taken. -/
def screenshotReport (capturing : Capturing) (seq : Nat) (action : Action) (event : Json) : Report :=
  match event.field? "png_base64" with
  | some (.str encoded) =>
      if isBase64 encoded then
        match capturing.toScreenshot seq encoded event with
        | .error message => .refused "ENV_COMPUTER_ACTION_FAILED" message (some seq)
        | .ok none =>
            .refused "ENV_COMPUTER_RESULT_INVALID" "screenshot could not be validated" (some seq)
        | .ok (some shot) =>
            if capturing.outputValid shot then .captured seq shot
            else
              .refused "ENV_COMPUTER_OUTPUT_INVALID" "output is not untrusted display data"
                (some seq)
      else unsuccessful seq action "ENV_COMPUTER_OUTPUT_INVALID"
  | _ => unsuccessful seq action "ENV_COMPUTER_OUTPUT_INVALID"

/-- The report that an event gives: `parseEvent` and what `perform` makes of its outcome. -/
def reportOf (capturing : Capturing) (seq : Nat) (action : Action) (event : Json) : Report :=
  if event = .null then
    .refused "ENV_COMPUTER_ACTION_FAILED" "Cannot read properties of null (reading 'event')"
      (some seq)
  else if event.field? "event" = some (.str "timeout") then
    unsuccessful seq action "ENV_COMPUTER_TIMEOUT"
  else if event.field? "event" ≠ some (.str "result") ∨
      event.field? "seq" ≠ some (Json.ofNat seq) then
    unsuccessful seq action "ENV_COMPUTER_OUTPUT_INVALID"
  else if event.field? "ok" ≠ some (.bool true) then unsuccessful seq action (hostCode event)
  else if action.action ≠ "screenshot" then
    .executed seq action.action (event.field? "target_alive" = some (.bool true))
  else screenshotReport capturing seq action event

/-! ## Sessions -/

def maxActions : Nat := 40

def maxScreenshots : Nat := 8

/-- An action in flight; its line is being handed to the terminal, or it waits for an event. -/
structure Flight where
  seq : Nat
  action : Action
  sent : Bool

/-- An open session, as far as its actions change it. It is busy while an action is in flight. -/
structure Session where
  events : Channel
  seq : Nat
  shots : Nat
  lastShot : Option (String × Nat)
  flight : Option Flight

namespace Session

/-- `perform`, up to the line that it sends. -/
def perform (session : Session) (action : Action) : Except Report Session :=
  if session.flight.isSome then
    .error (.refused "ENV_COMPUTER_SESSION_BUSY" "an action is still in flight" none)
  else if maxActions ≤ session.seq then
    .error (.refused "ENV_COMPUTER_ACTION_QUOTA" "the session action quota is spent" none)
  else if action.action = "screenshot" ∧ maxScreenshots ≤ session.shots then
    .error (.refused "ENV_COMPUTER_SCREENSHOT_QUOTA" "the session screenshot quota is spent" none)
  else
    .ok { session with seq := session.seq + 1, flight := some ⟨session.seq + 1, action, false⟩ }

/-- The end of an action with a report. -/
def finish (session : Session) (report : Report) : Session :=
  match report with
  | .captured seq shot =>
      { session with
        shots := session.shots + 1
        lastShot := some (shot.digest, seq)
        flight := none }
  | _ => { session with flight := none }

end Session

end Hseos.Computer
