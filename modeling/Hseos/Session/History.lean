import Hseos.Foundation.Run
import Hseos.Session.State

/-! # Durable facts

What replay reads back from a session state: tool calls joined from their deltas,
tool outcomes as messages, and the durable history of earlier turns. Failures are
those of the source, with their messages, codes and details.

The maps of a state are plain objects, so looking up a name that
`Object.prototype` defines finds a function. `constructor` is the one such name
that is an identifier: the turn it finds is the global `Object`, which has no
field of a turn until a context compaction writes `Object.context_compaction`.
That write outlives the replay, so a replay runs in a realm that remembers it.
-/

namespace Hseos

/-- `SessionReplayError`, or a `TypeError` from reading a field of `undefined`. -/
inductive ReplayFailure where
  | replay (message code : String) (details : List (String × Json))
  | typeError
  deriving DecidableEq

def replayError (message code : String) : ReplayFailure := .replay message code []

/-- The part of the JavaScript realm that replays write to. -/
structure Realm where
  objectContextCompaction : Bool
  deriving DecidableEq

abbrev Replay := Except ReplayFailure

/-! ## Texts and digests -/

/-- A digest as the contract type of digests. -/
def digestOf (value : Json) : Digest := ⟨digest value, isDigest_digest value⟩

def compactionStats (messages : List AgentMessage) : CompactionStats :=
  let bytes := byteLength (canonicalJson (messagesJson messages))
  { messageCount := messages.length, bytes := bytes, tokens := bytes }

/-- A durable message with the event it comes from. -/
structure HistoryItem where
  sourceEventId : Identifier
  sequence : Nat
  message : AgentMessage
  deriving DecidableEq

namespace HistoryItem

def sourceRef (item : HistoryItem) : String := sessionEventRef item.sourceEventId

def toJson (item : HistoryItem) : Json :=
  .obj [("source_event_id", .ofText item.sourceEventId), ("source_ref", .str item.sourceRef),
    ("sequence", .ofNat item.sequence), ("message", item.message.toJson)]

end HistoryItem

/-- The texts of the content deltas, joined. -/
def contentOf (events : List StreamedEvent) : String :=
  String.join (events.filterMap (·.event.contentText?))

/-! ## Tool calls -/

/-- A tool call while its deltas are joined. -/
structure PartialCall where
  toolCallId : Identifier
  name : Option Identifier
  argumentsJson : String
  deriving DecidableEq

def toolCallInvalid (message : String) : ReplayFailure :=
  replayError message "AGENT_SESSION_TOOL_CALL_INVALID"

/-- The calls after one more model event. -/
def joinDelta (calls : List PartialCall) (streamed : StreamedEvent) : Replay (List PartialCall) :=
  match streamed.event.payload with
  | .toolCallDelta toolCallId name argumentsDelta => do
      let known := calls.find? (·.toolCallId = toolCallId)
      let call := known.getD ⟨toolCallId, none, ""⟩
      reject (name.isSome && call.name.isSome && call.name ≠ name)
        (toolCallInvalid "tool call name changed across deltas")
      let next := ⟨toolCallId, name <|> call.name, call.argumentsJson ++ argumentsDelta.val⟩
      return if known.isSome then
        calls.map fun other => if other.toolCallId = toolCallId then next else other
      else calls ++ [next]
  | _ => return calls

def completeCall (call : PartialCall) : Replay AgentToolCall :=
  let details := [("tool_call_id", Json.ofText call.toolCallId)]
  match parseJson call.argumentsJson with
  | none => throw (.replay "tool call arguments are not complete JSON"
      "AGENT_SESSION_TOOL_CALL_INVALID" details)
  | some input =>
      match call.name, input with
      | some name, .obj members => return ⟨call.toolCallId, name, .obj members⟩
      | _, _ => throw (.replay "tool call requires a name and JSON object input"
          "AGENT_SESSION_TOOL_CALL_INVALID" details)

def assembledToolCalls (modelEvents : List StreamedEvent) : Replay (List AgentToolCall) := do
  let calls ← modelEvents.foldlM joinDelta []
  calls.mapM completeCall

def toolOutcomeMessage (execution : ToolExecution) (outcome : ToolExecutionResult) : AgentMessage :=
  { role := .tool
    name := some execution.started.name
    toolCallId := some execution.started.toolCallId
    content := String.ofList (canonicalJson (.obj [("status", .str outcome.status.text),
      ("result", outcome.result), ("error", .ofNullable ToolExecutionError.toJson outcome.error),
      ("evidence_refs", .ofStrings outcome.evidenceRefs),
      ("warnings", .ofStrings outcome.warnings)])) }

/-- An execution of a turn together with its outcome. -/
structure SettledExecution where
  execution : ToolExecution
  completion : ToolCompletion
  deriving DecidableEq

namespace SettledExecution

def message (settled : SettledExecution) : AgentMessage :=
  toolOutcomeMessage settled.execution settled.completion.outcome

def historyItem (settled : SettledExecution) : HistoryItem :=
  ⟨settled.completion.eventId, settled.completion.sequence, settled.message⟩

end SettledExecution

/-- The execution with its outcome, `none` when `!execution?.outcome`. -/
def Slot.settled? (execution : Slot ToolExecution) : Option SettledExecution :=
  execution.own?.bind fun found => found.completion.map fun completion => ⟨found, completion⟩

/-- The executions of the given calls when all of them have an outcome. -/
def SessionState.settledCalls (state : SessionState) (turn : Turn) (calls : List AgentToolCall) :
    Option (List SettledExecution) :=
  calls.mapM fun call => (state.execution turn call.toolCallId).settled?

/-- `executions.map((execution) => execution?.completed_event_id)`. A missing
identifier equals no source identifier. -/
def SessionState.completedEventIds (state : SessionState) (turn : Turn)
    (calls : List AgentToolCall) : Json :=
  .arr (calls.map fun call =>
    .ofNullable (fun completion => .ofText completion.eventId)
      (state.execution turn call.toolCallId).completion?)

/-! ## Durable history -/

/-- The messages one earlier turn left behind: its input and its final answer. -/
def turnHistory (turn : Turn) : List HistoryItem :=
  let input := ⟨turn.inputEventId, turn.inputEventSequence, turn.input⟩
  let answer := turn.modelEvents.find? fun streamed => streamed.event.finishReason?.isSome
  let content := contentOf
    (turn.modelEvents.takeWhile fun streamed => streamed.event.finishReason?.isNone)
  match answer with
  | some terminal =>
      if content = "" then [input]
      else [input, ⟨terminal.eventId, terminal.sequence, { role := .assistant, content := content }⟩]
  | none => [input]

def durableHistory (state : SessionState) (currentTurnId : Identifier) : List HistoryItem :=
  (state.turnOrder.takeWhile (· ≠ currentTurnId)).flatMap fun turnId =>
    ((state.turns.get? turnId).map turnHistory).getD []

/-! ## Shared checks -/

/-- The turn, or `none` for the function that an inherited name finds. -/
def requireTurn (state : SessionState) (turnId : Identifier) (event : SessionEvent) :
    Replay (Option Turn) :=
  match state.turns.slot turnId with
  | .own turn => return some turn
  | .inherited => return none
  | .absent => throw (.replay (event.eventType ++ " references an unknown turn")
      "AGENT_SESSION_TURN_NOT_STARTED"
      [("event_id", .ofText event.eventId), ("turn_id", .ofText turnId)])

/-- The turn, where a function in its place makes the next field access fail with `err`. -/
def requireOwnTurn (state : SessionState) (turnId : Identifier) (event : SessionEvent)
    (err : ReplayFailure) : Replay Turn := do
  match ← requireTurn state turnId event with
  | some turn => return turn
  | none => throw err

/-- `state.spec.…`, on a session that was created. -/
def requireSpec (state : SessionState) : Replay AgentSessionSpec :=
  match state.spec with
  | some spec => return spec
  | none => throw .typeError

section

variable {state : SessionState} {event : SessionEvent} {turnId : Identifier}

theorem requireTurn_eq_ok {found : Option Turn} (h : requireTurn state turnId event = .ok found) :
    state.turns.get? turnId = found := by
  rw [← state.turns.own?_slot turnId]
  unfold requireTurn at h
  cases hslot : state.turns.slot turnId with
  | own turn => simpa [hslot] using h
  | inherited => simpa [hslot] using h
  | absent => simp [hslot] at h

theorem requireOwnTurn_eq_ok {err : ReplayFailure} {turn : Turn}
    (h : requireOwnTurn state turnId event err = .ok turn) :
    state.turns.get? turnId = some turn := by
  unfold requireOwnTurn at h
  obtain ⟨found, hfound, h⟩ := bind_eq_ok_iff.mp h
  rw [requireTurn_eq_ok hfound]
  cases found with
  | none => simp at h
  | some turn => simpa using h

theorem requireSpec_eq_ok {spec : AgentSessionSpec} (h : requireSpec state = .ok spec) :
    state.spec = some spec := by
  unfold requireSpec at h
  cases hspec : state.spec with
  | none => simp [hspec] at h
  | some found => simpa [hspec] using h

end

/-- Some model event of the list is `completed` or `failed`. -/
def hasTerminal (events : List StreamedEvent) : Bool := events.any (·.event.isTerminal)

/-- A turn whose stream without steps has started and not ended. -/
def Turn.streamOpen (turn : Turn) : Bool :=
  turn.modelSteps.isEmpty && !turn.modelEvents.isEmpty && !hasTerminal turn.modelEvents

def assertStartedWorkSettled (state : SessionState) : Replay Unit :=
  let incompleteModel := state.turns.values.any fun turn =>
    turn.modelSteps.any (fun step => !hasTerminal step.modelEvents) || turn.streamOpen
  let incompleteTool := state.toolInvocations.values.any (·.completion.isNone)
  reject (incompleteModel || incompleteTool)
    (replayError "session terminal event precedes settlement of started work"
      "AGENT_SESSION_WORK_INCOMPLETE")

theorem assertStartedWorkSettled_eq_ok {state : SessionState} {u : Unit}
    (h : assertStartedWorkSettled state = .ok u) :
    (∀ turn ∈ state.turns.values, turn.streamOpen = false ∧
      ∀ step ∈ turn.modelSteps, hasTerminal step.modelEvents = true) ∧
    ∀ execution ∈ state.toolInvocations.values, execution.completion.isSome = true := by
  simp only [assertStartedWorkSettled, reject_eq_ok_iff, Bool.or_eq_false_iff, List.any_eq_false,
    Bool.not_eq_true, Bool.not_eq_false', Option.isNone_eq_false_iff] at h
  exact ⟨fun turn hturn => (h.1 turn hturn).symm, h.2⟩

/-- The last model event of a step, when it completed with a reason. -/
def ModelStep.finishReason? (step : ModelStep) : Option FinishReason :=
  step.modelEvents.getLast?.bind (·.event.finishReason?)

end Hseos
