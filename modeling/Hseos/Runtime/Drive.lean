import Hseos.Runtime.Failure
import Hseos.Session.Recovery

/-! # The driver

One round of the loop that drives a session: from the replayed state to the next
thing the runtime sets out to do. The runtime appends events and calls its ports;
here a round yields the first append or call that it makes. Whether the store
takes the append, and what the port answers, is settled after that.
-/

namespace Hseos

/-! ## Derived identifiers -/

/-- The kinds of identifiers that the driver derives. -/
inductive StableKind where
  | request
  | invocation
  | idempotency
  deriving DecidableEq

def StableKind.text : StableKind → String
  | request => "request"
  | invocation => "invocation"
  | idempotency => "idempotency"

/-- An identifier with a bounded text stays one with hexadecimal digits behind it. -/
theorem isIdentifier_append_hex {text : String} (htext : isIdentifier text = true)
    (hshort : text.toList.length ≤ 100) (bytes : List Nat) :
    isIdentifier (String.ofList (text.toList ++ (Sha256.hexDigest bytes).take 40)) = true := by
  have hhex : ∀ c ∈ (Sha256.hexDigest bytes).take 40, isLowerAlnum c = true := by
    intro c hc
    exact isLowerAlnum_of_isHexChar
      (List.all_eq_true.mp (Sha256.isHexChar_hexDigest bytes) c (List.mem_of_mem_take hc))
  have hlength : ((Sha256.hexDigest bytes).take 40).length ≤ 40 := List.length_take_le ..
  rw [isIdentifier, chars_eq_toList] at htext
  rw [isIdentifier, chars_eq_toList, String.toList_ofList]
  cases hchars : text.toList with
  | nil => simp [hchars] at htext
  | cons first rest =>
      simp only [hchars, Bool.and_eq_true, List.all_eq_true, decide_eq_true_eq] at htext
      rw [hchars, List.length_cons] at hshort
      obtain ⟨⟨hfirst, -⟩, hplain⟩ := htext
      simp only [List.cons_append, List.length_append, Bool.and_eq_true, List.all_eq_true,
        decide_eq_true_eq]
      refine ⟨⟨hfirst, by omega⟩, ?_⟩
      intro c hc
      rcases List.mem_append.mp hc with hc | hc
      · exact hplain c hc
      · rw [hhex c hc, Bool.true_or]

theorem isIdentifier_stable (kind : StableKind) (bytes : List Nat) :
    isIdentifier (String.ofList ((kind.text ++ ":").toList ++
      (Sha256.hexDigest bytes).take 40)) = true := by
  refine isIdentifier_append_hex ?_ ?_ bytes
  · cases kind <;> decide
  · cases kind <;> decide

/-- `stableId(kind, …)`. -/
def stableId (kind : StableKind) (parts : List Json) : Identifier :=
  ⟨String.ofList ((kind.text ++ ":").toList ++
    (Sha256.hexDigest (utf8 (['\x00'].intercalate (parts.map canonicalJson)))).take 40),
    isIdentifier_stable kind _⟩

/-! ## Token accounting -/

/-- What `accountSessionTokens` sums up. -/
structure TokenUsage where
  reportedInput : Nat
  reportedOutput : Nat
  estimated : Nat
  deriving DecidableEq

namespace TokenUsage

def total (usage : TokenUsage) : Nat := usage.reportedInput + usage.reportedOutput + usage.estimated

/-- The input and output tokens that the `usage` events of a stream report. -/
def reports (events : List StreamedEvent) : List (Nat × Nat) :=
  events.filterMap fun streamed =>
    match streamed.event.payload with
    | .usage inputTokens outputTokens _ => some (inputTokens, outputTokens)
    | _ => none

/-- The usage with a stream: what the stream reports, or an estimate of a silent one. -/
def book (usage : TokenUsage) (events : List StreamedEvent) (estimate : Nat) : TokenUsage :=
  match reports events with
  | [] => { usage with estimated := usage.estimated + estimate }
  | reported =>
      { usage with
        reportedInput := usage.reportedInput + (reported.map (·.1)).sum
        reportedOutput := usage.reportedOutput + (reported.map (·.2)).sum }

/-- A step without a report is estimated once it has ended. -/
def bookStep (usage : TokenUsage) (step : ModelStep) : TokenUsage :=
  usage.book step.modelEvents
    (if hasTerminal step.modelEvents then
      byteLength (canonicalJson step.request.toJson) + step.request.parameters.maxOutputTokens
    else 0)

def bookTurn (usage : TokenUsage) (turn : Turn) : TokenUsage :=
  if turn.modelSteps.isEmpty then
    match turn.assembly with
    | some assembly =>
        usage.book turn.modelEvents
          (assembly.budget.inputTokens + assembly.budget.reservedOutputTokens)
    | none => usage
  else turn.modelSteps.foldl bookStep usage

end TokenUsage

/-- `accountSessionTokens(state, { excluded_turn_id }).total_tokens`, unless it throws. -/
def accountSessionTokens (state : SessionState) (excludedTurnId : Option Identifier) : Option Nat :=
  let counted := state.turns.entries.filter fun entry => some entry.1 ≠ excludedTurnId
  let usage := (counted.map (·.2)).foldl TokenUsage.bookTurn ⟨0, 0, state.reconciliationReservedTokens⟩
  if usage.total ≤ maxSafeInteger then some usage.total else none

/-! ## What a round sets out to do -/

/-- The invocation that the runtime derives for a call. -/
structure ToolIntent where
  turnId : Identifier
  stepId : Identifier
  invocationId : Identifier
  idempotencyKey : Identifier
  call : AgentToolCall
  deriving DecidableEq

/-- The execution was started with the intent. -/
def ToolIntent.matches (intent : ToolIntent) (execution : ToolExecution) : Bool :=
  execution.started.invocationId = intent.invocationId &&
    execution.started.idempotencyKey = intent.idempotencyKey &&
    execution.started.name = intent.call.name &&
    canonicalJson execution.started.input = canonicalJson intent.call.input

/-- The first append, port call or return of a round. -/
inductive DriveAct where
  /-- Return the state of an ended session. -/
  | finish
  /-- Return the state of a session without a turn. -/
  | awaitInput
  /-- Request the cancellation of a session whose time is up. -/
  | expire (reason : String)
  | settleCancellation
  | assembleContext (turnId : Identifier)
  | startRequest (turnId : Identifier) (request : ModelRequestV2) (sourceEventIds : List Identifier)
  | streamRequest (stepId : Identifier) (request : ModelRequest)
  /-- End a stream that was cut off, of a step or of a turn without steps. -/
  | failPartialStream (turnId : Identifier) (stepId : Option Identifier) (message : String)
  /-- Fail with the failure that the model reported. -/
  | failAfterModel (code : NormalizedErrorCode) (message : String) (retryable : Bool)
      (identity : String)
  | fail (code : NormalizedErrorCode) (message identity : String)
  /-- Fail with the error that the round threw. -/
  | failOnError
  | complete (outcomeRef : Reference)
  | requestCancellation (reason : String)
  | requestRevision (stepId : Identifier) (feedback : String)
  | continueRevision (request : ModelRequest) (sourceEventIds : List (Option Identifier))
  | startTool (intent : ToolIntent)
  | executeTool (intent : ToolIntent)
  | continueAfterTools (request : ModelRequest)
  deriving DecidableEq

/-- What the runtime was built with, as far as a round asks for it. Where a port may throw, `none`
is an error. -/
structure DriveHost where
  /-- The instant that the clock shows. -/
  now : Int
  /-- The feedback of the completion review, if the runtime has one. -/
  completionReview : Option (SessionState → Turn → ModelStep → Option (Option String))
  /-- `limits.context_tokens` in the manifest of a model provider. -/
  contextTokens : Identifier → ModelName → Option Nat
  /-- `overflow_policy` in the context profile of a session. -/
  overflowPolicy : AgentSessionSpec → Option OverflowPolicy
  /-- The messages that the compaction runtime leaves of a continuation, or the message of the
  failure if there is one. -/
  compactResults : SessionState → Turn → ModelStep → List AgentMessage →
    Except (Option String) (List AgentMessage)

/-- A computation of a round, which may end the round early. -/
abbrev Round := Except DriveAct

/-- The value of a port that may throw. -/
def answer {α : Type} : Option α → Round α
  | some value => return value
  | none => throw .failOnError

def exhausted (message identity : String) : DriveAct := .fail .budgetExceeded message identity

namespace DriveHost

variable (host : DriveHost)

/-- The duration limit of a session, counted from its first event, has passed. -/
def expired (spec : AgentSessionSpec) (events : List SessionEvent) : Bool :=
  events.head?.any fun first =>
    dateParse first.occurredAt + spec.limits.maxDurationMs - host.now ≤ 0

end DriveHost

/-! ## Opening a step -/

/-- The checks of `#startStep`: the session budget holds the request and its reserve. -/
def reserveStep (state : SessionState) (spec : AgentSessionSpec) (turn : Turn) (request : Json)
    (reserve : Nat) : Round Unit := do
  -- The assembled request of the turn is booked until the first step takes its place.
  let used ← answer (accountSessionTokens state
    (if turn.modelSteps.isEmpty && turn.assembly.isSome then some turn.turnId else none))
  let requestBytes := byteLength (canonicalJson request)
  let projected := used + requestBytes + reserve
  let limit := spec.limits.maxTokens
  reject (limit < projected)
    (exhausted s!"session token budget cannot reserve another model step: projected {projected} > max {limit} (used {used} + request {requestBytes} + reserve {reserve})"
      "token-budget")

/-- The request that follows a step, with the identifier of the next step's request. -/
def nextRequest (state : SessionState) (turn : Turn) (step : ModelStep)
    (messages : List AgentMessage) : Round ModelRequest :=
  let request := { step.request with
    requestId := stableId .request [.ofNullable .ofText state.sessionId, .ofText turn.turnId,
      .ofNat turn.modelSteps.length]
    messages }
  if request.valid then return request else throw .failOnError

/-! ## Tools -/

/-- `#toolInput`, as far as it identifies the invocation. -/
def toolIntent (state : SessionState) (turn : Turn) (step : ModelStep) (call : AgentToolCall) :
    ToolIntent :=
  let parts := [.ofNullable .ofText state.sessionId, .ofText turn.turnId, .ofText call.toolCallId]
  { turnId := turn.turnId
    stepId := step.stepId
    invocationId := stableId .invocation parts
    idempotencyKey := stableId .idempotency parts
    call }

/-- What one pass of the loop over the calls does first, nothing for a settled call. -/
def callAct? (state : SessionState) (spec : AgentSessionSpec) (turn : Turn) (step : ModelStep)
    (call : AgentToolCall) : Option DriveAct :=
  let intent := toolIntent state turn step call
  let differs :=
    DriveAct.fail .protocolError "durable tool intent differs from runtime derivation" "failure"
  match state.execution turn call.toolCallId with
  | .absent =>
      if spec.limits.maxToolCalls ≤ state.toolInvocations.size then
        some (exhausted "session tool-call limit exhausted" "tool-budget")
      else some (.startTool intent)
  | .inherited => some differs
  | .own execution =>
      if !intent.matches execution then some differs
      else if execution.completion.isNone then some (.executeTool intent)
      else none

/-- The outcome of a call as the model is told. -/
def toolMessage (state : SessionState) (turn : Turn) (call : AgentToolCall) : Option AgentMessage :=
  (state.execution turn call.toolCallId).settled?.map fun settled =>
    { settled.message with name := some call.name, toolCallId := some call.toolCallId }

/-- The bytes that the input of a request takes. -/
def inputBytes (request : ModelRequest) (messages : List AgentMessage) : Nat :=
  byteLength (canonicalJson (.obj [("messages", messagesJson messages),
    ("tools", .arr (request.tools.map ToolDefinition.toJson)),
    ("parameters", request.parameters.toJson)]))

/-- The request that goes on with the outcomes of all calls. -/
def continuationRequest (host : DriveHost) (state : SessionState) (spec : AgentSessionSpec)
    (turn : Turn) (step : ModelStep) (calls : List AgentToolCall) : Round ModelRequest := do
  let outcomes ← answer (calls.mapM (toolMessage state turn))
  let assistant : AgentMessage :=
    { role := .assistant, content := contentOf step.modelEvents, toolCalls := some calls }
  let fullMessages := step.request.messages ++ assistant :: outcomes
  let contextTokens ← answer (host.contextTokens step.request.providerId step.request.model)
  let policy ← answer (host.overflowPolicy spec)
  let messages ←
    if policy = .compact then
      (host.compactResults state turn step fullMessages).mapError fun message? =>
        (message?.map (exhausted · "failure")).getD .failOnError
    else pure fullMessages
  -- `bytes > context_tokens - max_output_tokens`
  reject (contextTokens < inputBytes step.request messages + step.request.parameters.maxOutputTokens)
    (exhausted "tool continuation exceeds provider context" "failure")
  nextRequest state turn step messages

def executeTools (host : DriveHost) (state : SessionState) (spec : AgentSessionSpec) (turn : Turn)
    (step : ModelStep) : Round DriveAct := do
  let calls ← answer (assembledToolCalls step.modelEvents).toOption
  reject calls.isEmpty (.fail .protocolError "tool_calls finish contained no calls" "failure")
  match calls.findSome? (callAct? state spec turn step) with
  | some act => return act
  | none => do
      let request ← continuationRequest host state spec turn step calls
      reserveStep state spec turn request.toJson request.parameters.maxOutputTokens
      return .continueAfterTools request

/-! ## Revisions -/

/-- Going on with the feedback of a review. -/
def continueRevision (host : DriveHost) (state : SessionState) (spec : AgentSessionSpec)
    (turn : Turn) (step : ModelStep) (revision : StepRevision) : Round DriveAct := do
  let request ← nextRequest state turn step (revisionMessages step revision)
  let contextTokens ← answer (host.contextTokens request.providerId request.model)
  reject (contextTokens <
      byteLength (canonicalJson request.toJson) + request.parameters.maxOutputTokens)
    (exhausted "review continuation exceeds provider context" "failure")
  reserveStep state spec turn request.toJson request.parameters.maxOutputTokens
  return .continueRevision request [step.terminalEventId, some revision.eventId]

/-- A step that stopped: it is reviewed once, then revised or complete. -/
def settleStop (host : DriveHost) (state : SessionState) (spec : AgentSessionSpec) (turn : Turn)
    (step : ModelStep) (outcomeRef : Reference) : Round DriveAct :=
  match step.revision with
  | some revision => continueRevision host state spec turn step revision
  | none =>
      match host.completionReview with
      | none => return .complete outcomeRef
      | some review => do
          match ← answer (review state turn step) with
          | none => return .complete outcomeRef
          | some feedback => return .requestRevision step.stepId feedback

/-! ## The round -/

/-- A turn whose model events were recorded without a step. -/
def settleLegacy (turn : Turn) : DriveAct :=
  match turn.modelEvents.find? (·.event.isTerminal) with
  | none =>
      .failPartialStream turn.turnId none "partial legacy model stream cannot be safely resumed"
  | some terminal =>
      match terminal.event.payload with
      | .failed code message retryable =>
          .failAfterModel code message.val retryable "legacy-model-failed"
      | .completed .stop outcomeRef => .complete outcomeRef
      | .completed .length _ => exhausted "legacy model output limit reached" "legacy-length"
      | .completed .cancelled _ =>
          .fail .cancelled "legacy model request was cancelled" "legacy-cancelled"
      | _ => .fail .protocolError
          "legacy tool-call stream cannot be continued without durable step lineage"
          "legacy-tool-calls"

def driveStep (host : DriveHost) (state : SessionState) (spec : AgentSessionSpec) (turn : Turn)
    (step : ModelStep) : Round DriveAct :=
  match step.terminal? with
  | none =>
      if step.modelEvents.isEmpty then return .streamRequest step.stepId step.request
      else
        return .failPartialStream turn.turnId (some step.stepId)
          "partial model stream cannot be safely resumed"
  | some terminal =>
      match terminal.event.payload with
      | .failed code message retryable =>
          return .failAfterModel code message.val retryable ("model-failed:" ++ step.stepId.val)
      | .completed .cancelled _ =>
          return .requestCancellation "model provider cancelled the request"
      | .completed .length _ =>
          return exhausted "model output limit reached" ("length:" ++ step.stepId.val)
      | .completed .stop outcomeRef => settleStop host state spec turn step outcomeRef
      | _ => do
          let used ← answer (accountSessionTokens state none)
          let limit := spec.limits.maxTokens
          reject (limit < used)
            (exhausted s!"session token budget exhausted: used {used} > max {limit}" "token-budget")
          executeTools host state spec turn step

def driveTurn (host : DriveHost) (state : SessionState) (spec : AgentSessionSpec) (turn : Turn) :
    Round DriveAct :=
  match turn.assembly with
  | none => return .assembleContext turn.turnId
  | some assembly =>
      match turn.modelSteps.getLast? with
      | some step => driveStep host state spec turn step
      | none =>
          if turn.modelEvents.isEmpty then do
            reserveStep state spec turn assembly.request.toJson
              assembly.request.request.parameters.maxOutputTokens
            return .startRequest turn.turnId assembly.request [assembly.requestEventId]
          else return settleLegacy turn

/-- The first round on a replayed stream. -/
def driveRound (host : DriveHost) (events : List SessionEvent) (state : SessionState) :
    Round DriveAct := do
  let spec ← answer state.spec
  if state.terminalEvent.isSome then return .finish
  else if state.cancellationRequest.isSome then return .settleCancellation
  else if host.expired spec events then return .expire "agent session duration limit exceeded"
  else if state.turnOrder.isEmpty then return .awaitInput
  else
    let turn ← answer state.latestTurn?
    driveTurn host state spec turn

/-- The act of a round, which an early end is too. -/
def firstAct (round : Round DriveAct) : DriveAct :=
  match round with
  | .ok act | .error act => act

/-- What `#drive` sets out to do first on a replayed stream. -/
def drive (host : DriveHost) (events : List SessionEvent) (state : SessionState) : DriveAct :=
  firstAct (driveRound host events state)

end Hseos
