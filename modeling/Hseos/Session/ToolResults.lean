import Hseos.Session.Prompt
import Hseos.Session.ToolConsistency

/-! # Tool results in requests

Every tool message that a model step is sent goes back to a durable outcome of the
same turn: it is the message of that outcome, or a stub that was pruned from it.
The record of an older-results compaction is held to this when it is made. The
record of a current-results compaction is not: its replacements need only name the
right calls.
-/

namespace Hseos

/-- The outcome that an event makes durable. -/
def SessionEvent.outcome? (event : SessionEvent) : Option ToolExecutionResult :=
  match event.payload with
  | .toolExecutionCompleted payload => some payload.outcome
  | .toolExecutionReconciled payload => some payload.outcome
  | _ => none

/-- The message is a pruned stub of a tool message. -/
def IsPrunedStub (source message : AgentMessage) : Prop :=
  message.toolCallId = source.toolCallId ∧ message.name = source.name ∧
    prunedStubViolation source message = none

/-- A tool message of a turn is the message of an outcome that the events before it
recorded for an execution of that turn, or a stub of it. -/
def FaithfulResult (past : List SessionEvent) (turnId : Identifier) (message : AgentMessage) :
    Prop :=
  ∃ execution outcome, (∃ event ∈ past, event.outcome? = some outcome) ∧
    startOf past outcome.invocationId = some execution.started ∧
    execution.started.turnId = turnId ∧
    message.toolCallId = some execution.started.toolCallId ∧
    (message = toolOutcomeMessage execution outcome ∨
      IsPrunedStub (toolOutcomeMessage execution outcome) message)

theorem FaithfulResult.mono {past : List SessionEvent} {turnId : Identifier}
    {message : AgentMessage} (h : FaithfulResult past turnId message) (later : List SessionEvent) :
    FaithfulResult (past ++ later) turnId message := by
  obtain ⟨execution, outcome, ⟨event, hevent, houtcome⟩, hstarted, hrest⟩ := h
  refine ⟨execution, outcome, ⟨event, List.mem_append_left _ hevent, houtcome⟩, ?_, hrest⟩
  rw [startOf, List.filterMap_append, List.find?_append]
  rw [startOf] at hstarted
  rw [hstarted, Option.some_or]

/-- The step was requested by an event of the stream, and the tool messages it was
sent are faithful to the events before. -/
def StepFaithful (events : List SessionEvent) (turnId : Identifier) (step : ModelStep) : Prop :=
  ∃ past event future, events = past ++ event :: future ∧
    event.payload = .modelRequestStarted ⟨turnId, step.stepId, step.request, step.sourceEventIds⟩ ∧
    ∀ message ∈ step.request.messages, message.role = .tool → FaithfulResult past turnId message

theorem StepFaithful.mono {past : List SessionEvent} {turnId : Identifier} {step : ModelStep}
    (h : StepFaithful past turnId step) (later : List SessionEvent) :
    StepFaithful (past ++ later) turnId step := by
  obtain ⟨before, event, future, rfl, hrest⟩ := h
  exact ⟨before, event, future ++ later, by simp, hrest⟩

theorem StepFaithful.messages {past : List SessionEvent} {turnId : Identifier} {step : ModelStep}
    (h : StepFaithful past turnId step) :
    ∀ message ∈ step.request.messages, message.role = .tool →
      FaithfulResult past turnId message := by
  obtain ⟨before, event, future, rfl, -, hmessages⟩ := h
  intro message hmessage hrole
  exact (hmessages message hmessage hrole).mono _

/-! ## Outcomes of a state -/

/-- Every outcome of the state was made durable by an event. -/
def SessionState.OutcomesRecorded (past : List SessionEvent) (state : SessionState) : Prop :=
  ∀ invocationId execution, state.toolInvocations.get? invocationId = some execution →
    ∀ completion ∈ execution.completion, completion.outcome.invocationId = invocationId ∧
      ∃ event ∈ past, event.outcome? = some completion.outcome

section

variable {realm realm' : Realm} {state next : SessionState} {event : SessionEvent}

theorem outcomesRecorded_step {past : List SessionEvent}
    (h : Transition realm state event realm' next) (hbefore : state.OutcomesRecorded past) :
    next.OutcomesRecorded (past ++ [event]) := by
  have hold : state.OutcomesRecorded (past ++ [event]) := by
    intro invocationId execution hget completion hcompletion
    obtain ⟨hid, other, hother, houtcome⟩ := hbefore invocationId execution hget completion hcompletion
    exact ⟨hid, other, List.mem_append_left _ hother, houtcome⟩
  cases h with
  | toolExecutionStarted hpayload hturn hinvocation hcall =>
      refine JsObject.forall_get?_set hold ?_
      intro completion hcompletion
      cases hcompletion
  | toolExecutionReconciled hpayload hexecution huncertain hturn =>
      refine JsObject.forall_get?_set hold ?_
      intro completion hcompletion
      obtain rfl := Option.some.inj hcompletion
      exact ⟨rfl, event, by simp, by rw [SessionEvent.outcome?, hpayload]; rfl⟩
  | toolExecutionCompleted hpayload hturn hexecution hopen =>
      refine JsObject.forall_get?_set hold ?_
      intro completion hcompletion
      obtain rfl := Option.some.inj hcompletion
      exact ⟨rfl, event, by simp, by rw [SessionEvent.outcome?, hpayload]; rfl⟩
  | _ => exact hold

end

section

variable {realm : Realm} {events : List SessionEvent} {state : SessionState} {turn : Turn}
  {turnId : Identifier}

theorem Accepted.outcomesRecorded (h : Accepted realm events state) :
    state.OutcomesRecorded events := by
  refine h.history (P := fun past reached => reached.OutcomesRecorded past) ?_ ?_
  · intro invocationId execution hget
    cases hget
  · intro past before event realm₁ realm₂ next _ hbefore _ htransition
    have hnext := outcomesRecorded_step htransition hbefore
    exact hnext

/-- The execution is held by the turn and has the outcome. -/
def SettledExecution.HeldBy (settled : SettledExecution) (state : SessionState) (turn : Turn) : Prop :=
  ∃ toolCallId invocationId, turn.toolExecutions.get? toolCallId = some invocationId ∧
    state.toolInvocations.get? invocationId = some settled.execution ∧
    settled.execution.completion = some settled.completion

/-- What a turn holds with an outcome is an outcome of that turn. -/
theorem faithful_of_heldBy (h : Accepted realm events state)
    (hconsistent : state.ExecutionsConsistent) (hturn : state.turns.get? turnId = some turn)
    {settled : SettledExecution} (hheld : settled.HeldBy state turn) {message : AgentMessage}
    (hmessage : message = settled.message ∨ IsPrunedStub settled.message message) :
    FaithfulResult events turnId message := by
  obtain ⟨toolCallId, invocationId, hcall, hexecution, hcompletion⟩ := hheld
  obtain ⟨hid, hrecorded⟩ := h.outcomesRecorded invocationId settled.execution hexecution
    settled.completion hcompletion
  obtain ⟨found, hfound, hstarted, -⟩ := (hconsistent turnId turn hturn toolCallId invocationId).mp hcall
  obtain rfl := Option.some.inj (hexecution.symm.trans hfound)
  refine ⟨settled.execution, settled.completion.outcome, hrecorded, ?_, hstarted, ?_, hmessage⟩
  · rw [hid, ← h.started_eq, SessionState.started?, hexecution]
    rfl
  · rcases hmessage with rfl | hstub
    · rfl
    · exact hstub.1

theorem heldBy_of_settledCalls {calls : List AgentToolCall} {executions : List SettledExecution}
    (h : state.settledCalls turn calls = some executions) :
    ∀ settled ∈ executions, settled.HeldBy state turn := by
  intro settled hsettled
  obtain ⟨call, -, hcall⟩ := mem_of_mapM_eq_some h settled hsettled
  obtain ⟨execution, hexecution, hmap⟩ := Option.bind_eq_some_iff.mp hcall
  obtain ⟨completion, hcompletion, rfl⟩ := Option.map_eq_some_iff.mp hmap
  unfold SessionState.execution at hexecution
  split at hexecution
  next invocationId hslot =>
    split at hexecution
    next found hget =>
      obtain rfl := Option.some.inj hexecution
      exact ⟨call.toolCallId, invocationId, JsObject.slot_eq_own_iff.mp hslot, hget, hcompletion⟩
    next => cases hexecution
  next => cases hexecution
  next => cases hexecution

theorem heldBy_of_completedBy {eventId : Identifier} {settled : SettledExecution}
    (h : state.executionCompletedBy turn eventId = some settled) : settled.HeldBy state turn := by
  obtain ⟨execution, hmem, hfound⟩ := List.exists_of_findSome?_eq_some h
  obtain ⟨completion, hcompletion, hfound⟩ := Option.bind_eq_some_iff.mp hfound
  split at hfound
  next =>
    obtain rfl := Option.some.inj hfound
    obtain ⟨invocationId, hvalue, hget⟩ := List.mem_filterMap.mp (List.mem_reverse.mp hmem)
    obtain ⟨toolCallId, hcall⟩ := JsObject.mem_values.mp hvalue
    exact ⟨toolCallId, invocationId, hcall, hget, hcompletion⟩
  next => cases hfound

/-! ## Compaction records -/

theorem olderSource_eq_ok {step : ModelStep} {cursor : Option Nat} {eventId : Identifier}
    {replacement : Option AgentMessage} {position : Nat} {settled : SettledExecution}
    (h : olderSource state turn step cursor eventId replacement = .ok (position, settled)) :
    settled.HeldBy state turn ∧
      ∃ stub, replacement = some stub ∧ IsPrunedStub settled.message stub := by
  unfold olderSource at h
  cases hcompleted : state.executionCompletedBy turn eventId with
  | none =>
      rw [hcompleted] at h
      exact (throw_eq_ok_iff.mp h).elim
  | some found =>
      rw [hcompleted] at h
      obtain ⟨-, h⟩ := reject_bind_eq_ok_iff.mp h
      cases hposition : step.request.messages.findIdx?
          (·.toolCallId = some found.execution.started.toolCallId) with
      | none =>
          rw [hposition] at h
          exact (throw_eq_ok_iff.mp h).elim
      | some index =>
          rw [hposition] at h
          obtain ⟨-, h⟩ := reject_bind_eq_ok_iff.mp h
          obtain ⟨-, h⟩ := reject_bind_eq_ok_iff.mp h
          cases replacement with
          | none => exact (throw_eq_ok_iff.mp h).elim
          | some stub =>
              obtain ⟨hid, h⟩ := reject_bind_eq_ok_iff.mp h
              obtain ⟨hname, h⟩ := reject_bind_eq_ok_iff.mp h
              cases hviolation : prunedStubViolation found.message stub with
              | some violation =>
                  rw [hviolation] at h
                  exact (throw_eq_ok_iff.mp h).elim
              | none =>
                  rw [hviolation] at h
                  obtain ⟨-, rfl⟩ := Prod.mk.inj (pure_eq_ok_iff.mp h)
                  simp only [decide_eq_false_iff_not, not_not] at hid hname
                  exact ⟨heldBy_of_completedBy hcompleted, stub, rfl, hid, hname, hviolation⟩

theorem olderSources_eq_ok {step : ModelStep} {cursor : Option Nat}
    {pairs : List (Identifier × Option AgentMessage)} {sources : List SettledExecution}
    (h : olderSources state turn step cursor pairs = .ok sources) :
    sources.length = pairs.length ∧ ∀ pair ∈ pairs, ∃ (settled : SettledExecution) (stub : AgentMessage),
      settled.HeldBy state turn ∧ pair.2 = some stub ∧ IsPrunedStub settled.message stub := by
  induction pairs generalizing cursor sources with
  | nil =>
      obtain rfl := pure_eq_ok_iff.mp h
      simp
  | cons pair rest ih =>
      obtain ⟨⟨position, settled⟩, hsource, h⟩ := bind_eq_ok_iff.mp h
      obtain ⟨others, hothers, h⟩ := bind_eq_ok_iff.mp h
      obtain rfl := pure_eq_ok_iff.mp h
      obtain ⟨hlength, hrest⟩ := ih hothers
      refine ⟨by simp [hlength], ?_⟩
      intro other hother
      rcases List.mem_cons.mp hother with rfl | hother
      · obtain ⟨hheld, stub, hstub, hpruned⟩ := olderSource_eq_ok hsource
        exact ⟨settled, stub, hheld, hstub, hpruned⟩
      · exact hrest other hother

/-- The record of a current-results compaction replaces each result by a stub of it. -/
def SessionState.CurrentStubsFaithful (state : SessionState) (record : CompactionRecord) : Prop :=
  ∀ turn step calls executions, state.turns.get? record.turnId = some turn →
    turn.modelSteps.getLast? = some step → assembledToolCalls step.modelEvents = .ok calls →
    state.settledCalls turn calls = some executions →
    record.sourceEventIds = executions.map (·.completion.eventId) →
    List.Forall₂ IsPrunedStub (executions.map (·.message)) record.replacementMessages

/-- The replacements of an accepted tool compaction are stubs of outcomes the turn holds. -/
theorem stubs_of_toolSources {record : CompactionRecord} {sources : List HistoryItem} {older : Bool}
    (h : toolSources state turn record = .ok (sources, older))
    (hturn : state.turns.get? record.turnId = some turn)
    (hcurrent : state.CurrentStubsFaithful record) :
    ∀ message ∈ record.replacementMessages, ∃ settled : SettledExecution,
      settled.HeldBy state turn ∧ IsPrunedStub settled.message message := by
  obtain ⟨step, calls, executions, hlast, hcalls, hsettled, hkind⟩ := toolSources_eq_ok h
  intro message hmessage
  rcases hkind with ⟨-, hids, -⟩ | ⟨-, -, settled, hsources, hlength⟩
  · have hsame := faithful_texts.eq_of_canonicalJson_eq trivial trivial hids
    have hstubs := hcurrent turn step calls executions hturn hlast hcalls hsettled hsame
    obtain ⟨hcount, hpaired⟩ := List.forall₂_iff_get.mp hstubs
    obtain ⟨i, hi, rfl⟩ := List.mem_iff_getElem.mp hmessage
    rw [List.length_map] at hcount
    have hfound : i < executions.length := by omega
    refine ⟨executions[i], heldBy_of_settledCalls hsettled _ (List.getElem_mem hfound), ?_⟩
    simpa using hpaired i (by simpa using hfound) hi
  · obtain ⟨hcount, hpairs⟩ := olderSources_eq_ok hsources
    obtain ⟨i, hi, rfl⟩ := List.mem_iff_getElem.mp hmessage
    rw [List.length_map, List.length_zipIdx] at hcount
    have hsource : i < record.sourceEventIds.length := by omega
    obtain ⟨found, stub, hheld, hstub, hpruned⟩ := hpairs
      (record.sourceEventIds[i], record.replacementMessages[i]?)
      (List.mem_map.mpr ⟨(record.sourceEventIds[i], i), by
        rw [List.mem_zipIdx_iff_getElem?]; simp [hsource], rfl⟩)
    rw [List.getElem?_eq_getElem hi, Option.some.injEq] at hstub
    exact ⟨found, hheld, hstub ▸ hpruned⟩

end

/-! ## Assembled requests -/

theorem instructionTiers_roles {included : List String} {blocks : List AgentMessage}
    {sawHistory sawData : Bool} {tiers : List String}
    (h : instructionTiers included sawHistory sawData blocks = some tiers) :
    ∀ message ∈ blocks, message.role ≠ .tool := by
  induction blocks generalizing sawHistory sawData tiers with
  | nil => simp
  | cons block rest ih =>
      -- a block that is kept has another role, and the rest is read in the same way
      have hblock : block.role ≠ .tool ∧ ∃ saw data found,
          instructionTiers included saw data rest = some found := by
        unfold instructionTiers at h
        split at h
        next hrole =>
          split at h
          next hknown => exact ⟨by rcases hknown with hrole | hrole <;> simp [hrole], _, _, _, h⟩
          next => cases h
        next hrole =>
          refine ⟨by simp [not_not.mp hrole], ?_⟩
          split at h
          next => cases h
          next =>
            split at h
            next => cases h
            next =>
              split at h
              next => cases h
              next =>
                split at h
                next =>
                  split at h
                  next => cases h
                  next =>
                    obtain ⟨found, hfound, -⟩ := Option.map_eq_some_iff.mp h
                    exact ⟨_, _, found, hfound⟩
                next =>
                  split at h
                  next => exact ⟨_, _, _, h⟩
                  next => cases h
      obtain ⟨hrole, saw, data, found, hrest⟩ := hblock
      intro message hmessage
      rcases List.mem_cons.mp hmessage with rfl | hmessage
      · exact hrole
      · exact ih hrest message hmessage

/-- An assembled request carries no tool messages. -/
theorem assembled_roles {payload : ContextAssembledPayload} {input : AgentMessage}
    (hvalid : payload.valid = true) (hinput : input.valid = true) (huser : input.role = .user)
    (hlast : payload.request.request.messages.getLast?.map
      (fun message => canonicalJson message.toJson) = some (canonicalJson input.toJson)) :
    ∀ message ∈ payload.request.request.messages, message.role ≠ .tool := by
  have hmessages := ContextAssembledPayload.request_valid hvalid
  simp only [ModelRequestV2.valid, Bool.and_eq_true] at hmessages
  have hmessagesValid := ModelRequest.messages_valid hmessages.1
  simp only [ContextAssembledPayload.valid, Bool.and_eq_true] at hvalid
  obtain ⟨⟨⟨-, hhead⟩, hblocks⟩, -⟩ := hvalid
  have hroles : ∀ message ∈ payload.blocks, message.role ≠ .tool := by
    unfold ContextAssembledPayload.validBlocks at hblocks
    split at hblocks
    next => cases hblocks
    next tiers htiers => exact instructionTiers_roles htiers
  intro message hmessage
  rw [ContextAssembledPayload.blocks] at hroles
  cases hlist : payload.request.request.messages with
  | nil => simp [hlist] at hmessage
  | cons head rest =>
      rw [hlist] at hmessage hhead hroles hlast hmessagesValid
      rcases List.mem_cons.mp hmessage with rfl | hmessage
      · simp only [List.head?_cons, Option.any_some, Bool.and_eq_true, decide_eq_true_eq] at hhead
        simp [hhead.1]
      · obtain ⟨last, hrest⟩ : ∃ last, rest = rest.dropLast ++ [last] :=
          ⟨_, (List.dropLast_append_getLast (List.ne_nil_of_mem hmessage)).symm⟩
        rw [hrest] at hmessage
        rcases List.mem_append.mp hmessage with hblock | hend
        · exact hroles message hblock
        · obtain rfl := List.mem_singleton.mp hend
          have hsame : message = input := by
            rw [hrest, ← List.cons_append, List.getLast?_concat, Option.map_some,
              Option.some.injEq] at hlast
            refine faithful_message.eq_of_canonicalJson_eq (hmessagesValid message ?_) hinput hlast
            rw [hrest]
            simp
          simp [hsame, huser]

/-! ## Turns along a stream -/

/-- What a turn carries of tool results after a stream. -/
structure Turn.ResultsFaithful (past : List SessionEvent) (turnId : Identifier) (turn : Turn) :
    Prop where
  input : turn.input.valid = true ∧ turn.input.role = .user
  assembly : ∀ assembly ∈ turn.assembly, ∀ message ∈ assembly.request.request.messages,
    message.role ≠ .tool
  steps : ∀ step ∈ turn.modelSteps, StepFaithful past turnId step
  compactions : ∀ compaction ∈ turn.toolCompactions,
    ∀ message ∈ compaction.record.replacementMessages, message.valid = true ∧
      (message.role = .tool → FaithfulResult past turnId message)
  pending : ∀ compaction ∈ turn.pendingOlderCompaction, compaction ∈ turn.toolCompactions

namespace Turn.ResultsFaithful

variable {past : List SessionEvent} {turnId : Identifier} {turn : Turn}

theorem mono (h : turn.ResultsFaithful past turnId) (later : List SessionEvent) :
    turn.ResultsFaithful (past ++ later) turnId where
  input := h.input
  assembly := h.assembly
  steps step hstep := (h.steps step hstep).mono later
  compactions compaction hcompaction message hmessage :=
    ⟨(h.compactions compaction hcompaction message hmessage).1, fun hrole =>
      ((h.compactions compaction hcompaction message hmessage).2 hrole).mono later⟩
  pending := h.pending

theorem modifyStep (h : turn.ResultsFaithful past turnId) (stepId : Identifier)
    {change : ModelStep → ModelStep} (hchange : ∀ step, (change step).stepId = step.stepId ∧
      (change step).request = step.request ∧ (change step).sourceEventIds = step.sourceEventIds) :
    (turn.modifyStep stepId change).ResultsFaithful past turnId where
  input := h.input
  assembly := h.assembly
  steps step hstep := by
    obtain hstep | ⟨old, hold, -, rfl⟩ := mem_modifyStep hstep
    · exact h.steps step hstep
    · obtain ⟨hid, hrequest, hsources⟩ := hchange old
      rw [StepFaithful, hid, hrequest, hsources]
      exact h.steps old hold
  compactions := h.compactions
  pending := h.pending

/-- The replaced predecessor of a continuation. -/
theorem replaceOlder (h : turn.ResultsFaithful past turnId) {message : AgentMessage}
    (hvalid : message.valid = true)
    (hmessage : message.role = .tool → FaithfulResult past turnId message) :
    (Hseos.replaceOlder turn.pendingOlderCompaction message).valid = true ∧
      ((Hseos.replaceOlder turn.pendingOlderCompaction message).role = .tool →
        FaithfulResult past turnId (Hseos.replaceOlder turn.pendingOlderCompaction message)) := by
  unfold Hseos.replaceOlder
  cases hpending : turn.pendingOlderCompaction with
  | none => exact ⟨hvalid, hmessage⟩
  | some compaction =>
      dsimp only
      split
      next =>
        cases hfind : compaction.record.replacementMessages.reverse.find? fun replacement =>
            replacement.toolCallId = message.toolCallId with
        | none => exact ⟨hvalid, hmessage⟩
        | some replacement =>
            exact h.compactions compaction (h.pending compaction hpending) replacement
              (List.mem_reverse.mp (List.mem_of_find?_eq_some hfind))
      next => exact ⟨hvalid, hmessage⟩

end Turn.ResultsFaithful

theorem distinct_of_assembledToolCalls {modelEvents : List StreamedEvent}
    {calls : List AgentToolCall} (h : assembledToolCalls modelEvents = .ok calls) :
    ∀ call ∈ calls, call.input.distinct = true := by
  obtain ⟨partials, -, h⟩ := bind_eq_ok_iff.mp h
  intro call hcall
  obtain ⟨source, -, hcomplete⟩ := mem_of_mapM_eq_ok h call hcall
  unfold completeCall at hcomplete
  dsimp only at hcomplete
  split at hcomplete
  next => exact (throw_eq_ok_iff.mp hcomplete).elim
  next input hparse =>
    split at hcomplete
    next =>
      obtain rfl := pure_eq_ok_iff.mp hcomplete
      exact distinct_of_parseText hparse
    next => exact (throw_eq_ok_iff.mp hcomplete).elim

section

variable {realm : Realm} {past : List SessionEvent} {state : SessionState} {turn : Turn}
  {payload : ModelRequestStartedPayload}

/-- The tool messages of a continuation come from its predecessor, from a record of
the turn or from the outcomes of its calls. -/
theorem faithful_continuation (haccepted : Accepted realm past state)
    (hconsistent : state.ExecutionsConsistent)
    (hturn : state.turns.get? payload.turnId = some turn)
    (hfaithful : turn.ResultsFaithful past payload.turnId) {previous : ModelStep}
    (hprevious : previous ∈ turn.modelSteps) {calls : List AgentToolCall}
    {executions : List SettledExecution}
    (hexecutions : state.settledCalls turn calls = some executions) {message : AgentMessage}
    (hvalid : ∀ message ∈ previous.request.messages, message.valid = true)
    (hmessage : message ∈ continuationMessages turn.pendingOlderCompaction previous calls
      (state.toolCompaction? turn calls) executions) (hrole : message.role = .tool) :
    FaithfulResult past payload.turnId message := by
  rcases List.mem_append.mp hmessage with hold | hnew
  · obtain ⟨old, hmem, rfl⟩ := List.mem_map.mp hold
    exact (hfaithful.replaceOlder (hvalid old hmem)
      ((hfaithful.steps previous hprevious).messages old hmem)).2 hrole
  · rcases List.mem_cons.mp hnew with rfl | hresult
    · cases hrole
    · cases hcompaction : state.toolCompaction? turn calls with
      | some compaction =>
          rw [hcompaction] at hresult
          exact (hfaithful.compactions compaction (List.mem_of_find?_eq_some hcompaction)
            message hresult).2 hrole
      | none =>
          rw [hcompaction] at hresult
          obtain ⟨settled, hsettled, rfl⟩ := List.mem_map.mp hresult
          exact faithful_of_heldBy haccepted hconsistent hturn
            (heldBy_of_settledCalls hexecutions settled hsettled) (.inl rfl)

theorem distinct_continuation (hfaithful : turn.ResultsFaithful past payload.turnId)
    {previous : ModelStep} (hprevious : previous ∈ turn.modelSteps) {calls : List AgentToolCall}
    (hcalls : assembledToolCalls previous.modelEvents = .ok calls)
    {executions : List SettledExecution}
    (hvalid : ∀ message ∈ previous.request.messages, message.valid = true) :
    ∀ message ∈ continuationMessages turn.pendingOlderCompaction previous calls
      (state.toolCompaction? turn calls) executions, message.toJson.distinct = true := by
  have hdistinct : ∀ {message : AgentMessage}, message.valid = true →
      message.toJson.distinct = true := fun h =>
    Json.distinct_of_wellFormed _ (faithful_message.wellFormed h)
  intro message hmessage
  rcases List.mem_append.mp hmessage with hold | hnew
  · obtain ⟨old, hmem, rfl⟩ := List.mem_map.mp hold
    exact hdistinct (hfaithful.replaceOlder (hvalid old hmem)
      ((hfaithful.steps previous hprevious).messages old hmem)).1
  · rcases List.mem_cons.mp hnew with rfl | hresult
    · apply distinct_message
      intro found hfound
      obtain rfl := Option.some.inj hfound
      exact distinct_of_assembledToolCalls hcalls
    · cases hcompaction : state.toolCompaction? turn calls with
      | some compaction =>
          rw [hcompaction] at hresult
          exact hdistinct (hfaithful.compactions compaction
            (List.mem_of_find?_eq_some hcompaction) message hresult).1
      | none =>
          rw [hcompaction] at hresult
          obtain ⟨settled, -, rfl⟩ := List.mem_map.mp hresult
          exact distinct_message fun _ h => by cases h

/-- The tool messages of the next request of a turn are faithful. -/
theorem faithful_nextRequest (haccepted : Accepted realm past state)
    (hconsistent : state.ExecutionsConsistent)
    (hturn : state.turns.get? payload.turnId = some turn)
    (hfaithful : turn.ResultsFaithful past payload.turnId) (hvalid : payload.request.valid = true)
    (h : NextRequest state turn payload) :
    ∀ message ∈ payload.request.messages, message.role = .tool →
      FaithfulResult past payload.turnId message := by
  intro message hmessage hrole
  have hsteps := (haccepted.requestsValid _ _ hturn).steps
  cases h with
  | @initial assembly hfirst hassembly hrequest hsources =>
      refine absurd hrole (hfaithful.assembly assembly hassembly message ?_)
      rw [hrequest]
      exact hmessage
  | @revision previous revision terminal hlast hrevision hterminal hmessages hstable hsources =>
      rw [hmessages] at hmessage
      rcases List.mem_append.mp hmessage with hold | hnew
      · exact (hfaithful.steps previous (List.mem_of_getLast? hlast)).messages message hold hrole
      · simp only [List.mem_cons, List.not_mem_nil, or_false] at hnew
        rcases hnew with rfl | rfl <;> cases hrole
  | @continuation previous calls executions hlast hrevision hfinish hcalls hexecutions hmessages
      hstable hsources =>
      have hprevious := List.mem_of_getLast? hlast
      have hpreviousValid := ModelRequest.messages_valid (hsteps previous hprevious)
      have hmem := tool_message_mem_of_canonicalJson_eq (ModelRequest.messages_valid hvalid)
        (distinct_continuation hfaithful hprevious hcalls hpreviousValid) hmessages hmessage hrole
      exact faithful_continuation haccepted hconsistent hturn hfaithful hprevious hexecutions
        hpreviousValid hmem hrole

end

section

variable {realm realm' : Realm} {past : List SessionEvent} {state next : SessionState}
  {event : SessionEvent}

theorem record_valid_of_event {record : CompactionRecord}
    (h : event.payload = .compactionCompleted record) :
    ∀ message ∈ record.replacementMessages, message.valid = true := by
  have hvalid := event.payload_valid
  simp only [h, SessionPayload.valid, CompactionRecord.valid, Bool.and_eq_true,
    List.all_eq_true] at hvalid
  exact hvalid.1.1.1.1.1.1.1.1.2

theorem input_valid_of_event {turnId : Identifier} {input : AgentMessage}
    (h : event.payload = .turnStarted turnId input) : input.valid = true ∧ input.role = .user := by
  have hvalid := event.payload_valid
  simpa only [h, SessionPayload.valid, Bool.and_eq_true, decide_eq_true_eq] using hvalid

/-- A record of replaced results joins a turn. -/
theorem Turn.ResultsFaithful.compacted {turnId : Identifier} {turn : Turn}
    (h : turn.ResultsFaithful past turnId) {record : CompactionRecord} (older : Bool)
    (hreplacements : record.trigger = .toolResultPressure →
      ∀ message ∈ record.replacementMessages, message.valid = true ∧
        (message.role = .tool → FaithfulResult past turnId message)) :
    (turn.compacted ⟨record, event.eventId⟩ older).ResultsFaithful past turnId := by
  unfold Turn.compacted
  split
  next => exact ⟨h.input, h.assembly, h.steps, h.compactions, h.pending⟩
  next htrigger =>
    refine ⟨h.input, h.assembly, h.steps, ?_, ?_⟩
    · intro compaction hcompaction
      rcases List.mem_append.mp hcompaction with hold | hnew
      · exact h.compactions compaction hold
      · obtain rfl := List.mem_singleton.mp hnew
        exact hreplacements htrigger
    · intro compaction hcompaction
      dsimp only at hcompaction
      split at hcompaction
      next =>
        obtain rfl := Option.some.inj hcompaction
        exact List.mem_append_right _ (List.mem_singleton_self _)
      next => exact List.mem_append_left _ (h.pending compaction hcompaction)

/-- A transition keeps the turns faithful when what a tool compaction puts in place
of the current results are stubs of them. -/
theorem resultsFaithful_step (haccepted : Accepted realm past state)
    (hconsistent : state.ExecutionsConsistent) {realm₁ realm₂ : Realm}
    (h : Transition realm₁ (state.advance event) event realm₂ next)
    (hstubs : ∀ record, event.payload = .compactionCompleted record →
      record.trigger = .toolResultPressure → state.CurrentStubsFaithful record)
    (hturns : ∀ turnId turn, state.turns.get? turnId = some turn →
      turn.ResultsFaithful past turnId) :
    ∀ turnId turn, next.turns.get? turnId = some turn →
      turn.ResultsFaithful (past ++ [event]) turnId := by
  have hold : ∀ turnId turn, state.turns.get? turnId = some turn →
      turn.ResultsFaithful (past ++ [event]) turnId := fun turnId turn hturn =>
    (hturns turnId turn hturn).mono [event]
  cases h with
  | @turnStarted turnId input hpayload hfresh =>
      refine JsObject.forall_get?_set hold ⟨input_valid_of_event hpayload, ?_, ?_, ?_, ?_⟩ <;>
        simp [newTurn]
  | @contextAssembled payload turn hpayload hturn hfresh hinput =>
      have hbefore := hold _ _ hturn
      refine JsObject.forall_get?_set hold
        ⟨hbefore.input, ?_, hbefore.steps, hbefore.compactions, hbefore.pending⟩
      intro assembly hassembly
      obtain rfl := Option.some.inj hassembly
      exact assembled_roles (assembled_valid_of_event hpayload) hbefore.input.1 hbefore.input.2 hinput
  | @modelRequestStarted payload turn assembly hpayload hturn hassembly hfresh hcheck =>
      have hbefore := hold _ _ hturn
      have hvalid := request_valid_of_event hpayload
      have hcheck : checkRequest state turn assembly payload = .ok () := hcheck
      have hnext := nextRequest_of_check (haccepted.requestsValid _ _ hturn) hassembly hvalid hcheck
      have hmessages := faithful_nextRequest haccepted hconsistent hturn (hturns _ _ hturn) hvalid
        hnext
      refine JsObject.forall_get?_set hold
        ⟨hbefore.input, hbefore.assembly, ?_, hbefore.compactions, ?_⟩
      · intro step hstep
        rcases List.mem_append.mp hstep with hstep | hstep
        · exact hbefore.steps step hstep
        · obtain rfl := List.mem_singleton.mp hstep
          exact ⟨past, event, [], rfl, hpayload, hmessages⟩
      · intro compaction hcompaction
        cases hcompaction
  | modelRevisionRequested hpayload hturn =>
      exact JsObject.forall_get?_set hold
        ((hold _ _ hturn).modifyStep _ fun _ => ⟨rfl, rfl, rfl⟩)
  | turnStreamed hpayload hturn hopen =>
      have hbefore := hold _ _ hturn
      exact JsObject.forall_get?_set hold
        ⟨hbefore.input, hbefore.assembly, hbefore.steps, hbefore.compactions, hbefore.pending⟩
  | @stepStreamed payload turn stepId step hpayload hturn hstep hopen =>
      have hbefore := hold _ _ hturn
      have hrecorded : (turn.record (streamedEvent event payload)).ResultsFaithful
          (past ++ [event]) payload.turnId :=
        ⟨hbefore.input, hbefore.assembly, hbefore.steps, hbefore.compactions, hbefore.pending⟩
      exact JsObject.forall_get?_set hold (hrecorded.modifyStep _ fun _ => ⟨rfl, rfl, rfl⟩)
  | toolExecutionStarted hpayload hturn hinvocation hcall =>
      have hbefore := hold _ _ hturn
      exact JsObject.forall_get?_set hold
        ⟨hbefore.input, hbefore.assembly, hbefore.steps, hbefore.compactions, hbefore.pending⟩
  | toolExecutionCompleted hpayload hturn hexecution hopen =>
      have hbefore := hold _ _ hturn
      exact JsObject.forall_get?_set hold
        ⟨hbefore.input, hbefore.assembly, hbefore.steps, hbefore.compactions, hbefore.pending⟩
  | @compactionCompleted record turn sources older hpayload hturn hsources =>
      refine JsObject.forall_get?_set hold ((hold _ _ hturn).compacted older ?_)
      intro htrigger message hmessage
      refine ⟨record_valid_of_event hpayload message hmessage, fun _ => ?_⟩
      rw [compactionSources, htrigger] at hsources
      obtain ⟨settled, hheld, hstub⟩ := stubs_of_toolSources hsources hturn
        (hstubs record hpayload htrigger) message hmessage
      exact (faithful_of_heldBy haccepted hconsistent hturn hheld (.inr hstub)).mono [event]
  | _ => exact hold

end

/-- Whenever a tool compaction replaces the current results, it replaces each by a
stub of it. -/
def CurrentResultsPruned (realm : Realm) : List SessionEvent → Prop :=
  Throughout fun past event => ∀ record, event.payload = .compactionCompleted record →
    record.trigger = .toolResultPressure → ∀ before, Accepted realm past before →
      before.CurrentStubsFaithful record

/-- When completed outcomes name the turn their executions were started in, and
current results are replaced by stubs of them, every tool message that a model
step was sent is the message of an earlier outcome of its turn or a stub of it. -/
theorem tool_results_faithful {realm : Realm} {events : List SessionEvent} {state : SessionState}
    (h : Accepted realm events state) (hnamed : OutcomesNameStartedTurn events)
    (hpruned : CurrentResultsPruned realm events) :
    ∀ turnId turn, state.turns.get? turnId = some turn →
      ∀ step ∈ turn.modelSteps, StepFaithful events turnId step := by
  have hfaithful : ∀ turnId turn, state.turns.get? turnId = some turn →
      turn.ResultsFaithful events turnId := by
    refine h.history (P := fun past reached => OutcomesNameStartedTurn past →
      CurrentResultsPruned realm past → ∀ turnId turn, reached.turns.get? turnId = some turn →
        turn.ResultsFaithful past turnId) ?_ ?_ hnamed hpruned
    · intro _ _ turnId turn hturn
      cases hturn
    · intro past before event realm₁ realm₂ next hpast hbefore _ htransition hnamed hpruned
      have hnamedPast := hnamed.of_isPrefix (List.prefix_append past [event])
      have hnext := resultsFaithful_step hpast (hpast.executionsConsistent hnamedPast) htransition
        (fun record hpayload htrigger => hpruned.last record hpayload htrigger before hpast)
        (hbefore hnamedPast (hpruned.of_isPrefix (List.prefix_append past [event])))
      exact hnext
  intro turnId turn hturn
  exact (hfaithful turnId turn hturn).steps

namespace Sample

def outcomeMessage : AgentMessage :=
  toolOutcomeMessage ⟨toolStarted, ident "e7", none, none⟩ (toolOutcome (ident "t1"))

/-- The request that answers the tool call with the given result. -/
def continuation (result : AgentMessage) (sourceEventIds : List Identifier) : SessionPayload :=
  .modelRequestStarted ⟨ident "t1", ident "st2",
    { request with
      requestId := ident "r2"
      messages := request.messages ++
        [{ role := .assistant, content := "",
            toolCalls := some [⟨ident "c1", ident "tool", .obj []⟩] }, result] },
    sourceEventIds⟩

/-- The turn goes on with the message of the outcome. -/
def toolContinued : List SessionEvent :=
  toolAnswered ++
    [event "e10" 10 (continuation outcomeMessage [ident "e6", ident "e9"])]

def manifest : CompactionProviderManifest :=
  ⟨ident "cp", ⟨"1.0.0", Eq.refl true⟩, [.toolResultPrune], 100000, 100000⟩

/-- The assembled context with a budget that selects compaction providers. -/
def compactable : ContextAssembledPayload :=
  { assembled with budget := { assembled.budget with
      overflowPolicy := .compact
      compactionProviderId := some (some (ident "cp"))
      checkpointProviderId := some (some (ident "cc"))
      compactionProviderManifest := some (some manifest) } }

/-- A tool message that no outcome accounts for. -/
def forged : AgentMessage :=
  { role := .tool, content := "ok", name := some (ident "tool"), toolCallId := some (ident "c1") }

def forgedRecord : CompactionRecord where
  compactionId := ident "k1"
  turnId := ident "t1"
  providerId := ident "cp"
  providerManifest := manifest
  checkpointProviderId := ident "cc"
  trigger := .toolResultPressure
  strategy := .toolResultPrune
  checkpointRef := reference "checkpoint"
  sourceEventIds := [ident "e8"]
  retainedSourceEventIds := []
  sourceDigest :=
    ⟨"sha256:a6ebe3ec468d52b8ad30af802cf3286cb2315621e4a75f5bbb7a97e0afdb3cfb", Eq.refl true⟩
  replacementMessages := [forged]
  before := ⟨1, 158, 158⟩
  after := ⟨1, 66, 66⟩
  prunedToolCallIds := [ident "c1"]

/-- The current result is compacted to the forged message, which the next step is sent. -/
def forgedResult : List SessionEvent :=
  [created, asked,
    event "e3" 3 (.contextAssembled compactable),
    firstRequested,
    toolCalled, calledTools, toolBegun,
    event "e8" 8 (.toolExecutionCompleted ⟨ident "t1", ident "st1", toolOutcome (ident "t1")⟩),
    event "e9" 9 (.compactionCompleted forgedRecord),
    event "e10" 10 (continuation forged [ident "e6", ident "e9"])]

end Sample

theorem toolContinued_faithful : ∃ state, Accepted ⟨false⟩ Sample.toolContinued state ∧
    ∀ turnId turn, state.turns.get? turnId = some turn →
      ∀ step ∈ turn.modelSteps, StepFaithful Sample.toolContinued turnId step := by
  obtain ⟨state, haccepted, -⟩ := acceptsWith_iff.mp
    (show acceptsWith ⟨false⟩ Sample.toolContinued (fun _ => true) = true by decide +kernel)
  refine ⟨state, haccepted, tool_results_faithful haccepted (by decide +kernel) ?_⟩
  intro past event future heq record hpayload
  have htypes : ∀ event ∈ Sample.toolContinued, event.eventType ≠ "compaction.completed" := by
    decide +kernel
  have hmem : event ∈ Sample.toolContinued := by
    rw [heq]
    simp
  exact absurd (by rw [SessionEvent.eventType, hpayload]; rfl) (htypes event hmem)

/-- A tool message that no outcome accounts for reaches the model. -/
theorem forgedResult_unfaithful :
    ¬ ∀ realm events state, Accepted realm events state →
      ∀ turnId turn, state.turns.get? turnId = some turn →
        ∀ step ∈ turn.modelSteps, StepFaithful events turnId step := by
  intro hall
  obtain ⟨state, haccepted, hstate⟩ := acceptsWith_iff.mp
    (show acceptsWith ⟨false⟩ Sample.forgedResult (fun state =>
      ((state.turns.get? (Sample.ident "t1")).map fun turn => turn.modelSteps.any fun step =>
        Sample.forged ∈ step.request.messages) = some true) = true by decide +kernel)
  obtain ⟨turn, hturn, hsent⟩ := Option.map_eq_some_iff.mp (of_decide_eq_true hstate)
  obtain ⟨step, hstep, hforged⟩ := List.any_eq_true.mp hsent
  obtain ⟨execution, outcome, ⟨event, hevent, houtcome⟩, -, -, -, hmessage⟩ :=
    (hall _ _ _ haccepted _ _ hturn step hstep).messages _ (of_decide_eq_true hforged) rfl
  have honly : Sample.forgedResult.filterMap SessionEvent.outcome? =
      [Sample.toolOutcome (Sample.ident "t1")] := rfl
  have hmem : outcome ∈ Sample.forgedResult.filterMap SessionEvent.outcome? :=
    List.mem_filterMap.mpr ⟨event, hevent, houtcome⟩
  rw [honly, List.mem_singleton] at hmem
  subst hmem
  rcases hmessage with hsame | ⟨-, -, hstub⟩
  · have hcontent := congrArg AgentMessage.content hsame
    change Sample.forged.content = Sample.outcomeMessage.content at hcontent
    exact absurd hcontent (by decide +kernel)
  · have hviolation : prunedStubViolation (toolOutcomeMessage execution
        (Sample.toolOutcome (Sample.ident "t1"))) Sample.forged = some "stub is not valid JSON" := by
      have hparse : parseJson Sample.forged.content = none := by decide +kernel
      rw [prunedStubViolation, hparse]
    rw [hviolation] at hstub
    cases hstub

end Hseos
