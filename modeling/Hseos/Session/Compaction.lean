import Hseos.Session.Model

/-! # Compaction records

A compaction replaces the durable history of a turn before its context is
assembled, the results of the latest tool calls, or older results that the last
request still carries verbatim.
-/

namespace Hseos

/-- The source list of a pressure-triggered compaction of the turn's context. -/
def contextSources (state : SessionState) (record : CompactionRecord) : Replay (List HistoryItem) := do
  let durable := durableHistory state record.turnId
  reject (canonicalJson (.ofTexts (record.sourceEventIds ++ record.retainedSourceEventIds)) ≠
      canonicalJson (.ofTexts (durable.map (·.sourceEventId))))
    (replayError "compaction lineage must partition the exact durable history into prefix and suffix"
      "AGENT_SESSION_COMPACTION_LINEAGE_INVALID")
  return durable.take record.sourceEventIds.length

def compactionOrder (message : String) : ReplayFailure :=
  replayError message "AGENT_SESSION_COMPACTION_ORDER_INVALID"

def compactionLineage (message : String) : ReplayFailure :=
  replayError message "AGENT_SESSION_COMPACTION_LINEAGE_INVALID"

def compactionIdentity (message : String) : ReplayFailure :=
  replayError message "AGENT_SESSION_COMPACTION_TOOL_IDENTITY_INVALID"

/-- The execution that a completion event settled; the last one wins, as in `new Map(entries)`. -/
def SessionState.executionCompletedBy (state : SessionState) (turn : Turn) (eventId : Identifier) :
    Option SettledExecution :=
  (state.executions turn).reverse.findSome? fun execution =>
    execution.completion.bind fun completion =>
      if completion.eventId = eventId then some ⟨execution, completion⟩ else none

/-- One source of an older-results record, with the position of its message in
the last request. -/
def olderSource (state : SessionState) (turn : Turn) (step : ModelStep) (cursor : Option Nat)
    (eventId : Identifier) (replacement : Option AgentMessage) : Replay (Nat × SettledExecution) := do
  match state.executionCompletedBy turn eventId with
  | none => throw (compactionLineage "older-results source is not a completed durable result")
  | some settled =>
      let started := settled.execution.started
      reject (!(turn.modelSteps.findIdx? (·.stepId = started.stepId)).any
          (· < turn.modelSteps.length - 1))
        (compactionLineage "older-results source belongs to the current step")
      match step.request.messages.findIdx? (·.toolCallId = some started.toolCallId) with
      | none => throw (compactionLineage "older-results sources are not in request order")
      | some position =>
          reject (cursor.any (position ≤ ·))
            (compactionLineage "older-results sources are not in request order")
          reject (step.request.messages[position]?.map (fun message => canonicalJson message.toJson) ≠
              some (canonicalJson settled.message.toJson))
            (compactionLineage "older-results source is not verbatim in the last request")
          match replacement with
          | none => throw (compactionIdentity "older-results replacement changes call identity")
          | some stub =>
              reject (stub.toolCallId ≠ some started.toolCallId)
                (compactionIdentity "older-results replacement changes call identity")
              reject (stub.name ≠ some started.name)
                (compactionIdentity "older-results replacement changes the tool name")
              match prunedStubViolation settled.message stub with
              | some violation =>
                  throw (replayError ("older tool compaction stub is not faithful: " ++ violation)
                    "AGENT_SESSION_COMPACTION_STUB_MISMATCH")
              | none => return (position, settled)

/-- The sources of an older-results record, in the order of the last request. -/
def olderSources (state : SessionState) (turn : Turn) (step : ModelStep) :
    Option Nat → List (Identifier × Option AgentMessage) → Replay (List SettledExecution)
  | _, [] => return []
  | cursor, (eventId, replacement) :: rest => do
      let (position, settled) ← olderSource state turn step cursor eventId replacement
      let sources ← olderSources state turn step (some position) rest
      return settled :: sources

/-- The sources of a tool compaction, and whether it covers older results. -/
def toolSources (state : SessionState) (turn : Turn) (record : CompactionRecord) :
    Replay (List HistoryItem × Bool) := do
  match turn.modelSteps.getLast? with
  | none => throw (compactionOrder "tool compaction requires a completed tool-call step")
  | some step =>
      reject (step.finishReason? ≠ some .toolCalls)
        (compactionOrder "tool compaction requires a completed tool-call step")
      let calls ← assembledToolCalls step.modelEvents
      match state.settledCalls turn calls with
      | none => throw (compactionLineage "tool compaction lineage differs from exact durable outcomes")
      | some executions =>
          reject (record.retainedSourceEventIds ≠ [])
            (compactionLineage "tool compaction lineage differs from exact durable outcomes")
          let currentIds := Json.ofTexts (executions.map (·.completion.eventId))
          if canonicalJson (.ofTexts record.sourceEventIds) = canonicalJson currentIds then
            reject (canonicalJson (.arr (record.replacementMessages.map fun message =>
                  .ofNullable .ofText message.toolCallId)) ≠
                canonicalJson (.ofTexts (calls.map (·.toolCallId))))
              (compactionIdentity "tool compaction changed call identity or ordering")
            return (executions.map (·.historyItem), false)
          else
            reject turn.pendingOlderCompaction.isSome
              (compactionOrder "an older-results record is already pending for this step")
            reject (record.strategy ≠ .toolResultPrune)
              (compactionOrder "an older-results record must prune tool results")
            reject (turn.toolCompactions.any fun candidate =>
                canonicalJson (.ofTexts candidate.record.sourceEventIds) = canonicalJson currentIds)
              (compactionOrder "an older-results record cannot follow the current-results record")
            let sources ← olderSources state turn step none
              (record.sourceEventIds.zipIdx.map fun entry =>
                (entry.1, record.replacementMessages[entry.2]?))
            reject (record.replacementMessages.length ≠ sources.length)
              (compactionIdentity "older tool compaction changed call identity or ordering")
            return (sources.map (·.historyItem), true)

/-- What every compaction record must account for. -/
def checkCompaction (sources : List HistoryItem) (budget : Option ContextBudgetReport)
    (record : CompactionRecord) : Replay Unit := do
  reject (record.sourceDigest.val ≠ digest (.arr (sources.map HistoryItem.toJson)))
    (replayError "compaction source digest differs from durable history"
      "AGENT_SESSION_COMPACTION_DIGEST_INVALID")
  reject (canonicalJson record.before.toJson ≠
        canonicalJson (compactionStats (sources.map (·.message))).toJson ||
      canonicalJson record.after.toJson ≠
        canonicalJson (compactionStats record.replacementMessages).toJson)
    (replayError "compaction accounting differs from durable messages"
      "AGENT_SESSION_COMPACTION_ACCOUNTING_INVALID")
  reject (record.providerManifest.maxInputBytes < record.before.bytes ||
      record.providerManifest.maxOutputBytes < record.after.bytes)
    (replayError "compaction exceeds its durable provider manifest"
      "AGENT_SESSION_COMPACTION_CAP_INVALID")
  reject (budget.any (·.provenanceDiffers record))
    (replayError "tool compaction provenance differs from selected budget providers"
      "AGENT_SESSION_COMPACTION_PROVENANCE_INVALID")

/-- A record with the same identity, checkpoint or sources is already durable. -/
def duplicateCompaction (compactions : List Compaction) (record : CompactionRecord) : Bool :=
  compactions.any fun compaction =>
    compaction.record.compactionId = record.compactionId ||
      compaction.record.checkpointRef = record.checkpointRef ||
      (compaction.record.turnId = record.turnId && compaction.record.trigger = record.trigger &&
        canonicalJson (.ofTexts compaction.record.sourceEventIds) =
          canonicalJson (.ofTexts record.sourceEventIds))

/-- The turn with a durable compaction record. -/
def Turn.compacted (turn : Turn) (compaction : Compaction) (older : Bool) : Turn :=
  match compaction.record.trigger with
  | .contextPressure => { turn with contextCompaction := some compaction }
  | .toolResultPressure => { turn with
      toolCompactions := turn.toolCompactions ++ [compaction]
      pendingOlderCompaction := if older then some compaction else turn.pendingOlderCompaction }

def contextCompactionRepeated : ReplayFailure :=
  compactionOrder "turn context compaction must occur exactly once before context assembly"

/-- The sources a record replaces, and whether they are older results. -/
def compactionSources (state : SessionState) (turn : Turn) (record : CompactionRecord) :
    Replay (List HistoryItem × Bool) :=
  match record.trigger with
  | .contextPressure => do
      reject (turn.assembly.isSome || turn.contextCompaction.isSome) contextCompactionRepeated
      let sources ← contextSources state record
      return (sources, false)
  | .toolResultPressure => toolSources state turn record

def SessionState.addCompaction (state : SessionState) (compaction : Compaction) : SessionState :=
  { state with compactions := state.compactions ++ [compaction] }

def applyCompactionCompleted (realm : Realm) (state : SessionState) (event : SessionEvent)
    (record : CompactionRecord) : Replay (Realm × SessionState) := do
  let found ← requireTurn state record.turnId event
  reject (duplicateCompaction state.compactions record)
    (replayError "compaction identity or source set is already recorded"
      "AGENT_SESSION_DUPLICATE_COMPACTION")
  let compaction := ⟨record, event.eventId⟩
  let recorded := state.addCompaction compaction
  match found with
  | none =>
      match record.trigger with
      | .toolResultPressure => throw .typeError
      | .contextPressure =>
          reject realm.objectContextCompaction contextCompactionRepeated
          let sources ← contextSources state record
          checkCompaction sources none record
          return (⟨true⟩, recorded)
  | some turn =>
      let (sources, older) ← compactionSources state turn record
      checkCompaction sources (turn.assembly.map (·.budget)) record
      return (realm, recorded.setTurn record.turnId (turn.compacted compaction older))

theorem toolSources_eq_ok {state : SessionState} {turn : Turn} {record : CompactionRecord}
    {sources : List HistoryItem} {older : Bool}
    (h : toolSources state turn record = .ok (sources, older)) :
    ∃ step calls executions, turn.modelSteps.getLast? = some step ∧
      assembledToolCalls step.modelEvents = .ok calls ∧
      state.settledCalls turn calls = some executions ∧
      ((older = false ∧ canonicalJson (.ofTexts record.sourceEventIds) =
          canonicalJson (.ofTexts (executions.map (·.completion.eventId))) ∧
        canonicalJson (.arr (record.replacementMessages.map fun message =>
            .ofNullable .ofText message.toolCallId)) =
          canonicalJson (.ofTexts (calls.map (·.toolCallId)))) ∨
      (older = true ∧ record.strategy = .toolResultPrune ∧
        ∃ settled, olderSources state turn step none (record.sourceEventIds.zipIdx.map fun entry =>
            (entry.1, record.replacementMessages[entry.2]?)) = .ok settled ∧
          record.replacementMessages.length = settled.length)) := by
  unfold toolSources at h
  cases hlast : turn.modelSteps.getLast? with
  | none =>
      rw [hlast] at h
      exact (throw_eq_ok_iff.mp h).elim
  | some step =>
      rw [hlast] at h
      obtain ⟨-, h⟩ := reject_bind_eq_ok_iff.mp h
      obtain ⟨calls, hcalls, h⟩ := bind_eq_ok_iff.mp h
      cases hsettled : state.settledCalls turn calls with
      | none =>
          rw [hsettled] at h
          exact (throw_eq_ok_iff.mp h).elim
      | some executions =>
          rw [hsettled] at h
          obtain ⟨-, h⟩ := reject_bind_eq_ok_iff.mp h
          refine ⟨step, calls, executions, rfl, hcalls, hsettled, ?_⟩
          dsimp only at h
          split at h
          next hcurrent =>
            obtain ⟨hidentity, h⟩ := reject_bind_eq_ok_iff.mp h
            exact .inl ⟨(Prod.mk.inj (pure_eq_ok_iff.mp h)).2.symm, hcurrent, by simpa using hidentity⟩
          next hcurrent =>
            obtain ⟨-, h⟩ := reject_bind_eq_ok_iff.mp h
            obtain ⟨hstrategy, h⟩ := reject_bind_eq_ok_iff.mp h
            obtain ⟨-, h⟩ := reject_bind_eq_ok_iff.mp h
            obtain ⟨settled, hsources, h⟩ := bind_eq_ok_iff.mp h
            obtain ⟨hlength, h⟩ := reject_bind_eq_ok_iff.mp h
            exact .inr ⟨(Prod.mk.inj (pure_eq_ok_iff.mp h)).2.symm, by simpa using hstrategy,
              settled, hsources, by simpa using hlength⟩

theorem applyCompactionCompleted_eq_ok {realm realm' : Realm} {state next : SessionState}
    {event : SessionEvent} {record : CompactionRecord}
    (h : applyCompactionCompleted realm state event record = .ok (realm', next)) :
    (state.turns.get? record.turnId = none ∧ record.trigger = .contextPressure ∧
      realm' = ⟨true⟩ ∧ next = state.addCompaction ⟨record, event.eventId⟩) ∨
    ∃ turn sources older, state.turns.get? record.turnId = some turn ∧ realm' = realm ∧
      compactionSources state turn record = .ok (sources, older) ∧
      next = (state.addCompaction ⟨record, event.eventId⟩).setTurn record.turnId
        (turn.compacted ⟨record, event.eventId⟩ older) := by
  obtain ⟨found, hfound, h⟩ := bind_eq_ok_iff.mp h
  obtain ⟨-, h⟩ := reject_bind_eq_ok_iff.mp h
  have hget := requireTurn_eq_ok hfound
  cases found with
  | none =>
      dsimp only at h
      cases htrigger : record.trigger with
      | toolResultPressure =>
          rw [htrigger] at h
          exact (throw_eq_ok_iff.mp h).elim
      | contextPressure =>
          rw [htrigger] at h
          obtain ⟨-, h⟩ := reject_bind_eq_ok_iff.mp h
          obtain ⟨sources, -, h⟩ := bind_eq_ok_iff.mp h
          obtain ⟨⟨⟩, -, h⟩ := bind_eq_ok_iff.mp h
          obtain ⟨hrealm, hnext⟩ := Prod.mk.inj (pure_eq_ok_iff.mp h)
          exact .inl ⟨hget, rfl, hrealm.symm, hnext.symm⟩
  | some turn =>
      obtain ⟨⟨sources, older⟩, hsources, h⟩ := bind_eq_ok_iff.mp h
      obtain ⟨⟨⟩, -, h⟩ := bind_eq_ok_iff.mp h
      obtain ⟨hrealm, hnext⟩ := Prod.mk.inj (pure_eq_ok_iff.mp h)
      exact .inr ⟨turn, sources, older, hget, hrealm.symm, hsources, hnext.symm⟩

end Hseos
