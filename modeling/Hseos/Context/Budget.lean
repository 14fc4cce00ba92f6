import Hseos.Compaction.Runtime
import Hseos.Context.Composition
import Hseos.Foundation.Selection

/-! # Context budget

The choice of the optional context under an input limit: all of it, a greedy selection,
a selection whose older history a compaction replaces, or what a recorded compaction
left of one.
-/

namespace Hseos.Context

/-! ## Errors -/

def budgetError (message : String) : Thrown :=
  .ofError "ContextBudgetError" "AGENT_CONTEXT_BUDGET_EXCEEDED" message

def compactionMismatch : Thrown :=
  .ofError "ContextAssemblyError" "AGENT_CONTEXT_COMPACTION_MISMATCH"
    "durable compaction differs from the requested compaction identity"

/-- Reading a field of `undefined`. -/
def typeError (field : String) : Thrown :=
  { Thrown.ofError "TypeError" "" ("Cannot read properties of undefined (reading '" ++ field ++ "')") with
    code := .undefined }

/-! ## Selection -/

/-- What a budget is computed with: the token counter, the input limit of the model context,
and the runtime that compacts, when there is one. -/
structure Setting where
  count : TokenCounter
  inputLimit : Nat
  runtime : Option (CompactionRuntime AgentMessage)

namespace AssemblyInput

variable (input : AssemblyInput) (setting : Setting)

/-- The composition of a selection has at most as many tokens as the limit. -/
def fits (selection : Selection) : Except Thrown Bool := do
  let composition ← input.compose setting.count selection
  return composition.measurement.inputTokens ≤ setting.inputLimit

/-- `#selectOptional`: the newest history first, then memory, then media. -/
def selectOptional : Except Thrown (Selection × List String) := do
  let (history, overflowed) ← takeFitting
    (fun history => input.fits setting ⟨history, [], input.requiredMedia⟩) []
    (orderedHistory input.history).reverse
  let (memory, omittedMemory) ← filterFitting
    (fun memory => input.fits setting ⟨history, memory, input.requiredMedia⟩) []
    (orderedMemory input.memory)
  let (media, omittedMedia) ← filterFitting
    (fun media => input.fits setting ⟨history, memory, media⟩) input.requiredMedia
    ((orderedMedia input.media).filter (·.sourceRef ∉ input.requiredMedia.map (·.sourceRef)))
  return (⟨history, memory, media⟩,
    overflowed.map (·.sourceRef) ++ omittedMemory.map (·.sourceRef.val) ++
      omittedMedia.map (·.sourceRef.val))

/-- The references of the memory that is not retained. -/
def memoryOutside (retained : List MemorySource) : List String :=
  (input.memory.filter (·.sourceRef ∉ retained.map (·.sourceRef))).map (·.sourceRef.val)

/-- The references of the media that are not selected. -/
def mediaOutside (selected : List MediaSource) : List String :=
  (input.media.filter (· ∉ selected)).map (·.sourceRef.val)

end AssemblyInput

/-! ## Compaction attempts -/

/-- What the loop of compaction attempts holds: the history and the memory still retained, the
history to compact, and the references of the memory that is left out. -/
structure Retained where
  history : List HistoryItem
  memory : List MemorySource
  compacted : List HistoryItem
  omittedMemory : List String
  deriving DecidableEq

/-- After a rejection: without the last memory, or else with the oldest history compacted too. -/
def Retained.next (kept : Retained) : Option Retained :=
  match kept.memory.getLast? with
  | some last => some { kept with
      memory := kept.memory.dropLast
      omittedMemory := kept.omittedMemory ++ [last.sourceRef.val] }
  | none =>
      match kept.history with
      | first :: rest => some { kept with
          history := rest
          compacted := orderedHistory (kept.compacted ++ [first]) }
      | [] => none

/-- The history item as a source to compact. -/
def sourceOf (item : HistoryItem) : CompactionSource :=
  ⟨item.sourceEventId, item.sourceRef, item.sequence, item.message⟩

/-- The item that stands for the compacted history. -/
def replacementItem (eventId : Identifier) (compacted : List HistoryItem)
    (messages : List AgentMessage) : Except Thrown HistoryItem :=
  match compacted.head?, messages.head? with
  | some oldest, some message => .ok ⟨eventId, oldest.sequence, message⟩
  | none, _ => .error (typeError "sequence")
  | some _, none => .error (typeError "message")

namespace AssemblyInput

variable (input : AssemblyInput) (setting : Setting)

/-- The input of one compaction attempt. -/
def compactionInput (requested : RequestedCompaction) (kept : Retained) (targetTokens : Nat) :
    CompactionInput where
  providerId := requested.providerId
  compactionId := requested.compactionId
  sessionId := input.sessionId
  turnId := input.turnId
  trigger := .contextPressure
  strategy := .historySummary
  targetTokens := targetTokens
  sources := kept.compacted.map sourceOf

/-- The composition with the replacement of a result, when it fits. -/
def acceptResult (requested : RequestedCompaction) (media : List MediaSource) (kept : Retained)
    (result : CompactionResult AgentMessage) : Except Thrown (Option Composition) := do
  let replacement ← replacementItem requested.eventId kept.compacted result.replacementMessages
  let candidate ← input.compose setting.count ⟨replacement :: kept.history, kept.memory, media⟩
  return if candidate.measurement.inputTokens ≤ setting.inputLimit then some candidate else none

/-- One compaction attempt. -/
def attempt (runtime : CompactionRuntime AgentMessage) (requested : RequestedCompaction)
    (media : List MediaSource) (call : Nat) (kept : Retained) :
    Except Thrown (Compacted AgentMessage Composition) := do
  let withoutReplacement ← input.compose setting.count ⟨kept.history, kept.memory, media⟩
  let targetTokens := max 1 (setting.inputLimit - withoutReplacement.measurement.inputTokens)
  runtime.compact call (input.compactionInput requested kept targetTokens)
    (input.acceptResult setting requested media kept)

/-- The loop of compaction attempts, which goes on after a rejection only. -/
def attempts (runtime : CompactionRuntime AgentMessage) (requested : RequestedCompaction)
    (media : List MediaSource) : Nat → Nat → Retained →
      Except Thrown (Retained × Compacted AgentMessage Composition)
  | 0, _, _ => .error (budgetError "compaction did not converge within bounded attempts")
  | left + 1, call, kept =>
      match input.attempt setting runtime requested media call kept with
      | .ok compacted => .ok (kept, compacted)
      | .error err =>
          if err = replacementRejected then
            match kept.next with
            | some next => attempts runtime requested media left (call + 1) next
            | none => .error (budgetError
                "compaction replacement cannot fit the model input budget")
          else .error err

/-- The record of an accepted compaction. -/
def recordOf (runtime : CompactionRuntime AgentMessage) (kept : Retained)
    (compacted : Compacted AgentMessage Composition) : CompactionRecord where
  compactionId := compacted.result.compactionId
  turnId := input.turnId
  providerId := compacted.result.providerId
  providerManifest := compacted.manifest
  checkpointProviderId := runtime.checkpointProviderId
  trigger := compacted.result.trigger
  strategy := compacted.result.strategy
  checkpointRef := compacted.checkpointRef
  sourceEventIds := kept.compacted.map (·.sourceEventId)
  retainedSourceEventIds := kept.history.map (·.sourceEventId)
  sourceDigest := compacted.result.sourceDigest
  replacementMessages := compacted.result.replacementMessages
  before := compacted.result.before
  after := compacted.result.after
  prunedToolCallIds := compacted.result.prunedToolCallIds

end AssemblyInput

/-! ## Budget -/

/-- What `#budget` returns of a composition. -/
structure Budgeted where
  composition : Composition
  omittedSourceRefs : List String
  compaction : Option CompactionRecord
  deriving DecidableEq

def sortedRefs (references : List String) : List String := references.insertionSort codeUnitLe

namespace AssemblyInput

variable (input : AssemblyInput) (setting : Setting)

/-- What the attempts start from after a greedy selection. -/
def firstRetained (selection : Selection) : Retained :=
  let history := orderedHistory selection.history
  let memory := orderedMemory selection.memory
  { history, memory
    compacted := (orderedHistory input.history).filter
      (·.sourceEventId ∉ history.map (·.sourceEventId))
    omittedMemory := input.memoryOutside memory }

/-- The references that a selection with compacted history leaves out. -/
def omittedRefs (compacted : List HistoryItem) (omittedMemory : List String)
    (media : List MediaSource) : List String :=
  sortedRefs (compacted.map (·.sourceRef) ++ omittedMemory ++ input.mediaOutside media)

/-- The `compact` policy after a greedy selection that left history out. -/
def compactHistory (requested : RequestedCompaction) (completeTokens : Nat) (selection : Selection) :
    Except Thrown Budgeted := do
  match setting.runtime with
  | none => throw (budgetError "compact overflow policy requires a compaction runtime")
  | some runtime => do
      let shouldCompact ← runtime.assess completeTokens setting.inputLimit
      reject (!shouldCompact) (budgetError "compaction provider declined an over-budget request")
      let (kept, compacted) ← input.attempts setting runtime requested selection.media
        (input.history.length + input.memory.length + 1) 0 (input.firstRetained selection)
      return {
        composition := compacted.accepted
        omittedSourceRefs := input.omittedRefs kept.compacted kept.omittedMemory selection.media
        compaction := some (input.recordOf runtime kept compacted) }

/-- `#resumeRecordedCompaction`. -/
def resumeRecordedCompaction (recorded : Compaction) : Except Thrown Budgeted := do
  reject (input.overflow ≠ .compact ⟨recorded.record.compactionId, recorded.eventId,
    recorded.record.providerId⟩) compactionMismatch
  let compacted := (orderedHistory input.history).filter
    (·.sourceEventId ∈ recorded.record.sourceEventIds)
  let retained := (orderedHistory input.history).filter
    (·.sourceEventId ∈ recorded.record.retainedSourceEventIds)
  let replacement ← replacementItem recorded.eventId compacted recorded.record.replacementMessages
  let (selection, _) ← input.selectOptional setting
  let selected := orderedMemory selection.memory
  let (memory, dropped) ← retainFitting
    (fun memory => input.fits setting ⟨replacement :: retained, memory, selection.media⟩)
    selected.reverse
  let composition ← input.compose setting.count ⟨replacement :: retained, memory, selection.media⟩
  reject (setting.inputLimit < composition.measurement.inputTokens)
    (budgetError "recorded compaction replacement cannot fit the model input budget")
  return {
    composition
    omittedSourceRefs := input.omittedRefs compacted
      (input.memoryOutside selected ++ dropped.map (·.sourceRef.val)) selection.media
    compaction := none }

/-- `#budget` without a recorded compaction, once the required context is known to fit. -/
def budgetOptional : Except Thrown Budgeted := do
  let complete ← input.compose setting.count ⟨input.history, input.memory, input.media⟩
  if complete.measurement.inputTokens ≤ setting.inputLimit then
    return ⟨complete, [], none⟩
  else
    match input.overflow with
    | .reject => throw (budgetError "complete model context exceeds the input budget")
    | overflow => do
        let (selection, omitted) ← input.selectOptional setting
        let composition ← input.compose setting.count selection
        let ordinary : Budgeted := ⟨composition, sortedRefs omitted, none⟩
        match overflow with
        | .compact requested =>
            if setting.runtime.isSome && (input.firstRetained selection).compacted = [] then
              return ordinary
            else input.compactHistory setting requested complete.measurement.inputTokens selection
        | _ => return ordinary

end AssemblyInput

/-! ## Limits -/

/-- The limits of the provider manifest and of the session. -/
structure Limits where
  contextTokens : Nat
  maxOutputTokens : Nat
  sessionRemaining : Nat

/-- The context limit: what the provider and the session leave. -/
def Limits.contextLimit (limits : Limits) : Nat := min limits.contextTokens limits.sessionRemaining

/-- The setting of a budget: what the limits leave after the reserved output. -/
def Limits.setting (limits : Limits) (input : AssemblyInput) (count : TokenCounter)
    (runtime : Option (CompactionRuntime AgentMessage)) : Setting :=
  ⟨count, limits.contextLimit - input.parameters.maxOutputTokens, runtime⟩

/-- `#budget`. -/
def AssemblyInput.budget (input : AssemblyInput) (count : TokenCounter)
    (runtime : Option (CompactionRuntime AgentMessage)) (limits : Limits)
    (recorded : Option Compaction) : Except Thrown Budgeted := do
  reject (limits.contextLimit < 1) (budgetError "session token budget is exhausted")
  let reservedOutput := input.parameters.maxOutputTokens
  reject (limits.maxOutputTokens < reservedOutput || limits.contextLimit < reservedOutput)
    (budgetError "reserved output exceeds provider or session limits")
  let setting := limits.setting input count runtime
  let base ← input.compose count ⟨[], [], input.requiredMedia⟩
  reject (setting.inputLimit < base.measurement.inputTokens)
    (budgetError "required model context exceeds the input budget")
  match recorded with
  | some compaction => input.resumeRecordedCompaction setting compaction
  | none => input.budgetOptional setting

end Hseos.Context
