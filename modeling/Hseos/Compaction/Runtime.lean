import Hseos.Contracts.Compaction
import Hseos.Foundation.Run
import Hseos.Foundation.Thrown

/-! # Compaction runtime

The port through which sources are compacted: the checks that a provider's result, or
the checkpoint of an earlier one, has to pass before it is kept and recorded. The
messages of a result are any type that has the texts of a contract message.
-/

namespace Hseos

/-! ## Inputs and results -/

/-- `CompactionSourceSchema`. -/
structure CompactionSource where
  sourceEventId : Identifier
  sourceRef : String
  sequence : Nat
  message : AgentMessage
  deriving DecidableEq

namespace CompactionSource

def valid (source : CompactionSource) : Bool :=
  lengthWithin 1 1024 source.sourceRef && intWithin 1 maxSafeInteger source.sequence &&
    source.message.valid

def toJson (source : CompactionSource) : Json :=
  .obj [("source_event_id", .ofText source.sourceEventId), ("source_ref", .str source.sourceRef),
    ("sequence", .ofNat source.sequence), ("message", source.message.toJson)]

end CompactionSource

/-- `CompactionInputSchema`. -/
structure CompactionInput where
  providerId : Identifier
  compactionId : Identifier
  sessionId : Identifier
  turnId : Identifier
  trigger : CompactionTrigger
  strategy : CompactionStrategy
  targetTokens : Nat
  sources : List CompactionSource
  deriving DecidableEq

namespace CompactionInput

def sourcesJson (input : CompactionInput) : Json := .arr (input.sources.map CompactionSource.toJson)

def valid (input : CompactionInput) : Bool :=
  intWithin 0 maxSafeInteger input.targetTokens && 1 ≤ input.sources.length &&
    input.sources.length ≤ 4096 && input.sources.all (·.valid) &&
    (input.sources.map (·.sourceEventId)).Nodup && (input.sources.map (·.sourceRef)).Nodup &&
    byteLength input.sourcesJson.stringify ≤ 16777216

/-- The bytes of the source messages, as accounting counts them. -/
def beforeBytes (input : CompactionInput) : Nat :=
  byteLength (canonicalJson (messagesJson (input.sources.map (·.message))))

end CompactionInput

/-- What the contracts read of a message. -/
class ContractMessage (M : Type) where
  valid : M → Bool
  role : M → Role
  toolCallId : M → Option Identifier
  hasToolCalls : M → Bool
  /-- `JSON.stringify` of the message. -/
  stringify : M → List Char
  /-- `canonicalJson` of the message. -/
  canonicalText : M → List Char

instance : ContractMessage AgentMessage where
  valid := AgentMessage.valid
  role := AgentMessage.role
  toolCallId := AgentMessage.toolCallId
  hasToolCalls message := message.toolCalls.isSome
  stringify message := message.toJson.stringify
  canonicalText message := canonicalJson message.toJson

section

variable {M : Type} [ContractMessage M]

/-- The text of an array. -/
def arrayText (texts : List (List Char)) : List Char := '[' :: commaSeparated texts ++ [']']

/-- The canonical text of an object, from those of its members. -/
def objectText (members : List (String × List Char)) : List Char :=
  '\x7b' :: commaSeparated ((sortMembers members).map memberText) ++ ['\x7d']

/-- `canonicalJson` of a list of messages. -/
def canonicalMessages (messages : List M) : List Char :=
  arrayText (messages.map ContractMessage.canonicalText)

/-- `CompactionResultSchema`. -/
structure CompactionResult (M : Type) where
  providerId : Identifier
  compactionId : Identifier
  trigger : CompactionTrigger
  strategy : CompactionStrategy
  sourceDigest : Digest
  replacementMessages : List M
  before : CompactionStats
  after : CompactionStats
  prunedToolCallIds : List Identifier
  deriving DecidableEq

def CompactionTrigger.text : CompactionTrigger → String
  | .contextPressure => "context_pressure"
  | .toolResultPressure => "tool_result_pressure"

namespace CompactionResult

def valid (result : CompactionResult M) : Bool :=
  let replacements := result.replacementMessages
  1 ≤ replacements.length && replacements.length ≤ 128 &&
    replacements.all ContractMessage.valid && result.before.valid && result.after.valid &&
    uniqueIdentifiers result.prunedToolCallIds &&
    (match result.strategy with
    | .historySummary =>
        replacements.length = 1 && replacements.all fun message =>
          ContractMessage.role message = .assistant &&
            (ContractMessage.toolCallId message).isNone && !ContractMessage.hasToolCalls message
    | .toolResultPrune =>
        replacements.all (fun message => ContractMessage.role message = .tool) &&
          result.prunedToolCallIds.length = replacements.length &&
          canonicalIds (replacements.filterMap ContractMessage.toolCallId) =
            canonicalIds result.prunedToolCallIds) &&
    1 ≤ result.before.messageCount && result.after.messageCount = replacements.length &&
    result.after.bytes < result.before.bytes && result.after.tokens ≤ result.before.tokens &&
    byteLength (arrayText (replacements.map ContractMessage.stringify)) ≤ 262144

/-- `canonicalJson` of a result. -/
def canonicalText (result : CompactionResult M) : List Char :=
  objectText [("schema_version", canonicalJson (.ofNat 1)),
    ("provider_id", canonicalJson (.ofText result.providerId)),
    ("compaction_id", canonicalJson (.ofText result.compactionId)),
    ("trigger", canonicalJson (.str result.trigger.text)),
    ("strategy", canonicalJson (.str result.strategy.text)),
    ("source_digest", canonicalJson (.ofText result.sourceDigest)),
    ("replacement_messages", canonicalMessages result.replacementMessages),
    ("before", canonicalJson result.before.toJson), ("after", canonicalJson result.after.toJson),
    ("pruned_tool_call_ids", canonicalJson (.ofTexts result.prunedToolCallIds))]

/-- `digest` of a result. -/
def digest (result : CompactionResult M) : String := "sha256:" ++ sha256Hex result.canonicalText

end CompactionResult

/-! ## The runtime -/

/-- What `parseContract` throws for a value that its schema refuses. -/
def contractInvalid (label : String) : Thrown :=
  .ofError "AgentContractError" "AGENT_CONTRACT_SCHEMA_INVALID"
    (label ++ " does not match schema v1")

def compactionError (message code : String) : Thrown :=
  .ofError "CompactionRuntimeError" ("COMPACTION_" ++ code) message

/-- The checkpoint of a result. -/
structure Checkpoint (M : Type) where
  checkpointRef : Reference
  payloadDigest : Digest
  payload : CompactionResult M
  deriving DecidableEq

/-- The ports of a runtime. What they answer may differ from call to call, so an answer is that
to the call with a number; it has passed the contract of its port. -/
structure CompactionRuntime (M : Type) where
  checkpointProviderId : Identifier
  /-- The manifest that `#providers.resolve` finds. -/
  resolve : Identifier → CompactionStrategy → Except Thrown CompactionProviderManifest
  /-- `should_compact` of an assessment, from the input tokens and their limit. -/
  assess : Nat → Nat → Except Thrown Bool
  get : Nat → Except Thrown (Checkpoint M)
  provider : Nat → CompactionInput → Except Thrown (CompactionResult M)
  put : Nat → CompactionResult M → Except Thrown (Checkpoint M)

/-- What a compaction leaves behind: the accepted result, where it is kept, the manifest of its
provider, and what accepting it built. -/
structure Compacted (M γ : Type) where
  result : CompactionResult M
  checkpointRef : Reference
  manifest : CompactionProviderManifest
  accepted : γ

/-- The checks of a result before it is offered to the caller. -/
def checkResult (manifest : CompactionProviderManifest) (input : CompactionInput)
    (result : CompactionResult M) : Except Thrown Unit := do
  reject (result.providerId ≠ input.providerId || result.compactionId ≠ input.compactionId ||
      result.trigger ≠ input.trigger || result.strategy ≠ input.strategy)
    (compactionError "compaction result identity mismatch" "IDENTITY_MISMATCH")
  reject (result.sourceDigest.val ≠ digest input.sourcesJson)
    (compactionError "provider result does not bind the exact sources" "SOURCE_DIGEST_MISMATCH")
  let afterBytes := byteLength (canonicalMessages result.replacementMessages)
  reject (result.before.messageCount ≠ input.sources.length ||
      result.before.bytes ≠ input.beforeBytes || result.before.tokens ≠ input.beforeBytes ||
      result.after.messageCount ≠ result.replacementMessages.length ||
      result.after.bytes ≠ afterBytes || result.after.tokens ≠ afterBytes)
    (compactionError "provider byte or message accounting is false" "ACCOUNTING_MISMATCH")
  reject (manifest.maxOutputBytes < afterBytes)
    (compactionError "compaction output exceeds provider manifest cap" "OUTPUT_CAP_EXCEEDED")
  reject (input.strategy = .toolResultPrune &&
      result.replacementMessages.map ContractMessage.toolCallId ≠
        input.sources.map (·.message.toolCallId))
    (compactionError "tool replacements changed call identity or ordering" "TOOL_IDENTITY_MISMATCH")

/-- The refusal of a replacement by the caller. -/
def replacementRejected : Thrown :=
  compactionError "compaction replacement does not satisfy the caller budget" "REPLACEMENT_REJECTED"

namespace CompactionRuntime

variable (runtime : CompactionRuntime M)

/-- The checkpoint of the compaction, when there is one, and the result it holds or the provider
returns. -/
def recover (call : Nat) (input : CompactionInput) :
    Except Thrown (Option (Checkpoint M) × CompactionResult M) :=
  match runtime.get call with
  | .ok checkpoint => .ok (some checkpoint, checkpoint.payload)
  | .error err =>
      if err.code ≠ .text "CHECKPOINT_NOT_FOUND" then
        .error (compactionError "checkpoint recovery failed closed" "CHECKPOINT_RECOVERY_FAILED")
      else
        match runtime.provider call input with
        | .ok result => .ok (none, result)
        | .error _ => .error (compactionError "compaction provider failed" "PROVIDER_FAILED")

/-- The checkpoint that was found, or a new one. -/
def keep (call : Nat) (checkpoint : Option (Checkpoint M)) (result : CompactionResult M) :
    Except Thrown (Checkpoint M) :=
  match checkpoint with
  | some checkpoint => .ok checkpoint
  | none => runtime.put call result

/-- `compact`, as the call with a number. `accept` returns what it builds of a result it accepts. -/
def compact {γ : Type} (call : Nat) (input : CompactionInput)
    (accept : CompactionResult M → Except Thrown (Option γ)) : Except Thrown (Compacted M γ) := do
  reject (!input.valid)
    (contractInvalid "compaction runtime input")
  let manifest ← runtime.resolve input.providerId input.strategy
  reject (manifest.maxInputBytes < input.beforeBytes)
    (compactionError "compaction input exceeds provider manifest cap" "INPUT_CAP_EXCEEDED")
  let (checkpoint, result) ← runtime.recover call input
  checkResult manifest input result
  match ← accept result with
  | none => throw replacementRejected
  | some accepted => do
      let kept ← runtime.keep call checkpoint result
      reject (kept.payloadDigest.val ≠ result.digest ||
          kept.payload.canonicalText ≠ result.canonicalText)
        (.ofError "CompactionRuntimeError" "CHECKPOINT_PAYLOAD_MISMATCH"
          "checkpoint provider did not preserve the exact payload")
      return { result, checkpointRef := kept.checkpointRef, manifest, accepted }

end CompactionRuntime

/-! ## Results that were kept -/

section

variable {manifest : CompactionProviderManifest} {input : CompactionInput}
  {result : CompactionResult M}

/-- The facts that the checks of a result establish. -/
structure Checked (manifest : CompactionProviderManifest) (input : CompactionInput)
    (result : CompactionResult M) : Prop where
  providerId : result.providerId = input.providerId
  compactionId : result.compactionId = input.compactionId
  trigger : result.trigger = input.trigger
  strategy : result.strategy = input.strategy
  sourceDigest : result.sourceDigest.val = digest input.sourcesJson
  before : result.before = ⟨input.sources.length, input.beforeBytes, input.beforeBytes⟩
  after : result.after = ⟨result.replacementMessages.length,
    byteLength (canonicalMessages result.replacementMessages),
    byteLength (canonicalMessages result.replacementMessages)⟩
  capped : byteLength (canonicalMessages result.replacementMessages) ≤ manifest.maxOutputBytes
  ordered : input.strategy = .toolResultPrune →
    result.replacementMessages.map ContractMessage.toolCallId =
      input.sources.map (·.message.toolCallId)

theorem CompactionStats.eq_mk_iff {stats : CompactionStats} {count bytes tokens : Nat} :
    stats = ⟨count, bytes, tokens⟩ ↔
      stats.messageCount = count ∧ stats.bytes = bytes ∧ stats.tokens = tokens := by
  cases stats
  rw [CompactionStats.mk.injEq]

theorem checkResult_eq_ok_iff :
    checkResult manifest input result = .ok () ↔ Checked manifest input result := by
  simp only [checkResult, reject_bind_eq_ok_iff, reject_eq_ok_iff, Bool.or_eq_false_iff,
    Bool.and_eq_false_iff, decide_eq_false_iff_not, not_not, not_lt]
  constructor
  · rintro ⟨⟨⟨⟨hprovider, hcompaction⟩, htrigger⟩, hstrategy⟩, hdigest,
      ⟨⟨⟨⟨⟨hcount, hbytes⟩, htokens⟩, hcount'⟩, hbytes'⟩, htokens'⟩, hcap, horder⟩
    refine ⟨hprovider, hcompaction, htrigger, hstrategy, hdigest,
      CompactionStats.eq_mk_iff.mpr ⟨hcount, hbytes, htokens⟩,
      CompactionStats.eq_mk_iff.mpr ⟨hcount', hbytes', htokens'⟩, hcap, ?_⟩
    intro hprune
    exact horder.resolve_left (not_not_intro hprune)
  · intro h
    obtain ⟨hcount, hbytes, htokens⟩ := CompactionStats.eq_mk_iff.mp h.before
    obtain ⟨hcount', hbytes', htokens'⟩ := CompactionStats.eq_mk_iff.mp h.after
    exact ⟨⟨⟨⟨h.providerId, h.compactionId⟩, h.trigger⟩, h.strategy⟩, h.sourceDigest,
      ⟨⟨⟨⟨⟨hcount, hbytes⟩, htokens⟩, hcount'⟩, hbytes'⟩, htokens'⟩, h.capped,
      Classical.or_iff_not_imp_left.mpr fun hprune => h.ordered (not_not.mp hprune)⟩

/-- A compaction that succeeds keeps a result that passed the checks and was accepted. -/
theorem CompactionRuntime.compact_eq_ok {runtime : CompactionRuntime M} {γ : Type} {call : Nat}
    {accept : CompactionResult M → Except Thrown (Option γ)} {compacted : Compacted M γ}
    (h : runtime.compact call input accept = .ok compacted) :
    input.valid = true ∧ Checked compacted.manifest input compacted.result ∧
      accept compacted.result = .ok (some compacted.accepted) := by
  obtain ⟨hvalid, h⟩ := reject_bind_eq_ok_iff.mp h
  obtain ⟨manifest, -, h⟩ := bind_eq_ok_iff.mp h
  obtain ⟨-, h⟩ := reject_bind_eq_ok_iff.mp h
  obtain ⟨⟨checkpoint, result⟩, -, h⟩ := bind_eq_ok_iff.mp h
  obtain ⟨⟨⟩, hchecked, h⟩ := bind_eq_ok_iff.mp h
  obtain ⟨answer, haccept, h⟩ := bind_eq_ok_iff.mp h
  cases answer with
  | none => exact (throw_eq_ok_iff.mp h).elim
  | some accepted =>
      obtain ⟨kept, -, h⟩ := bind_eq_ok_iff.mp h
      obtain ⟨-, h⟩ := reject_bind_eq_ok_iff.mp h
      obtain rfl := pure_eq_ok_iff.mp h
      exact ⟨by simpa using hvalid, checkResult_eq_ok_iff.mp hchecked, haccept⟩

end

end

end Hseos
