import Hseos.Compaction.Runtime
import Hseos.Foundation.JsonSize

/-! # Deterministic compaction

The provider that needs no model: it replaces history by a text that is cut until it is
short enough, and tool results by their stubs.
-/

namespace Hseos

/-! ## Text as code units -/

/-- A code unit that only stands for a character beside another one. -/
def isSurrogate (unit : Nat) : Bool := 0xD800 ≤ unit && unit < 0xE000

def hexDigit (n : Nat) : Char := Nat.digitChar (n % 16)

/-- What `JSON.stringify` makes of one code unit. A surrogate on its own is escaped. -/
def escapeUnit (unit : Nat) : List Char :=
  if isSurrogate unit then
    ['\\', 'u', hexDigit (unit / 0x1000), hexDigit (unit / 0x100), hexDigit (unit / 0x10),
      hexDigit unit]
  else escapeChar (Char.ofNat unit)

def escapeUnits : List Nat → List Char
  | lead :: trail :: rest =>
      if 0xD800 ≤ lead ∧ lead < 0xDC00 ∧ 0xDC00 ≤ trail ∧ trail < 0xE000 then
        Char.ofNat (0x10000 + (lead - 0xD800) * 0x400 + (trail - 0xDC00)) :: escapeUnits rest
      else escapeUnit lead ++ escapeUnits (trail :: rest)
  | [unit] => escapeUnit unit
  | [] => []

/-- `JSON.stringify` of a string that is given by its code units. -/
def quotedUnits (units : List Nat) : List Char := '\x22' :: escapeUnits units ++ ['\x22']

theorem escapeUnits_single {unit : Nat} (h : isSurrogate unit = false) (rest : List Nat) :
    escapeUnits (unit :: rest) = escapeChar (Char.ofNat unit) ++ escapeUnits rest := by
  have hunit : escapeUnit unit = escapeChar (Char.ofNat unit) := by simp [escapeUnit, h]
  simp only [isSurrogate, Bool.and_eq_false_iff, decide_eq_false_iff_not] at h
  cases rest with
  | nil => rw [escapeUnits, hunit, escapeUnits, List.append_nil]
  | cons next rest => rw [escapeUnits, if_neg (by omega), hunit]

/-- A string is quoted alike from its characters and from its code units. -/
theorem quotedUnits_utf16 (text : String) : quotedUnits (utf16 text) = quoted text := by
  have hunits : ∀ cs : List Char, escapeUnits (cs.flatMap charUnits) = cs.flatMap escapeChar := by
    intro cs
    induction cs with
    | nil => rfl
    | cons c cs ih =>
        have hvalid := c.valid
        simp only [UInt32.isValidChar, Nat.isValidChar] at hvalid
        change c.toNat < 0xD800 ∨ 0xDFFF < c.toNat ∧ c.toNat < 0x110000 at hvalid
        rw [List.flatMap_cons, List.flatMap_cons, charUnits]
        split
        next hsmall =>
          have hplain : isSurrogate c.toNat = false := by
            simp only [isSurrogate, Bool.and_eq_false_iff, decide_eq_false_iff_not]
            omega
          rw [List.singleton_append, escapeUnits_single hplain, Char.ofNat_toNat, ih]
        next hlarge =>
          have hsum : 0x10000 + (0xD800 + (c.toNat - 0x10000) / 0x400 - 0xD800) * 0x400 +
              (0xDC00 + (c.toNat - 0x10000) % 0x400 - 0xDC00) = c.toNat := by omega
          have hescape : escapeChar c = [c] := by
            unfold escapeChar
            split
            case h_8 => rw [if_neg (by omega)]
            all_goals omega
          rw [List.cons_append, List.singleton_append, escapeUnits, if_pos (by omega), hsum,
            Char.ofNat_toNat, ih, hescape, List.singleton_append]
  rw [quotedUnits, quoted, utf16, hunits]

/-! ## Replacement messages -/

/-- A replacement: a plain assistant message, whose text may be cut inside a surrogate pair, or
the stub of a tool message. -/
inductive Replacement where
  | summary (content : List Nat)
  | stub (message : AgentMessage)
  deriving DecidableEq

/-- The members of a summary message. -/
def summaryMembers (content : List Nat) : List (String × List Char) :=
  [("role", quoted "assistant"), ("content", quotedUnits content)]

/-- `JSON.stringify` of a summary message. -/
def summaryText (content : List Nat) : List Char :=
  '\x7b' :: commaSeparated ((summaryMembers content).map memberText) ++ ['\x7d']

instance : ContractMessage Replacement where
  valid
    | .summary _ => true
    | .stub message => message.valid
  role
    | .summary _ => .assistant
    | .stub message => message.role
  toolCallId
    | .summary _ => none
    | .stub message => message.toolCallId
  hasToolCalls
    | .summary _ => false
    | .stub message => message.toolCalls.isSome
  stringify
    | .summary content => summaryText content
    | .stub message => message.toJson.stringify
  canonicalText
    | .summary content => objectText (summaryMembers content)
    | .stub message => canonicalJson message.toJson

/-! ## The provider -/

/-- A provider as its constructor leaves it. -/
structure DeterministicCompactionProvider where
  manifest : CompactionProviderManifest
  valid : manifest.valid = true
  strategies : manifest.strategies = [.historySummary, .toolResultPrune]

def compactTypeError (message : String) : Thrown :=
  { Thrown.ofError "TypeError" "" message with code := .undefined }

/-- The content without its last fifth, and an ellipsis. -/
def cut (content : List Nat) : List Nat := content.take (content.length * 4 / 5 - 1) ++ [0x2026]

/-- The loop that cuts the content until its message fits, with the attempts that are left. -/
def shorten (maximumBytes : Nat) : Nat → List Nat → Except Thrown (List Nat)
  | left, content =>
      if byteLength (summaryText content) ≤ maximumBytes then .ok content
      else
        match left with
        | 0 => .error (compactTypeError "provider output cap cannot contain a valid replacement")
        | left + 1 =>
            if content.length ≤ 1 then
              .error (compactTypeError "provider output cap cannot contain a valid replacement")
            else shorten maximumBytes left (cut content)

namespace CompactionInput

variable (input : CompactionInput)

def header : String :=
  "[HSEOS COMPACTION id=" ++ input.compactionId.val ++ " sources=" ++
    Nat.repr input.sources.length ++ " digest=" ++ digest input.sourcesJson ++ "]\n"

def line (source : CompactionSource) : String :=
  source.message.role.text ++ "@" ++ source.sourceEventId.val ++ ": " ++ source.message.content

/-- The content before it is cut. -/
def summaryContent : List Nat :=
  let content := utf16 (input.header ++ "\n".intercalate (input.sources.map line))
  if input.beforeBytes ≤ byteLength (summaryText content) then
    utf16 (input.header ++
      "Source content retained in immutable session events and checkpoint.")
  else content

/-- The stubs of all sources. -/
def stubs : List Replacement := input.sources.map fun source => .stub (pruneToolMessage source.message)

end CompactionInput

namespace DeterministicCompactionProvider

variable (provider : DeterministicCompactionProvider) (input : CompactionInput)

def maximumBytes : Nat := min provider.manifest.maxOutputBytes (max 64 input.targetTokens)

def replacements : Except Thrown (List Replacement) :=
  match input.strategy with
  | .toolResultPrune => do
      reject (input.sources.any (·.message.role ≠ .tool))
        (compactTypeError "tool_result_prune accepts only tool messages")
      return input.stubs
  | .historySummary => do
      let content ← shorten (provider.maximumBytes input) 64 input.summaryContent
      return [.summary content]

/-- The result with the replacements. -/
def resultOf (replacements : List Replacement) : CompactionResult Replacement :=
  let afterBytes := byteLength (canonicalMessages replacements)
  { providerId := provider.manifest.providerId
    compactionId := input.compactionId
    trigger := input.trigger
    strategy := input.strategy
    sourceDigest := ⟨digest input.sourcesJson, isDigest_digest _⟩
    replacementMessages := replacements
    before := ⟨input.sources.length, input.beforeBytes, input.beforeBytes⟩
    after := ⟨replacements.length, afterBytes, afterBytes⟩
    prunedToolCallIds :=
      match input.strategy with
      | .toolResultPrune => (input.sources.filter (·.message.role = .tool)).filterMap
          (·.message.toolCallId)
      | .historySummary => [] }

/-- `compact`. -/
def compact : Except Thrown (CompactionResult Replacement) := do
  reject (!input.valid)
    (contractInvalid "CompactionProvider.compact input")
  let replacements ← provider.replacements input
  reject (input.beforeBytes ≤ byteLength (canonicalMessages replacements))
    (compactTypeError "sources are too small to compact safely")
  let result := provider.resultOf input replacements
  reject (!result.valid)
    (contractInvalid "CompactionProvider.compact result")
  reject (input.providerId ≠ result.providerId)
    (.ofError "AgentContractError" "AGENT_PORT_CORRELATION_INVALID"
      "CompactionProvider.compact provider_id mismatch")
  return result

end DeterministicCompactionProvider

end Hseos
