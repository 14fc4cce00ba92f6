import Hseos.Contracts.Context
import Hseos.Foundation.Thrown
import Hseos.Foundation.Unique
import Hseos.Session.History

/-! # Compositions of a model context

The sources that a context is assembled from, the order they are put in, and the
messages, records and references of one selection of them.
-/

namespace Hseos.Context

/-! ## Sources -/

inductive Classification where
  | public_
  | internal
  deriving DecidableEq

def Classification.text : Classification → String
  | .public_ => "public"
  | .internal => "internal"

/-- `ContextSourceSchema`, without the authority it declares. -/
structure ContextSource where
  sourceRef : Reference
  classification : Classification
  content : String
  deriving DecidableEq

/-- `MemorySourceSchema`. -/
structure MemorySource extends ContextSource where
  priority : Nat
  deriving DecidableEq

/-- `MediaSourceSchema`, the fields that a composition reads. -/
structure MediaSource where
  sourceRef : Reference
  mediaType : MediaType
  digest : Sha256Text
  bytes : Nat
  priority : Nat
  artifactRef : Refined isArtifactRef
  deriving DecidableEq

/-- `CurrentTurnSchema`: the message of the turn and the media it requires. -/
structure CurrentTurn where
  sourceRef : Reference
  message : AgentMessage
  parts : List Reference
  deriving DecidableEq

/-- `InstructionLayersSchema`. -/
structure InstructionLayers where
  constitution : List ContextSource
  project : List ContextSource
  adapter : List ContextSource
  agent : List ContextSource
  skill : List ContextSource
  deriving DecidableEq

/-- The layers in the order of `INSTRUCTION_TIERS`. -/
def InstructionLayers.tiers (layers : InstructionLayers) : List (String × List ContextSource) :=
  [("constitution", layers.constitution), ("project", layers.project), ("adapter", layers.adapter),
    ("agent", layers.agent), ("skill", layers.skill)]

/-- What `resolveSourceAuthority` returns for a source. -/
structure SourceAuthority where
  authority : Authority
  origin : SourceOrigin
  digest : Sha256Text
  trust : Trust
  declared : Bool
  deriving DecidableEq

/-- The compaction that the `compact` policy asks for. -/
structure RequestedCompaction where
  compactionId : Identifier
  eventId : Identifier
  providerId : Identifier
  deriving DecidableEq

/-- The overflow policy, with the fields that only `compact` has. -/
inductive Overflow where
  | reject
  | truncateOptional
  | compact (requested : RequestedCompaction)
  deriving DecidableEq

/-- The enriched input of an assembly: what was asked for, the durable history, and the
authority and media tokens of the sources. -/
structure Sources where
  sessionId : Identifier
  turnId : Identifier
  instructions : InstructionLayers
  runtimeContext : List ContextSource
  references : List ContextSource
  memory : List MemorySource
  media : List MediaSource
  currentTurn : CurrentTurn
  tools : List ToolDefinition
  parameters : ModelParameters
  overflow : Overflow
  history : List HistoryItem
  authority : Reference → SourceAuthority
  mediaTokens : Reference → Nat

namespace Sources

/-- `allSources`, by their references. -/
def sourceRefs (sources : Sources) : List Reference :=
  sources.instructions.tiers.flatMap (fun tier => tier.2.map (·.sourceRef)) ++
    sources.runtimeContext.map (·.sourceRef) ++ sources.references.map (·.sourceRef) ++
    sources.memory.map (·.sourceRef) ++ sources.media.map (·.sourceRef) ++
    [sources.currentTurn.sourceRef]

/-- The media that the turn requires. -/
def requiredMedia (sources : Sources) : List MediaSource :=
  sources.media.filter (·.sourceRef ∈ sources.currentTurn.parts)

end Sources

/-- An input in which no two sources have one reference and the media a turn requires are
declared, as `ContextAssemblyInputSchema` makes sure. -/
structure AssemblyInput extends Sources where
  distinct : toSources.sourceRefs.Nodup
  declared : ∀ reference ∈ currentTurn.parts, reference ∈ media.map (·.sourceRef)

/-! ## Orders -/

/-- `bySourceRef`. -/
def bySourceRef (a b : ContextSource) : Prop := codeUnitLe a.sourceRef.val b.sourceRef.val

instance : DecidableRel bySourceRef := fun _ _ => inferInstanceAs (Decidable (codeUnitLe _ _))

def historyLe (a b : HistoryItem) : Prop :=
  a.sequence < b.sequence ∨ a.sequence = b.sequence ∧ codeUnitLe a.sourceRef b.sourceRef

instance : DecidableRel historyLe := fun _ _ => inferInstanceAs (Decidable (_ ∨ _))

/-- Higher priorities first, then by reference. -/
def priorityLe (first second : Nat × Reference) : Prop :=
  second.1 < first.1 ∨ first.1 = second.1 ∧ codeUnitLe first.2.val second.2.val

instance : DecidableRel priorityLe := fun _ _ => inferInstanceAs (Decidable (_ ∨ _))

def memoryLe (a b : MemorySource) : Prop :=
  priorityLe (a.priority, a.sourceRef) (b.priority, b.sourceRef)

instance : DecidableRel memoryLe := fun _ _ => inferInstanceAs (Decidable (priorityLe _ _))

def mediaLe (a b : MediaSource) : Prop :=
  priorityLe (a.priority, a.sourceRef) (b.priority, b.sourceRef)

instance : DecidableRel mediaLe := fun _ _ => inferInstanceAs (Decidable (priorityLe _ _))

def orderedHistory (history : List HistoryItem) : List HistoryItem := history.insertionSort historyLe

def orderedMemory (memory : List MemorySource) : List MemorySource := memory.insertionSort memoryLe

def orderedMedia (media : List MediaSource) : List MediaSource := media.insertionSort mediaLe

/-! ## Messages -/

def Authority.text : Authority → String
  | .directive => "directive"
  | .operator => "operator"
  | .data => "data"

def SourceOrigin.text : SourceOrigin → String
  | .config => "config"
  | .operator => "operator"
  | .memory => "memory"
  | .tool => "tool"
  | .plugin => "plugin"
  | .lsp => "lsp"
  | .dap => "dap"
  | .browser => "browser"
  | .display => "display"
  | .mcp => "mcp"
  | .campaign => "campaign"

def Trust.text : Trust → String
  | .trusted => "trusted"
  | .untrusted => "untrusted"

/-- The authority of a source that declared one. -/
def authorityAttributes (resolved : SourceAuthority) : String :=
  if resolved.declared then
    " authority=" ++ Authority.text resolved.authority ++ " origin=" ++
      SourceOrigin.text resolved.origin ++ " trust=" ++ Trust.text resolved.trust
  else ""

/-- `JSON.stringify` of a string, as a string. -/
def quotedText (text : String) : String := String.ofList (quoted text)

def quotedData (kind : String) (source : ContextSource) (resolved : SourceAuthority) :
    AgentMessage where
  role := .system
  content := "[HSEOS " ++ kind ++ " source=" ++ quotedText source.sourceRef.val ++
    " classification=" ++ source.classification.text ++ authorityAttributes resolved ++ "]\n" ++
    quotedText source.content ++ "\n[END HSEOS " ++ kind ++ "]"

def instructionMessage (tier : String) (source : ContextSource) : AgentMessage where
  role := .system
  content := "[HSEOS INSTRUCTION tier=" ++ tier ++ " source=" ++ quotedText source.sourceRef.val ++
    "]\n" ++ source.content ++ "\n[END HSEOS INSTRUCTION]"

def orderedInstructions (layers : InstructionLayers) : List (ContextSource × AgentMessage) :=
  layers.tiers.flatMap fun tier =>
    (tier.2.insertionSort bySourceRef).map fun source => (source, instructionMessage tier.1 source)

/-! ## Measurement -/

/-- The count of a canonical text, which a token counter may refuse. -/
abbrev TokenCounter := List Char → Except Thrown Nat

structure Measurement where
  messageTokens : Nat
  toolTokens : Nat
  parameterTokens : Nat
  deriving DecidableEq

def Measurement.inputTokens (measurement : Measurement) : Nat :=
  measurement.messageTokens + measurement.toolTokens + measurement.parameterTokens

/-- `#measure`. The tokens of media count as message tokens. -/
def measure (count : TokenCounter) (messages : List AgentMessage) (tools : List ToolDefinition)
    (parameters : ModelParameters) (mediaTokens : Nat) : Except Thrown Measurement := do
  let messageTokens ← count (canonicalJson (messagesJson messages))
  let toolTokens ← count (canonicalJson (.arr (tools.map ToolDefinition.toJson)))
  let parameterTokens ← count (canonicalJson parameters.toJson)
  return { messageTokens := messageTokens + mediaTokens, toolTokens, parameterTokens }

/-! ## Composition -/

/-- The optional context of a composition. -/
structure Selection where
  history : List HistoryItem
  memory : List MemorySource
  media : List MediaSource
  deriving DecidableEq

/-- `parts` of a composition. -/
def Selection.parts (selection : Selection) : List ContentPart :=
  (orderedMedia selection.media).map fun media =>
    .image media.sourceRef media.mediaType media.digest media.bytes media.artifactRef

structure Composition where
  messages : List AgentMessage
  tools : List ToolDefinition
  parts : List ContentPart
  sources : List ContextSourceRecord
  sourceRefs : List String
  measurement : Measurement
  deriving DecidableEq

def sourceRecord (sourceRef : Reference) (resolved : SourceAuthority) : ContextSourceRecord where
  sourceRef := sourceRef
  authority := resolved.authority
  origin := resolved.origin
  digest := resolved.digest
  trust := resolved.trust
  mediaType := none
  bytes := none
  artifactRef := none

namespace Sources

variable (sources : Sources)

def runtimeItems : List ContextSource := sources.runtimeContext.insertionSort bySourceRef

def referenceItems : List ContextSource := sources.references.insertionSort bySourceRef

/-- The data message of a source under its resolved authority. -/
def dataMessage (kind : String) (source : ContextSource) : AgentMessage :=
  quotedData kind source (sources.authority source.sourceRef)

def messages (selection : Selection) : List AgentMessage :=
  [{ role := .system, content := contextPrecedencePreamble }] ++
    (orderedInstructions sources.instructions).map Prod.snd ++
    sources.runtimeItems.map (sources.dataMessage "RUNTIME_DATA") ++
    sources.referenceItems.map (sources.dataMessage "REFERENCE_DATA") ++
    (orderedMemory selection.memory).map
      (fun memory => sources.dataMessage "MEMORY_DATA" memory.toContextSource) ++
    (orderedHistory selection.history).map (·.message) ++ [sources.currentTurn.message]

def orderedTools : List ToolDefinition :=
  sources.tools.insertionSort fun a b => codeUnitLe a.name.val b.name.val

def mediaTokensOf (selection : Selection) : Nat :=
  ((orderedMedia selection.media).map fun media => sources.mediaTokens media.sourceRef).sum

/-- The references of what every composition holds before the optional context. -/
def requiredRefs : List Reference :=
  (orderedInstructions sources.instructions).map (·.1.sourceRef) ++
    sources.runtimeItems.map (·.sourceRef) ++ sources.referenceItems.map (·.sourceRef)

/-- `sources` of a composition. -/
def records (selection : Selection) : List ContextSourceRecord :=
  (sources.requiredRefs ++ (orderedMemory selection.memory).map (·.sourceRef) ++
      [sources.currentTurn.sourceRef]).map
      (fun sourceRef => sourceRecord sourceRef (sources.authority sourceRef)) ++
    (orderedMedia selection.media).map fun media =>
      { sourceRecord media.sourceRef (sources.authority media.sourceRef) with
        mediaType := some media.mediaType
        bytes := some media.bytes
        artifactRef := some media.artifactRef }

/-- `source_refs` of a composition. -/
def includedRefs (selection : Selection) : List String :=
  unique ([contextPrecedenceRef] ++ sources.requiredRefs.map (·.val) ++
    (orderedMemory selection.memory).map (·.sourceRef.val) ++
    (orderedMedia selection.media).map (·.sourceRef.val) ++
    (orderedHistory selection.history).map (·.sourceRef) ++ [sources.currentTurn.sourceRef.val] ++
    sources.orderedTools.map (·.governanceRef.val))

/-- `#compose`. -/
def compose (count : TokenCounter) (selection : Selection) : Except Thrown Composition := do
  let measurement ← measure count (sources.messages selection) sources.orderedTools
    sources.parameters (sources.mediaTokensOf selection)
  return {
    messages := sources.messages selection
    tools := sources.orderedTools
    parts := selection.parts
    sources := sources.records selection
    sourceRefs := sources.includedRefs selection
    measurement }

end Sources

end Hseos.Context
