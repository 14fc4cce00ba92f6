import Hseos.Contracts.Agent

/-! # Compaction contracts

Records of compacted history and the stub that replaces a pruned tool result.
-/

namespace Hseos

inductive CompactionTrigger where
  | contextPressure
  | toolResultPressure
  deriving DecidableEq

inductive CompactionStrategy where
  | historySummary
  | toolResultPrune
  deriving DecidableEq

def CompactionStrategy.text : CompactionStrategy → String
  | .historySummary => "history_summary"
  | .toolResultPrune => "tool_result_prune"

/-- `CompactionProviderManifestSchema`. -/
structure CompactionProviderManifest where
  providerId : Identifier
  providerVersion : Semver
  strategies : List CompactionStrategy
  maxInputBytes : Nat
  maxOutputBytes : Nat
  deriving DecidableEq

namespace CompactionProviderManifest

def valid (manifest : CompactionProviderManifest) : Bool :=
  manifest.strategies ≠ [] && manifest.strategies.Nodup &&
    intWithin 1 16777216 manifest.maxInputBytes && intWithin 1 262144 manifest.maxOutputBytes

def toJson (manifest : CompactionProviderManifest) : Json :=
  .obj [("schema_version", .ofNat 1), ("provider_id", .ofText manifest.providerId),
    ("provider_version", .ofText manifest.providerVersion),
    ("strategies", .arr (manifest.strategies.map fun strategy => .str strategy.text)),
    ("max_input_bytes", .ofNat manifest.maxInputBytes),
    ("max_output_bytes", .ofNat manifest.maxOutputBytes)]

end CompactionProviderManifest

/-- `CompactionStatsSchema`. -/
structure CompactionStats where
  messageCount : Nat
  bytes : Nat
  tokens : Nat
  deriving DecidableEq

namespace CompactionStats

def valid (stats : CompactionStats) : Bool :=
  intWithin 0 maxSafeInteger stats.messageCount && intWithin 0 maxSafeInteger stats.bytes &&
    intWithin 0 maxSafeInteger stats.tokens && stats.tokens = stats.bytes

def toJson (stats : CompactionStats) : Json :=
  .obj [("message_count", .ofNat stats.messageCount), ("bytes", .ofNat stats.bytes),
    ("tokens", .ofNat stats.tokens)]

end CompactionStats

/-- `CompactionRecordSchema`. -/
structure CompactionRecord where
  compactionId : Identifier
  turnId : Identifier
  providerId : Identifier
  providerManifest : CompactionProviderManifest
  checkpointProviderId : Identifier
  trigger : CompactionTrigger
  strategy : CompactionStrategy
  checkpointRef : Reference
  sourceEventIds : List Identifier
  retainedSourceEventIds : List Identifier
  sourceDigest : Digest
  replacementMessages : List AgentMessage
  before : CompactionStats
  after : CompactionStats
  prunedToolCallIds : List Identifier
  deriving DecidableEq

/-- `UniqueIdentifiersSchema`. -/
def uniqueIdentifiers (ids : List Identifier) : Bool := ids.length ≤ 4096 && ids.Nodup

/-- `canonicalIds`. -/
def canonicalIds (ids : List Identifier) : List Identifier :=
  ids.insertionSort fun a b => codeUnitLe a.val b.val

namespace CompactionRecord

/-- `CompactionResultSchema` on the fields a record shares with a result. -/
def validResult (record : CompactionRecord) : Bool :=
  let replacements := record.replacementMessages
  (match record.strategy with
  | .historySummary =>
      replacements.length = 1 &&
        replacements.all fun message =>
          message.role = .assistant && message.toolCallId.isNone && message.toolCalls.isNone
  | .toolResultPrune =>
      replacements.all (·.role = .tool) &&
        record.prunedToolCallIds.length = replacements.length &&
        canonicalIds (replacements.filterMap (·.toolCallId)) = canonicalIds record.prunedToolCallIds) &&
    1 ≤ record.before.messageCount && record.after.messageCount = replacements.length &&
    record.after.bytes < record.before.bytes && record.after.tokens ≤ record.before.tokens &&
    byteLength (messagesJson replacements).stringify ≤ 262144

def valid (record : CompactionRecord) : Bool :=
  record.providerManifest.valid && record.sourceEventIds ≠ [] &&
    uniqueIdentifiers record.sourceEventIds && uniqueIdentifiers record.retainedSourceEventIds &&
    1 ≤ record.replacementMessages.length && record.replacementMessages.length ≤ 128 &&
    record.replacementMessages.all (·.valid) && record.before.valid && record.after.valid &&
    uniqueIdentifiers record.prunedToolCallIds &&
    record.sourceEventIds.all (· ∉ record.retainedSourceEventIds) && record.validResult &&
    record.providerManifest.providerId = record.providerId &&
    record.before.bytes ≤ record.providerManifest.maxInputBytes &&
    record.after.bytes ≤ record.providerManifest.maxOutputBytes

end CompactionRecord

/-! ## Pruned stubs -/

/-- `PRUNED_STUB_KEYS`. -/
def prunedStubKeys : List String :=
  ["status", "evidence_refs", "warnings", "error", "sha256", "path", "result_digest", "pruned"]

def toolResultDigest (content : String) : String := digest (.str content)

/-- What the next action needs: the error contract and the identity of the
produced artifact. An array is an object without these members. -/
def nextActionMetadata (result : Json) : List (String × Json) :=
  let error := match result.field? "error" with
    | some (.obj members) => [("error", Json.obj (["code", "message", "retryable"].filterMap fun key =>
        ((Json.obj members).field? key).map fun value => (key, value)))]
    | some (.arr _) => [("error", .obj [])]
    | _ => []
  let text := fun key => match (result.field? "result").bind (·.field? key) with
    | some (.str value) => [(key, Json.str value)]
    | _ => []
  error ++ text "sha256" ++ text "path"

/-- The array under a key of a tool result, empty when there is none. -/
def resultArray (result : Json) (key : String) : Json :=
  match result.field? key with
  | some (.arr items) => .arr items
  | _ => .arr []

/-- The stub of a tool message, as a value. Content that is not JSON counts as `null`. -/
def prunedStub (message : AgentMessage) : Json :=
  let result := (parseJson message.content).getD .null
  let status := match result.field? "status" with
    | some value => if value.truthy then value else .str "unknown"
    | none => .str "unknown"
  .obj ([("status", status), ("evidence_refs", resultArray result "evidence_refs"),
    ("warnings", resultArray result "warnings")] ++ nextActionMetadata result ++
    [("result_digest", .str (toolResultDigest message.content)), ("pruned", .bool true)])

/-- `pruneToolMessage` on a message with role `tool`. -/
def pruneToolMessage (message : AgentMessage) : AgentMessage :=
  { role := .tool
    name := message.name
    toolCallId := message.toolCallId
    content := String.ofList (canonicalJson (prunedStub message)) }

/-- The canonical text of an optional member; `undefined` has none. -/
def memberCanonicalJson (value : Json) (key : String) : Option (List Char) :=
  (value.field? key).map canonicalJson

/-- Why a replacement is not a faithful stub of `source`, or `none` when it is.
The source's own stub is compared as a value, since its text parses back to it. -/
def prunedStubViolation (source replacement : AgentMessage) : Option String :=
  match parseJson replacement.content with
  | none => some "stub is not valid JSON"
  | some (.obj members) =>
      let stub := Json.obj members
      let expected := prunedStub source
      let differs := fun key => memberCanonicalJson stub key ≠ memberCanonicalJson expected key
      if stub.field? "pruned" ≠ some (.bool true) then some "stub is not marked pruned"
      else if members.any (fun member => member.1 ∉ prunedStubKeys) then
        some "stub carries a body field"
      else if stub.field? "result_digest" ≠ expected.field? "result_digest" then
        some "stub digest differs from the original result"
      else
        match ["status", "error", "sha256", "path"].find? fun key => differs key with
        | some key => some ("stub " ++ key ++ " differs from the original result")
        | none =>
            match ["evidence_refs", "warnings"].find? fun key => differs key with
            | some key => some ("stub " ++ key ++ " differs from the original outcome")
            | none => none
  | some _ => some "stub is not an object"

end Hseos
