import Hseos.ControlPlane.ImportPlan

/-! # Commands of the governance repository

What a repository accepts before it looks at its state. A prepared command has
passed every check on its own data; the clock was read when it was prepared.
-/

namespace Hseos.ControlPlane

/-! ## Checks on texts -/

/-- Without the white space at both ends. -/
def trimSpace (text : List Char) : List Char :=
  ((text.dropWhile isJsSpace).reverse.dropWhile isJsSpace).reverse

/-- `boundedText`. -/
def boundedText (value label : String) (maximumBytes : Nat) : Result String :=
  let text := chars value
  if trimSpace text ≠ text ∨ text = [] ∨ maximumBytes < byteLength text then
    .error (repositoryError (label ++ " is invalid") "MANAGED_GOVERNANCE_REPOSITORY_INPUT_INVALID")
  else .ok value

/-- What is left of a text when its last UTF-16 unit is cut off. The first unit of a pair is
stored as the replacement character. -/
def dropUnit (text : List Char) : List Char :=
  match text.getLast? with
  | some c => if (charUnits c).length = 1 then text.dropLast else text.dropLast ++ ['\uFFFD']
  | none => []

/-- The units of a text, cut from its end until at most `maximumBytes` bytes are left. -/
def cutToBytes (maximumBytes : Nat) : Nat → List Char → List Char
  | 0, text => text
  | fuel + 1, text =>
      if maximumBytes < byteLength text then cutToBytes maximumBytes fuel (dropUnit text) else text

def boundedTitle (value : Json) : String :=
  let given := match value with
    | .str text => trimSpace (chars text)
    | _ => []
  let title := if given = [] then "Untitled governance artifact".toList else given
  String.ofList (cutToBytes 512 (2 * title.length) title)

/-! ## Materialization -/

structure Materialization where
  slug : String
  title : String
  structuredContent : Json
  deriving DecidableEq

def discoveryMismatch (message : String) : GovernanceError :=
  repositoryError message "MANAGED_GOVERNANCE_IMPORT_DISCOVERY_MISMATCH"

/-- `typeof value === 'object'`, of a value that is not null. -/
def isObject : Json → Bool
  | .arr _ => true
  | .obj _ => true
  | _ => false

/-- `value || other`. -/
def orElse (value : Option Json) (other : Json) : Json := (value.filter Json.truthy).getD other

/-- The title an entry's structured content and path give its artifact. -/
def titleOf (entry : DiscoveryEntry) (structuredContent : Json) : String :=
  boundedTitle (orElse (structuredContent.field? "title")
    (.str (String.ofList (Posix.basename (chars entry.sourcePath)))))

def artifactMaterialization (platform : Platform) (entry : DiscoveryEntry) :
    Result Materialization := do
  let given := entry.classification.structuredContent
  reject (!isObject given) (discoveryMismatch "discovery structured content is invalid")
  let slugBase := (slugText platform (chars entry.sourcePath)).take 130
  let suffix := shortHash (chars entry.sourcePath)
  match canonicalize? given with
  | none => throw (discoveryMismatch "discovery structured content is not canonical JSON")
  | some text =>
      reject (!withinMegabytes 2 text)
        (discoveryMismatch "discovery structured content exceeds the source limit")
      let structuredContent :=
        if withinMegabytes 1 text then given
        else .obj [("format", orElse (given.field? "format") (.str "unknown")),
          ("parse_status", .str "structured_content_omitted")]
      return {
        slug := String.ofList ((if slugBase = [] then "artifact".toList else slugBase) ++
          '-' :: suffix)
        title := titleOf entry structuredContent
        structuredContent }

/-! ## Commands -/

structure Actor where
  type : Identifier
  id : Identifier
  deriving DecidableEq

def Actor.toJson (actor : Actor) : Json :=
  .obj [("type", .ofText actor.type), ("id", .ofText actor.id)]

structure OrganizationCommand where
  organizationId : Identifier
  idempotencyKey : Identifier
  actor : Actor
  slug : Identifier
  displayName : String
  deriving DecidableEq

structure ImportBatchCommand where
  discovery : Discovery
  plan : ImportPlan
  actor : Actor
  idempotencyKey : Identifier
  canonicalRemote : String
  deriving DecidableEq

structure RollbackCommand where
  organizationId : Identifier
  repositoryId : RepositoryId
  batchId : Uuid
  actor : Actor
  idempotencyKey : Identifier
  deriving DecidableEq

namespace OrganizationCommand

def toJson (command : OrganizationCommand) : Json :=
  .obj [("organization_id", .ofText command.organizationId),
    ("idempotency_key", .ofText command.idempotencyKey), ("actor", command.actor.toJson),
    ("organization", .obj [("slug", .ofText command.slug),
      ("display_name", .str command.displayName)])]

def commandDigest (command : OrganizationCommand) : Digest := digestCanonical command.toJson

end OrganizationCommand

/-- `prepareEnsureOrganizationCommand`. -/
def prepareEnsureOrganizationCommand (command : OrganizationCommand) : Result Unit := do
  let _ ← boundedText command.displayName "organization display name" 512
  reject (command.slug ≠ command.organizationId)
    (repositoryError "organization slug must equal organization_id in v1"
      "MANAGED_GOVERNANCE_REPOSITORY_INPUT_INVALID")

def RollbackCommand.toJson (command : RollbackCommand) : Json :=
  .obj [("organization_id", .ofText command.organizationId),
    ("repository_id", .ofText command.repositoryId), ("batch_id", .ofNat command.batchId),
    ("actor", command.actor.toJson), ("idempotency_key", .ofText command.idempotencyKey)]

def RollbackCommand.commandDigest (command : RollbackCommand) : Digest :=
  digestCanonical command.toJson

def ImportBatchCommand.commandDigest (command : ImportBatchCommand) : Digest :=
  digestCanonical (.obj [("plan_id", .ofText command.plan.planId),
    ("actor", command.actor.toJson), ("idempotency_key", .ofText command.idempotencyKey),
    ("canonical_remote", .str command.canonicalRemote)])

/-! ## Import commands -/

/-- `raw_content.replace(/^\uFEFF/, '').replaceAll(/\r\n?/g, '\n')`. -/
def unixLines : List Char → List Char
  | [] => []
  | '\r' :: '\n' :: rest => '\n' :: unixLines rest
  | '\r' :: rest => '\n' :: unixLines rest
  | c :: rest => c :: unixLines rest

def normalizeContent (raw : String) : String :=
  String.ofList (unixLines (match chars raw with
    | '\uFEFF' :: rest => rest
    | text => text))

/-- The digest of a normalized content. -/
def contentDigestOf (normalizedContent : String) : String :=
  "sha256:" ++ sha256Hex (chars normalizedContent)

def entryValid (entry : DiscoveryEntry) : Bool :=
  withinMegabytes 2 (chars entry.rawContent) && withinMegabytes 2 (chars entry.normalizedContent) &&
    entry.normalizedContent = normalizeContent entry.rawContent &&
    entry.contentDigest = contentDigestOf (normalizeContent entry.rawContent)

/-- The entries of a discovery one after the other, none at a path that was seen before. -/
def indexEntries : List DiscoveryEntry → List String → Result Unit
  | [], _ => .ok ()
  | entry :: rest, seen => do
      reject (entry.sourcePath ∈ seen || !entryValid entry)
        (discoveryMismatch "discovery entry is invalid")
      indexEntries rest (entry.sourcePath :: seen)

/-- Whether an item says of a discovered source what its classification says. -/
def itemMatches (item : ImportPlanItem) (entry : DiscoveryEntry) : Bool :=
  let found := entry.classification
  entry.contentDigest = item.contentDigest &&
    (item.action = .rename || found.artifactId = item.artifactId) &&
    found.artifactType = item.artifactType &&
    found.classificationStatus = item.classificationStatus &&
    canonicalJson (issuesJson found.issues) = canonicalJson (issuesJson item.issues)

/-- The items of a plan against the entries that no earlier item has taken. -/
def matchItems : List ImportPlanItem → List DiscoveryEntry → Result (List DiscoveryEntry)
  | [], entries => .ok entries
  | item :: rest, entries =>
      match item.action, entries.find? (·.sourcePath = item.sourcePath) with
      | .deactivate, some _ =>
          .error (discoveryMismatch "deactivate item cannot have discovered content")
      | .deactivate, none => matchItems rest entries
      | _, none => .error (discoveryMismatch "import item does not match discovery")
      | _, some entry =>
          if itemMatches item entry then
            matchItems rest (entries.filter (·.sourcePath ≠ item.sourcePath))
          else .error (discoveryMismatch "import item does not match discovery")

/-- `prepareImportBatchCommand`. -/
def prepareImportBatchCommand (command : ImportBatchCommand) : Result Unit := do
  let plan := command.plan
  let discovery := command.discovery
  reject (!plan.valid)
    (repositoryError "import plan is invalid" "MANAGED_GOVERNANCE_REPOSITORY_INPUT_INVALID")
  reject (plan.batchKey ≠ batchKeyOf plan.repositoryId plan.sourceCommit plan.importerVersion
      plan.sourceProfileDigest || plan.planId ≠ digestCanonical (.obj plan.unsignedMembers))
    (repositoryError "import plan integrity check failed"
      "MANAGED_GOVERNANCE_IMPORT_PLAN_INTEGRITY_FAILED")
  reject (!withinMegabytes 8 (canonicalJson plan.toJson))
    (repositoryError "import plan exceeds the durable limit"
      "MANAGED_GOVERNANCE_REPOSITORY_INPUT_INVALID")
  reject (discovery.repositoryId ≠ plan.repositoryId || discovery.sourceCommit ≠ plan.sourceCommit ||
      discovery.sourceTimestamp ≠ plan.generatedAt ||
      discovery.sourceProfile ≠ plan.sourceProfile ||
      discovery.sourceProfileDigest ≠ plan.sourceProfileDigest)
    (discoveryMismatch "discovery does not match the import plan")
  indexEntries discovery.entries []
  let unplanned ← matchItems plan.items discovery.entries
  reject (unplanned ≠ []) (discoveryMismatch "discovery contains unplanned sources")
  let _ ← boundedText command.canonicalRemote "canonical remote" 1024

end Hseos.ControlPlane
