import Hseos.Contracts.Common
import Hseos.Foundation.IsoDate
import Hseos.Foundation.Run
import Mathlib.Data.List.Dedup

/-! # The import contracts of the governance catalog

Issues, plan items, plans and reports as the managed governance contracts define
them, with what their schemas check. Enumerations and the metadata of a plan are
of types whose values pass their schemas; the paths, identifiers and digests of
items and issues are checked when a plan is parsed.
-/

namespace Hseos.ControlPlane

/-! ## Errors -/

/-- An error by its class, its message and its code. -/
structure GovernanceError where
  name : String
  message : String
  code : String
  deriving DecidableEq

abbrev Result := Except GovernanceError

def importPlanError (message : String) : GovernanceError :=
  ⟨"ImportPlanError", message, "MANAGED_GOVERNANCE_IMPORT_PLAN_INVALID"⟩

/-- What `parseContract` throws. -/
def contractError (label : String) : GovernanceError :=
  ⟨"ManagedGovernanceContractError", label ++ " does not match schema v1",
    "MANAGED_GOVERNANCE_CONTRACT_INVALID"⟩

def repositoryError (message code : String) : GovernanceError :=
  ⟨"GovernanceRepositoryError", message, code⟩

/-! ## Schemas of strings -/

/-- `UuidSchema`. -/
def isUuid (text : String) : Bool :=
  let isHex := fun c : Char => c.isDigit || ('a' ≤ c && c ≤ 'f') || ('A' ≤ c && c ≤ 'F')
  text ∈ ["00000000-0000-0000-0000-000000000000", "ffffffff-ffff-ffff-ffff-ffffffffffff"] ||
    match (chars text).splitOn '-' with
    | [low, mid, version :: high, variant :: clock, node] =>
        low.length = 8 && mid.length = 4 && high.length = 3 && clock.length = 3 &&
          node.length = 12 && (low ++ mid ++ high ++ clock ++ node).all isHex &&
          ('1' ≤ version && version ≤ '8') && variant ∈ ['8', '9', 'a', 'b', 'A', 'B']
    | _ => false

abbrev RepositoryId := Refined isUuid

/-- `GitObjectIdSchema`. -/
def isGitObjectId (text : String) : Bool :=
  (chars text).length ∈ [40, 64] && (chars text).all Sha256.isHexChar

abbrev GitObjectId := Refined isGitObjectId

/-- A number without leading zeros. -/
def isNumeric (digits : List Char) : Bool :=
  digits ≠ [] && digits.all Char.isDigit && (digits.head? ≠ some '0' || digits.length = 1)

/-- The dot-separated identifiers of a prerelease or of build metadata. -/
def isIdentifierChar (c : Char) : Bool := c.isAlphanum || c = '-'

/-- `SemverSchema`. -/
def isSemverText (text : String) : Bool :=
  let (version, build) := (chars text).span (· ≠ '+')
  let (core, prerelease) := version.span (· ≠ '-')
  let numbers := core.splitOn '.'
  numbers.length = 3 && numbers.all isNumeric &&
    (prerelease = [] || ((prerelease.drop 1).splitOn '.').all fun part =>
      part ≠ [] && part.all isIdentifierChar && (isNumeric part || part.any (!·.isDigit))) &&
    (build = [] || ((build.drop 1).splitOn '.').all fun part =>
      part ≠ [] && part.all isIdentifierChar)

abbrev SemverText := Refined isSemverText

/-- `boundedString`, with at least one byte. -/
def boundedBytes (maximum : Nat) (text : String) : Bool :=
  1 ≤ byteLength (chars text) && byteLength (chars text) ≤ maximum

/-- `RelativePathSchema`. -/
def isRelativePath (path : String) : Bool :=
  let text := chars path
  let drive := match text with
    | letter :: ':' :: _ => letter.isAlpha
    | _ => false
  boundedBytes 1024 path && text.head? ≠ some '/' && !drive && !text.contains '\\' &&
    (text.splitOn '/').all (fun segment => segment ∉ [[], ['.'], ['.', '.']]) &&
    !text.contains '\x00'

/-- `Buffer.byteLength(value, 'utf8') <= 1024 * 1024 * megabytes`. -/
def withinMegabytes (megabytes : Nat) (text : List Char) : Bool :=
  byteLength text ≤ megabytes * 1024 * 1024

/-! ## Enumerations -/

inductive ArtifactType where
  | constitution | standard | policy | rule | restriction | pattern | stackProfile | contract
  | schema | adr | authority | capability | hook | workflow | skill | exception | unclassified
  deriving DecidableEq

def ArtifactType.text : ArtifactType → String
  | constitution => "constitution"
  | standard => "standard"
  | policy => "policy"
  | rule => "rule"
  | restriction => "restriction"
  | pattern => "pattern"
  | stackProfile => "stack-profile"
  | contract => "contract"
  | schema => "schema"
  | adr => "adr"
  | authority => "authority"
  | capability => "capability"
  | hook => "hook"
  | workflow => "workflow"
  | skill => "skill"
  | exception => "exception"
  | unclassified => "unclassified"

inductive ClassificationStatus where
  | classified | incomplete | unclassified
  deriving DecidableEq

def ClassificationStatus.text : ClassificationStatus → String
  | classified => "classified"
  | incomplete => "partial"
  | unclassified => "unclassified"

inductive ImportAction where
  | create | version | noop | rename | deactivate | review
  deriving DecidableEq

def ImportAction.text : ImportAction → String
  | create => "create"
  | version => "version"
  | noop => "noop"
  | rename => "rename"
  | deactivate => "deactivate"
  | review => "review"

inductive Severity where
  | warning | error
  deriving DecidableEq

def Severity.text : Severity → String
  | warning => "warning"
  | error => "error"

/-! ## Issues and items -/

structure ImportIssue where
  code : String
  path : String
  message : String
  severity : Severity
  deriving DecidableEq

def ImportIssue.toJson (issue : ImportIssue) : Json :=
  .obj [("code", .str issue.code), ("path", .str issue.path), ("message", .str issue.message),
    ("severity", .str issue.severity.text)]

/-- `ImportIssueSchema`. -/
def ImportIssue.valid (issue : ImportIssue) : Bool :=
  isIdentifier issue.code && isRelativePath issue.path && boundedBytes 2048 issue.message

def issuesJson (issues : List ImportIssue) : Json := .arr (issues.map ImportIssue.toJson)

/-- `uniqueArray` of at most `maximum` items, told apart by their canonical texts. -/
def uniqueArray {α : Type} (toJson : α → Json) (maximum : Nat) (items : List α) : Bool :=
  items.length ≤ maximum && (items.map fun item => canonicalJson (toJson item)).Nodup

structure ImportPlanItem where
  sourcePath : String
  artifactId : Option String
  artifactType : ArtifactType
  classificationStatus : ClassificationStatus
  contentDigest : String
  action : ImportAction
  previousSourcePath : Option String
  issues : List ImportIssue
  deriving DecidableEq

def ImportPlanItem.toJson (item : ImportPlanItem) : Json :=
  .obj [("source_path", .str item.sourcePath), ("artifact_id", .ofNullable .str item.artifactId),
    ("artifact_type", .str item.artifactType.text),
    ("classification_status", .str item.classificationStatus.text),
    ("content_digest", .str item.contentDigest), ("action", .str item.action.text),
    ("previous_source_path", .ofNullable .str item.previousSourcePath),
    ("issues", issuesJson item.issues)]

/-- `ImportPlanItemSchema`. -/
def ImportPlanItem.valid (item : ImportPlanItem) : Bool :=
  isRelativePath item.sourcePath && item.artifactId.all isIdentifier &&
    isDigest item.contentDigest && item.previousSourcePath.all isRelativePath &&
    item.issues.all ImportIssue.valid && uniqueArray ImportIssue.toJson 64 item.issues

/-! ## Plans -/

/-- `MAX_IMPORT_ITEMS`. -/
def maxImportItems : Nat := 20000

structure ImportPlan where
  planId : Digest
  batchKey : Digest
  organizationId : Identifier
  repositoryId : RepositoryId
  sourceCommit : GitObjectId
  importerVersion : SemverText
  sourceProfile : Identifier
  sourceProfileDigest : Digest
  generatedAt : Timestamp
  items : List ImportPlanItem
  issues : List ImportIssue
  deriving DecidableEq

namespace ImportPlan

variable (plan : ImportPlan)

/-- The members of a plan that its `plan_id` is computed from. -/
def unsignedMembers : List (String × Json) :=
  [("schema_version", .ofNat 1), ("batch_key", .ofText plan.batchKey),
    ("organization_id", .ofText plan.organizationId), ("repository_id", .ofText plan.repositoryId),
    ("source_commit", .ofText plan.sourceCommit), ("importer_version", .ofText plan.importerVersion),
    ("source_profile", .ofText plan.sourceProfile),
    ("source_profile_digest", .ofText plan.sourceProfileDigest),
    ("generated_at", .ofText plan.generatedAt),
    ("items", .arr (plan.items.map ImportPlanItem.toJson)), ("issues", issuesJson plan.issues)]

def toJson : Json := .obj (("plan_id", .ofText plan.planId) :: plan.unsignedMembers)

/-- `ImportPlanSchema`. -/
def valid : Bool :=
  plan.items.all ImportPlanItem.valid &&
    uniqueArray ImportPlanItem.toJson maxImportItems plan.items &&
    plan.issues.all ImportIssue.valid && uniqueArray ImportIssue.toJson maxImportItems plan.issues

end ImportPlan

/-- `digestCanonical`. -/
def digestCanonical (value : Json) : Digest := ⟨digest value, isDigest_digest value⟩

/-- The key that tells one import of a commit from another. -/
def batchKeyOf (repositoryId : RepositoryId) (sourceCommit : GitObjectId)
    (importerVersion : SemverText) (sourceProfileDigest : Digest) : Digest :=
  digestCanonical (.obj [("repository_id", .ofText repositoryId),
    ("source_commit", .ofText sourceCommit), ("importer_version", .ofText importerVersion),
    ("source_profile_digest", .ofText sourceProfileDigest)])

/-! ## Reports -/

/-- An identifier that `randomUUID` has drawn, known by how many were drawn before it. -/
abbrev Uuid := Nat

inductive ReportStatus where
  | completed | rolledBack
  deriving DecidableEq

structure ImportCounts where
  discovered : Nat
  classified : Nat
  incomplete : Nat
  unclassified : Nat
  created : Nat
  versioned : Nat
  unchanged : Nat
  reviewRequired : Nat
  deriving DecidableEq

def countImportItems (items : List ImportPlanItem) : ImportCounts :=
  let status := fun value => items.countP fun item => item.classificationStatus = value
  let action := fun value => items.countP fun item => item.action = value
  { discovered := items.length
    classified := status .classified
    incomplete := status .incomplete
    unclassified := status .unclassified
    created := action .create
    versioned := action .version
    unchanged := action .noop
    reviewRequired := action .review }

structure ImportReport where
  batchId : Uuid
  planId : Digest
  batchKey : Digest
  organizationId : Identifier
  repositoryId : RepositoryId
  status : ReportStatus
  startedAt : Int
  completedAt : Int
  activeBatch : Bool
  counts : ImportCounts
  items : List ImportPlanItem
  issues : List ImportIssue
  deriving DecidableEq

/-- The instants whose ISO text has a year of four digits, as `TimestampSchema` wants it. -/
def isInstant (instant : Int) : Bool := -62167219200000 ≤ instant && instant < 253402300800000

/-- `ImportReportSchema`. The items and the issues are those of a plan. -/
def ImportReport.valid (report : ImportReport) : Bool :=
  isInstant report.startedAt && isInstant report.completedAt &&
    report.startedAt ≤ report.completedAt &&
    report.counts.classified + report.counts.incomplete + report.counts.unclassified =
      report.counts.discovered && report.items.length = report.counts.discovered &&
    report.items.all ImportPlanItem.valid &&
    uniqueArray ImportPlanItem.toJson maxImportItems report.items &&
    report.issues.all ImportIssue.valid &&
    uniqueArray ImportIssue.toJson maxImportItems report.issues

def buildImportReport (batchId : Uuid) (plan : ImportPlan) (status : ReportStatus)
    (startedAt completedAt : Int) (activeBatch : Bool) : Result ImportReport :=
  let report : ImportReport :=
    { batchId, planId := plan.planId, batchKey := plan.batchKey,
      organizationId := plan.organizationId, repositoryId := plan.repositoryId, status, startedAt,
      completedAt, activeBatch, counts := countImportItems plan.items, items := plan.items,
      issues := plan.issues }
  if report.valid then .ok report else .error (contractError "import report")

theorem counts_total (items : List ImportPlanItem) :
    (countImportItems items).classified + (countImportItems items).incomplete +
      (countImportItems items).unclassified = items.length := by
  induction items with
  | nil => rfl
  | cons item rest ih =>
      simp only [countImportItems, List.countP_cons, List.length_cons] at ih ⊢
      cases item.classificationStatus <;> simp <;> omega

/-- A report is built from its arguments. -/
theorem eq_of_buildImportReport {batchId : Uuid} {plan : ImportPlan} {status : ReportStatus}
    {startedAt completedAt : Int} {activeBatch : Bool} {report : ImportReport}
    (h : buildImportReport batchId plan status startedAt completedAt activeBatch = .ok report) :
    report =
      { batchId, planId := plan.planId, batchKey := plan.batchKey,
        organizationId := plan.organizationId, repositoryId := plan.repositoryId, status, startedAt,
        completedAt, activeBatch, counts := countImportItems plan.items, items := plan.items,
        issues := plan.issues } := by
  unfold buildImportReport at h
  dsimp only at h
  split at h
  · exact (Except.ok.inj h).symm
  · cases h

/-- A report over a plan that matches its schema is built exactly when its times are. -/
theorem buildImportReport_eq_ok_iff {batchId : Uuid} {plan : ImportPlan} {status : ReportStatus}
    {startedAt completedAt : Int} {activeBatch : Bool} {report : ImportReport}
    (hplan : plan.valid = true) :
    buildImportReport batchId plan status startedAt completedAt activeBatch = .ok report ↔
      (isInstant startedAt = true ∧ isInstant completedAt = true ∧ startedAt ≤ completedAt) ∧
        { batchId, planId := plan.planId, batchKey := plan.batchKey,
          organizationId := plan.organizationId, repositoryId := plan.repositoryId, status,
          startedAt, completedAt, activeBatch, counts := countImportItems plan.items,
          items := plan.items, issues := plan.issues : ImportReport } = report := by
  have htotal := counts_total plan.items
  have hlength : (countImportItems plan.items).discovered = plan.items.length := rfl
  simp only [ImportPlan.valid, Bool.and_eq_true] at hplan
  obtain ⟨⟨⟨hitems, hunique⟩, hissues⟩, huniqueIssues⟩ := hplan
  unfold buildImportReport
  dsimp only
  split
  next hvalid =>
    simp only [ImportReport.valid, Bool.and_eq_true, decide_eq_true_eq] at hvalid
    rw [Except.ok.injEq]
    exact ⟨fun h => ⟨⟨hvalid.1.1.1.1.1.1.1.1, hvalid.1.1.1.1.1.1.1.2, hvalid.1.1.1.1.1.1.2⟩, h⟩,
      fun h => h.2⟩
  next hvalid =>
    constructor
    · intro h
      cases h
    · rintro ⟨⟨hstarted, hcompleted, horder⟩, -⟩
      apply absurd ?_ hvalid
      simp [ImportReport.valid, hstarted, hcompleted, horder, htotal, hlength, hitems, hunique,
        hissues, huniqueIssues]

end Hseos.ControlPlane
