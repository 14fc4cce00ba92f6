import Hseos.ControlPlane.RepositoryPort
import Mathlib.Logic.Function.Basic

/-! # The governance repository in memory

The state of the repository and the commands that change it. A command works on
copies of the maps, so that one that fails changes nothing. The audit events and
the outbox messages, which no command reads, are left out.
-/

namespace Hseos.ControlPlane

/-! ## Records -/

structure Organization where
  organizationPk : Uuid
  organizationId : Identifier
  slug : Identifier
  displayName : String
  createdAt : Int
  deriving DecidableEq

inductive CommandResult where
  | organization (organization : Organization)
  | report (report : ImportReport)
  deriving DecidableEq

structure Receipt where
  commandDigest : Digest
  result : CommandResult
  createdAt : Int
  deriving DecidableEq

structure Repository where
  repositoryPk : Uuid
  organizationId : Identifier
  repositoryId : RepositoryId
  canonicalRemote : String
  activeBatchId : Option Uuid
  createdAt : Int
  updatedAt : Int
  deriving DecidableEq

inductive LifecycleStatus where
  | draft | published | deprecated
  deriving DecidableEq

structure Artifact where
  artifactPk : Uuid
  organizationId : Identifier
  artifactId : String
  artifactType : ArtifactType
  slug : String
  title : String
  lifecycleStatus : LifecycleStatus
  currentVersion : Nat
  createdAt : Int
  updatedAt : Int
  deriving DecidableEq

structure ArtifactVersion where
  artifactVersionId : Uuid
  organizationId : Identifier
  artifactId : String
  /-- Versions are numbered from one. -/
  version : Nat
  rawContent : String
  structuredContent : Json
  contentDigest : String
  sourceRepositoryId : RepositoryId
  sourcePath : String
  sourceCommit : GitObjectId
  classificationStatus : ClassificationStatus
  importBatchId : Uuid
  active : Bool
  createdAt : Int
  deriving DecidableEq

structure Snapshot where
  catalogSourceSnapshotId : Uuid
  organizationId : Identifier
  repositoryId : RepositoryId
  importBatchId : Uuid
  sourcePath : String
  artifactId : Option String
  artifactType : ArtifactType
  classificationStatus : ClassificationStatus
  contentDigest : String
  artifactVersionId : Option Uuid
  createdAt : Int
  deriving DecidableEq

/-- What a catalog lists of a source. -/
def Snapshot.entry (snapshot : Snapshot) : CatalogEntry where
  sourcePath := snapshot.sourcePath
  artifactId := snapshot.artifactId
  artifactType := snapshot.artifactType
  classificationStatus := snapshot.classificationStatus
  contentDigest := snapshot.contentDigest
  artifactVersionId := snapshot.artifactVersionId

structure ImportBatch where
  importBatchId : Uuid
  organizationId : Identifier
  repositoryId : RepositoryId
  batchKey : Digest
  idempotencyKey : Identifier
  previousBatchId : Option Uuid
  status : ReportStatus
  active : Bool
  plan : ImportPlan
  report : ImportReport
  deriving DecidableEq

/-- An organization and an artifact id. -/
abbrev ArtifactKey := Identifier × String

abbrev RepositoryKey := Identifier × RepositoryId

/-- The repository that a command imports into. -/
abbrev ImportBatchCommand.repositoryKey (command : ImportBatchCommand) : RepositoryKey :=
  (command.plan.organizationId, command.plan.repositoryId)

/-- `_artifactKey`: an absent id is written as `null`. -/
def artifactKey (organizationId : Identifier) (artifactId : Option String) : ArtifactKey :=
  (organizationId, artifactId.getD "null")

/-- The artifacts of a repository and their versions. An artifact without versions has none
listed. -/
structure Stored where
  artifacts : ArtifactKey → Option Artifact
  artifactVersions : ArtifactKey → List ArtifactVersion

structure MemoryGovernanceRepository extends Stored where
  organizations : Identifier → Option Organization
  receipts : Identifier × Identifier → Option Receipt
  repositories : RepositoryKey → Option Repository
  importBatches : Uuid → Option ImportBatch
  batchKeys : Identifier × Digest → Option Uuid
  catalogSnapshots : Uuid → List Snapshot
  /-- Every identifier drawn so far is below this number. -/
  drawn : Nat

namespace MemoryGovernanceRepository

def empty : MemoryGovernanceRepository where
  artifacts _ := none
  artifactVersions _ := []
  organizations _ := none
  receipts _ := none
  repositories _ := none
  importBatches _ := none
  batchKeys _ := none
  catalogSnapshots _ := []
  drawn := 0

end MemoryGovernanceRepository

/-! ## Materializing a plan -/

/-- What stays the same while the items of one plan are imported. -/
structure ImportContext where
  plan : ImportPlan
  entries : List DiscoveryEntry
  batchId : Uuid
  occurredAt : Int
  previousSnapshots : List Snapshot

/-- The copies that the items of a plan change. -/
structure Materializing extends Stored where
  nextSnapshots : List Snapshot
  drawn : Nat

def importPlanStale : GovernanceError :=
  repositoryError "import plan references missing prior content"
    "MANAGED_GOVERNANCE_IMPORT_PLAN_STALE"

/-- `previousByPath.get(sourcePath)`. -/
def snapshotAt (snapshots : List Snapshot) (sourcePath : String) : Option Snapshot :=
  snapshots.reverse.find? (·.sourcePath = sourcePath)

/-- The prior snapshot that an item goes back to. -/
def previousOf (snapshots : List Snapshot) (item : ImportPlanItem) : Option Snapshot :=
  (snapshotAt snapshots item.sourcePath).or
    ((item.previousSourcePath.bind (snapshotAt snapshots)).or
      (snapshots.find? fun snapshot =>
        snapshot.artifactId = item.artifactId && snapshot.contentDigest = item.contentDigest))

namespace ImportContext

variable (context : ImportContext)

def snapshot (item : ImportPlanItem) (id : Uuid) (version : Option ArtifactVersion) : Snapshot where
  catalogSourceSnapshotId := id
  organizationId := context.plan.organizationId
  repositoryId := context.plan.repositoryId
  importBatchId := context.batchId
  sourcePath := item.sourcePath
  artifactId := item.artifactId
  artifactType := item.artifactType
  classificationStatus := item.classificationStatus
  contentDigest := item.contentDigest
  artifactVersionId := version.map (·.artifactVersionId)
  createdAt := context.occurredAt

/-- The version that an artifact gets for a content it never had. -/
def newVersion (item : ImportPlanItem) (artifactId : String) (entry : DiscoveryEntry)
    (materialization : Materialization) (id : Uuid) (earlier : Nat) : ArtifactVersion where
  artifactVersionId := id
  organizationId := context.plan.organizationId
  artifactId
  version := earlier + 1
  rawContent := entry.rawContent
  structuredContent := materialization.structuredContent
  contentDigest := item.contentDigest
  sourceRepositoryId := context.plan.repositoryId
  sourcePath := item.sourcePath
  sourceCommit := context.plan.sourceCommit
  classificationStatus := item.classificationStatus
  importBatchId := context.batchId
  active := true
  createdAt := context.occurredAt

def artifact (item : ImportPlanItem) (artifactId : String) (materialization : Materialization)
    (existing : Option Artifact) (pk : Uuid) (version : ArtifactVersion) : Artifact where
  artifactPk := (existing.map (·.artifactPk)).getD pk
  organizationId := context.plan.organizationId
  artifactId
  artifactType := item.artifactType
  slug := (existing.map (·.slug)).getD materialization.slug
  title := materialization.title
  lifecycleStatus := if item.action = .review then .draft else .published
  currentVersion := version.version
  createdAt := (existing.map (·.createdAt)).getD context.occurredAt
  updatedAt := context.occurredAt

end ImportContext

/-- An item whose content is stored as a version of an artifact. -/
def materializeItem (platform : Platform) (context : ImportContext) (item : ImportPlanItem)
    (artifactId : String) (before : Materializing) :
    Result (Stored × ArtifactVersion) := do
  let key := artifactKey context.plan.organizationId (some artifactId)
  let versions := before.artifactVersions key
  match context.entries.find? (·.sourcePath = item.sourcePath) with
  | none => throw (discoveryMismatch "discovery structured content is invalid")
  | some entry =>
      let materialization ← artifactMaterialization platform entry
      let found := versions.find? (·.contentDigest = item.contentDigest)
      let version := found.getD (context.newVersion item artifactId entry materialization
        before.drawn versions.length)
      return ({
        artifacts := Function.update before.artifacts key (some (context.artifact item artifactId
          materialization (before.artifacts key) (before.drawn + 1) version))
        artifactVersions := if found.isSome then before.artifactVersions
          else Function.update before.artifactVersions key (versions ++ [version]) }, version)

/-- The copies with an item's snapshot beside what is stored for it. -/
def Materializing.record (before : Materializing) (context : ImportContext) (item : ImportPlanItem)
    (stored : Stored) (version : Option ArtifactVersion) : Materializing :=
  { stored with
    nextSnapshots := before.nextSnapshots ++ [context.snapshot item (before.drawn + 2) version]
    drawn := before.drawn + 3 }

/-- A `noop` or `rename`, which keeps the version of the prior snapshot. -/
def keepItem (context : ImportContext) (before : Materializing) (item : ImportPlanItem) :
    Result Materializing :=
  match (previousOf context.previousSnapshots item).bind (·.artifactVersionId) with
  | none => .error importPlanStale
  | some id =>
      let versions := before.artifactVersions
        (artifactKey context.plan.organizationId item.artifactId)
      .ok (before.record context item before.toStored (versions.find? (·.artifactVersionId = id)))

/-- A `create`, `version` or `review`. -/
def storeItem (platform : Platform) (context : ImportContext) (before : Materializing)
    (item : ImportPlanItem) : Result Materializing :=
  match item.artifactId with
  | none => .ok (before.record context item before.toStored none)
  | some artifactId => do
      let (stored, version) ← materializeItem platform context item artifactId before
      return before.record context item stored (some version)

def importItem (platform : Platform) (context : ImportContext) (before : Materializing)
    (item : ImportPlanItem) : Result Materializing :=
  match item.action with
  | .deactivate => .ok before
  | .noop | .rename => keepItem context before item
  | .create | .version | .review => storeItem platform context before item

def importItems (platform : Platform) (context : ImportContext) :
    List ImportPlanItem → Materializing → Result Materializing
  | [], before => .ok before
  | item :: rest, before => do
      importItems platform context rest (← importItem platform context before item)

/-! ## The activation sweep -/

/-- `new Set(snapshots.map((snapshot) => snapshot.artifact_version_id).filter(Boolean))`. -/
def activeVersionIds (snapshots : List Snapshot) : List Uuid :=
  snapshots.filterMap (·.artifactVersionId)

def sweepVersions (snapshots : List Snapshot) (versions : List ArtifactVersion) :
    List ArtifactVersion :=
  versions.map fun version =>
    { version with active := decide (version.artifactVersionId ∈ activeVersionIds snapshots) }

/-- The lifecycle of an artifact by its active version and the catalog it is listed in. -/
def lifecycleOf (snapshots : List Snapshot) (artifactId : String)
    (activeVersion : Option ArtifactVersion) : LifecycleStatus :=
  if activeVersion.isNone then .deprecated
  else if snapshots.any fun snapshot =>
      snapshot.artifactId = some artifactId && snapshot.classificationStatus ≠ .classified then
    .draft
  else .published

def sweepArtifact (snapshots : List Snapshot) (occurredAt : Int) (versions : List ArtifactVersion)
    (artifact : Artifact) : Artifact :=
  let activeVersion := (sweepVersions snapshots versions).find? (·.active)
  { artifact with
    currentVersion := (activeVersion.map (·.version)).getD artifact.currentVersion
    lifecycleStatus := lifecycleOf snapshots artifact.artifactId activeVersion
    updatedAt := occurredAt }

/-- Every stored version and artifact, as the snapshots of one batch have it. -/
def Stored.sweep (stored : Stored) (snapshots : List Snapshot) (occurredAt : Int) : Stored where
  artifacts key :=
    if stored.artifactVersions key = [] then stored.artifacts key
    else (stored.artifacts key).map
      (sweepArtifact snapshots occurredAt (stored.artifactVersions key))
  artifactVersions key := sweepVersions snapshots (stored.artifactVersions key)

/-! ## Commands -/

namespace MemoryGovernanceRepository

def idempotencyConflict (message : String) : GovernanceError :=
  repositoryError message "MANAGED_GOVERNANCE_IDEMPOTENCY_CONFLICT"

def conflict (message : String) : GovernanceError :=
  repositoryError message "MANAGED_GOVERNANCE_CONFLICT"

def storeReceipt (state : MemoryGovernanceRepository) (key : Identifier × Identifier)
    (receipt : Receipt) : MemoryGovernanceRepository :=
  { state with receipts := Function.update state.receipts key (some receipt) }

/-- What a stored receipt answers, or the command carried out. -/
def answering (state : MemoryGovernanceRepository) (key : Identifier × Identifier)
    (commandDigest : Digest) (conflictMessage : String)
    (execute : Result (CommandResult × MemoryGovernanceRepository)) :
    Result (CommandResult × MemoryGovernanceRepository) :=
  match state.receipts key with
  | some receipt =>
      if receipt.commandDigest = commandDigest then .ok (receipt.result, state)
      else .error (idempotencyConflict conflictMessage)
  | none => execute

def ensureOrganization (command : OrganizationCommand) (now : Int)
    (state : MemoryGovernanceRepository) : Result (CommandResult × MemoryGovernanceRepository) := do
  prepareEnsureOrganizationCommand command
  let key := (command.organizationId, command.idempotencyKey)
  answering state key command.commandDigest
    "idempotency key was already used for a different command" do
  let existing := state.organizations command.organizationId
  reject (existing.any fun organization =>
      organization.slug ≠ command.slug || organization.displayName ≠ command.displayName)
    (conflict "organization already exists with different data")
  let organization := existing.getD
    { organizationPk := state.drawn, organizationId := command.organizationId,
      slug := command.slug, displayName := command.displayName, createdAt := now }
  let stored := { state with
    organizations := Function.update state.organizations command.organizationId (some organization)
    drawn := state.drawn + 1 }
  return (.organization organization,
    stored.storeReceipt key ⟨command.commandDigest, .organization organization, now⟩)

/-- The repository of a command, new where the organization has none of that id. -/
def repositoryOf (state : MemoryGovernanceRepository) (command : ImportBatchCommand) (now : Int) :
    Repository :=
  (state.repositories (command.plan.organizationId, command.plan.repositoryId)).getD
    { repositoryPk := state.drawn + 1, organizationId := command.plan.organizationId,
      repositoryId := command.plan.repositoryId, canonicalRemote := command.canonicalRemote,
      activeBatchId := none, createdAt := now, updatedAt := now }

/-- The report on a batch whose key is already known. -/
def knownReport (state : MemoryGovernanceRepository) (plan : ImportPlan) (batchId : Uuid) :
    Result ImportReport :=
  match state.importBatches batchId with
  | none => .error ⟨"TypeError", "Cannot read properties of undefined (reading 'active')", ""⟩
  | some batch =>
      if batch.active then
        buildImportReport batchId plan .completed batch.report.startedAt batch.report.completedAt true
      else .ok batch.report

def setActive (batches : Uuid → Option ImportBatch) (batchId : Uuid) (active : Bool) :
    Uuid → Option ImportBatch :=
  Function.update batches batchId ((batches batchId).map fun batch => { batch with active })

/-- The snapshots of a repository's active batch. -/
def activeSnapshots (state : MemoryGovernanceRepository) (repository : Repository) :
    List Snapshot :=
  (repository.activeBatchId.map state.catalogSnapshots).getD []

/-- What the items of a command are imported with. -/
def contextOf (state : MemoryGovernanceRepository) (command : ImportBatchCommand) (now : Int) :
    ImportContext where
  plan := command.plan
  entries := command.discovery.entries
  batchId := state.drawn
  occurredAt := now
  previousSnapshots := state.activeSnapshots (state.repositoryOf command now)

/-- The copies that the import of a command starts from. -/
def materializing (state : MemoryGovernanceRepository) : Materializing :=
  { state.toStored with nextSnapshots := [], drawn := state.drawn + 2 }

/-- The batch of an import. -/
def batchOf (state : MemoryGovernanceRepository) (command : ImportBatchCommand) (now : Int)
    (report : ImportReport) : ImportBatch where
  importBatchId := state.drawn
  organizationId := command.plan.organizationId
  repositoryId := command.plan.repositoryId
  batchKey := command.plan.batchKey
  idempotencyKey := command.idempotencyKey
  previousBatchId := (state.repositoryOf command now).activeBatchId
  status := .completed
  active := true
  plan := command.plan
  report

/-- The state with a new active batch. -/
def withImport (state : MemoryGovernanceRepository) (command : ImportBatchCommand) (now : Int)
    (imported : Materializing) (report : ImportReport) : MemoryGovernanceRepository :=
  let plan := command.plan
  let batchId := state.drawn
  let repository := state.repositoryOf command now
  let batches := match repository.activeBatchId with
    | some previous => setActive state.importBatches previous false
    | none => state.importBatches
  { state with
    toStored := imported.toStored.sweep imported.nextSnapshots now
    repositories := Function.update state.repositories (plan.organizationId, plan.repositoryId)
      (some { repository with activeBatchId := some batchId, updatedAt := now })
    importBatches := Function.update batches batchId (some (state.batchOf command now report))
    batchKeys := Function.update state.batchKeys (plan.organizationId, plan.batchKey)
      (some batchId)
    catalogSnapshots := Function.update state.catalogSnapshots batchId imported.nextSnapshots
    drawn := imported.drawn }

/-- The import of a batch whose key is new. -/
def importBatch (platform : Platform) (command : ImportBatchCommand) (now : Int)
    (state : MemoryGovernanceRepository) : Result (CommandResult × MemoryGovernanceRepository) := do
  reject ((state.repositoryOf command now).canonicalRemote ≠ command.canonicalRemote)
    (conflict "repository remote differs from its durable identity")
  let imported ← importItems platform (state.contextOf command now) command.plan.items
    state.materializing
  let report ← buildImportReport state.drawn command.plan .completed now now true
  return (.report report, (state.withImport command now imported report).storeReceipt
    (command.plan.organizationId, command.idempotencyKey)
    ⟨command.commandDigest, .report report, now⟩)

def applyImportBatch (platform : Platform) (command : ImportBatchCommand) (now : Int)
    (state : MemoryGovernanceRepository) : Result (CommandResult × MemoryGovernanceRepository) := do
  prepareImportBatchCommand command
  let key := (command.plan.organizationId, command.idempotencyKey)
  answering state key command.commandDigest
    "idempotency key was already used for a different command" do
  reject (state.organizations command.plan.organizationId).isNone
    (repositoryError "organization must exist before import" "MANAGED_GOVERNANCE_NOT_FOUND")
  match state.batchKeys (command.plan.organizationId, command.plan.batchKey) with
  | some batchId =>
      let report ← state.knownReport command.plan batchId
      return (.report report,
        state.storeReceipt key ⟨command.commandDigest, .report report, now⟩)
  | none => state.importBatch platform command now

/-- The state with a batch rolled back and the one before it active again. -/
def withRollback (state : MemoryGovernanceRepository) (command : RollbackCommand) (now : Int)
    (repository : Repository) (batch : ImportBatch) (previousId : Uuid)
    (previousBatch : ImportBatch) (report : ImportReport) : MemoryGovernanceRepository :=
  let restored := { batch with status := .rolledBack, active := false, report }
  { state with
    toStored := state.toStored.sweep (state.catalogSnapshots previousBatch.importBatchId) now
    repositories := Function.update state.repositories
      (command.organizationId, command.repositoryId)
      (some { repository with activeBatchId := some previousBatch.importBatchId, updatedAt := now })
    importBatches := setActive
      (Function.update state.importBatches command.batchId (some restored)) previousId true }

/-- The rollback of a repository's active batch to the one before it. -/
def restorePrevious (command : RollbackCommand) (now : Int) (state : MemoryGovernanceRepository)
    (repository : Repository) (batch : ImportBatch) (previousId : Uuid) :
    Result (CommandResult × MemoryGovernanceRepository) :=
  match state.importBatches previousId with
  | none => .error ⟨"TypeError", "Cannot read properties of undefined (reading 'import_batch_id')", ""⟩
  | some previousBatch => do
      let report ← buildImportReport batch.importBatchId batch.plan .rolledBack
        batch.report.startedAt now false
      let next := state.withRollback command now repository batch previousId previousBatch report
      return (.report report, next.storeReceipt (command.organizationId, command.idempotencyKey)
        ⟨command.commandDigest, .report report, now⟩)

def rollbackImportBatch (command : RollbackCommand) (now : Int)
    (state : MemoryGovernanceRepository) : Result (CommandResult × MemoryGovernanceRepository) :=
  answering state (command.organizationId, command.idempotencyKey) command.commandDigest
    "idempotency key conflicts with another command" <|
  match state.repositories (command.organizationId, command.repositoryId),
      state.importBatches command.batchId with
  | some repository, some batch =>
      match batch.previousBatchId with
      | some previousId =>
          if repository.activeBatchId = some command.batchId then
            state.restorePrevious command now repository batch previousId
          else .error (conflict "active import batch cannot be rolled back")
      | none => .error (conflict "active import batch cannot be rolled back")
  | _, _ => .error (conflict "active import batch cannot be rolled back")

/-! ## Reading the catalog -/

def activeBatch (state : MemoryGovernanceRepository) (key : RepositoryKey) : Option Uuid :=
  (state.repositories key).bind (·.activeBatchId)

def listCatalogEntries (state : MemoryGovernanceRepository) (key : RepositoryKey) :
    List CatalogEntry :=
  (((state.activeBatch key).map state.catalogSnapshots).getD []).map Snapshot.entry

/-! ## Runs -/

inductive Command where
  | ensureOrganization (command : OrganizationCommand)
  | applyImportBatch (command : ImportBatchCommand)
  | rollbackImportBatch (command : RollbackCommand)

def execute (platform : Platform) (now : Int) (state : MemoryGovernanceRepository) :
    Command → Result (CommandResult × MemoryGovernanceRepository)
  | .ensureOrganization command => state.ensureOrganization command now
  | .applyImportBatch command => state.applyImportBatch platform command now
  | .rollbackImportBatch command => state.rollbackImportBatch command now

/-- The states that commands lead to, each at any time of the clock. -/
inductive Reachable (platform : Platform) : MemoryGovernanceRepository → Prop where
  | empty : Reachable platform empty
  | step {state next : MemoryGovernanceRepository} {now : Int} {command : Command}
      {result : CommandResult} (hreach : Reachable platform state)
      (hstep : state.execute platform now command = .ok (result, next)) : Reachable platform next

/-- The state after commands at their times. One that fails leaves the state as it is. -/
def after (platform : Platform) (commands : List (Int × Command)) : MemoryGovernanceRepository :=
  commands.foldl (fun state timed =>
    match state.execute platform timed.1 timed.2 with
    | .ok (_, next) => next
    | .error _ => state) empty

theorem reachable_after (platform : Platform) (commands : List (Int × Command)) :
    Reachable platform (after platform commands) := by
  suffices haux : ∀ state, Reachable platform state → Reachable platform (commands.foldl
      (fun state timed =>
        match state.execute platform timed.1 timed.2 with
        | .ok (_, next) => next
        | .error _ => state) state) from haux empty .empty
  induction commands with
  | nil => exact fun _ hreach => hreach
  | cons timed rest ih =>
      intro state hreach
      rw [List.foldl_cons]
      apply ih
      split
      next hstep => exact hreach.step hstep
      next => exact hreach

end MemoryGovernanceRepository

end Hseos.ControlPlane
