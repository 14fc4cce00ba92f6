import Hseos.ControlPlane.Classifiers

/-! # Import plans

What an import would do to each source: the discovered sources are compared with
the active catalog of the repository.
-/

namespace Hseos.ControlPlane

/-- What the catalog of a repository lists of one source. -/
structure CatalogEntry where
  sourcePath : String
  artifactId : Option String
  artifactType : ArtifactType
  classificationStatus : ClassificationStatus
  contentDigest : String
  artifactVersionId : Option Uuid
  deriving DecidableEq

structure Discovery where
  repositoryId : RepositoryId
  sourceCommit : GitObjectId
  sourceTimestamp : Timestamp
  sourceProfile : Identifier
  sourceProfileDigest : Digest
  entries : List DiscoveryEntry
  deriving DecidableEq

/-- `compareText(left, right) <= 0`. -/
def textLe (left right : String) : Prop := utf16 left ≤ utf16 right

instance : DecidableRel textLe := fun left right =>
  inferInstanceAs (Decidable (utf16 left ≤ utf16 right))

/-- The order of the items of a plan: by path, and by action at one path. -/
def itemLe (left right : ImportPlanItem) : Prop :=
  if left.sourcePath = right.sourcePath then textLe left.action.text right.action.text
  else textLe left.sourcePath right.sourcePath

instance : DecidableRel itemLe := fun left right => by
  unfold itemLe
  infer_instance

def validateExisting (existing : CatalogEntry) : Result Unit :=
  reject existing.artifactId.isNone (importPlanError "existing catalog entry is incomplete")

/-- The catalog entries one after the other, none at a path that was seen before. -/
def indexExisting : List CatalogEntry → List String → Result Unit
  | [], _ => .ok ()
  | existing :: rest, seen => do
      validateExisting existing
      reject (existing.sourcePath ∈ seen)
        (importPlanError "existing catalog has duplicate source paths")
      indexExisting rest (existing.sourcePath :: seen)

/-- The overrides are an artifact id in place of the classified one, a previous path and
issues beside the classified ones. -/
def toPlanItem (entry : DiscoveryEntry) (action : ImportAction) (artifactId : Option String)
    (previousSourcePath : Option String) (issues : List ImportIssue) : ImportPlanItem where
  sourcePath := entry.sourcePath
  artifactId
  artifactType := entry.classification.artifactType
  classificationStatus := entry.classification.classificationStatus
  contentDigest := entry.contentDigest
  action
  previousSourcePath := previousSourcePath.filter (· ≠ "")
  issues := entry.classification.issues ++ issues

def renameAmbiguous (sourcePath : String) : ImportIssue where
  code := "source.rename_ambiguous"
  path := sourcePath
  message := "Multiple prior sources share this digest; rename requires review"
  severity := .warning

/-- The action for a source whose path the catalog lists. -/
def actionFor (current : CatalogEntry) (entry : DiscoveryEntry) : ImportAction :=
  let found := entry.classification
  if found.classificationStatus ≠ .classified ∨ current.artifactType ≠ found.artifactType ∨
      current.classificationStatus ≠ found.classificationStatus then .review
  else if current.contentDigest = entry.contentDigest then .noop
  else .version

/-- The action for a source that is new to the catalog. -/
def actionForNew (entry : DiscoveryEntry) : ImportAction :=
  if entry.classification.classificationStatus = .classified then .create else .review

def renameCandidates (existing : List CatalogEntry) (discovered consumed : List String)
    (entry : DiscoveryEntry) : List CatalogEntry :=
  existing.filter fun prior => prior.sourcePath ∉ consumed ∧ prior.sourcePath ∉ discovered ∧
    prior.contentDigest = entry.contentDigest ∧
    prior.artifactType = entry.classification.artifactType

/-- The item for one discovered source, and the path of the catalog entry it consumes. -/
def planEntry (existing : List CatalogEntry) (discovered consumed : List String)
    (entry : DiscoveryEntry) : ImportPlanItem × Option String :=
  let classified := entry.classification
  match existing.find? (·.sourcePath = entry.sourcePath) with
  | some current =>
      (toPlanItem entry (actionFor current entry) current.artifactId none [],
        some current.sourcePath)
  | none =>
      match renameCandidates existing discovered consumed entry with
      | [] => (toPlanItem entry (actionForNew entry) classified.artifactId none [], none)
      | [renamed] =>
          if classified.classificationStatus = .classified then
            (toPlanItem entry .rename renamed.artifactId (some renamed.sourcePath) [],
              some renamed.sourcePath)
          else (toPlanItem entry (actionForNew entry) classified.artifactId none [], none)
      | _ :: _ :: _ =>
          (toPlanItem entry .review classified.artifactId none [renameAmbiguous entry.sourcePath],
            none)

/-- The items for the discovered sources in their order, and all consumed paths. -/
def planEntries (existing : List CatalogEntry) (discovered : List String) :
    List DiscoveryEntry → List String → List ImportPlanItem × List String
  | [], consumed => ([], consumed)
  | entry :: rest, consumed =>
      let (item, path?) := planEntry existing discovered consumed entry
      let (items, consumed) := planEntries existing discovered rest (consumed ++ path?.toList)
      (item :: items, consumed)

def deactivation (existing : CatalogEntry) : ImportPlanItem where
  sourcePath := existing.sourcePath
  artifactId := existing.artifactId
  artifactType := existing.artifactType
  classificationStatus := existing.classificationStatus
  contentDigest := existing.contentDigest
  action := .deactivate
  previousSourcePath := none
  issues := []

def buildImportItems (entries : List DiscoveryEntry) (existing : List CatalogEntry) :
    Result (List ImportPlanItem) := do
  let sortedEntries := entries.insertionSort fun left right => textLe left.sourcePath right.sourcePath
  let discovered := sortedEntries.map (·.sourcePath)
  reject (!discovered.Nodup) (importPlanError "discovery contains duplicate source paths")
  indexExisting existing []
  let (items, consumed) := planEntries existing discovered sortedEntries []
  let removed := (existing.insertionSort fun left right => textLe left.sourcePath right.sourcePath).filter
    fun prior => prior.sourcePath ∉ consumed ∧ prior.sourcePath ∉ discovered
  return (items ++ removed.map deactivation).insertionSort itemLe

/-- The plan before its identifier is computed. -/
def unsignedPlan (discovery : Discovery) (organizationId : Identifier) (importerVersion : SemverText)
    (items : List ImportPlanItem) : ImportPlan :=
  let batchKey := batchKeyOf discovery.repositoryId discovery.sourceCommit importerVersion
    discovery.sourceProfileDigest
  { planId := batchKey
    batchKey
    organizationId
    repositoryId := discovery.repositoryId
    sourceCommit := discovery.sourceCommit
    importerVersion
    sourceProfile := discovery.sourceProfile
    sourceProfileDigest := discovery.sourceProfileDigest
    generatedAt := discovery.sourceTimestamp
    items
    issues := items.flatMap (·.issues) }

def buildImportPlan (discovery : Discovery) (existingEntries : List CatalogEntry)
    (organizationId : Identifier) (importerVersion : SemverText) : Result ImportPlan := do
  let items ← buildImportItems discovery.entries existingEntries
  let unsigned := unsignedPlan discovery organizationId importerVersion items
  let plan := { unsigned with planId := digestCanonical (.obj unsigned.unsignedMembers) }
  reject (!plan.valid) (contractError "import plan")
  return plan

end Hseos.ControlPlane
