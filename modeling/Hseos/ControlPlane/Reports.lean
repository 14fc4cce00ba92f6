import Hseos.ControlPlane.History

/-! # What import reports tell

A report that calls its batch active is about the catalog of the repository, or it
is an earlier report that is repeated.
-/

namespace Hseos.ControlPlane.MemoryGovernanceRepository

variable {platform : Platform} {now : Int} {state next : MemoryGovernanceRepository}
  {command : ImportBatchCommand} {report : ImportReport}

/-- A report that calls its batch active names the repository's active batch, and its items
other than `deactivate` are, path for path, what the catalog lists. -/
def Truthful (state : MemoryGovernanceRepository) (command : ImportBatchCommand)
    (report : ImportReport) : Prop :=
  report.activeBatch = true →
    state.activeBatch command.repositoryKey = some report.batchId ∧
      ((state.listCatalogEntries command.repositoryKey).map CatalogEntry.listed).Perm
        ((remaining report.items).map ImportPlanItem.listed)

/-- The batch key of a command is new, or its batch was rolled back, or its batch is active in
the same repository and was imported from a plan that lists the same. -/
def Reportable (state : MemoryGovernanceRepository) (command : ImportBatchCommand) : Prop :=
  ∀ id ∈ state.batchKeys (command.plan.organizationId, command.plan.batchKey),
    ∀ batch ∈ state.importBatches id,
      batch.status = .rolledBack ∨
        (batch.active = true ∧ batch.repositoryId = command.plan.repositoryId ∧
          ((remaining batch.plan.items).map ImportPlanItem.listed).Perm
            ((remaining command.plan.items).map ImportPlanItem.listed))

theorem listCatalogEntries_listed (hhistory : History state) {key : RepositoryKey} {id : Uuid}
    {batch : ImportBatch} (hactive : state.activeBatch key = some id)
    (hbatch : state.importBatches id = some batch) :
    (state.listCatalogEntries key).map CatalogEntry.listed =
      (remaining batch.plan.items).map ImportPlanItem.listed := by
  rw [listCatalogEntries, hactive, Option.map_some, Option.getD_some, List.map_map]
  exact hhistory.planned hbatch

theorem Imports.truthful {imported : Materializing} (hhistory : History state)
    (h : Imports platform now command state next imported report) :
    Truthful next command report := by
  intro _
  have hactive : next.activeBatch command.repositoryKey = some state.drawn := by
    rw [h.activeBatch, Function.update_self]
  have hbatch : next.importBatches state.drawn = some (state.batchOf command now report) := by
    rw [h.importBatches, if_pos rfl]
  refine ⟨by rw [hactive, h.report_eq.1], ?_⟩
  rw [listCatalogEntries_listed (h.history hhistory) hactive hbatch, h.report_eq.2.2]
  exact List.Perm.refl _

theorem Reports.truthful_iff {id : Uuid} (hhistory : History state)
    (h : Reports now command state next id report) :
    Truthful next command report ↔ Reportable state command := by
  have hactivenext : next.activeBatch = state.activeBatch := by
    rw [h.next]
    rfl
  have hcatalog : next.listCatalogEntries = state.listCatalogEntries := by
    rw [h.next]
    rfl
  obtain ⟨batch, hbatch, horganization⟩ := hhistory.keyed h.known
  have hreportable : Reportable state command ↔ batch.status = .rolledBack ∨
      (batch.active = true ∧ batch.repositoryId = command.plan.repositoryId ∧
        ((remaining batch.plan.items).map ImportPlanItem.listed).Perm
          ((remaining command.plan.items).map ImportPlanItem.listed)) := by
    simp [Reportable, h.known, hbatch]
  rw [hreportable, Truthful, hactivenext, hcatalog]
  have hreport := h.reported
  simp only [knownReport, hbatch] at hreport
  by_cases hactive : batch.active = true
  · -- The report is made anew, from the plan of the command.
    rw [if_pos hactive] at hreport
    have halive : batch.status ≠ .rolledBack := by
      rw [hhistory.alive hbatch hactive]
      decide
    have hown := (hhistory.active_iff hbatch).mp hactive
    rw [eq_of_buildImportReport hreport]
    dsimp only
    rw [horganization] at hown
    constructor
    · intro htruth
      obtain ⟨hcurrent, hperm⟩ := htruth rfl
      obtain ⟨batch', hbatch', hkey⟩ := hhistory.current hcurrent
      rw [hbatch, Option.some.injEq] at hbatch'
      subst hbatch'
      rw [listCatalogEntries_listed hhistory hcurrent hbatch] at hperm
      exact .inr ⟨hactive, (Prod.mk.inj hkey).2, hperm⟩
    · rintro (hrolled | ⟨-, hrepository, hperm⟩)
      · exact absurd hrolled halive
      · intro _
        rw [hrepository] at hown
        refine ⟨hown, ?_⟩
        rw [listCatalogEntries_listed hhistory hown hbatch]
        exact hperm
  · -- The stored report is repeated.
    rw [if_neg hactive, Except.ok.injEq] at hreport
    subst hreport
    obtain ⟨hid, hflag⟩ := hhistory.reported hbatch
    constructor
    · intro htruth
      left
      cases hstatus : batch.status with
      | rolledBack => rfl
      | completed =>
          rw [hstatus] at hflag
          obtain ⟨hcurrent, -⟩ := htruth hflag
          obtain ⟨batch', hbatch', hkey⟩ := hhistory.current hcurrent
          rw [hid, hbatch, Option.some.injEq] at hbatch'
          subst hbatch'
          rw [hid, ← hkey] at hcurrent
          exact absurd ((hhistory.active_iff hbatch).mpr hcurrent) hactive
    · rintro (hrolled | ⟨hcontra, -⟩)
      · rw [hrolled] at hflag
        intro htrue
        rw [hflag] at htrue
        cases htrue
      · exact absurd hcontra hactive

/-- A command that no stored receipt answers gets a true report exactly when its batch is new,
was rolled back, or is active with the same sources. -/
theorem report_truthful_iff {result : CommandResult} (hreach : Reachable platform state)
    (hunanswered : state.receipts (command.plan.organizationId, command.idempotencyKey) = none)
    (happly : state.applyImportBatch platform command now = .ok (result, next)) :
    (∀ report, result = .report report → Truthful next command report) ↔
      Reportable state command := by
  rcases applyImportBatch_eq_ok_iff.mp happly with ⟨-, hanswers, -⟩ | ⟨id, report, h, rfl⟩ |
    ⟨imported, report, h, rfl⟩
  · obtain ⟨receipt, hreceipt, -⟩ := hanswers
    rw [hunanswered] at hreceipt
    cases hreceipt
  · rw [← h.truthful_iff hreach.history]
    exact ⟨fun hall => hall report rfl, by rintro htruth _ ⟨⟩; exact htruth⟩
  · refine iff_of_true ?_ ?_
    · rintro _ ⟨⟩
      exact h.truthful hreach.history
    · intro id hid
      rw [h.fresh] at hid
      cases hid

/-! ## A batch that is imported again -/

/-- A platform whose tables change nothing and whose YAML reader reads nothing. -/
def plainPlatform : Platform := ⟨id, id, fun _ => none⟩

def acme : Identifier := ⟨"acme", Eq.refl true⟩

def acmeRepository : RepositoryId := ⟨"00000000-0000-0000-0000-000000000000", Eq.refl true⟩

def operator : Actor := ⟨⟨"human", Eq.refl true⟩, ⟨"operator", Eq.refl true⟩⟩

def firstCommit : GitObjectId := ⟨"0000000000000000000000000000000000000000", Eq.refl true⟩

def secondCommit : GitObjectId := ⟨"1111111111111111111111111111111111111111", Eq.refl true⟩

def organizationOf (organizationId : Identifier) : Command :=
  .ensureOrganization
    { organizationId, idempotencyKey := organizationId, actor := operator, slug := organizationId,
      displayName := "Organization" }

/-- A discovery of the given sources. -/
def discoveryOf (sourceCommit : GitObjectId) (entries : List DiscoveryEntry) : Discovery where
  repositoryId := acmeRepository
  sourceCommit
  sourceTimestamp := ⟨"2026-01-31T09:30:00Z", Eq.refl true⟩
  sourceProfile := ⟨"enterprise-hseos:v1", Eq.refl true⟩
  sourceProfileDigest := ⟨"sha256:74234e98afe7498fb5daf1f36ac2d78acc339464f950703b8c019892f982b90b",
    Eq.refl true⟩
  entries

/-- The import of a discovery with a plan of the given digests and items. -/
def importOf (organizationId : Identifier) (discovery : Discovery) (batchKey planId : Digest)
    (items : List ImportPlanItem) (idempotencyKey : Identifier) : ImportBatchCommand where
  discovery
  plan := { unsignedPlan discovery organizationId ⟨"1.0.0", Eq.refl true⟩ items with batchKey, planId }
  actor := operator
  idempotencyKey
  canonicalRemote := "git@example"

/-- The first commit, without sources. -/
def firstImport (idempotencyKey : Identifier) : ImportBatchCommand :=
  importOf acme (discoveryOf firstCommit [])
    ⟨"sha256:720927f567330123fb06790ba1ea670e49a2e1b75ad089983e20a6f13037f37f", Eq.refl true⟩
    ⟨"sha256:0e54a06f41e55cda1c7eaa950cc52e4c9cbb77edc3797abe7f63ae6607a612b0", Eq.refl true⟩
    [] idempotencyKey

/-- The second commit, without sources. -/
def secondImport (idempotencyKey : Identifier) : ImportBatchCommand :=
  importOf acme (discoveryOf secondCommit [])
    ⟨"sha256:a71bde5544b5f457018fddf005c5e9baff6bf64284713c3b10fe03df21fe4bdf", Eq.refl true⟩
    ⟨"sha256:d06e5f3c1664a06bbdda7e66648a135fd8f04bc62f4b2feac5e3b2113314f3b0", Eq.refl true⟩
    [] idempotencyKey

/-- Two commits imported one after the other. -/
def twoImports : MemoryGovernanceRepository :=
  after plainPlatform [(0, organizationOf acme),
    (1, .applyImportBatch (firstImport ⟨"first", Eq.refl true⟩)),
    (2, .applyImportBatch (secondImport ⟨"second", Eq.refl true⟩))]

/-- The first commit, imported again. -/
def firstAgain : ImportBatchCommand := firstImport ⟨"again", Eq.refl true⟩

/-- A batch is reported as active that is not the active one afterwards. -/
def reportsInactive (answer : Result (CommandResult × MemoryGovernanceRepository)) : Bool :=
  match answer with
  | .ok (.report report, next) => report.activeBatch &&
      decide (next.activeBatch firstAgain.repositoryKey ≠ some report.batchId)
  | _ => false

theorem reportsInactive_eq_true {answer : Result (CommandResult × MemoryGovernanceRepository)}
    (h : reportsInactive answer = true) : ∃ report next, answer = .ok (.report report, next) ∧
      report.activeBatch = true ∧
        next.activeBatch firstAgain.repositoryKey ≠ some report.batchId := by
  unfold reportsInactive at h
  split at h
  next report next =>
    rw [Bool.and_eq_true, decide_eq_true_eq] at h
    exact ⟨report, next, rfl, h.1, h.2⟩
  next => cases h

/-- The report of the superseded batch is repeated as it was. -/
theorem firstAgain_repeats : ∃ report next,
    twoImports.receipts (firstAgain.plan.organizationId, firstAgain.idempotencyKey) = none ∧
      twoImports.applyImportBatch plainPlatform firstAgain 3 = .ok (.report report, next) ∧
        report.activeBatch = true ∧
          next.activeBatch firstAgain.repositoryKey ≠ some report.batchId := by
  have hrun : ((twoImports.receipts (firstAgain.plan.organizationId, firstAgain.idempotencyKey)).isNone
      && reportsInactive (twoImports.applyImportBatch plainPlatform firstAgain 3)) = true := by
    decide +kernel
  rw [Bool.and_eq_true, Option.isNone_iff_eq_none] at hrun
  obtain ⟨report, next, happly, hreport⟩ := reportsInactive_eq_true hrun.2
  exact ⟨report, next, hrun.1, happly, hreport⟩

/-- The superseded batch is not one that a true report can be given on. -/
theorem superseded_batch_not_reportable : ¬ Reportable twoImports firstAgain := by
  intro hreportable
  obtain ⟨report, next, hreceipts, happly, hflag, hcurrent⟩ := firstAgain_repeats
  have hreach : Reachable plainPlatform twoImports := reachable_after _ _
  have htruth := (report_truthful_iff hreach hreceipts happly).mpr hreportable
  exact hcurrent (htruth report rfl hflag).1

/-- The report on a superseded batch calls it active. -/
theorem superseded_batch_reported_active :
    ¬ ∀ (platform : Platform) (now : Int) (state next : MemoryGovernanceRepository)
      (command : ImportBatchCommand) (report : ImportReport), Reachable platform state →
        state.receipts (command.plan.organizationId, command.idempotencyKey) = none →
          state.applyImportBatch platform command now = .ok (.report report, next) →
            Truthful next command report := by
  intro htruthful
  obtain ⟨report, next, hreceipts, happly, hflag, hcurrent⟩ := firstAgain_repeats
  have htruth := htruthful plainPlatform 3 twoImports next firstAgain report
    (reachable_after _ _) hreceipts happly
  exact hcurrent (htruth hflag).1

end Hseos.ControlPlane.MemoryGovernanceRepository
