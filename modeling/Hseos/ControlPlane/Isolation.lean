import Hseos.ControlPlane.Reports

/-! # Isolation of imports

An import or a rollback activates the versions of one repository by a sweep over
every artifact that is stored. What it leaves alone is what was idle before.
-/

namespace Hseos.ControlPlane.MemoryGovernanceRepository

variable {platform : Platform} {now : Int} {state next : MemoryGovernanceRepository}

/-- Nothing of another organization is changed, and no artifact that the catalogs of the
repository never listed is activated, deactivated or renumbered. -/
structure Isolated (key : RepositoryKey) (state next : MemoryGovernanceRepository) : Prop where
  artifacts : ∀ other : ArtifactKey, other.1 ≠ key.1 →
    next.artifacts other = state.artifacts other ∧
      next.artifactVersions other = state.artifactVersions other
  catalogs : ∀ other : RepositoryKey, other.1 ≠ key.1 →
    next.listCatalogEntries other = state.listCatalogEntries other ∧
      next.activeBatch other = state.activeBatch other
  unlisted : ∀ artifactId, ¬ next.Lists key artifactId →
    (next.artifactVersions (key.1, artifactId)).map (·.active) =
        (state.artifactVersions (key.1, artifactId)).map (·.active) ∧
      (next.artifacts (key.1, artifactId)).map (fun artifact =>
          (artifact.lifecycleStatus, artifact.currentVersion)) =
        (state.artifacts (key.1, artifactId)).map fun artifact =>
          (artifact.lifecycleStatus, artifact.currentVersion)

/-- Outside of what a sweep is about, no version is active, and the artifacts of other
organizations were last swept at the same time. -/
structure Quiet (key : RepositoryKey) (now : Int) (listed : String → Prop)
    (state : MemoryGovernanceRepository) : Prop where
  idle : ∀ other : ArtifactKey, other.1 ≠ key.1 → state.toStored.Idle other
  untouched : ∀ other : ArtifactKey, other.1 ≠ key.1 →
    ∀ artifact ∈ state.artifacts other, artifact.updatedAt = now
  unlisted : ∀ artifactId, ¬ listed artifactId → state.toStored.Idle (key.1, artifactId)

theorem Isolated.of_same {key : RepositoryKey} (hsame : SameBatches state next)
    (hstored : next.toStored = state.toStored) : Isolated key state next where
  artifacts other _ := by rw [hstored]; exact ⟨rfl, rfl⟩
  catalogs other _ := by
    rw [listCatalogEntries, listCatalogEntries, hsame.activeBatch, hsame.catalogSnapshots]
    exact ⟨rfl, rfl⟩
  unlisted artifactId _ := by rw [hstored]; exact ⟨rfl, rfl⟩

/-! ## One sweep -/

/-- A step that ends with the sweep for one repository. -/
structure Sweeps (key : RepositoryKey) (now : Int) (state next : MemoryGovernanceRepository)
    (swept : Stored) (snapshots : List Snapshot) (drawn : Nat) : Prop where
  sound : swept.Sound drawn
  stored : next.toStored = swept.sweep snapshots now
  frame : ∀ other : ArtifactKey, other.1 ≠ key.1 ∨ ¬ next.Lists key other.2 →
    swept.artifactVersions other = state.artifactVersions other ∧
      swept.artifacts other = state.artifacts other
  apart : ∀ other : ArtifactKey, other.1 ≠ key.1 ∨ ¬ next.Lists key other.2 →
    ∀ id ∈ swept.ids other, id ∉ activeVersionIds snapshots

section

variable {key : RepositoryKey} {swept : Stored} {snapshots : List Snapshot} {drawn : Nat}

/-- What the sweep does to an artifact that it is not about. -/
theorem Sweeps.outside (h : Sweeps key now state next swept snapshots drawn) (other : ArtifactKey)
    (hother : other.1 ≠ key.1 ∨ ¬ next.Lists key other.2) :
    next.artifactVersions other = (state.artifactVersions other).map (fun version =>
        { version with active := false }) ∧
      next.artifacts other = (state.artifacts other).map fun artifact =>
        { artifact with lifecycleStatus := .deprecated, updatedAt := now } := by
  obtain ⟨hversions, hartifacts⟩ := h.frame other hother
  have hinactive : sweepVersions snapshots (swept.artifactVersions other) =
      (swept.artifactVersions other).map fun version => { version with active := false } := by
    apply List.map_congr_left
    intro version hversion
    rw [decide_eq_false (h.apart other hother _ (List.mem_map_of_mem hversion))]
  rw [h.stored, Stored.artifacts_sweep _ _ _ h.sound]
  refine ⟨by rw [← hversions]; exact hinactive, ?_⟩
  rw [hartifacts]
  congr 1
  funext artifact
  unfold sweepArtifact
  rw [hinactive, List.find?_eq_none.mpr (by simp)]
  rfl

theorem map_inactive_eq_iff {versions : List ArtifactVersion} :
    versions.map (fun version => { version with active := false }) = versions ↔
      ∀ version ∈ versions, version.active = false := by
  constructor
  · intro h version hversion
    rw [← h] at hversion
    obtain ⟨earlier, -, rfl⟩ := List.mem_map.mp hversion
    rfl
  · intro h
    have hid : versions.map (fun version => { version with active := false }) =
        versions.map id := by
      apply List.map_congr_left
      intro version hversion
      rw [← h version hversion]
      rfl
    rw [hid, List.map_id]

/-- A sweep leaves everything else alone exactly when everything else is quiet. -/
theorem Sweeps.isolated_iff_quiet (h : Sweeps key now state next swept snapshots drawn)
    (hsettled : state.toStored.Settled)
    (hcatalogs : ∀ other : RepositoryKey, other.1 ≠ key.1 →
      next.listCatalogEntries other = state.listCatalogEntries other ∧
        next.activeBatch other = state.activeBatch other) :
    Isolated key state next ↔ Quiet key now (next.Lists key) state := by
  constructor
  · intro hisolated
    refine ⟨?_, ?_, ?_⟩
    · intro other hother
      have hversions := (h.outside other (.inl hother)).1
      rw [(hisolated.artifacts other hother).2] at hversions
      exact map_inactive_eq_iff.mp hversions.symm
    · intro other hother artifact hartifact
      have hswept := (h.outside other (.inl hother)).2
      rw [(hisolated.artifacts other hother).1, Option.mem_def.mp hartifact, Option.map_some,
        Option.some.injEq] at hswept
      exact congrArg Artifact.updatedAt hswept
    · intro artifactId hunlisted version hversion
      have hversions := (h.outside (key.1, artifactId) (.inr hunlisted)).1
      have hflags := (hisolated.unlisted artifactId hunlisted).1
      rw [hversions, List.map_map] at hflags
      have hfalse : version.active ∈
          (state.artifactVersions (key.1, artifactId)).map (·.active) :=
        List.mem_map_of_mem hversion
      rw [← hflags] at hfalse
      obtain ⟨_, -, hactive⟩ := List.mem_map.mp hfalse
      exact hactive.symm
  · intro hquiet
    refine ⟨?_, hcatalogs, ?_⟩
    · intro other hother
      obtain ⟨hversions, hartifacts⟩ := h.outside other (.inl hother)
      refine ⟨?_, by rw [hversions, map_inactive_eq_iff.mpr (hquiet.idle other hother)]⟩
      rw [hartifacts]
      cases hartifact : state.artifacts other with
      | none => rfl
      | some artifact =>
          have hdeprecated := (hsettled other artifact hartifact).mpr (hquiet.idle other hother)
          have htime := hquiet.untouched other hother artifact hartifact
          rw [Option.map_some, ← hdeprecated, ← htime]
    · intro artifactId hunlisted
      obtain ⟨hversions, hartifacts⟩ := h.outside (key.1, artifactId) (.inr hunlisted)
      have hidle := hquiet.unlisted artifactId hunlisted
      refine ⟨by rw [hversions, map_inactive_eq_iff.mpr hidle], ?_⟩
      rw [hartifacts]
      cases hartifact : state.artifacts (key.1, artifactId) with
      | none => rfl
      | some artifact =>
          have hdeprecated := (hsettled _ artifact hartifact).mpr hidle
          simp [hdeprecated]

end

/-! ## Imports and rollbacks -/

section

variable {command : ImportBatchCommand} {imported : Materializing} {report : ImportReport}

theorem Imports.lists_iff (h : Imports platform now command state next imported report)
    (hhistory : History state) {artifactId : String} :
    next.Lists command.repositoryKey artifactId ↔
      state.Lists command.repositoryKey artifactId ∨
        ∃ item ∈ remaining command.plan.items, item.artifactId = some artifactId := by
  have hsnapshots := importItems_snapshots h.items rfl
  constructor
  · rintro ⟨id, snapshot, hsnapshot, hkey, hartifact⟩
    rw [h.catalogSnapshots] at hsnapshot
    split at hsnapshot
    · right
      have hlisted : snapshot.entry.listed ∈ (remaining command.plan.items).map
          ImportPlanItem.listed := by
        have hmem := List.mem_map_of_mem (f := fun s : Snapshot => s.entry.listed) hsnapshot
        rw [hsnapshots.listed] at hmem
        exact hmem
      obtain ⟨item, hitem, heq⟩ := List.mem_map.mp hlisted
      exact ⟨item, hitem, (congrArg Listed.artifactId heq).trans hartifact⟩
    · exact .inl ⟨id, snapshot, hsnapshot, hkey, hartifact⟩
  · rintro (hlists | ⟨item, hitem, hartifact⟩)
    · exact h.lists hhistory hlists
    · have hlisted : item.listed ∈ imported.nextSnapshots.map (fun s => s.entry.listed) := by
        rw [hsnapshots.listed]
        exact List.mem_map_of_mem hitem
      obtain ⟨snapshot, hsnapshot, heq⟩ := List.mem_map.mp hlisted
      obtain ⟨horganization, hrepository⟩ := hsnapshots.owned snapshot hsnapshot
      refine ⟨state.drawn, snapshot, ?_, ?_, (congrArg Listed.artifactId heq).trans hartifact⟩
      · rw [h.catalogSnapshots, if_pos rfl]
        exact hsnapshot
      · rw [horganization, hrepository]
        rfl

theorem Imports.sweeps (h : Imports platform now command state next imported report)
    (hhistory : History state) (hholdings : Holdings state) :
    Sweeps command.repositoryKey now state next imported.toStored imported.nextSnapshots
      imported.drawn where
  sound := h.materialized hholdings
  stored := by
    rw [h.next]
    rfl
  frame := by
    intro other hother
    refine importItems_frame h.items ?_
    intro item hitem hstores artifactId hartifact hkey
    rcases hother with horganization | hunlisted
    · exact horganization (congrArg Prod.fst hkey)
    · refine hunlisted ((h.lists_iff hhistory).mpr (.inr ⟨item, ?_, ?_⟩))
      · refine List.mem_filter.mpr ⟨hitem, ?_⟩
        cases haction : item.action <;> rw [haction] at hstores <;> first | rfl | cases hstores
      · rw [congrArg Prod.snd hkey]
        exact hartifact
  apart := by
    intro other hother id hid hactive
    have hsnapshots := importItems_snapshots h.items rfl
    obtain ⟨snapshot, hsnapshot, hversion⟩ := List.mem_filterMap.mp hactive
    obtain ⟨horganization, hrepository⟩ := hsnapshots.owned snapshot hsnapshot
    have hlinked := hsnapshots.links snapshot hsnapshot id hversion
    have hkey := (h.materialized hholdings).apart hid hlinked
    rcases hother with hother | hunlisted
    · exact hother (by rw [hkey, artifactKey, horganization]; rfl)
    · apply hunlisted
      have hsecond : other.2 = snapshot.artifactId.getD "null" := congrArg Prod.snd hkey
      rw [hsecond]
      cases hartifact : snapshot.artifactId with
      | none =>
          have hlists := h.anchored hhistory hholdings hsnapshot hartifact (by rw [hversion]; simp)
          rw [horganization, hrepository] at hlists
          exact h.lists hhistory hlists
      | some artifactId =>
          refine ⟨state.drawn, snapshot, ?_, ?_, hartifact⟩
          · rw [h.catalogSnapshots, if_pos rfl]
            exact hsnapshot
          · rw [horganization, hrepository]
            rfl

theorem Imports.catalogs (h : Imports platform now command state next imported report)
    (hhistory : History state) (other : RepositoryKey)
    (hother : other.1 ≠ command.repositoryKey.1) :
    next.listCatalogEntries other = state.listCatalogEntries other ∧
      next.activeBatch other = state.activeBatch other := by
  have hne : other ≠ (command.plan.organizationId, command.plan.repositoryId) := by
    rintro rfl
    exact hother rfl
  have hactive : next.activeBatch other = state.activeBatch other := by
    rw [h.activeBatch, Function.update_of_ne hne]
  refine ⟨?_, hactive⟩
  rw [listCatalogEntries, listCatalogEntries, hactive]
  cases hid : state.activeBatch other with
  | none => rfl
  | some id =>
      obtain ⟨batch, hbatch, -⟩ := hhistory.current hid
      rw [Option.map_some, Option.map_some, Option.getD_some, Option.getD_some, h.catalogSnapshots,
        if_neg (Nat.ne_of_lt (hhistory.known hbatch).2)]

end

section

variable {command : RollbackCommand} {repository : Repository} {batch previousBatch : ImportBatch}
  {previousId : Uuid} {report : ImportReport}

theorem RollsBack.sweeps (h : RollsBack now command state next repository batch previousBatch
    previousId report) (hhistory : History state) (hholdings : Holdings state) :
    Sweeps (command.organizationId, command.repositoryId) now state next state.toStored
      (state.catalogSnapshots previousId) state.drawn where
  sound := hholdings.sound
  stored := by
    have hid := (h.restored hhistory).2.2.2.2.2.2.1
    rw [h.next, ← hid]
    rfl
  frame _ _ := ⟨rfl, rfl⟩
  apart := by
    intro other hother id hid hactive
    obtain ⟨-, -, -, -, -, hkey, -, -⟩ := h.restored hhistory
    obtain ⟨snapshot, hsnapshot, hversion⟩ := List.mem_filterMap.mp hactive
    obtain ⟨batch', hbatch', horganization, hrepository⟩ := hhistory.listed snapshot hsnapshot
    rw [h.foundPrevious, Option.some.injEq] at hbatch'
    subst hbatch'
    rw [Prod.mk.injEq, ← horganization, ← hrepository] at hkey
    have hlists : ∀ {artifactId}, state.Lists (command.organizationId, command.repositoryId)
        artifactId → next.Lists (command.organizationId, command.repositoryId) artifactId := by
      intro artifactId hlists
      rw [h.next]
      exact hlists
    have hsame := hholdings.sound.apart hid
      (hholdings.links previousId snapshot hsnapshot id hversion)
    rcases hother with hother | hunlisted
    · exact hother (by rw [hsame, artifactKey, hkey.1])
    · apply hunlisted
      have hsecond : other.2 = snapshot.artifactId.getD "null" := congrArg Prod.snd hsame
      rw [hsecond]
      cases hartifact : snapshot.artifactId with
      | none =>
          have hanchored := hholdings.anchored snapshot hsnapshot hartifact
            (by rw [hversion]; simp)
          rw [hkey.1, hkey.2] at hanchored
          exact hlists hanchored
      | some artifactId =>
          exact hlists ⟨previousId, snapshot, hsnapshot, by rw [hkey.1, hkey.2], hartifact⟩

theorem RollsBack.catalogs (h : RollsBack now command state next repository batch previousBatch
    previousId report) (hhistory : History state) (other : RepositoryKey)
    (hother : other.1 ≠ command.organizationId) :
    next.listCatalogEntries other = state.listCatalogEntries other ∧
      next.activeBatch other = state.activeBatch other := by
  have hne : other ≠ (command.organizationId, command.repositoryId) := by
    rintro rfl
    exact hother rfl
  have hactive : next.activeBatch other = state.activeBatch other := by
    rw [h.activeBatch hhistory, if_neg hne]
  have hsnapshots : next.catalogSnapshots = state.catalogSnapshots := by
    rw [h.next]
    rfl
  refine ⟨?_, hactive⟩
  rw [listCatalogEntries, listCatalogEntries, hactive, hsnapshots]

end

/-- A command that a receipt or the key of a known batch answers, and that sweeps nothing. -/
def Command.Answered (state : MemoryGovernanceRepository) : Command → Prop
  | .ensureOrganization _ => True
  | .applyImportBatch command =>
      (state.receipts (command.plan.organizationId, command.idempotencyKey)).isSome = true ∨
        (state.batchKeys (command.plan.organizationId, command.plan.batchKey)).isSome = true
  | .rollbackImportBatch command =>
      (state.receipts (command.organizationId, command.idempotencyKey)).isSome = true

/-- The repository that a command is about, if it is about one. -/
def Command.repositoryKey? : Command → Option RepositoryKey
  | .ensureOrganization _ => none
  | .applyImportBatch command => some command.repositoryKey
  | .rollbackImportBatch command => some (command.organizationId, command.repositoryId)

/-- What the catalogs of the repository list, with the plan of the command. -/
def Command.Lists (state : MemoryGovernanceRepository) (key : RepositoryKey) (artifactId : String) :
    Command → Prop
  | .applyImportBatch command => state.Lists key artifactId ∨
      ∃ item ∈ remaining command.plan.items, item.artifactId = some artifactId
  | _ => state.Lists key artifactId

/-- An import or a rollback of a repository leaves everything else alone exactly when it is
answered without a sweep, or everything else is idle and was swept at the same time. -/
theorem isolated_iff {command : Command} {key : RepositoryKey} {result : CommandResult}
    (hreach : Reachable platform state)
    (hexecute : state.execute platform now command = .ok (result, next))
    (hkey : command.repositoryKey? = some key) :
    Isolated key state next ↔
      command.Answered state ∨ Quiet key now (fun artifactId => command.Lists state key artifactId)
        state := by
  have hhistory := hreach.history
  have hholdings := hreach.holdings
  cases command with
  | ensureOrganization command => cases hkey
  | applyImportBatch command =>
      cases hkey
      rcases applyImportBatch_eq_ok_iff.mp hexecute with ⟨-, ⟨receipt, hreceipt, -⟩, rfl⟩ |
        ⟨id, report, h, -⟩ | ⟨imported, report, h, -⟩
      · refine iff_of_true (.of_same (.refl _) rfl) (.inl (.inl ?_))
        rw [hreceipt]
        rfl
      · refine iff_of_true ?_ (.inl (.inr ?_))
        · rw [h.next]
          exact .of_same ⟨rfl, rfl, rfl, rfl, Nat.le_refl _⟩ rfl
        · rw [h.known]
          rfl
      · have hunanswered : ¬ (Command.applyImportBatch command).Answered state := by
          rw [Command.Answered, h.unanswered, h.fresh]
          simp
        have hlists : next.Lists command.repositoryKey =
            fun artifactId => (Command.applyImportBatch command).Lists state
              command.repositoryKey artifactId :=
          funext fun artifactId => propext (h.lists_iff hhistory)
        rw [(h.sweeps hhistory hholdings).isolated_iff_quiet hholdings.settled (h.catalogs hhistory),
          hlists]
        exact (or_iff_right hunanswered).symm
  | rollbackImportBatch command =>
      cases hkey
      rcases rollbackImportBatch_eq_ok_iff.mp hexecute with ⟨⟨receipt, hreceipt, -⟩, rfl⟩ |
        ⟨repository, batch, previousBatch, previousId, report, h, -⟩
      · refine iff_of_true (.of_same (.refl _) rfl) (.inl ?_)
        rw [Command.Answered, hreceipt]
        rfl
      · have hunanswered : ¬ (Command.rollbackImportBatch command).Answered state := by
          rw [Command.Answered, h.unanswered]
          simp
        have hlists : next.Lists (command.organizationId, command.repositoryId) =
            fun artifactId => (Command.rollbackImportBatch command).Lists state
              (command.organizationId, command.repositoryId) artifactId := by
          rw [h.next]
          rfl
        rw [(h.sweeps hhistory hholdings).isolated_iff_quiet hholdings.settled (h.catalogs hhistory),
          hlists]
        exact (or_iff_right hunanswered).symm

/-! ## Two organizations -/

def globex : Identifier := ⟨"globex", Eq.refl true⟩

/-- A policy document. -/
def policyEntry : DiscoveryEntry where
  sourcePath := "policies/a.md"
  rawContent := "# A"
  normalizedContent := "# A"
  contentDigest := "sha256:327f031b25e00b1a7cd9b0c18f05948b60f55d09f9b3d177d21083f83a3cb6df"
  classification :=
    { artifactId := some "policy:policies-a:543a57d18995", artifactType := .policy, classificationStatus := .classified
      structuredContent := markdownStructure "# A", issues := [] }

def policyImport : ImportBatchCommand :=
  importOf acme (discoveryOf firstCommit [policyEntry])
    ⟨"sha256:720927f567330123fb06790ba1ea670e49a2e1b75ad089983e20a6f13037f37f", Eq.refl true⟩
    ⟨"sha256:5265f61595e3fc9508db3ace838ddd0fb7f263fefa5afafa56f3c94e0bd5e0d5", Eq.refl true⟩
    [toPlanItem policyEntry .create policyEntry.classification.artifactId none []]
    ⟨"policy", Eq.refl true⟩

/-- The first commit of another organization, without sources. -/
def globexImport : ImportBatchCommand :=
  importOf globex (discoveryOf firstCommit [])
    ⟨"sha256:720927f567330123fb06790ba1ea670e49a2e1b75ad089983e20a6f13037f37f", Eq.refl true⟩
    ⟨"sha256:1c3d3ef25df951eebbaa346bbb605bee30c81a3150611eebb473876e6f880b24", Eq.refl true⟩
    [] ⟨"first", Eq.refl true⟩

/-- One organization with a policy, and another one. -/
def twoOrganizations : MemoryGovernanceRepository :=
  after plainPlatform [(0, organizationOf acme), (0, organizationOf globex),
    (1, .applyImportBatch policyImport)]

def policyKey : ArtifactKey := (acme, "policy:policies-a:543a57d18995")

/-- A step takes the published policy to a deprecated one. -/
def deprecates (answer : Result (CommandResult × MemoryGovernanceRepository)) : Bool :=
  match answer with
  | .ok (_, next) =>
      (next.artifacts policyKey).map (·.lifecycleStatus) = some .deprecated &&
        (twoOrganizations.artifacts policyKey).map (·.lifecycleStatus) = some .published
  | .error _ => false

theorem deprecates_eq_true {answer : Result (CommandResult × MemoryGovernanceRepository)}
    (h : deprecates answer = true) : ∃ result next, answer = .ok (result, next) ∧
      next.artifacts policyKey ≠ twoOrganizations.artifacts policyKey := by
  unfold deprecates at h
  split at h
  next result next =>
    rw [Bool.and_eq_true, decide_eq_true_eq, decide_eq_true_eq] at h
    refine ⟨result, next, rfl, fun hsame => ?_⟩
    rw [hsame, h.2] at h
    cases h.1
  next => cases h

/-- The import of the one deprecates the policy of the other. -/
theorem globexImport_sweeps : ∃ result next,
    twoOrganizations.execute plainPlatform 2 (.applyImportBatch globexImport) = .ok (result, next) ∧
      next.artifacts policyKey ≠ twoOrganizations.artifacts policyKey := by
  have hrun : deprecates (twoOrganizations.execute plainPlatform 2 (.applyImportBatch globexImport)) =
      true := by decide +kernel
  exact deprecates_eq_true hrun

/-- The first organization's policy is active when the second one imports. -/
theorem globexImport_not_quiet :
    ¬ ((Command.applyImportBatch globexImport).Answered twoOrganizations ∨
      Quiet globexImport.repositoryKey 2 (fun artifactId => (Command.applyImportBatch
        globexImport).Lists twoOrganizations globexImport.repositoryKey artifactId)
          twoOrganizations) := by
  intro hquiet
  obtain ⟨result, next, hexecute, hchanged⟩ := globexImport_sweeps
  have hreach : Reachable plainPlatform twoOrganizations := reachable_after _ _
  have hisolated := (isolated_iff hreach hexecute rfl).mpr hquiet
  exact hchanged (hisolated.artifacts policyKey (by decide)).1

/-- An import is not isolated from the artifacts of another organization. -/
theorem import_sweeps_other_organization :
    ¬ ∀ (platform : Platform) (now : Int) (state next : MemoryGovernanceRepository)
      (command : Command) (key : RepositoryKey) (result : CommandResult),
        Reachable platform state → state.execute platform now command = .ok (result, next) →
          command.repositoryKey? = some key → Isolated key state next := by
  intro hisolated
  obtain ⟨result, next, hexecute, hchanged⟩ := globexImport_sweeps
  have hreach : Reachable plainPlatform twoOrganizations := reachable_after _ _
  have hsame := hisolated plainPlatform 2 twoOrganizations next (.applyImportBatch globexImport)
    globexImport.repositoryKey result hreach hexecute rfl
  exact hchanged (hsame.artifacts policyKey (by decide)).1

end Hseos.ControlPlane.MemoryGovernanceRepository
