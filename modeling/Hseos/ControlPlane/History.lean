import Hseos.ControlPlane.Materialization

/-! # The history of a repository

What a command that succeeds has done, and what every run keeps of the batches: one
active batch for a repository, and behind it the batches it can be rolled back to.
-/

namespace Hseos.ControlPlane.MemoryGovernanceRepository

/-! ## What a command has done -/

section

variable {platform : Platform} {now : Int} {state next : MemoryGovernanceRepository}
  {result : CommandResult}

/-- An import that was carried out. -/
structure Imports (platform : Platform) (now : Int) (command : ImportBatchCommand)
    (state next : MemoryGovernanceRepository) (imported : Materializing) (report : ImportReport) :
    Prop where
  accepted : prepareImportBatchCommand command = .ok ()
  unanswered : state.receipts (command.plan.organizationId, command.idempotencyKey) = none
  organization : (state.organizations command.plan.organizationId).isSome = true
  fresh : state.batchKeys (command.plan.organizationId, command.plan.batchKey) = none
  remote : (state.repositoryOf command now).canonicalRemote = command.canonicalRemote
  items : importItems platform (state.contextOf command now) command.plan.items
    state.materializing = .ok imported
  reported : buildImportReport state.drawn command.plan .completed now now true = .ok report
  next : next = (state.withImport command now imported report).storeReceipt
    (command.plan.organizationId, command.idempotencyKey)
    ⟨command.commandDigest, .report report, now⟩

/-- A known batch that was reported on. -/
structure Reports (now : Int) (command : ImportBatchCommand)
    (state next : MemoryGovernanceRepository) (batchId : Uuid) (report : ImportReport) :
    Prop where
  accepted : prepareImportBatchCommand command = .ok ()
  unanswered : state.receipts (command.plan.organizationId, command.idempotencyKey) = none
  organization : (state.organizations command.plan.organizationId).isSome = true
  known : state.batchKeys (command.plan.organizationId, command.plan.batchKey) = some batchId
  reported : state.knownReport command.plan batchId = .ok report
  next : next = state.storeReceipt (command.plan.organizationId, command.idempotencyKey)
    ⟨command.commandDigest, .report report, now⟩

/-- A rollback that was carried out. -/
structure RollsBack (now : Int) (command : RollbackCommand)
    (state next : MemoryGovernanceRepository) (repository : Repository)
    (batch previousBatch : ImportBatch) (previousId : Uuid) (report : ImportReport) : Prop where
  unanswered : state.receipts (command.organizationId, command.idempotencyKey) = none
  found : state.repositories (command.organizationId, command.repositoryId) = some repository
  foundBatch : state.importBatches command.batchId = some batch
  active : repository.activeBatchId = some command.batchId
  previous : batch.previousBatchId = some previousId
  foundPrevious : state.importBatches previousId = some previousBatch
  reported : buildImportReport batch.importBatchId batch.plan .rolledBack batch.report.startedAt now
    false = .ok report
  next : next = (state.withRollback command now repository batch previousId previousBatch
    report).storeReceipt (command.organizationId, command.idempotencyKey)
    ⟨command.commandDigest, .report report, now⟩

/-- A stored receipt of the same command answers. -/
def Answers (state : MemoryGovernanceRepository) (key : Identifier × Identifier)
    (commandDigest : Digest) (result : CommandResult) : Prop :=
  ∃ receipt, state.receipts key = some receipt ∧ receipt.commandDigest = commandDigest ∧
    receipt.result = result

theorem answering_eq_ok_iff {key : Identifier × Identifier} {commandDigest : Digest}
    {message : String} {execute : Result (CommandResult × MemoryGovernanceRepository)} :
    state.answering key commandDigest message execute = .ok (result, next) ↔
      (state.Answers key commandDigest result ∧ next = state) ∨
        (state.receipts key = none ∧ execute = .ok (result, next)) := by
  unfold answering Answers
  cases hreceipt : state.receipts key with
  | none => simp
  | some receipt =>
      by_cases hdigest : receipt.commandDigest = commandDigest
      · simp [hdigest, eq_comm]
      · simp [hdigest]

theorem importBatch_eq_ok_iff {command : ImportBatchCommand} :
    importBatch platform command now state = .ok (result, next) ↔
      ∃ imported report,
        (state.repositoryOf command now).canonicalRemote = command.canonicalRemote ∧
        importItems platform (state.contextOf command now) command.plan.items
          state.materializing = .ok imported ∧
        buildImportReport state.drawn command.plan .completed now now true = .ok report ∧
        result = .report report ∧
        next = (state.withImport command now imported report).storeReceipt
          (command.plan.organizationId, command.idempotencyKey)
          ⟨command.commandDigest, .report report, now⟩ := by
  unfold importBatch
  rw [reject_bind_eq_ok_iff, decide_eq_false_iff_not, ne_eq, not_not]
  constructor
  · rintro ⟨hremote, h⟩
    obtain ⟨imported, hitems, h⟩ := bind_eq_ok_iff.mp h
    obtain ⟨report, hreport, h⟩ := bind_eq_ok_iff.mp h
    rw [pure_eq_ok_iff, Prod.mk.injEq] at h
    exact ⟨imported, report, hremote, hitems, hreport, h.1.symm, h.2.symm⟩
  · rintro ⟨imported, report, hremote, hitems, hreport, rfl, rfl⟩
    refine ⟨hremote, bind_eq_ok_iff.mpr ⟨imported, hitems, ?_⟩⟩
    exact bind_eq_ok_iff.mpr ⟨report, hreport, rfl⟩

theorem applyImportBatch_eq_ok_iff {command : ImportBatchCommand} :
    applyImportBatch platform command now state = .ok (result, next) ↔
      (prepareImportBatchCommand command = .ok () ∧
        state.Answers (command.plan.organizationId, command.idempotencyKey) command.commandDigest
          result ∧ next = state) ∨
      (∃ batchId report, Reports now command state next batchId report ∧ result = .report report) ∨
      (∃ imported report, Imports platform now command state next imported report ∧
        result = .report report) := by
  unfold applyImportBatch
  rw [bind_eq_ok_iff]
  constructor
  · rintro ⟨⟨⟩, haccepted, h⟩
    rcases answering_eq_ok_iff.mp h with ⟨hanswers, hnext⟩ | ⟨hunanswered, h⟩
    · exact .inl ⟨haccepted, hanswers, hnext⟩
    · obtain ⟨horganization, h⟩ := reject_bind_eq_ok_iff.mp h
      rw [Option.isNone_eq_false_iff] at horganization
      cases hkey : state.batchKeys (command.plan.organizationId, command.plan.batchKey) with
      | some batchId =>
          rw [hkey] at h
          obtain ⟨report, hreport, h⟩ := bind_eq_ok_iff.mp h
          rw [pure_eq_ok_iff, Prod.mk.injEq] at h
          exact .inr (.inl ⟨batchId, report, ⟨haccepted, hunanswered, horganization, hkey, hreport,
            h.2.symm⟩, h.1.symm⟩)
      | none =>
          rw [hkey] at h
          obtain ⟨imported, report, hremote, hitems, hreport, hresult, hnext⟩ :=
            importBatch_eq_ok_iff.mp h
          exact .inr (.inr ⟨imported, report, ⟨haccepted, hunanswered, horganization, hkey, hremote,
            hitems, hreport, hnext⟩, hresult⟩)
  · rintro (⟨haccepted, hanswers, hnext⟩ | ⟨batchId, report, h, rfl⟩ | ⟨imported, report, h, rfl⟩)
    · exact ⟨(), haccepted, answering_eq_ok_iff.mpr (.inl ⟨hanswers, hnext⟩)⟩
    · refine ⟨(), h.accepted, answering_eq_ok_iff.mpr (.inr ⟨h.unanswered, ?_⟩)⟩
      rw [reject_bind_eq_ok_iff, Option.isNone_eq_false_iff, h.known]
      exact ⟨h.organization, bind_eq_ok_iff.mpr ⟨report, h.reported, by rw [h.next]; rfl⟩⟩
    · refine ⟨(), h.accepted, answering_eq_ok_iff.mpr (.inr ⟨h.unanswered, ?_⟩)⟩
      rw [reject_bind_eq_ok_iff, Option.isNone_eq_false_iff, h.fresh]
      exact ⟨h.organization, importBatch_eq_ok_iff.mpr
        ⟨imported, report, h.remote, h.items, h.reported, rfl, h.next⟩⟩

theorem rollbackImportBatch_eq_ok_iff {command : RollbackCommand} :
    rollbackImportBatch command now state = .ok (result, next) ↔
      (state.Answers (command.organizationId, command.idempotencyKey) command.commandDigest result ∧
        next = state) ∨
      ∃ repository batch previousBatch previousId report,
        RollsBack now command state next repository batch previousBatch previousId report ∧
          result = .report report := by
  unfold rollbackImportBatch
  rw [answering_eq_ok_iff]
  refine or_congr_right ?_
  constructor
  · rintro ⟨hunanswered, h⟩
    split at h
    next repository batch hrepository hbatch =>
      split at h
      next previousId hprevious =>
        split at h
        next hactive =>
          unfold restorePrevious at h
          split at h
          next => cases h
          next previousBatch hpreviousBatch =>
            obtain ⟨report, hreport, h⟩ := bind_eq_ok_iff.mp h
            rw [pure_eq_ok_iff, Prod.mk.injEq] at h
            exact ⟨repository, batch, previousBatch, previousId, report, ⟨hunanswered, hrepository,
              hbatch, hactive, hprevious, hpreviousBatch, hreport, h.2.symm⟩, h.1.symm⟩
        next => cases h
      next => cases h
    next => cases h
  · rintro ⟨repository, batch, previousBatch, previousId, report, h, rfl⟩
    refine ⟨h.unanswered, ?_⟩
    simp only [h.found, h.foundBatch, h.previous, h.active, if_true, restorePrevious,
      h.foundPrevious]
    rw [h.next]
    exact bind_eq_ok_iff.mpr ⟨report, h.reported, rfl⟩

/-! ## What every run keeps of the batches -/

/-- A batch is alive until it is rolled back. The batches that are alive in a repository
form a chain from the active one back to the first import. -/
structure History (state : MemoryGovernanceRepository) : Prop where
  known : ∀ {id batch}, state.importBatches id = some batch →
    batch.importBatchId = id ∧ id < state.drawn
  active_iff : ∀ {id batch}, state.importBatches id = some batch →
    (batch.active = true ↔ state.activeBatch (batch.organizationId, batch.repositoryId) = some id)
  current : ∀ {key id}, state.activeBatch key = some id → ∃ batch,
    state.importBatches id = some batch ∧ (batch.organizationId, batch.repositoryId) = key
  alive : ∀ {id batch}, state.importBatches id = some batch → batch.active = true →
    batch.status = .completed
  reported : ∀ {id batch}, state.importBatches id = some batch →
    batch.report.batchId = id ∧ batch.report.activeBatch = decide (batch.status = .completed)
  previous : ∀ {id batch previousId}, state.importBatches id = some batch →
    batch.status = .completed → batch.previousBatchId = some previousId → ∃ prior,
      state.importBatches previousId = some prior ∧ prior.status = .completed ∧
        prior.active = false ∧ (prior.organizationId, prior.repositoryId) =
          (batch.organizationId, batch.repositoryId)
  successor : ∀ {id other batch batch' previousId}, state.importBatches id = some batch →
    state.importBatches other = some batch' → batch.status = .completed →
    batch'.status = .completed → batch.previousBatchId = some previousId →
    batch'.previousBatchId = some previousId → id = other
  keyed : ∀ {organizationId batchKey id}, state.batchKeys (organizationId, batchKey) = some id →
    ∃ batch, state.importBatches id = some batch ∧ batch.organizationId = organizationId
  planned : ∀ {id batch}, state.importBatches id = some batch →
    (state.catalogSnapshots id).map (fun snapshot => snapshot.entry.listed) =
      (remaining batch.plan.items).map ImportPlanItem.listed
  listed : ∀ {id}, ∀ snapshot ∈ state.catalogSnapshots id, ∃ batch,
    state.importBatches id = some batch ∧ snapshot.organizationId = batch.organizationId ∧
      snapshot.repositoryId = batch.repositoryId

theorem history_empty : History empty where
  known h := by cases h
  active_iff h := by cases h
  current h := by cases h
  alive h := by cases h
  reported h := by cases h
  previous h := by cases h
  successor h := by cases h
  keyed h := by cases h
  planned h := by cases h
  listed _ hmem := absurd hmem List.not_mem_nil

/-- Commands that carry out nothing leave the batches as they are. -/
structure SameBatches (state next : MemoryGovernanceRepository) : Prop where
  importBatches : next.importBatches = state.importBatches
  repositories : next.repositories = state.repositories
  batchKeys : next.batchKeys = state.batchKeys
  catalogSnapshots : next.catalogSnapshots = state.catalogSnapshots
  drawn_le : state.drawn ≤ next.drawn

theorem SameBatches.activeBatch (h : SameBatches state next) : next.activeBatch = state.activeBatch := by
  funext key
  rw [MemoryGovernanceRepository.activeBatch, h.repositories]
  rfl

theorem History.of_same (hsame : SameBatches state next) (h : History state) : History next where
  known hbatch := by
    rw [hsame.importBatches] at hbatch
    exact ⟨(h.known hbatch).1, Nat.lt_of_lt_of_le (h.known hbatch).2 hsame.drawn_le⟩
  active_iff hbatch := by
    rw [hsame.importBatches] at hbatch
    rw [hsame.activeBatch]
    exact h.active_iff hbatch
  current hactive := by
    rw [hsame.activeBatch] at hactive
    rw [hsame.importBatches]
    exact h.current hactive
  alive hbatch := by
    rw [hsame.importBatches] at hbatch
    exact h.alive hbatch
  reported hbatch := by
    rw [hsame.importBatches] at hbatch
    exact h.reported hbatch
  previous hbatch := by
    rw [hsame.importBatches] at hbatch ⊢
    exact h.previous hbatch
  successor hbatch hother := by
    rw [hsame.importBatches] at hbatch hother
    exact h.successor hbatch hother
  keyed hkey := by
    rw [hsame.batchKeys] at hkey
    rw [hsame.importBatches]
    exact h.keyed hkey
  planned hbatch := by
    rw [hsame.importBatches] at hbatch
    rw [hsame.catalogSnapshots]
    exact h.planned hbatch
  listed := by
    rw [hsame.catalogSnapshots, hsame.importBatches]
    exact h.listed

/-! ## Imports -/

variable {command : ImportBatchCommand} {imported : Materializing} {report : ImportReport}

theorem activeBatchId_repositoryOf (state : MemoryGovernanceRepository)
    (command : ImportBatchCommand) (now : Int) :
    (state.repositoryOf command now).activeBatchId =
      state.activeBatch (command.plan.organizationId, command.plan.repositoryId) := by
  unfold repositoryOf MemoryGovernanceRepository.activeBatch
  cases state.repositories (command.plan.organizationId, command.plan.repositoryId) <;> rfl

theorem Imports.activeBatch (h : Imports platform now command state next imported report) :
    next.activeBatch = Function.update state.activeBatch
      (command.plan.organizationId, command.plan.repositoryId) (some state.drawn) := by
  funext key
  rw [h.next]
  by_cases hkey : key = (command.plan.organizationId, command.plan.repositoryId)
  · subst hkey
    simp [MemoryGovernanceRepository.activeBatch, storeReceipt, withImport]
  · simp [MemoryGovernanceRepository.activeBatch, storeReceipt, withImport, hkey]

/-- A batch as it is after the import of another one. -/
def superseded (active : Option Uuid) (id : Uuid) (batch : ImportBatch) : ImportBatch :=
  { batch with active := batch.active && active ≠ some id }

theorem superseded_of_ne {active : Option Uuid} {id : Uuid} (h : active ≠ some id) :
    superseded active id = fun batch => batch := by
  funext batch
  simp [superseded, h]

theorem superseded_self (id : Uuid) :
    superseded (some id) id = fun batch => { batch with active := false } := by
  funext batch
  simp [superseded]

theorem Imports.importBatches (h : Imports platform now command state next imported report)
    (id : Uuid) : next.importBatches id =
      if id = state.drawn then some (state.batchOf command now report)
      else (state.importBatches id).map (superseded
        (state.activeBatch (command.plan.organizationId, command.plan.repositoryId)) id) := by
  rw [h.next, ← activeBatchId_repositoryOf state command now]
  by_cases hid : id = state.drawn
  · simp [storeReceipt, withImport, hid]
  · simp only [storeReceipt, withImport, Function.update_of_ne hid, if_neg hid]
    cases hactive : (state.repositoryOf command now).activeBatchId with
    | none => rw [superseded_of_ne (by simp), Option.map_id']
    | some previousId =>
        by_cases hprevious : id = previousId
        · subst hprevious
          simp only [setActive, Function.update_self, superseded_self]
        · have hne : some previousId ≠ some id := fun h => hprevious (Option.some.inj h).symm
          simp only [setActive, Function.update_of_ne hprevious, superseded_of_ne hne,
            Option.map_id']

theorem valid_of_prepare (h : prepareImportBatchCommand command = .ok ()) :
    command.plan.valid = true := by
  simpa using (reject_bind_eq_ok_iff.mp h).1

theorem Imports.report_eq (h : Imports platform now command state next imported report) :
    report.batchId = state.drawn ∧ report.activeBatch = true ∧
      report.items = command.plan.items := by
  rw [eq_of_buildImportReport h.reported]
  exact ⟨rfl, rfl, rfl⟩

theorem Imports.history (h : Imports platform now command state next imported report)
    (hhistory : History state) : History next := by
  have hnew : ∀ {id batch}, next.importBatches id = some batch →
      (id = state.drawn ∧ batch = state.batchOf command now report) ∨
        ∃ earlier, state.importBatches id = some earlier ∧ batch = superseded
          (state.activeBatch (command.plan.organizationId, command.plan.repositoryId)) id
            earlier := by
    intro id batch hbatch
    rw [h.importBatches] at hbatch
    split at hbatch
    next hid => exact .inl ⟨hid, (Option.some.inj hbatch).symm⟩
    next =>
      obtain ⟨earlier, hearlier, hsuperseded⟩ := Option.map_eq_some_iff.mp hbatch
      exact .inr ⟨earlier, hearlier, hsuperseded.symm⟩
  have hkept : ∀ {id earlier}, state.importBatches id = some earlier →
      next.importBatches id = some (superseded
        (state.activeBatch (command.plan.organizationId, command.plan.repositoryId)) id
          earlier) := by
    intro id earlier hearlier
    rw [h.importBatches, if_neg (Nat.ne_of_lt (hhistory.known hearlier).2), hearlier]
    rfl
  have hadded : next.importBatches state.drawn = some (state.batchOf command now report) := by
    rw [h.importBatches, if_pos rfl]
  have hdrawn : state.drawn < next.drawn := by
    have hle := importItems_drawn_le h.items
    have hnext : next.drawn = imported.drawn := by rw [h.next]; rfl
    rw [hnext]
    exact Nat.lt_of_lt_of_le (Nat.lt_add_of_pos_right (by decide)) hle
  have hactive : ∀ key, next.activeBatch key =
      if key = (command.plan.organizationId, command.plan.repositoryId) then some state.drawn
      else state.activeBatch key := by
    intro key
    rw [h.activeBatch, Function.update_apply]
  have hprior : ∀ {id}, state.activeBatch
      (command.plan.organizationId, command.plan.repositoryId) = some id → ∃ prior,
        state.importBatches id = some prior ∧ prior.status = .completed ∧ prior.active = true ∧
          (prior.organizationId, prior.repositoryId) =
            (command.plan.organizationId, command.plan.repositoryId) := by
    intro id hid
    obtain ⟨prior, hbatch, hkey⟩ := hhistory.current hid
    have hprioractive := (hhistory.active_iff hbatch).mpr (hkey ▸ hid)
    exact ⟨prior, hbatch, hhistory.alive hbatch hprioractive, hprioractive, hkey⟩
  refine ⟨?_, ?_, ?_, ?_, ?_, ?_, ?_, ?_, ?_, ?_⟩
  · intro id batch hbatch
    rcases hnew hbatch with ⟨rfl, rfl⟩ | ⟨earlier, hearlier, rfl⟩
    · exact ⟨rfl, hdrawn⟩
    · exact ⟨(hhistory.known hearlier).1, Nat.lt_trans (hhistory.known hearlier).2 hdrawn⟩
  · intro id batch hbatch
    rcases hnew hbatch with ⟨rfl, rfl⟩ | ⟨earlier, hearlier, rfl⟩
    · exact iff_of_true rfl (by rw [hactive]; exact if_pos rfl)
    · have hne : some state.drawn ≠ some id := fun heq =>
        Nat.ne_of_gt (hhistory.known hearlier).2 (Option.some.inj heq)
      have hiff := hhistory.active_iff hearlier
      suffices hsuffices : (earlier.active && decide (state.activeBatch
          (command.plan.organizationId, command.plan.repositoryId) ≠ some id)) = true ↔
          next.activeBatch (earlier.organizationId, earlier.repositoryId) = some id from hsuffices
      rw [Bool.and_eq_true, decide_eq_true_eq, hiff]
      by_cases hkey : (earlier.organizationId, earlier.repositoryId) =
          (command.plan.organizationId, command.plan.repositoryId)
      · rw [hkey, hactive, if_pos rfl]
        exact iff_of_false (fun hboth => hboth.2 hboth.1) hne
      · rw [hactive, if_neg hkey]
        refine and_iff_left_of_imp fun _ hid => hkey ?_
        obtain ⟨prior, hbatch', -, -, hkey'⟩ := hprior hid
        rw [hearlier, Option.some.injEq] at hbatch'
        rw [hbatch', hkey']
  · intro key id hid
    rw [hactive] at hid
    split at hid
    next hkey => exact ⟨_, Option.some.inj hid ▸ hadded, hkey.symm⟩
    next =>
      obtain ⟨earlier, hearlier, hkey⟩ := hhistory.current hid
      exact ⟨_, hkept hearlier, hkey⟩
  · intro id batch hbatch hbatchactive
    rcases hnew hbatch with ⟨rfl, rfl⟩ | ⟨earlier, hearlier, rfl⟩
    · rfl
    · have hearlieractive : earlier.active = true := by
        simp only [superseded, Bool.and_eq_true] at hbatchactive
        exact hbatchactive.1
      have hstatus : earlier.status = .completed := hhistory.alive hearlier hearlieractive
      exact hstatus
  · intro id batch hbatch
    rcases hnew hbatch with ⟨rfl, rfl⟩ | ⟨earlier, hearlier, rfl⟩
    · exact ⟨h.report_eq.1, h.report_eq.2.1⟩
    · have hreported := hhistory.reported hearlier
      exact hreported
  · intro id batch previousId hbatch hstatus hprevious
    rcases hnew hbatch with ⟨rfl, rfl⟩ | ⟨earlier, hearlier, rfl⟩
    · have hid := (activeBatchId_repositoryOf state command now).symm.trans hprevious
      obtain ⟨prior, hbatch', hcompleted, -, hkey⟩ := hprior hid
      exact ⟨_, hkept hbatch', hcompleted, by simp [superseded, hid], hkey⟩
    · obtain ⟨prior, hbatch', hcompleted, hinactive, hkey⟩ :=
        hhistory.previous hearlier hstatus hprevious
      exact ⟨_, hkept hbatch', hcompleted, by simp [superseded, hinactive], hkey⟩
  · -- The new batch follows the active one, which no other batch alive follows.
    have hfirst : ∀ {id earlier previousId}, state.importBatches id = some earlier →
        earlier.status = .completed → earlier.previousBatchId = some previousId →
        (state.batchOf command now report).previousBatchId ≠ some previousId := by
      intro id earlier previousId hearlier hstatus hprevious hnewprevious
      have hid := (activeBatchId_repositoryOf state command now).symm.trans hnewprevious
      obtain ⟨prior, hbatch', -, hprioractive, -⟩ := hprior hid
      obtain ⟨prior', hbatch'', -, hinactive, -⟩ := hhistory.previous hearlier hstatus hprevious
      rw [hbatch', Option.some.injEq] at hbatch''
      rw [← hbatch'', hprioractive] at hinactive
      cases hinactive
    intro id other batch batch' previousId hbatch hbatch' hstatus hstatus' hprevious hprevious'
    rcases hnew hbatch with ⟨rfl, rfl⟩ | ⟨earlier, hearlier, rfl⟩ <;>
      rcases hnew hbatch' with ⟨rfl, rfl⟩ | ⟨earlier', hearlier', rfl⟩
    · rfl
    · exact absurd hprevious (hfirst hearlier' hstatus' hprevious')
    · exact absurd hprevious' (hfirst hearlier hstatus hprevious)
    · exact hhistory.successor hearlier hearlier' hstatus hstatus' hprevious hprevious'
  · intro organizationId batchKey id hid
    rw [h.next] at hid
    by_cases hkey : (organizationId, batchKey) = (command.plan.organizationId, command.plan.batchKey)
    · simp only [storeReceipt, withImport, hkey, Function.update_self, Option.some.injEq] at hid
      exact ⟨_, hid ▸ hadded, (Prod.mk.inj hkey).1.symm⟩
    · simp only [storeReceipt, withImport, Function.update_of_ne hkey] at hid
      obtain ⟨earlier, hearlier, horganization⟩ := hhistory.keyed hid
      exact ⟨_, hkept hearlier, horganization⟩
  · intro id batch hbatch
    rcases hnew hbatch with ⟨rfl, rfl⟩ | ⟨earlier, hearlier, rfl⟩
    · have hsnapshots : next.catalogSnapshots state.drawn = imported.nextSnapshots := by
        rw [h.next]
        simp [storeReceipt, withImport]
      rw [hsnapshots]
      exact (importItems_snapshots h.items rfl).listed
    · have hsnapshots : next.catalogSnapshots id = state.catalogSnapshots id := by
        rw [h.next]
        simp [storeReceipt, withImport, Nat.ne_of_lt (hhistory.known hearlier).2]
      have hplanned := hhistory.planned hearlier
      rw [hsnapshots]
      exact hplanned
  · intro id snapshot hsnapshot
    rw [h.next] at hsnapshot
    by_cases hid : id = state.drawn
    · simp only [storeReceipt, withImport, hid, Function.update_self] at hsnapshot
      exact ⟨_, hid ▸ hadded, (importItems_snapshots h.items rfl).owned snapshot hsnapshot⟩
    · simp only [storeReceipt, withImport, Function.update_of_ne hid] at hsnapshot
      obtain ⟨earlier, hearlier, howned⟩ := hhistory.listed snapshot hsnapshot
      exact ⟨_, hkept hearlier, howned⟩

/-! ## Rollbacks -/

variable {rollback : RollbackCommand} {repository : Repository} {batch previousBatch : ImportBatch}
  {previousId : Uuid}

/-- A batch as it is after the rollback of a batch to the one before. -/
def afterRollback (batchId previousId : Uuid) (report : ImportReport) (id : Uuid)
    (batch : ImportBatch) : ImportBatch :=
  if id = previousId then { batch with active := true }
  else if id = batchId then { batch with status := .rolledBack, active := false, report }
  else batch

theorem RollsBack.restored (h : RollsBack now rollback state next repository batch previousBatch
    previousId report) (hhistory : History state) :
    batch.active = true ∧ batch.status = .completed ∧
      (batch.organizationId, batch.repositoryId) =
        (rollback.organizationId, rollback.repositoryId) ∧
      previousBatch.active = false ∧ previousBatch.status = .completed ∧
      (previousBatch.organizationId, previousBatch.repositoryId) =
        (rollback.organizationId, rollback.repositoryId) ∧
      previousBatch.importBatchId = previousId ∧ previousId ≠ rollback.batchId := by
  have hactive : state.activeBatch (rollback.organizationId, rollback.repositoryId) =
      some rollback.batchId := by
    rw [MemoryGovernanceRepository.activeBatch, h.found, Option.bind_some, h.active]
  obtain ⟨batch', hbatch', hkey⟩ := hhistory.current hactive
  rw [h.foundBatch, Option.some.injEq] at hbatch'
  subst hbatch'
  have hbatchactive := (hhistory.active_iff h.foundBatch).mpr (hkey ▸ hactive)
  have hstatus := hhistory.alive h.foundBatch hbatchactive
  obtain ⟨prior, hprior, hpriorstatus, hinactive, hpriorkey⟩ :=
    hhistory.previous h.foundBatch hstatus h.previous
  rw [h.foundPrevious, Option.some.injEq] at hprior
  subst hprior
  refine ⟨hbatchactive, hstatus, hkey, hinactive, hpriorstatus, hpriorkey.trans hkey,
    (hhistory.known h.foundPrevious).1, ?_⟩
  rintro rfl
  have hsame := h.foundBatch.symm.trans h.foundPrevious
  rw [Option.some.injEq] at hsame
  rw [hsame, hinactive] at hbatchactive
  cases hbatchactive

theorem RollsBack.importBatches (h : RollsBack now rollback state next repository batch
    previousBatch previousId report) (hhistory : History state) (id : Uuid) :
    next.importBatches id =
      (state.importBatches id).map (afterRollback rollback.batchId previousId report id) := by
  have hne := (h.restored hhistory).2.2.2.2.2.2.2
  rw [h.next]
  unfold storeReceipt withRollback setActive
  dsimp only
  by_cases hprevious : id = previousId
  · subst hprevious
    have hid : afterRollback rollback.batchId id report id = fun batch =>
        { batch with active := true } := by
      funext batch
      simp [afterRollback]
    rw [Function.update_self, Function.update_of_ne hne, hid]
  · rw [Function.update_of_ne hprevious]
    by_cases hbatch : id = rollback.batchId
    · subst hbatch
      rw [Function.update_self, h.foundBatch]
      simp [afterRollback, hprevious]
    · rw [Function.update_of_ne hbatch]
      have hid : afterRollback rollback.batchId previousId report id = fun batch => batch := by
        funext batch
        simp [afterRollback, hprevious, hbatch]
      rw [hid, Option.map_id']

theorem RollsBack.activeBatch (h : RollsBack now rollback state next repository batch previousBatch
    previousId report) (hhistory : History state) (key : RepositoryKey) :
    next.activeBatch key =
      if key = (rollback.organizationId, rollback.repositoryId) then some previousId
      else state.activeBatch key := by
  have hid := (h.restored hhistory).2.2.2.2.2.2.1
  rw [h.next]
  unfold MemoryGovernanceRepository.activeBatch storeReceipt withRollback
  dsimp only
  rw [Function.update_apply]
  split
  · rw [Option.bind_some, hid]
  · rfl

theorem RollsBack.history (h : RollsBack now rollback state next repository batch previousBatch
    previousId report) (hhistory : History state) : History next := by
  obtain ⟨hbatchactive, hbatchstatus, hkey, hinactive, hpriorstatus, hpriorkey, hpriorid, hne⟩ :=
    h.restored hhistory
  have hactive := h.activeBatch hhistory
  have hnew : ∀ {id batch}, next.importBatches id = some batch → ∃ earlier,
      state.importBatches id = some earlier ∧
        batch = afterRollback rollback.batchId previousId report id earlier := by
    intro id batch hbatch
    rw [h.importBatches hhistory] at hbatch
    obtain ⟨earlier, hearlier, hafter⟩ := Option.map_eq_some_iff.mp hbatch
    exact ⟨earlier, hearlier, hafter.symm⟩
  have hkept : ∀ {id earlier}, state.importBatches id = some earlier → next.importBatches id =
      some (afterRollback rollback.batchId previousId report id earlier) := by
    intro id earlier hearlier
    rw [h.importBatches hhistory, hearlier]
    rfl
  have hdrawn : next.drawn = state.drawn := by
    rw [h.next]
    rfl
  have hkeyafter : ∀ id earlier,
      ((afterRollback rollback.batchId previousId report id earlier).organizationId,
        (afterRollback rollback.batchId previousId report id earlier).repositoryId) =
          (earlier.organizationId, earlier.repositoryId) := by
    intro id earlier
    unfold afterRollback
    split
    · rfl
    · split <;> rfl
  have hcurrent : state.activeBatch (rollback.organizationId, rollback.repositoryId) =
      some rollback.batchId := hkey ▸ (hhistory.active_iff h.foundBatch).mp hbatchactive
  -- What is alive after the rollback was alive before it, and is not the batch rolled back.
  have halive : ∀ {id earlier}, state.importBatches id = some earlier →
      (afterRollback rollback.batchId previousId report id earlier).status = .completed →
        earlier.status = .completed ∧ id ≠ rollback.batchId ∧
          (afterRollback rollback.batchId previousId report id earlier).previousBatchId =
            earlier.previousBatchId := by
    intro id earlier hearlier hstatus
    unfold afterRollback at hstatus ⊢
    split at hstatus
    next hprevious => exact ⟨hstatus, hprevious ▸ hne, by simp [hprevious]⟩
    next hprevious =>
      split at hstatus
      next => cases hstatus
      next hbatch => exact ⟨hstatus, hbatch, by simp [hprevious, hbatch]⟩
  refine ⟨?_, ?_, ?_, ?_, ?_, ?_, ?_, ?_, ?_, ?_⟩
  · intro id batch hbatch
    obtain ⟨earlier, hearlier, rfl⟩ := hnew hbatch
    have hknown := hhistory.known hearlier
    rw [hdrawn]
    unfold afterRollback
    split
    · exact hknown
    · split <;> exact hknown
  · intro id batch hbatch
    obtain ⟨earlier, hearlier, rfl⟩ := hnew hbatch
    rw [hkeyafter, hactive]
    have hiff := hhistory.active_iff hearlier
    by_cases hprevious : id = previousId
    · subst hprevious
      rw [h.foundPrevious, Option.some.injEq] at hearlier
      rw [← hearlier, hpriorkey, if_pos rfl]
      exact iff_of_true (by simp [afterRollback]) rfl
    · by_cases hbatch : id = rollback.batchId
      · subst hbatch
        rw [h.foundBatch, Option.some.injEq] at hearlier
        rw [← hearlier, hkey, if_pos rfl]
        exact iff_of_false (by simp [afterRollback, hprevious])
          fun heq => hne (Option.some.inj heq)
      · have hid : afterRollback rollback.batchId previousId report id earlier = earlier := by
          simp [afterRollback, hprevious, hbatch]
        rw [hid, hiff]
        split
        next hsame =>
          rw [hsame, hcurrent]
          exact iff_of_false (fun heq => hbatch (Option.some.inj heq).symm)
            fun heq => hprevious (Option.some.inj heq).symm
        next => exact Iff.rfl
  · intro key id hid
    rw [hactive] at hid
    split at hid
    next hsame =>
      rw [← Option.some.inj hid]
      exact ⟨_, hkept h.foundPrevious, (hkeyafter _ _).trans (hpriorkey.trans hsame.symm)⟩
    next =>
      obtain ⟨earlier, hearlier, hsame⟩ := hhistory.current hid
      exact ⟨_, hkept hearlier, (hkeyafter _ _).trans hsame⟩
  · intro id batch hbatch hactive
    obtain ⟨earlier, hearlier, rfl⟩ := hnew hbatch
    unfold afterRollback at hactive ⊢
    split at hactive
    next hprevious =>
      subst hprevious
      rw [h.foundPrevious, Option.some.injEq] at hearlier
      rw [if_pos rfl, ← hearlier]
      exact hpriorstatus
    next hprevious =>
      split at hactive
      next => cases hactive
      next hbatch =>
        rw [if_neg hprevious, if_neg hbatch]
        exact hhistory.alive hearlier hactive
  · intro id batch hbatch
    obtain ⟨earlier, hearlier, rfl⟩ := hnew hbatch
    have hreported := hhistory.reported hearlier
    unfold afterRollback
    split
    · exact hreported
    · split
      next hbatch =>
        subst hbatch
        have hbatchid := (hhistory.known h.foundBatch).1
        rw [eq_of_buildImportReport h.reported]
        exact ⟨hbatchid, rfl⟩
      next => exact hreported
  · intro id batch previous hbatch hstatus hprevious
    obtain ⟨earlier, hearlier, rfl⟩ := hnew hbatch
    obtain ⟨hearlierstatus, hidne, hsame⟩ := halive hearlier hstatus
    rw [hsame] at hprevious
    obtain ⟨prior, hprior, hcompleted, hidle, hsamekey⟩ :=
      hhistory.previous hearlier hearlierstatus hprevious
    have hnotprevious : previous ≠ previousId := by
      rintro rfl
      exact hidne (hhistory.successor hearlier h.foundBatch hearlierstatus hbatchstatus hprevious
        h.previous)
    have hnotbatch : previous ≠ rollback.batchId := by
      rintro rfl
      rw [h.foundBatch, Option.some.injEq] at hprior
      rw [← hprior, hbatchactive] at hidle
      cases hidle
    have hid : afterRollback rollback.batchId previousId report previous prior = prior := by
      simp [afterRollback, hnotprevious, hnotbatch]
    refine ⟨prior, ?_, hcompleted, hidle, hsamekey.trans (hkeyafter _ _).symm⟩
    rw [hkept hprior, hid]
  · intro id other batch batch' previous hbatch hbatch' hstatus hstatus' hprevious hprevious'
    obtain ⟨earlier, hearlier, rfl⟩ := hnew hbatch
    obtain ⟨earlier', hearlier', rfl⟩ := hnew hbatch'
    obtain ⟨hearlierstatus, -, hsame⟩ := halive hearlier hstatus
    obtain ⟨hearlierstatus', -, hsame'⟩ := halive hearlier' hstatus'
    exact hhistory.successor hearlier hearlier' hearlierstatus hearlierstatus'
      (hsame ▸ hprevious) (hsame' ▸ hprevious')
  · intro organizationId batchKey id hid
    have hbatchKeys : next.batchKeys = state.batchKeys := by
      rw [h.next]
      rfl
    rw [hbatchKeys] at hid
    obtain ⟨earlier, hearlier, horganization⟩ := hhistory.keyed hid
    exact ⟨_, hkept hearlier, (Prod.mk.inj (hkeyafter id earlier)).1.trans horganization⟩
  · intro id batch hbatch
    obtain ⟨earlier, hearlier, rfl⟩ := hnew hbatch
    have hsnapshots : next.catalogSnapshots = state.catalogSnapshots := by
      rw [h.next]
      rfl
    have hplan : (afterRollback rollback.batchId previousId report id earlier).plan =
        earlier.plan := by
      unfold afterRollback
      split
      · rfl
      · split <;> rfl
    rw [hsnapshots, hplan]
    exact hhistory.planned hearlier
  · intro id snapshot hsnapshot
    have hsnapshots : next.catalogSnapshots = state.catalogSnapshots := by
      rw [h.next]
      rfl
    rw [hsnapshots] at hsnapshot
    obtain ⟨earlier, hearlier, howned⟩ := hhistory.listed snapshot hsnapshot
    have hsame := Prod.mk.inj (hkeyafter id earlier)
    exact ⟨_, hkept hearlier, howned.1.trans hsame.1.symm, howned.2.trans hsame.2.symm⟩

/-! ## Runs -/

/-- All that a command which succeeds can do. -/
inductive Effect (platform : Platform) (now : Int) (state next : MemoryGovernanceRepository) :
    Prop where
  | noted (hsame : SameBatches state next) (hstored : next.toStored = state.toStored) :
      Effect platform now state next
  | imported {command : ImportBatchCommand} {imported : Materializing} {report : ImportReport}
      (h : Imports platform now command state next imported report) :
      Effect platform now state next
  | rolledBack {command : RollbackCommand} {repository : Repository}
      {batch previousBatch : ImportBatch} {previousId : Uuid} {report : ImportReport}
      (h : RollsBack now command state next repository batch previousBatch previousId report) :
      Effect platform now state next

theorem SameBatches.refl (state : MemoryGovernanceRepository) : SameBatches state state :=
  ⟨rfl, rfl, rfl, rfl, Nat.le_refl _⟩

theorem effect_of_execute {command : Command}
    (h : state.execute platform now command = .ok (result, next)) :
    Effect platform now state next := by
  cases command with
  | ensureOrganization command =>
      rw [execute, MemoryGovernanceRepository.ensureOrganization, bind_eq_ok_iff] at h
      obtain ⟨-, -, h⟩ := h
      rcases answering_eq_ok_iff.mp h with ⟨-, rfl⟩ | ⟨-, h⟩
      · exact .noted (.refl _) rfl
      · obtain ⟨-, h⟩ := reject_bind_eq_ok_iff.mp h
        rw [pure_eq_ok_iff, Prod.mk.injEq] at h
        rw [← h.2]
        exact .noted ⟨rfl, rfl, rfl, rfl, Nat.le_succ _⟩ rfl
  | applyImportBatch command =>
      rcases applyImportBatch_eq_ok_iff.mp h with ⟨-, -, rfl⟩ | ⟨_, _, h, -⟩ | ⟨_, _, h, -⟩
      · exact .noted (.refl _) rfl
      · rw [h.next]
        exact .noted ⟨rfl, rfl, rfl, rfl, Nat.le_refl _⟩ rfl
      · exact .imported h
  | rollbackImportBatch command =>
      rcases rollbackImportBatch_eq_ok_iff.mp h with ⟨-, rfl⟩ | ⟨_, _, _, _, _, h, -⟩
      · exact .noted (.refl _) rfl
      · exact .rolledBack h

theorem Reachable.history (h : Reachable platform state) : History state := by
  induction h with
  | empty => exact history_empty
  | step _ hstep ih =>
      cases effect_of_execute hstep with
      | noted hsame _ => exact ih.of_same hsame
      | imported h => exact h.history ih
      | rolledBack h => exact h.history ih

/-! ## What every run keeps of the artifacts -/

/-- A catalog of the repository, now or before, lists the artifact. -/
def Lists (state : MemoryGovernanceRepository) (key : RepositoryKey) (artifactId : String) : Prop :=
  ∃ id, ∃ snapshot ∈ state.catalogSnapshots id,
    (snapshot.organizationId, snapshot.repositoryId) = key ∧ snapshot.artifactId = some artifactId

structure Holdings (state : MemoryGovernanceRepository) : Prop where
  sound : state.toStored.Sound state.drawn
  settled : state.toStored.Settled
  links : ∀ id, state.toStored.Links (state.catalogSnapshots id)
  /-- A version without a named artifact is one of the artifact named `null`, which the
  repository listed before. -/
  anchored : ∀ {id}, ∀ snapshot ∈ state.catalogSnapshots id, snapshot.artifactId = none →
    snapshot.artifactVersionId ≠ none → state.Lists
      (snapshot.organizationId, snapshot.repositoryId) "null"

theorem Imports.materialized (h : Imports platform now command state next imported report)
    (hholdings : Holdings state) : imported.Sound imported.drawn :=
  importItems_sound h.items (hholdings.sound.mono (Nat.le_add_right _ _))

/-- The snapshots that an import starts from are those of its repository. -/
theorem activeSnapshots_owned (hhistory : History state) :
    ∀ snapshot ∈ state.activeSnapshots (state.repositoryOf command now),
      (∃ id, snapshot ∈ state.catalogSnapshots id) ∧
        (snapshot.organizationId, snapshot.repositoryId) = command.repositoryKey := by
  intro snapshot hsnapshot
  rw [activeSnapshots, activeBatchId_repositoryOf] at hsnapshot
  cases hactive : state.activeBatch (command.plan.organizationId, command.plan.repositoryId) with
  | none =>
      rw [hactive] at hsnapshot
      cases hsnapshot
  | some id =>
      rw [hactive, Option.map_some, Option.getD_some] at hsnapshot
      obtain ⟨batch, hbatch, hkey⟩ := hhistory.current hactive
      obtain ⟨batch', hbatch', horganization, hrepository⟩ := hhistory.listed snapshot hsnapshot
      rw [hbatch, Option.some.injEq] at hbatch'
      subst hbatch'
      exact ⟨⟨id, hsnapshot⟩, by rw [horganization, hrepository, hkey]⟩

theorem Imports.catalogSnapshots (h : Imports platform now command state next imported report)
    (id : Uuid) : next.catalogSnapshots id =
      if id = state.drawn then imported.nextSnapshots else state.catalogSnapshots id := by
  rw [h.next]
  simp only [storeReceipt, withImport, Function.update_apply]

/-- What a catalog listed is not forgotten. -/
theorem Imports.lists (h : Imports platform now command state next imported report)
    (hhistory : History state) {key : RepositoryKey} {artifactId : String}
    (hlists : state.Lists key artifactId) : next.Lists key artifactId := by
  obtain ⟨id, snapshot, hsnapshot, howned⟩ := hlists
  obtain ⟨batch, hbatch, -⟩ := hhistory.listed snapshot hsnapshot
  refine ⟨id, snapshot, ?_, howned⟩
  rw [h.catalogSnapshots, if_neg (Nat.ne_of_lt (hhistory.known hbatch).2)]
  exact hsnapshot

theorem Imports.anchored (h : Imports platform now command state next imported report)
    (hhistory : History state) (hholdings : Holdings state) {snapshot : Snapshot}
    (hsnapshot : snapshot ∈ imported.nextSnapshots) (hunnamed : snapshot.artifactId = none)
    (hversion : snapshot.artifactVersionId ≠ none) :
    state.Lists (snapshot.organizationId, snapshot.repositoryId) "null" := by
  have hsnapshots := importItems_snapshots h.items rfl
  obtain ⟨horganization, hrepository⟩ := hsnapshots.owned snapshot hsnapshot
  obtain ⟨id, hid⟩ := Option.ne_none_iff_exists'.mp hversion
  obtain ⟨prior, hprior, hpriorid⟩ :=
    importItems_unnamed h.items rfl snapshot hsnapshot hunnamed id hid
  obtain ⟨⟨batchId, hpriormem⟩, hpriorkey⟩ := activeSnapshots_owned hhistory prior hprior
  have hkey : (snapshot.organizationId, snapshot.repositoryId) =
      (prior.organizationId, prior.repositoryId) := by
    rw [hpriorkey, horganization, hrepository]
    rfl
  have hlinked := hsnapshots.links snapshot hsnapshot id hid
  have hpriorlinked := ((importItems_grows h.items).ids _).subset
    (hholdings.links batchId prior hpriormem id hpriorid)
  have hsame := (h.materialized hholdings).apart hlinked hpriorlinked
  rw [artifactKey, artifactKey, hunnamed, Prod.mk.injEq] at hsame
  rw [hkey]
  cases hartifact : prior.artifactId with
  | none =>
      exact hholdings.anchored prior hpriormem hartifact
        (Option.ne_none_iff_exists'.mpr ⟨id, hpriorid⟩)
  | some artifactId =>
      rw [hartifact] at hsame
      have hnull : artifactId = "null" := hsame.2.symm
      exact ⟨batchId, prior, hpriormem, rfl, hnull ▸ hartifact⟩

theorem Imports.holdings (h : Imports platform now command state next imported report)
    (hhistory : History state) (hholdings : Holdings state) : Holdings next := by
  have hsound := h.materialized hholdings
  have hstored : next.toStored = imported.toStored.sweep imported.nextSnapshots now := by
    rw [h.next]
    rfl
  refine ⟨?_, ?_, ?_, ?_⟩
  · have hdrawn : next.drawn = imported.drawn := by
      rw [h.next]
      rfl
    rw [hstored, hdrawn]
    exact hsound.sweep _ _
  · rw [hstored]
    exact Stored.settled_sweep hsound _ _
  · intro id
    have hsweep : ∀ key, imported.ids key ⊆ next.ids key := by
      intro key
      rw [hstored, Stored.ids_sweep]
      exact List.Subset.refl _
    rw [h.catalogSnapshots]
    split
    · exact (importItems_snapshots h.items rfl).links.mono hsweep
    · refine (hholdings.links id).mono fun key => ?_
      exact List.Subset.trans ((importItems_grows h.items).ids key).subset (hsweep key)
  · intro id snapshot hsnapshot hunnamed hversion
    rw [h.catalogSnapshots] at hsnapshot
    split at hsnapshot
    · exact h.lists hhistory (h.anchored hhistory hholdings hsnapshot hunnamed hversion)
    · exact h.lists hhistory (hholdings.anchored snapshot hsnapshot hunnamed hversion)

theorem RollsBack.holdings (h : RollsBack now rollback state next repository batch previousBatch
    previousId report) (hholdings : Holdings state) : Holdings next := by
  rw [h.next]
  refine ⟨hholdings.sound.sweep _ _, Stored.settled_sweep hholdings.sound _ _, ?_,
    hholdings.anchored⟩
  intro id
  refine (hholdings.links id).mono fun key => ?_
  have hids := Stored.ids_sweep state.toStored
    (state.catalogSnapshots previousBatch.importBatchId) now key
  exact fun _ hid => hids ▸ hid

theorem Reachable.holdings (h : Reachable platform state) : Holdings state := by
  induction h with
  | empty =>
      refine ⟨Stored.sound_empty, ?_, fun _ => by simp [Stored.Links, MemoryGovernanceRepository.empty],
        fun _ hmem => absurd hmem List.not_mem_nil⟩
      intro key artifact hartifact
      cases hartifact
  | step hreach hstep ih =>
      cases effect_of_execute hstep with
      | noted hsame hstored =>
          refine ⟨?_, ?_, ?_, ?_⟩
          · rw [hstored]
            exact ih.sound.mono hsame.drawn_le
          · rw [hstored]
            exact ih.settled
          · rw [hstored, hsame.catalogSnapshots]
            exact ih.links
          · intro id snapshot hsnapshot hunnamed hversion
            rw [Lists, hsame.catalogSnapshots]
            rw [hsame.catalogSnapshots] at hsnapshot
            exact ih.anchored snapshot hsnapshot hunnamed hversion
      | imported h => exact h.holdings hreach.history ih
      | rolledBack h => exact h.holdings ih

end

end Hseos.ControlPlane.MemoryGovernanceRepository
