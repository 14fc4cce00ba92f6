import Hseos.ControlPlane.Isolation

/-! # Rollback of an import

A rollback activates the previous catalog again. What the import itself wrote to the
artifacts stays, and so does what other repositories had activated before it.
-/

namespace Hseos.ControlPlane

/-! ## What a plan stores for one artifact -/

/-- The items whose content a plan stores as versions of an artifact. -/
def storedItems (organizationId : Identifier) (items : List ImportPlanItem) (key : ArtifactKey) :
    List ImportPlanItem :=
  items.filter fun item => item.action.stores &&
    item.artifactId.any fun artifactId => (organizationId, artifactId) = key

/-- What an artifact has from the last item that was stored for it. -/
def StoredLast (platform : Platform) (entries : List DiscoveryEntry)
    (items : List ImportPlanItem) (artifact : Artifact) : Prop :=
  ∀ item ∈ items.getLast?, artifact.artifactType = item.artifactType ∧
    ∃ entry materialization, entries.find? (·.sourcePath = item.sourcePath) = some entry ∧
      artifactMaterialization platform entry = .ok materialization ∧
        materialization.title = artifact.title

section

variable {platform : Platform} {context : ImportContext} {before after : Materializing}
  {items : List ImportPlanItem}

/-- An artifact while a plan is imported: where items are stored for it, it is as the last of
them has it, and otherwise as it was; the content of each of them is active. -/
structure StoredFor (platform : Platform) (context : ImportContext) (before : Materializing)
    (key : ArtifactKey) (items : List ImportPlanItem) (m : Materializing) : Prop where
  kept : storedItems context.plan.organizationId items key = [] →
    m.artifacts key = before.artifacts key
  last : ∀ artifact ∈ m.artifacts key, StoredLast platform context.entries
    (storedItems context.plan.organizationId items key) artifact
  active : ∀ item ∈ storedItems context.plan.organizationId items key, ∃ version,
    (m.artifactVersions key).find? (·.contentDigest = item.contentDigest) = some version ∧
      version.artifactVersionId ∈ activeVersionIds m.nextSnapshots
  only : ∀ id ∈ activeVersionIds m.nextSnapshots, id ∈ m.ids key →
    id ∈ activeVersionIds context.previousSnapshots ∨
      ∃ item ∈ storedItems context.plan.organizationId items key, ∃ version,
        (m.artifactVersions key).find? (·.contentDigest = item.contentDigest) = some version ∧
          version.artifactVersionId = id

theorem find?_of_prefix {α : Type} {p : α → Bool} {list longer : List α} {a : α}
    (hextends : list <+: longer) (h : list.find? p = some a) : longer.find? p = some a := by
  obtain ⟨rest, rfl⟩ := hextends
  rw [List.find?_append, h]
  rfl

theorem storedItems_append (organizationId : Identifier) (items : List ImportPlanItem)
    (item : ImportPlanItem) (key : ArtifactKey) :
    storedItems organizationId (items ++ [item]) key =
      storedItems organizationId items key ++ storedItems organizationId [item] key := by
  rw [storedItems, List.filter_append]
  rfl

theorem activeVersionIds_record (m : Materializing) (context : ImportContext)
    (item : ImportPlanItem) (stored : Stored) (version : Option ArtifactVersion) :
    activeVersionIds (m.record context item stored version).nextSnapshots =
      activeVersionIds m.nextSnapshots ++ (version.map (·.artifactVersionId)).toList := by
  rw [Materializing.record, activeVersionIds, List.filterMap_append]
  cases version <;> rfl

/-- An item that stores nothing for the artifact, and activates at most what was active. -/
theorem StoredFor.other {key : ArtifactKey} {m : Materializing} {done : List ImportPlanItem}
    {item : ImportPlanItem} {version : Option ArtifactVersion} {stored : Stored}
    (h : StoredFor platform context before key done m)
    (hnone : storedItems context.plan.organizationId [item] key = [])
    (hartifacts : stored.artifacts key = m.artifacts key)
    (hversions : stored.artifactVersions key = m.artifactVersions key)
    (hversion : ∀ v ∈ version, v.artifactVersionId ∈ stored.ids key →
      v.artifactVersionId ∈ activeVersionIds context.previousSnapshots) :
    StoredFor platform context before key (done ++ [item])
      (m.record context item stored version) := by
  have hitems : storedItems context.plan.organizationId (done ++ [item]) key =
      storedItems context.plan.organizationId done key := by
    rw [storedItems_append, hnone, List.append_nil]
  refine ⟨?_, ?_, ?_, ?_⟩
  · rw [hitems]
    exact fun hnil => hartifacts.trans (h.kept hnil)
  · rw [hitems]
    intro artifact hartifact
    have hold : artifact ∈ m.artifacts key := hartifacts ▸ hartifact
    exact h.last artifact hold
  · rw [hitems, activeVersionIds_record]
    intro other hother
    obtain ⟨found, hfind, hactive⟩ := h.active other hother
    exact ⟨found, hversions ▸ hfind, List.mem_append_left _ hactive⟩
  · rw [hitems, activeVersionIds_record]
    intro id hid hmem
    have hkey : (m.record context item stored version).artifactVersions key =
        m.artifactVersions key := hversions
    rw [hkey]
    rcases List.mem_append.mp hid with hid | hid
    · refine h.only id hid ?_
      rw [Stored.ids, ← hversions]
      exact hmem
    · obtain ⟨v, hv, rfl⟩ := Option.mem_map.mp (Option.mem_toList.mp hid)
      exact .inl (hversion v hv hmem)

theorem StoredFor.stored {key : ArtifactKey} {m : Materializing} {done : List ImportPlanItem}
    {item : ImportPlanItem} {artifactId : String} {entry : DiscoveryEntry}
    {materialization : Materialization} (h : StoredFor platform context before key done m)
    (hsound : m.Sound m.drawn) (hlinks : m.toStored.Links m.nextSnapshots)
    (hkey : key = artifactKey context.plan.organizationId (some artifactId))
    (hentry : context.entries.find? (·.sourcePath = item.sourcePath) = some entry)
    (hmaterial : artifactMaterialization platform entry = .ok materialization)
    (hitem : storedItems context.plan.organizationId [item] key = [item]) :
    StoredFor platform context before key (done ++ [item]) (m.record context item
      (storedFor context m item artifactId entry materialization)
      (some (storedVersion context m item artifactId entry materialization))) := by
  have hitems : storedItems context.plan.organizationId (done ++ [item]) key =
      storedItems context.plan.organizationId done key ++ [item] := by
    rw [storedItems_append, hitem]
  have hgrows : m.toStored.Grows (storedFor context m item artifactId entry materialization) :=
    grows_storedFor
  have hafter : (storedFor context m item artifactId entry materialization).Sound (m.drawn + 3) :=
    sound_storedFor hsound
  have hfound : ((storedFor context m item artifactId entry materialization).artifactVersions
      key).find? (·.contentDigest = item.contentDigest) =
        some (storedVersion context m item artifactId entry materialization) := by
    rw [artifactVersions_storedFor, storedVersion, ← hkey]
    cases hfind : (m.artifactVersions key).find? (·.contentDigest = item.contentDigest) with
    | none => simp [List.find?_append, hfind, ImportContext.newVersion]
    | some version => simp [hfind]
  refine ⟨?_, ?_, ?_, ?_⟩
  · rw [hitems]
    intro hnil
    exact absurd hnil (by simp)
  · rw [hitems]
    intro artifact hartifact last hlast
    rw [List.getLast?_concat, Option.mem_some_iff] at hlast
    subst hlast
    have hput : (storedFor context m item artifactId entry materialization).artifacts key =
        some (context.artifact item artifactId materialization (m.artifacts key) (m.drawn + 1)
          (storedVersion context m item artifactId entry materialization)) := by
      rw [storedFor, hkey]
      exact Function.update_self _ _ _
    have heq : artifact = _ := Option.some.inj ((Option.mem_def.mp hartifact).symm.trans hput)
    rw [heq]
    exact ⟨rfl, entry, materialization, hentry, hmaterial, rfl⟩
  · rw [hitems, activeVersionIds_record]
    intro other hother
    rcases List.mem_append.mp hother with hother | hother
    · obtain ⟨version, hfind, hactive⟩ := h.active other hother
      exact ⟨version, find?_of_prefix (hgrows key) hfind, List.mem_append_left _ hactive⟩
    · rw [List.mem_singleton.mp hother]
      exact ⟨_, hfound, List.mem_append_right _ (by simp)⟩
  · rw [hitems, activeVersionIds_record]
    intro id hid hmem
    rcases List.mem_append.mp hid with hid | hid
    · -- An identifier that was active before belongs to a version stored before.
      have hbefore : id ∈ m.ids key := by
        obtain ⟨snapshot, hsnapshot, hversion⟩ := List.mem_filterMap.mp hid
        have hlinked := hlinks snapshot hsnapshot id hversion
        have hsame := hafter.apart hmem ((hgrows.ids _).subset hlinked)
        rw [hsame]
        exact hlinked
      rcases h.only id hid hbefore with hprevious | ⟨other, hother, version, hfind, hversion⟩
      · exact .inl hprevious
      · exact .inr ⟨other, List.mem_append_left _ hother, version,
          find?_of_prefix (hgrows key) hfind, hversion⟩
    · have hlast : id = (storedVersion context m item artifactId entry
          materialization).artifactVersionId := by simpa using hid
      exact .inr ⟨item, List.mem_append_right _ (List.mem_singleton_self _), _, hfound, hlast.symm⟩

theorem importItems_storedFor (h : importItems platform context items before = .ok after)
    (hsound : before.Sound before.drawn) (hbefore : before.nextSnapshots = []) (key : ArtifactKey) :
    StoredFor platform context before key items after := by
  suffices hall : after.Sound after.drawn ∧ SnapshotsOf context items after ∧
      StoredFor platform context before key items after from hall.2.2
  refine importItems_induction (motive := fun done m => m.Sound m.drawn ∧
    SnapshotsOf context done m ∧ StoredFor platform context before key done m) h ?_ ?_
  · refine ⟨hsound, snapshotsOf_nil hbefore, fun _ => rfl, ?_, ?_, ?_⟩
    · intro artifact _ item hitem
      cases hitem
    · intro item hitem
      cases hitem
    · intro id hid
      rw [hbefore] at hid
      cases hid
  · rintro done item m m' - ⟨hm, hsnapshots, hfor⟩ hitem
    refine ⟨hitem.sound hm, hitem.snapshots hsnapshots, ?_⟩
    cases hitem with
    | skipped haction =>
        have hnone : storedItems context.plan.organizationId (done ++ [item]) key =
            storedItems context.plan.organizationId done key := by
          rw [storedItems_append]
          simp [storedItems, haction, ImportAction.stores]
        obtain ⟨hkept, hlast, hactive, honly⟩ := hfor
        exact ⟨by rwa [hnone], by rwa [hnone], by rwa [hnone], by rwa [hnone]⟩
    | @kept prior id haction hprior hid =>
        have hstores : item.action.stores = false := by
          cases hitem : item.action <;> rw [hitem] at haction <;> first | rfl | cases haction
        refine hfor.other (by simp [storedItems, hstores]) rfl rfl ?_
        intro v hv _
        have hsame : v.artifactVersionId = id := by simpa using List.find?_some hv
        rw [hsame]
        exact List.mem_filterMap.mpr ⟨prior, mem_of_previousOf hprior, hid⟩
    | unnamed haction hid =>
        exact hfor.other (by simp [storedItems, hid]) rfl rfl (by simp)
    | @stored artifactId entry materialization haction hid hentry hmaterial =>
        by_cases hkey : key = artifactKey context.plan.organizationId (some artifactId)
        · refine hfor.stored hm hsnapshots.links hkey hentry hmaterial ?_
          simp [storedItems, haction, hid, hkey, artifactKey]
        · have hversions := artifactVersions_storedFor context m item artifactId entry
            materialization key
          rw [if_neg fun hnew => hkey hnew.1] at hversions
          refine hfor.other ?_ (Function.update_of_ne hkey _ _) hversions ?_
          · have hne : (context.plan.organizationId, artifactId) ≠ key := fun heq => hkey heq.symm
            simp [storedItems, haction, hid, hne]
          · intro v hv hmem
            have hafter : (storedFor context m item artifactId entry materialization).Sound
                (m.drawn + 3) := sound_storedFor hm
            have hown := List.mem_map_of_mem (f := ArtifactVersion.artifactVersionId)
              (storedVersion_mem context m item artifactId entry materialization)
            rw [Option.mem_some_iff.mp hv] at hown
            exact absurd (hafter.apart hmem hown) hkey

end

/-! ## Searches -/

section

variable {α : Type} {p q : α → Bool} {list : List α} {a : α}

/-- The first element of a kind is the first of a smaller kind that it belongs to. -/
theorem find?_of_imp (h : list.find? q = some a) (ha : p a = true) (himp : ∀ b, p b = true → q b = true) :
    list.find? p = some a := by
  obtain ⟨before, after, rfl, hbefore⟩ := List.find?_eq_some_iff_append.mp h |>.2
  refine List.find?_eq_some_iff_append.mpr ⟨ha, before, after, rfl, fun b hb => ?_⟩
  cases hp : p b with
  | false => rfl
  | true =>
      have hq := hbefore b hb
      rw [himp b hp] at hq
      cases hq

/-- Two searches find the same where the narrower one finds what the wider one does. -/
theorem find?_eq_find? (himp : ∀ b ∈ list, p b = true → q b = true)
    (hfound : ∀ b, list.find? q = some b → p b = true) : list.find? p = list.find? q := by
  cases hq : list.find? q with
  | none =>
      rw [List.find?_eq_none] at hq ⊢
      exact fun b hb hp => hq b hb (himp b hb hp)
  | some b =>
      obtain ⟨before, after, rfl, hbefore⟩ := (List.find?_eq_some_iff_append.mp hq).2
      refine List.find?_eq_some_iff_append.mpr ⟨hfound b hq, before, after, rfl, fun c hc => ?_⟩
      cases hp : p c with
      | false => rfl
      | true =>
          have hqc := hbefore c hc
          rw [himp c (List.mem_append_left _ hc) hp] at hqc
          cases hqc

end

/-- The first version that snapshots keep active. -/
def activeIn (snapshots : List Snapshot) (versions : List ArtifactVersion) : Option ArtifactVersion :=
  versions.find? fun version => version.artifactVersionId ∈ activeVersionIds snapshots

theorem find?_sweepVersions (snapshots : List Snapshot) (versions : List ArtifactVersion) :
    (sweepVersions snapshots versions).find? (·.active) =
      (activeIn snapshots versions).map fun version =>
        { version with active := decide (version.artifactVersionId ∈ activeVersionIds snapshots) } := by
  rw [sweepVersions, List.find?_map]
  rfl

theorem sweepVersions_sweepVersions (first second : List Snapshot)
    (versions : List ArtifactVersion) :
    sweepVersions second (sweepVersions first versions) = sweepVersions second versions := by
  simp [sweepVersions, Function.comp_def]

theorem activeIn_sweepVersions (first second : List Snapshot) (versions : List ArtifactVersion) :
    activeIn second (sweepVersions first versions) = (activeIn second versions).map fun version =>
      { version with active := decide (version.artifactVersionId ∈ activeVersionIds first) } := by
  rw [activeIn, sweepVersions, List.find?_map]
  rfl

theorem lifecycleOf_map (snapshots : List Snapshot) (artifactId : String)
    (version : Option ArtifactVersion) (f : ArtifactVersion → ArtifactVersion) :
    lifecycleOf snapshots artifactId (version.map f) = lifecycleOf snapshots artifactId version := by
  cases version <;> rfl

theorem currentVersion_sweepArtifact (snapshots : List Snapshot) (occurredAt : Int)
    (versions : List ArtifactVersion) (artifact : Artifact) :
    (sweepArtifact snapshots occurredAt versions artifact).currentVersion =
      ((activeIn snapshots versions).map (·.version)).getD artifact.currentVersion := by
  unfold sweepArtifact
  dsimp only
  rw [find?_sweepVersions, Option.map_map]
  rfl

theorem lifecycleStatus_sweepArtifact (snapshots : List Snapshot) (occurredAt : Int)
    (versions : List ArtifactVersion) (artifact : Artifact) :
    (sweepArtifact snapshots occurredAt versions artifact).lifecycleStatus =
      lifecycleOf snapshots artifact.artifactId (activeIn snapshots versions) := by
  unfold sweepArtifact
  dsimp only
  rw [find?_sweepVersions]
  cases activeIn snapshots versions <;> rfl

/-! ## The rollback of an import -/

namespace MemoryGovernanceRepository

variable {platform : Platform} {now later : Int} {state middle next : MemoryGovernanceRepository}
  {command : ImportBatchCommand} {imported : Materializing} {report report' : ImportReport}
  {rollback : RollbackCommand} {repository : Repository} {batch previousBatch : ImportBatch}
  {previousId : Uuid}

/-- The active flag of each version, and what else is read of an artifact, are as before. -/
def Restores (before after : Stored) (key : ArtifactKey) (artifact : Artifact) : Prop :=
  (∀ version ∈ before.artifactVersions key, ∃ other ∈ after.artifactVersions key,
      other.artifactVersionId = version.artifactVersionId ∧ other.active = version.active) ∧
    ∃ restored, after.artifacts key = some restored ∧
      restored.artifactType = artifact.artifactType ∧ restored.title = artifact.title ∧
        restored.lifecycleStatus = artifact.lifecycleStatus ∧
          restored.currentVersion = artifact.currentVersion

/-- The catalog of a repository and every artifact that there was are as before. -/
def Inverted (key : RepositoryKey) (state next : MemoryGovernanceRepository) : Prop :=
  next.listCatalogEntries key = state.listCatalogEntries key ∧
    ∀ other artifact, state.artifacts other = some artifact →
      Restores state.toStored next.toStored other artifact

/-- An artifact is as the catalog lists it, and the items that a plan stores for it give it
neither another type or title nor, where the catalog lists none of its versions, another
current version. -/
structure Reversible (platform : Platform) (command : ImportBatchCommand)
    (snapshots : List Snapshot) (versions : List ArtifactVersion) (key : ArtifactKey)
    (artifact : Artifact) : Prop where
  flags : ∀ version ∈ versions, (version.active = true ↔
    version.artifactVersionId ∈ activeVersionIds snapshots)
  lifecycle : artifact.lifecycleStatus =
    lifecycleOf snapshots artifact.artifactId (activeIn snapshots versions)
  last : StoredLast platform command.discovery.entries
    (storedItems command.plan.organizationId command.plan.items key) artifact
  current : ∀ version ∈ activeIn snapshots versions, version.version = artifact.currentVersion
  unlisted : activeIn snapshots versions = none →
    storedItems command.plan.organizationId command.plan.items key ≠ [] →
      ∃ version, versions.find? (fun version => version.contentDigest ∈
          (storedItems command.plan.organizationId command.plan.items key).map (·.contentDigest)) =
            some version ∧ version.version = artifact.currentVersion

/-- The artifacts before an import, the copies that it leaves, and the artifacts after its
rollback to the snapshots it started from. -/
structure Undone (platform : Platform) (command : ImportBatchCommand) (snapshots : List Snapshot)
    (now later : Int) (before : Stored) (imported : Materializing) (next : Stored) : Prop where
  soundBefore : ∃ drawn, before.Sound drawn
  sound : ∃ drawn, imported.Sound drawn
  grows : before.Grows imported.toStored
  links : before.Links snapshots
  storedFor : ∀ key, ∃ context m, context.plan = command.plan ∧
    context.entries = command.discovery.entries ∧ context.previousSnapshots = snapshots ∧
      m.toStored = before ∧ StoredFor platform context m key command.plan.items imported
  next : next = (imported.toStored.sweep imported.nextSnapshots now).sweep snapshots later

section

variable {snapshots : List Snapshot} {before after : Stored} {key : ArtifactKey}

/-- A version that the previous catalog keeps active was there before the import. -/
theorem Undone.mem_ids (h : Undone platform command snapshots now later before imported after)
    {id : Uuid} (hid : id ∈ imported.ids key) (hactive : id ∈ activeVersionIds snapshots) :
    id ∈ before.ids key := by
  obtain ⟨drawn, hsound⟩ := h.sound
  obtain ⟨snapshot, hsnapshot, hversion⟩ := List.mem_filterMap.mp hactive
  have hlinked := h.links snapshot hsnapshot id hversion
  rw [hsound.apart hid ((h.grows.ids _).subset hlinked)]
  exact hlinked

theorem Undone.activeIn_eq (h : Undone platform command snapshots now later before imported after)
    (key : ArtifactKey) : activeIn snapshots (imported.artifactVersions key) =
      activeIn snapshots (before.artifactVersions key) := by
  obtain ⟨drawn, hsound⟩ := h.sound
  obtain ⟨added, hadded⟩ := h.grows key
  have hnone : activeIn snapshots added = none := by
    rw [activeIn, List.find?_eq_none]
    intro version hversion
    rw [decide_eq_true_eq]
    intro hactive
    have hmem : version.artifactVersionId ∈ imported.ids key := by
      rw [Stored.ids, ← hadded]
      exact List.mem_map_of_mem (List.mem_append_right _ hversion)
    have hnodup := hsound.nodup key
    rw [Stored.ids, ← hadded, List.map_append, List.nodup_append] at hnodup
    exact hnodup.2.2 _ (h.mem_ids hmem hactive) _ (List.mem_map_of_mem hversion) rfl
  rw [activeIn, ← hadded, List.find?_append]
  rw [activeIn] at hnone
  rw [hnone, Option.or_none]
  rfl

/-- Where the previous catalog lists no version of an artifact, the import leaves it its current
version, or gives it the first one that has the content of a stored item. -/
theorem Undone.current_unlisted
    (h : Undone platform command snapshots now later before imported after)
    (hnone : activeIn snapshots (before.artifactVersions key) = none) :
    activeIn imported.nextSnapshots (imported.artifactVersions key) =
      (imported.artifactVersions key).find? fun version => version.contentDigest ∈
        (storedItems command.plan.organizationId command.plan.items key).map (·.contentDigest) := by
  obtain ⟨drawn, hsound⟩ := h.sound
  obtain ⟨context, m, hplan, -, hprevious, -, hfor⟩ := h.storedFor key
  apply find?_eq_find?
  · intro version hversion hactive
    rw [decide_eq_true_eq] at hactive ⊢
    have hmem : version.artifactVersionId ∈ imported.ids key := List.mem_map_of_mem hversion
    rcases hfor.only _ hactive hmem with hold | ⟨item, hitem, found, hfind, hid⟩
    · rw [hprevious] at hold
      obtain ⟨earlier, hearlier, hsame⟩ := List.mem_map.mp (h.mem_ids hmem hold)
      have hnot := List.find?_eq_none.mp hnone earlier hearlier
      rw [decide_eq_true_eq, hsame] at hnot
      exact absurd hold hnot
    · have hsame := List.inj_on_of_nodup_map (hsound.nodup key)
        (List.mem_of_find?_eq_some hfind) hversion hid
      have hdigest : found.contentDigest = item.contentDigest := by
        simpa using List.find?_some hfind
      rw [← hsame, hdigest]
      rw [hplan] at hitem
      exact List.mem_map_of_mem hitem
  · intro version hfind
    have hdigest := List.find?_some hfind
    rw [decide_eq_true_eq] at hdigest ⊢
    obtain ⟨item, hitem, hsame⟩ := List.mem_map.mp hdigest
    obtain ⟨found, hfound, hactive⟩ := hfor.active item (hplan ▸ hitem)
    have hfirst : (imported.artifactVersions key).find? (·.contentDigest = item.contentDigest) =
        some version := by
      refine find?_of_imp hfind (by simp [hsame]) fun other hother => ?_
      rw [decide_eq_true_eq] at hother ⊢
      rw [hother]
      exact List.mem_map_of_mem hitem
    rw [hfound, Option.some.injEq] at hfirst
    rw [← hfirst]
    exact hactive

theorem Undone.versions (h : Undone platform command snapshots now later before imported after)
    (key : ArtifactKey) :
    after.artifactVersions key = sweepVersions snapshots (imported.artifactVersions key) := by
  rw [h.next]
  exact sweepVersions_sweepVersions _ _ _

/-- An artifact that was there is there while the plan is imported. -/
theorem Undone.exists_imported
    (h : Undone platform command snapshots now later before imported after) {artifact : Artifact}
    (hartifact : before.artifacts key = some artifact) :
    ∃ changed, imported.artifacts key = some changed ∧ changed.artifactId = artifact.artifactId := by
  obtain ⟨drawn, hbefore⟩ := h.soundBefore
  obtain ⟨drawn', hsound⟩ := h.sound
  have hversions := (hbefore.present key).mp (by rw [hartifact]; rfl)
  have hne : imported.artifactVersions key ≠ [] := by
    intro hnil
    have hextends := h.grows key
    rw [hnil] at hextends
    exact hversions (List.prefix_nil.mp hextends)
  obtain ⟨changed, hchanged⟩ := Option.isSome_iff_exists.mp ((hsound.present key).mpr hne)
  refine ⟨changed, hchanged, ?_⟩
  have hsame := (hsound.named hchanged).trans (hbefore.named hartifact).symm
  exact (Prod.mk.inj hsame).2

/-- The type and the title are those of the last stored item. -/
theorem Undone.last_iff (h : Undone platform command snapshots now later before imported after)
    {artifact changed : Artifact} (hartifact : before.artifacts key = some artifact)
    (hchanged : imported.artifacts key = some changed) :
    (changed.artifactType = artifact.artifactType ∧ changed.title = artifact.title) ↔
      StoredLast platform command.discovery.entries
        (storedItems command.plan.organizationId command.plan.items key) artifact := by
  obtain ⟨context, m, hplan, hentries, -, hm, hfor⟩ := h.storedFor key
  have hlast := hfor.last changed hchanged
  rw [hplan, hentries] at hlast
  cases hitem : (storedItems command.plan.organizationId command.plan.items key).getLast? with
  | none =>
      have hkept := hfor.kept (by rw [hplan]; exact List.getLast?_eq_none_iff.mp hitem)
      rw [hm, hartifact, hchanged, Option.some.injEq] at hkept
      rw [hkept]
      refine iff_of_true ⟨rfl, rfl⟩ fun item hmem => ?_
      rw [hitem] at hmem
      cases hmem
  | some item =>
      obtain ⟨htype, entry, materialization, hentry, hmaterial, htitle⟩ := hlast item hitem
      constructor
      · rintro ⟨hsametype, hsametitle⟩ other hother
        rw [hitem, Option.mem_some_iff] at hother
        subst hother
        exact ⟨hsametype ▸ htype, entry, materialization, hentry, hmaterial,
          htitle.trans hsametitle⟩
      · intro hstored
        obtain ⟨htype', entry', materialization', hentry', hmaterial', htitle'⟩ :=
          hstored item hitem
        rw [hentry, Option.some.injEq] at hentry'
        subst hentry'
        rw [hmaterial, Except.ok.injEq] at hmaterial'
        subst hmaterial'
        exact ⟨htype.trans htype'.symm, htitle.symm.trans htitle'⟩

/-- The current version that the import and its rollback leave an artifact. -/
def currentAfter (snapshots : List Snapshot) (imported : Materializing) (key : ArtifactKey)
    (changed : Artifact) : Nat :=
  ((activeIn snapshots (imported.artifactVersions key)).map (·.version)).getD
    (((activeIn imported.nextSnapshots (imported.artifactVersions key)).map (·.version)).getD
      changed.currentVersion)

theorem Undone.current_iff (h : Undone platform command snapshots now later before imported after)
    {artifact changed : Artifact} (hartifact : before.artifacts key = some artifact)
    (hchanged : imported.artifacts key = some changed) :
    currentAfter snapshots imported key changed = artifact.currentVersion ↔
      (∀ version ∈ activeIn snapshots (before.artifactVersions key),
        version.version = artifact.currentVersion) ∧
      (activeIn snapshots (before.artifactVersions key) = none →
        storedItems command.plan.organizationId command.plan.items key ≠ [] → ∃ version,
          (before.artifactVersions key).find? (fun version => version.contentDigest ∈
            (storedItems command.plan.organizationId command.plan.items key).map
              (·.contentDigest)) = some version ∧ version.version = artifact.currentVersion) := by
  obtain ⟨drawn, hbefore⟩ := h.soundBefore
  obtain ⟨drawn', hsound⟩ := h.sound
  rw [currentAfter, h.activeIn_eq]
  cases hactive : activeIn snapshots (before.artifactVersions key) with
  | some version => simp
  | none =>
      have hcurrent := h.current_unlisted hactive
      rw [Option.map_none, Option.getD_none, hcurrent]
      simp only [Option.not_mem_none, false_imp_iff, implies_true, true_and, true_imp_iff]
      obtain ⟨context, m, hplan, -, -, hm, hfor⟩ := h.storedFor key
      by_cases hstored : storedItems command.plan.organizationId command.plan.items key = []
      · have hkept := hfor.kept (by rw [hplan]; exact hstored)
        rw [hm, hartifact, hchanged, Option.some.injEq] at hkept
        have hno : (imported.artifactVersions key).find? (fun version => version.contentDigest ∈
            (storedItems command.plan.organizationId command.plan.items key).map
              (·.contentDigest)) = none := by
          rw [List.find?_eq_none]
          simp [hstored]
        rw [hno, hkept]
        exact iff_of_true rfl fun hne => absurd hstored hne
      · obtain ⟨item, hitem⟩ := List.exists_mem_of_ne_nil _ hstored
        obtain ⟨found, hfound, -⟩ := hfor.active item (hplan ▸ hitem)
        have hsome : ((imported.artifactVersions key).find? fun version => version.contentDigest ∈
            (storedItems command.plan.organizationId command.plan.items key).map
              (·.contentDigest)).isSome = true := by
          rw [List.find?_isSome]
          refine ⟨found, List.mem_of_find?_eq_some hfound, ?_⟩
          have hdigest : found.contentDigest = item.contentDigest := by
            simpa using List.find?_some hfound
          rw [decide_eq_true_eq, hdigest]
          exact List.mem_map_of_mem hitem
        obtain ⟨first, hfirst⟩ := Option.isSome_iff_exists.mp hsome
        obtain ⟨added, hadded⟩ := h.grows key
        rw [hfirst, Option.map_some, Option.getD_some]
        refine ⟨fun hsame _ => ?_, fun hexists => ?_⟩
        · -- A version that the import added has a number that no earlier version has.
          rw [← hadded, List.find?_append] at hfirst
          rcases Option.or_eq_some_iff.mp hfirst with hold | ⟨-, hnew⟩
          · exact ⟨first, hold, hsame⟩
          · have hnodup : ((imported.artifactVersions key).map (·.version)).Nodup := by
              rw [hsound.numbered]
              exact List.nodup_range'
            rw [← hadded, List.map_append, List.nodup_append] at hnodup
            exact absurd hsame.symm (hnodup.2.2 _ (hbefore.current hartifact) _
              (List.mem_map_of_mem (List.mem_of_find?_eq_some hnew)))
        · obtain ⟨version, hfind, hsame⟩ := hexists hstored
          have hlonger := find?_of_prefix (h.grows key) hfind
          rw [hfirst, Option.some.injEq] at hlonger
          rw [hlonger, hsame]

/-- The rollback restores an artifact exactly when it can be reversed. -/
theorem Undone.restores_iff (h : Undone platform command snapshots now later before imported after)
    {artifact : Artifact} (hartifact : before.artifacts key = some artifact) :
    Restores before after key artifact ↔
      Reversible platform command snapshots (before.artifactVersions key) key artifact := by
  obtain ⟨drawn, hbefore⟩ := h.soundBefore
  obtain ⟨drawn', hsound⟩ := h.sound
  obtain ⟨changed, hchanged, hid⟩ := h.exists_imported hartifact
  have hafter : after.artifacts key = some (sweepArtifact snapshots later
      (sweepVersions imported.nextSnapshots (imported.artifactVersions key))
      (sweepArtifact imported.nextSnapshots now (imported.artifactVersions key) changed)) := by
    rw [h.next, Stored.artifacts_sweep _ _ _ (hsound.sweep _ _), Stored.artifacts_sweep _ _ _ hsound,
      hchanged]
    rfl
  have hflags : (∀ version ∈ before.artifactVersions key, ∃ other ∈ after.artifactVersions key,
      other.artifactVersionId = version.artifactVersionId ∧ other.active = version.active) ↔
        ∀ version ∈ before.artifactVersions key, (version.active = true ↔
          version.artifactVersionId ∈ activeVersionIds snapshots) := by
    rw [h.versions]
    refine forall₂_congr fun version hversion => ⟨?_, fun hflag => ?_⟩
    · rintro ⟨other, hother, hsame, hflag⟩
      obtain ⟨earlier, -, rfl⟩ := List.mem_map.mp hother
      rw [← hflag, ← hsame]
      exact decide_eq_true_iff
    · refine ⟨_, List.mem_map_of_mem ((h.grows key).subset hversion), rfl, ?_⟩
      rw [Bool.eq_iff_iff, hflag]
      exact decide_eq_true_iff
  have hlifecycle : (sweepArtifact snapshots later
      (sweepVersions imported.nextSnapshots (imported.artifactVersions key))
      (sweepArtifact imported.nextSnapshots now (imported.artifactVersions key)
        changed)).lifecycleStatus = lifecycleOf snapshots artifact.artifactId
          (activeIn snapshots (before.artifactVersions key)) := by
    rw [lifecycleStatus_sweepArtifact, activeIn_sweepVersions, lifecycleOf_map, h.activeIn_eq, ← hid]
    rfl
  have hcurrent : (sweepArtifact snapshots later
      (sweepVersions imported.nextSnapshots (imported.artifactVersions key))
      (sweepArtifact imported.nextSnapshots now (imported.artifactVersions key)
        changed)).currentVersion = currentAfter snapshots imported key changed := by
    rw [currentVersion_sweepArtifact, currentVersion_sweepArtifact, activeIn_sweepVersions,
      Option.map_map]
    rfl
  have hrestored : (∃ restored, after.artifacts key = some restored ∧
      restored.artifactType = artifact.artifactType ∧ restored.title = artifact.title ∧
        restored.lifecycleStatus = artifact.lifecycleStatus ∧
          restored.currentVersion = artifact.currentVersion) ↔
      (changed.artifactType = artifact.artifactType ∧ changed.title = artifact.title) ∧
        lifecycleOf snapshots artifact.artifactId
          (activeIn snapshots (before.artifactVersions key)) = artifact.lifecycleStatus ∧
            currentAfter snapshots imported key changed = artifact.currentVersion := by
    rw [hafter, ← hlifecycle, ← hcurrent]
    constructor
    · rintro ⟨_, ⟨⟩, htype, htitle, hstatus, hversion⟩
      exact ⟨⟨htype, htitle⟩, hstatus, hversion⟩
    · rintro ⟨⟨htype, htitle⟩, hstatus, hversion⟩
      exact ⟨_, rfl, htype, htitle, hstatus, hversion⟩
  rw [Restores, hflags, hrestored, h.last_iff hartifact hchanged, h.current_iff hartifact hchanged]
  exact ⟨fun hall => ⟨hall.1, hall.2.2.1.symm, hall.2.1, hall.2.2.2.1, hall.2.2.2.2⟩,
    fun hall => ⟨hall.flags, hall.last, hall.lifecycle.symm, hall.current, hall.unlisted⟩⟩

end

section

variable {activeId : Uuid}

/-- The snapshots that an import starts from are those of the active batch. -/
theorem activeSnapshots_of_activeBatch
    (hactive : state.activeBatch command.repositoryKey = some activeId) :
    state.activeSnapshots (state.repositoryOf command now) = state.catalogSnapshots activeId := by
  have hbatch : state.activeBatch (command.plan.organizationId, command.plan.repositoryId) =
      some activeId := hactive
  rw [activeSnapshots, activeBatchId_repositoryOf, hbatch]
  rfl

/-- The batch of an import, and the one that its rollback goes back to. -/
theorem Imports.rollback_batch
    (h : Imports platform now command state middle imported report) (hhistory : History state)
    (hactive : state.activeBatch command.repositoryKey = some activeId) :
    middle.activeBatch command.repositoryKey = some state.drawn ∧
      middle.importBatches state.drawn = some (state.batchOf command now report) ∧
      (state.batchOf command now report).previousBatchId = some activeId ∧
      ∃ previousBatch, middle.importBatches activeId = some previousBatch ∧
        previousBatch.importBatchId = activeId := by
  obtain ⟨earlier, hearlier, -⟩ := hhistory.current hactive
  refine ⟨?_, ?_, ?_, ?_⟩
  · rw [h.activeBatch]
    exact Function.update_self _ _ _
  · rw [h.importBatches, if_pos rfl]
  · exact (activeBatchId_repositoryOf state command now).trans hactive
  · refine ⟨superseded (state.activeBatch (command.plan.organizationId,
      command.plan.repositoryId)) activeId earlier, ?_, (hhistory.known hearlier).1⟩
    rw [h.importBatches, if_neg (Nat.ne_of_lt (hhistory.known hearlier).2), hearlier]
    rfl

/-- A rollback of the batch that was imported, and what it leaves of the artifacts. -/
theorem Imports.undone (h : Imports platform now command state middle imported report)
    (hhistory : History state) (hholdings : Holdings state)
    (hactive : state.activeBatch command.repositoryKey = some activeId)
    (hrollback : RollsBack later rollback middle next repository batch previousBatch previousId
      report')
    (hbatch : rollback.batchId = state.drawn) :
    Undone platform command (state.catalogSnapshots activeId) now later state.toStored imported
      next.toStored ∧ previousBatch.importBatchId = activeId := by
  obtain ⟨-, hnew, hprevious, earlier, hearlier, hid⟩ := h.rollback_batch hhistory hactive
  have hsamebatch := hrollback.foundBatch
  rw [hbatch, hnew, Option.some.injEq] at hsamebatch
  have hsameid := hrollback.previous
  rw [← hsamebatch, hprevious, Option.some.injEq] at hsameid
  have hsameprevious := hrollback.foundPrevious
  rw [← hsameid, hearlier, Option.some.injEq] at hsameprevious
  have hpreviousid : previousBatch.importBatchId = activeId := hsameprevious ▸ hid
  refine ⟨⟨⟨_, hholdings.sound⟩, ⟨_, h.materialized hholdings⟩, importItems_grows h.items,
    hholdings.links activeId, ?_, ?_⟩, hpreviousid⟩
  · intro key
    refine ⟨state.contextOf command now, state.materializing, rfl, rfl,
      activeSnapshots_of_activeBatch hactive, rfl, ?_⟩
    exact importItems_storedFor h.items (hholdings.sound.mono (Nat.le_add_right _ _)) rfl key
  · obtain ⟨kept, hkept, -⟩ := hhistory.current hactive
    have hsnapshots : middle.catalogSnapshots activeId = state.catalogSnapshots activeId := by
      rw [h.catalogSnapshots, if_neg (Nat.ne_of_lt (hhistory.known hkept).2)]
    have hstored : middle.toStored = imported.toStored.sweep imported.nextSnapshots now := by
      rw [h.next]
      rfl
    rw [hrollback.next, ← hstored, ← hsnapshots, ← hpreviousid]
    rfl

/-- The catalog that a rollback leaves is the one that the import found. -/
theorem Imports.listCatalogEntries_rollback
    (h : Imports platform now command state middle imported report) (hhistory : History state)
    (hactive : state.activeBatch command.repositoryKey = some activeId)
    (hrollback : RollsBack later rollback middle next repository batch previousBatch previousId
      report')
    (hkey : (rollback.organizationId, rollback.repositoryId) = command.repositoryKey)
    (hid : previousBatch.importBatchId = activeId) :
    next.listCatalogEntries command.repositoryKey =
      state.listCatalogEntries command.repositoryKey := by
  obtain ⟨kept, hkept, -⟩ := hhistory.current hactive
  have hafter : next.activeBatch command.repositoryKey = some activeId := by
    rw [hrollback.next, ← hkey, ← hid]
    simp [MemoryGovernanceRepository.activeBatch, storeReceipt, withRollback]
  have hsnapshots : next.catalogSnapshots activeId = state.catalogSnapshots activeId := by
    rw [hrollback.next]
    exact (h.catalogSnapshots activeId).trans (if_neg (Nat.ne_of_lt (hhistory.known hkept).2))
  rw [listCatalogEntries, listCatalogEntries, hafter, hactive, Option.map_some, Option.map_some,
    Option.getD_some, Option.getD_some, hsnapshots]

/-- The rollback of a new batch, under a key that no receipt has, is carried out exactly when
the clock has not gone back behind the import, and its year still has four digits. -/
theorem Imports.rollsBack_iff (h : Imports platform now command state middle imported report)
    (hhistory : History state)
    (hactive : state.activeBatch command.repositoryKey = some activeId)
    (hkey : (rollback.organizationId, rollback.repositoryId) = command.repositoryKey)
    (hbatch : rollback.batchId = state.drawn)
    (hunanswered : middle.receipts (rollback.organizationId, rollback.idempotencyKey) = none) :
    (∃ next repository batch previousBatch previousId report',
      RollsBack later rollback middle next repository batch previousBatch previousId report') ↔
        now ≤ later ∧ isInstant later = true := by
  obtain ⟨hmiddle, hnew, hprevious, earlier, hearlier, -⟩ := h.rollback_batch hhistory hactive
  have hvalid := valid_of_prepare h.accepted
  have hstarted : report.startedAt = now := by rw [eq_of_buildImportReport h.reported]
  have hinstant := ((buildImportReport_eq_ok_iff hvalid).mp h.reported).1.1
  constructor
  · rintro ⟨_, _, batch, _, _, _, hrollback⟩
    have hsame := hrollback.foundBatch
    rw [hbatch, hnew, Option.some.injEq] at hsame
    have hreported := hrollback.reported
    rw [← hsame] at hreported
    have htimes := ((buildImportReport_eq_ok_iff hvalid).mp hreported).1
    rw [batchOf, hstarted] at htimes
    exact ⟨htimes.2.2, htimes.2.1⟩
  · rintro ⟨horder, hlater⟩
    obtain ⟨repository, hrepository, hcurrent⟩ := Option.bind_eq_some_iff.mp hmiddle
    have hreported : ∃ report', buildImportReport state.drawn command.plan .rolledBack
        report.startedAt later false = .ok report' := by
      rw [hstarted]
      exact ⟨_, (buildImportReport_eq_ok_iff hvalid).mpr ⟨⟨hinstant, hlater, horder⟩, rfl⟩⟩
    obtain ⟨report', hreport⟩ := hreported
    exact ⟨_, repository, _, earlier, activeId, report', hunanswered, hkey ▸ hrepository,
      hbatch ▸ hnew, hbatch ▸ hcurrent, hprevious, hearlier, hreport, rfl⟩

end

/-- The rollback of a new batch inverts its import exactly when the clock lets it be carried out
and every artifact that there was can be reversed. -/
theorem rollback_inverts_iff {activeId : Uuid}
    (hreach : Reachable platform state)
    (hactive : state.activeBatch command.repositoryKey = some activeId)
    (hunanswered : state.receipts (command.plan.organizationId, command.idempotencyKey) = none)
    (hnew : state.batchKeys (command.plan.organizationId, command.plan.batchKey) = none)
    (himport : state.applyImportBatch platform command now = .ok (.report report, middle))
    (hkey : (rollback.organizationId, rollback.repositoryId) = command.repositoryKey)
    (hbatch : rollback.batchId = report.batchId)
    (hfresh : middle.receipts (rollback.organizationId, rollback.idempotencyKey) = none) :
    (∃ result next, middle.rollbackImportBatch rollback later = .ok (result, next) ∧
      Inverted command.repositoryKey state next) ↔
        (now ≤ later ∧ isInstant later = true) ∧ ∀ other artifact,
          state.artifacts other = some artifact →
            Reversible platform command (state.catalogSnapshots activeId)
              (state.artifactVersions other) other artifact := by
  have himports : ∃ imported, Imports platform now command state middle imported report := by
    rcases applyImportBatch_eq_ok_iff.mp himport with ⟨-, ⟨receipt, hreceipt, -⟩, -⟩ |
      ⟨id, other, h, -⟩ | ⟨imported, other, h, hreport⟩
    · rw [hunanswered] at hreceipt
      cases hreceipt
    · have hknown := h.known
      rw [hnew] at hknown
      cases hknown
    · cases hreport
      exact ⟨imported, h⟩
  obtain ⟨imported, h⟩ := himports
  have hdrawn : rollback.batchId = state.drawn := hbatch.trans h.report_eq.1
  have hhistory := hreach.history
  have hholdings := hreach.holdings
  have hinverted : ∀ {next repository batch previousBatch previousId report'},
      RollsBack later rollback middle next repository batch previousBatch previousId report' →
        (Inverted command.repositoryKey state next ↔ ∀ other artifact,
          state.artifacts other = some artifact →
            Reversible platform command (state.catalogSnapshots activeId)
              (state.artifactVersions other) other artifact) := by
    intro next repository batch previousBatch previousId report' hrollback
    obtain ⟨hundone, hid⟩ := h.undone hhistory hholdings hactive hrollback hdrawn
    have hcatalog := h.listCatalogEntries_rollback hhistory hactive hrollback hkey hid
    rw [Inverted, and_iff_right hcatalog]
    exact forall₂_congr fun other artifact => imp_congr_right fun hartifact =>
      hundone.restores_iff hartifact
  rw [← h.rollsBack_iff hhistory hactive hkey hdrawn hfresh]
  constructor
  · rintro ⟨result, next, hexecute, hrestored⟩
    rcases rollbackImportBatch_eq_ok_iff.mp hexecute with ⟨⟨receipt, hreceipt, -⟩, -⟩ |
      ⟨repository, batch, previousBatch, previousId, report', hrollback, -⟩
    · rw [hfresh] at hreceipt
      cases hreceipt
    · exact ⟨⟨next, repository, batch, previousBatch, previousId, report', hrollback⟩,
        (hinverted hrollback).mp hrestored⟩
  · rintro ⟨⟨next, repository, batch, previousBatch, previousId, report', hrollback⟩, hreversible⟩
    exact ⟨_, next, rollbackImportBatch_eq_ok_iff.mpr (.inr ⟨repository, batch, previousBatch,
      previousId, report', hrollback, rfl⟩), (hinverted hrollback).mpr hreversible⟩

/-! ## A policy under another title -/

/-- The policy with another heading. -/
def retitledEntry : DiscoveryEntry :=
  { policyEntry with
    rawContent := "# B"
    normalizedContent := "# B"
    contentDigest := "sha256:216f4c6ac9ef17add951aa097934202649a6c6ea5f29263b00c59772ea6cff61"
    classification :=
      { policyEntry.classification with structuredContent := markdownStructure "# B" } }

def retitledImport : ImportBatchCommand :=
  importOf acme (discoveryOf secondCommit [retitledEntry])
    ⟨"sha256:a71bde5544b5f457018fddf005c5e9baff6bf64284713c3b10fe03df21fe4bdf", Eq.refl true⟩
    ⟨"sha256:bcb06cd09170f9b0890dc2653d5efb75f8223f9dfc88e5e14cfe78f9f2573b4b", Eq.refl true⟩
    [toPlanItem retitledEntry .version retitledEntry.classification.artifactId none []]
    ⟨"retitled", Eq.refl true⟩

def retitledRollback : RollbackCommand where
  organizationId := acme
  repositoryId := acmeRepository
  batchId := 6
  actor := operator
  idempotencyKey := ⟨"rollback", Eq.refl true⟩

/-- One organization with a policy. -/
def onePolicy : MemoryGovernanceRepository :=
  after plainPlatform [(0, organizationOf acme), (1, .applyImportBatch policyImport)]

/-- The title that a state has for the policy. -/
def policyTitle (state : MemoryGovernanceRepository) : Option String :=
  (state.artifacts policyKey).map (·.title)

/-- A rollback that does not throw leaves the second title. -/
def showsRetitled (answer : Result (CommandResult × MemoryGovernanceRepository)) : Bool :=
  match answer with
  | .ok (_, next) => policyTitle onePolicy = some "A" && policyTitle next = some "B"
  | .error _ => true

/-- The import of the second title is reported, and its rollback leaves that title. -/
def importsRetitled (answer : Result (CommandResult × MemoryGovernanceRepository)) : Bool :=
  match answer with
  | .ok (.report report, middle) =>
      retitledRollback.batchId = report.batchId &&
        (middle.receipts (retitledRollback.organizationId,
          retitledRollback.idempotencyKey)).isNone &&
        showsRetitled (middle.rollbackImportBatch retitledRollback 3)
  | _ => false

theorem importsRetitled_eq_true {answer : Result (CommandResult × MemoryGovernanceRepository)}
    (h : importsRetitled answer = true) : ∃ report middle, answer = .ok (.report report, middle) ∧
      retitledRollback.batchId = report.batchId ∧
      middle.receipts (retitledRollback.organizationId, retitledRollback.idempotencyKey) = none ∧
      ∀ result next, middle.rollbackImportBatch retitledRollback 3 = .ok (result, next) →
        policyTitle onePolicy = some "A" ∧ policyTitle next = some "B" := by
  unfold importsRetitled at h
  split at h
  next report middle =>
    rw [Bool.and_eq_true, Bool.and_eq_true, decide_eq_true_eq, Option.isNone_iff_eq_none] at h
    obtain ⟨⟨hbatch, hfresh⟩, hshows⟩ := h
    refine ⟨report, middle, rfl, hbatch, hfresh, ?_⟩
    intro result next hrollback
    rw [hrollback, showsRetitled, Bool.and_eq_true, decide_eq_true_eq, decide_eq_true_eq] at hshows
    exact hshows
  next => cases h

/-- The policy keeps the title of the version that was rolled back. -/
theorem retitledRollback_keeps_title : ∃ activeId report middle,
    onePolicy.activeBatch retitledImport.repositoryKey = some activeId ∧
      onePolicy.receipts (retitledImport.plan.organizationId, retitledImport.idempotencyKey) =
        none ∧
      onePolicy.batchKeys (retitledImport.plan.organizationId, retitledImport.plan.batchKey) =
        none ∧
      onePolicy.applyImportBatch plainPlatform retitledImport 2 = .ok (.report report, middle) ∧
      retitledRollback.batchId = report.batchId ∧
      middle.receipts (retitledRollback.organizationId, retitledRollback.idempotencyKey) = none ∧
      ∀ result next, middle.rollbackImportBatch retitledRollback 3 = .ok (result, next) →
        policyTitle onePolicy = some "A" ∧ policyTitle next = some "B" := by
  have hrun : (onePolicy.activeBatch retitledImport.repositoryKey = some 1 &&
      (onePolicy.receipts (retitledImport.plan.organizationId,
        retitledImport.idempotencyKey)).isNone &&
      (onePolicy.batchKeys (retitledImport.plan.organizationId,
        retitledImport.plan.batchKey)).isNone &&
      importsRetitled (onePolicy.applyImportBatch plainPlatform retitledImport 2)) = true := by
    decide +kernel
  simp only [Bool.and_eq_true, decide_eq_true_eq, Option.isNone_iff_eq_none] at hrun
  obtain ⟨⟨⟨hactive, hunanswered⟩, hnew⟩, hrun⟩ := hrun
  obtain ⟨report, middle, himport, hrolledBack⟩ := importsRetitled_eq_true hrun
  exact ⟨1, report, middle, hactive, hunanswered, hnew, himport, hrolledBack⟩

/-- A state in which the policy has another title does not restore it. -/
theorem not_inverted_of_policyTitle {key : RepositoryKey}
    (hbefore : policyTitle state = some "A") (hafter : policyTitle next = some "B") :
    ¬ Inverted key state next := by
  rintro ⟨-, hrestores⟩
  obtain ⟨artifact, hartifact, htitle⟩ := Option.map_eq_some_iff.mp hbefore
  obtain ⟨-, restored, hrestored, -, hsame, -⟩ := hrestores policyKey artifact hartifact
  rw [policyTitle, hrestored, Option.map_some, Option.some.injEq, hsame, htitle] at hafter
  exact absurd hafter (by decide)

/-- The import that gives the policy another title is not one that a rollback inverts. -/
theorem retitledImport_not_reversible : ∃ activeId,
    onePolicy.activeBatch retitledImport.repositoryKey = some activeId ∧
      ¬ ∀ other artifact, onePolicy.artifacts other = some artifact →
        Reversible plainPlatform retitledImport (onePolicy.catalogSnapshots activeId)
          (onePolicy.artifactVersions other) other artifact := by
  obtain ⟨activeId, report, middle, hactive, hunanswered, hnew, himport, hbatch, hfresh, htitles⟩ :=
    retitledRollback_keeps_title
  refine ⟨activeId, hactive, fun hreversible => ?_⟩
  have hreach : Reachable plainPlatform onePolicy := reachable_after _ _
  have hclock : (2 : Int) ≤ 3 ∧ isInstant 3 = true := by decide
  obtain ⟨result, next, hrollback, hinverted⟩ := (rollback_inverts_iff hreach hactive hunanswered
    hnew himport rfl hbatch hfresh).mpr ⟨hclock, hreversible⟩
  have htitle := htitles result next hrollback
  exact not_inverted_of_policyTitle htitle.1 htitle.2 hinverted

/-- A rollback does not restore the title of an artifact. -/
theorem rollback_keeps_imported_title :
    ¬ ∀ (platform : Platform) (now later : Int) (state middle : MemoryGovernanceRepository)
      (command : ImportBatchCommand) (rollback : RollbackCommand) (report : ImportReport)
      (activeId : Uuid), Reachable platform state →
        state.activeBatch command.repositoryKey = some activeId →
        state.receipts (command.plan.organizationId, command.idempotencyKey) = none →
        state.batchKeys (command.plan.organizationId, command.plan.batchKey) = none →
        state.applyImportBatch platform command now = .ok (.report report, middle) →
        (rollback.organizationId, rollback.repositoryId) = command.repositoryKey →
        rollback.batchId = report.batchId →
        middle.receipts (rollback.organizationId, rollback.idempotencyKey) = none →
        now ≤ later → isInstant later = true →
          ∃ result next, middle.rollbackImportBatch rollback later = .ok (result, next) ∧
            Inverted command.repositoryKey state next := by
  intro hinverts
  obtain ⟨activeId, report, middle, hactive, hunanswered, hnew, himport, hbatch, hfresh, htitles⟩ :=
    retitledRollback_keeps_title
  have hreach : Reachable plainPlatform onePolicy := reachable_after _ _
  obtain ⟨result, next, hrollback, hinverted⟩ := hinverts plainPlatform 2 3 onePolicy middle
    retitledImport retitledRollback report activeId hreach hactive hunanswered hnew himport rfl
    hbatch hfresh (by decide) (by decide)
  have htitle := htitles result next hrollback
  exact not_inverted_of_policyTitle htitle.1 htitle.2 hinverted

end MemoryGovernanceRepository

end Hseos.ControlPlane
