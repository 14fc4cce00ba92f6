import Hseos.ControlPlane.MemoryRepository

/-! # Importing the items of a plan

What each item of a plan can do to the stored artifacts, and what the stored
artifacts satisfy while a plan is imported and after the sweep that ends it.
-/

namespace Hseos.ControlPlane

/-- The items whose content is stored as a version, when they have an artifact. -/
def ImportAction.stores : ImportAction → Bool
  | create => true
  | version => true
  | review => true
  | _ => false

/-- The items that go back to a version of the active catalog. -/
def ImportAction.keeps : ImportAction → Bool
  | noop => true
  | rename => true
  | _ => false

/-- The version that an item's content has or gets. -/
def storedVersion (context : ImportContext) (before : Materializing) (item : ImportPlanItem)
    (artifactId : String) (entry : DiscoveryEntry) (materialization : Materialization) :
    ArtifactVersion :=
  let versions := before.artifactVersions (artifactKey context.plan.organizationId (some artifactId))
  (versions.find? (·.contentDigest = item.contentDigest)).getD
    (context.newVersion item artifactId entry materialization before.drawn versions.length)

/-- The stored artifacts once an item's content is stored. -/
def storedFor (context : ImportContext) (before : Materializing) (item : ImportPlanItem)
    (artifactId : String) (entry : DiscoveryEntry) (materialization : Materialization) : Stored :=
  let key := artifactKey context.plan.organizationId (some artifactId)
  let version := storedVersion context before item artifactId entry materialization
  { artifacts := Function.update before.artifacts key (some (context.artifact item artifactId
      materialization (before.artifacts key) (before.drawn + 1) version))
    artifactVersions :=
      if ((before.artifactVersions key).find? (·.contentDigest = item.contentDigest)).isSome then
        before.artifactVersions
      else Function.update before.artifactVersions key (before.artifactVersions key ++ [version]) }

/-- What one item can do. -/
inductive ItemStep (platform : Platform) (context : ImportContext) (before : Materializing)
    (item : ImportPlanItem) : Materializing → Prop where
  | skipped (haction : item.action = .deactivate) : ItemStep platform context before item before
  | kept {prior : Snapshot} {id : Uuid} (haction : item.action.keeps = true)
      (hprior : previousOf context.previousSnapshots item = some prior)
      (hid : prior.artifactVersionId = some id) :
      ItemStep platform context before item (before.record context item before.toStored
        ((before.artifactVersions (artifactKey context.plan.organizationId item.artifactId)).find?
          (·.artifactVersionId = id)))
  | unnamed (haction : item.action.stores = true) (hid : item.artifactId = none) :
      ItemStep platform context before item (before.record context item before.toStored none)
  | stored {artifactId : String} {entry : DiscoveryEntry} {materialization : Materialization}
      (haction : item.action.stores = true) (hid : item.artifactId = some artifactId)
      (hentry : context.entries.find? (·.sourcePath = item.sourcePath) = some entry)
      (hmaterial : artifactMaterialization platform entry = .ok materialization) :
      ItemStep platform context before item (before.record context item
        (storedFor context before item artifactId entry materialization)
        (some (storedVersion context before item artifactId entry materialization)))

section

variable {platform : Platform} {context : ImportContext} {before after : Materializing}
  {item : ImportPlanItem}

theorem importItem_of_keeps (h : item.action.keeps = true) :
    importItem platform context before item = keepItem context before item := by
  unfold importItem
  split <;> simp_all [ImportAction.keeps]

theorem importItem_of_stores (h : item.action.stores = true) :
    importItem platform context before item = storeItem platform context before item := by
  unfold importItem
  split <;> simp_all [ImportAction.stores]

theorem materializeItem_eq_ok_iff {artifactId : String} {stored : Stored} {version : ArtifactVersion} :
    materializeItem platform context item artifactId before = .ok (stored, version) ↔
      ∃ entry materialization,
        context.entries.find? (·.sourcePath = item.sourcePath) = some entry ∧
          artifactMaterialization platform entry = .ok materialization ∧
          stored = storedFor context before item artifactId entry materialization ∧
          version = storedVersion context before item artifactId entry materialization := by
  unfold materializeItem
  constructor
  · intro h
    cases hentry : context.entries.find? (·.sourcePath = item.sourcePath) with
    | none =>
        simp only [hentry] at h
        cases h
    | some entry =>
        simp only [hentry] at h
        obtain ⟨materialization, hmaterial, h⟩ := bind_eq_ok_iff.mp h
        rw [pure_eq_ok_iff, Prod.mk.injEq] at h
        exact ⟨entry, materialization, rfl, hmaterial, h.1.symm, h.2.symm⟩
  · rintro ⟨entry, materialization, hentry, hmaterial, rfl, rfl⟩
    simp only [hentry, hmaterial]
    rfl

theorem importItem_eq_ok_iff :
    importItem platform context before item = .ok after ↔
      ItemStep platform context before item after := by
  have hkind : item.action = .deactivate ∨ item.action.keeps = true ∨
      item.action.stores = true := by
    cases item.action <;> simp [ImportAction.keeps, ImportAction.stores]
  constructor
  · intro h
    rcases hkind with haction | haction | haction
    · simp only [importItem, haction, Except.ok.injEq] at h
      exact h ▸ .skipped haction
    · rw [importItem_of_keeps haction, keepItem] at h
      cases hprior : previousOf context.previousSnapshots item with
      | none => simp [hprior] at h
      | some prior =>
          cases hid : prior.artifactVersionId with
          | none => simp [hprior, hid] at h
          | some id =>
              simp only [hprior, Option.bind_some, hid, Except.ok.injEq] at h
              exact h ▸ .kept haction hprior hid
    · rw [importItem_of_stores haction, storeItem] at h
      cases hid : item.artifactId with
      | none =>
          simp only [hid, Except.ok.injEq] at h
          exact h ▸ .unnamed haction hid
      | some artifactId =>
          simp only [hid] at h
          obtain ⟨⟨stored, version⟩, hmaterialize, h⟩ := bind_eq_ok_iff.mp h
          obtain ⟨entry, materialization, hentry, hmaterial, rfl, rfl⟩ :=
            materializeItem_eq_ok_iff.mp hmaterialize
          rw [← pure_eq_ok_iff.mp h]
          exact .stored haction hid hentry hmaterial
  · intro h
    cases h with
    | skipped haction => simp only [importItem, haction]
    | kept haction hprior hid =>
        simp only [importItem_of_keeps haction, keepItem, hprior, Option.bind_some, hid]
    | unnamed haction hid => simp only [importItem_of_stores haction, storeItem, hid]
    | stored haction hid hentry hmaterial =>
        rw [importItem_of_stores haction, storeItem, hid]
        simp only [materializeItem_eq_ok_iff.mpr ⟨_, _, hentry, hmaterial, rfl, rfl⟩]
        rfl

/-- What holds before the first item and is kept by every item holds after the last one. -/
theorem importItems_induction {motive : List ImportPlanItem → Materializing → Prop}
    {items : List ImportPlanItem} (h : importItems platform context items before = .ok after)
    (hbefore : motive [] before)
    (hstep : ∀ done item m m', done ++ [item] <+: items → motive done m →
      ItemStep platform context m item m' → motive (done ++ [item]) m') : motive items after := by
  suffices haux : ∀ (rest done : List ImportPlanItem) (m : Materializing), done ++ rest = items →
      motive done m → importItems platform context rest m = .ok after → motive items after from
    haux items [] before rfl hbefore h
  intro rest
  induction rest with
  | nil =>
      intro done m hitems hm hrest
      rw [importItems, Except.ok.injEq] at hrest
      rw [← hitems, List.append_nil, ← hrest]
      exact hm
  | cons item rest ih =>
      intro done m hitems hm hrest
      rw [importItems] at hrest
      obtain ⟨m', hitem, hrest⟩ := bind_eq_ok_iff.mp hrest
      have hsplit : done ++ [item] ++ rest = items := by
        rw [List.append_assoc, List.singleton_append, hitems]
      exact ih (done ++ [item]) m' hsplit
        (hstep done item m m' ⟨rest, hsplit⟩ hm (importItem_eq_ok_iff.mp hitem)) hrest

end

theorem mem_of_previousOf {snapshots : List Snapshot} {item : ImportPlanItem} {prior : Snapshot}
    (h : previousOf snapshots item = some prior) : prior ∈ snapshots := by
  have hat : ∀ {sourcePath : String}, snapshotAt snapshots sourcePath = some prior →
      prior ∈ snapshots :=
    fun hfind => List.mem_reverse.mp (List.mem_of_find?_eq_some hfind)
  rw [previousOf, Option.or_eq_some_iff, Option.or_eq_some_iff] at h
  rcases h with h | ⟨-, h | ⟨-, h⟩⟩
  · exact hat h
  · obtain ⟨sourcePath, -, h⟩ := Option.bind_eq_some_iff.mp h
    exact hat h
  · exact List.mem_of_find?_eq_some h

/-! ## What is stored -/

/-- The identifiers of an artifact's versions. -/
def Stored.ids (stored : Stored) (key : ArtifactKey) : List Uuid :=
  (stored.artifactVersions key).map (·.artifactVersionId)

/-- The stored artifacts, with every identifier drawn so far below a number. -/
structure Stored.Sound (stored : Stored) (drawn : Nat) : Prop where
  below : ∀ {key id}, id ∈ stored.ids key → id < drawn
  apart : ∀ {key other id}, id ∈ stored.ids key → id ∈ stored.ids other → key = other
  nodup : ∀ key, (stored.ids key).Nodup
  numbered : ∀ key, (stored.artifactVersions key).map (·.version) =
    List.range' 1 (stored.artifactVersions key).length
  present : ∀ key, (stored.artifacts key).isSome = true ↔ stored.artifactVersions key ≠ []
  named : ∀ {key artifact}, stored.artifacts key = some artifact →
    (artifact.organizationId, artifact.artifactId) = key
  current : ∀ {key artifact}, stored.artifacts key = some artifact →
    artifact.currentVersion ∈ (stored.artifactVersions key).map (·.version)

/-- Every version is kept where it is, and others may follow. -/
def Stored.Grows (stored next : Stored) : Prop :=
  ∀ key, stored.artifactVersions key <+: next.artifactVersions key

theorem Stored.Grows.ids {stored next : Stored} (h : stored.Grows next) (key : ArtifactKey) :
    stored.ids key <+: next.ids key :=
  (h key).map _

/-- The snapshots' versions are versions of the snapshots' artifacts. -/
def Stored.Links (stored : Stored) (snapshots : List Snapshot) : Prop :=
  ∀ snapshot ∈ snapshots, ∀ id ∈ snapshot.artifactVersionId,
    id ∈ stored.ids (artifactKey snapshot.organizationId snapshot.artifactId)

theorem Stored.Links.mono {stored next : Stored} {snapshots : List Snapshot}
    (h : stored.Links snapshots) (hids : ∀ key, stored.ids key ⊆ next.ids key) :
    next.Links snapshots :=
  fun snapshot hmem id hid => hids _ (h snapshot hmem id hid)

theorem Stored.sound_empty : Stored.Sound ⟨fun _ => none, fun _ => []⟩ 0 where
  below h := absurd h List.not_mem_nil
  apart h := absurd h List.not_mem_nil
  nodup _ := List.nodup_nil
  numbered _ := rfl
  present _ := by simp
  named h := by cases h
  current h := by cases h

theorem Stored.Sound.mono {stored : Stored} {drawn drawn' : Nat} (h : stored.Sound drawn)
    (hle : drawn ≤ drawn') : stored.Sound drawn' :=
  { h with below := fun hid => Nat.lt_of_lt_of_le (h.below hid) hle }

section

variable {platform : Platform} {context : ImportContext} {before after : Materializing}
  {item : ImportPlanItem} {artifactId : String} {entry : DiscoveryEntry}
  {materialization : Materialization}

theorem artifactVersions_storedFor (context : ImportContext) (before : Materializing)
    (item : ImportPlanItem) (artifactId : String) (entry : DiscoveryEntry)
    (materialization : Materialization) (key : ArtifactKey) :
    (storedFor context before item artifactId entry materialization).artifactVersions key =
      if key = artifactKey context.plan.organizationId (some artifactId) ∧
          (before.artifactVersions key).find? (·.contentDigest = item.contentDigest) = none then
        before.artifactVersions key ++ [context.newVersion item artifactId entry materialization
          before.drawn (before.artifactVersions key).length]
      else before.artifactVersions key := by
  unfold storedFor storedVersion
  dsimp only
  by_cases hkey : key = artifactKey context.plan.organizationId (some artifactId)
  · subst hkey
    cases hfind : (before.artifactVersions
        (artifactKey context.plan.organizationId (some artifactId))).find?
        (·.contentDigest = item.contentDigest) <;> simp
  · split <;> simp [hkey]

theorem storedVersion_mem (context : ImportContext) (before : Materializing) (item : ImportPlanItem)
    (artifactId : String) (entry : DiscoveryEntry) (materialization : Materialization) :
    storedVersion context before item artifactId entry materialization ∈
      (storedFor context before item artifactId entry materialization).artifactVersions
        (artifactKey context.plan.organizationId (some artifactId)) := by
  rw [artifactVersions_storedFor]
  unfold storedVersion
  dsimp only
  cases hfind : (before.artifactVersions
      (artifactKey context.plan.organizationId (some artifactId))).find?
      (·.contentDigest = item.contentDigest) with
  | none => simp
  | some version => simpa using List.mem_of_find?_eq_some hfind

theorem grows_storedFor : before.toStored.Grows
    (storedFor context before item artifactId entry materialization) := by
  intro key
  rw [artifactVersions_storedFor]
  split
  · exact List.prefix_append _ _
  · exact List.prefix_rfl

theorem ItemStep.grows (h : ItemStep platform context before item after) :
    before.toStored.Grows after.toStored := by
  cases h with
  | stored => exact grows_storedFor
  | _ => exact fun _ => List.prefix_rfl

theorem sound_storedFor (h : before.Sound before.drawn) :
    (storedFor context before item artifactId entry materialization).Sound (before.drawn + 3) := by
  have hversions := artifactVersions_storedFor context before item artifactId entry materialization
  have hids : ∀ key id, id ∈ (storedFor context before item artifactId entry materialization).ids key →
      id ∈ before.ids key ∨ id = before.drawn ∧
        key = artifactKey context.plan.organizationId (some artifactId) := by
    intro key id hid
    rw [Stored.ids, hversions] at hid
    split at hid
    next hnew =>
      rw [List.map_append, List.mem_append] at hid
      exact hid.imp_right fun hlast => ⟨List.mem_singleton.mp hlast, hnew.1⟩
    next => exact .inl hid
  refine ⟨?_, ?_, ?_, ?_, ?_, ?_, ?_⟩
  · intro key id hid
    rcases hids key id hid with hold | ⟨rfl, -⟩
    · exact Nat.lt_of_lt_of_le (h.below hold) (Nat.le_add_right _ _)
    · exact Nat.lt_add_of_pos_right (by decide)
  · intro key other id hid hother
    rcases hids key id hid with hold | ⟨rfl, hkey⟩ <;>
      rcases hids other _ hother with hold' | ⟨hid', hkey'⟩
    · exact h.apart hold hold'
    · exact absurd (hid' ▸ h.below hold) (Nat.lt_irrefl _)
    · exact absurd (h.below hold') (Nat.lt_irrefl _)
    · rw [hkey, hkey']
  · intro key
    rw [Stored.ids, hversions]
    split
    · rw [List.map_append, List.nodup_append]
      refine ⟨h.nodup key, List.nodup_singleton _, ?_⟩
      intro id hid new hnew
      have hlast : new = before.drawn := List.mem_singleton.mp hnew
      exact Nat.ne_of_lt (hlast ▸ h.below hid)
    · exact h.nodup key
  · intro key
    rw [hversions]
    split
    · rw [List.map_append, h.numbered, List.length_append, List.length_singleton,
        List.range'_concat]
      simp [ImportContext.newVersion, Nat.add_comm]
    · exact h.numbered key
  · intro key
    by_cases hkey : key = artifactKey context.plan.organizationId (some artifactId)
    · have hmem := storedVersion_mem context before item artifactId entry materialization
      have hsome : ((storedFor context before item artifactId entry materialization).artifacts
          key).isSome = true := by
        simp [storedFor, hkey]
      exact iff_of_true hsome (List.ne_nil_of_mem (hkey ▸ hmem))
    · rw [hversions, if_neg fun hnew => hkey hnew.1]
      simpa [storedFor, hkey] using h.present key
  · intro key artifact hartifact
    by_cases hkey : key = artifactKey context.plan.organizationId (some artifactId)
    · simp only [storedFor, hkey, Function.update_self, Option.some.injEq] at hartifact
      rw [← hartifact, hkey]
      rfl
    · simp only [storedFor, Function.update_of_ne hkey] at hartifact
      exact h.named hartifact
  · intro key artifact hartifact
    by_cases hkey : key = artifactKey context.plan.organizationId (some artifactId)
    · have hmem := storedVersion_mem context before item artifactId entry materialization
      simp only [storedFor, hkey, Function.update_self, Option.some.injEq] at hartifact
      rw [← hartifact, hkey]
      exact List.mem_map_of_mem hmem
    · simp only [storedFor, Function.update_of_ne hkey] at hartifact
      rw [hversions, if_neg fun hnew => hkey hnew.1]
      exact h.current hartifact

theorem ItemStep.sound (h : ItemStep platform context before item after)
    (hsound : before.Sound before.drawn) : after.Sound after.drawn := by
  cases h with
  | skipped => exact hsound
  | kept => exact hsound.mono (by simp [Materializing.record])
  | unnamed => exact hsound.mono (by simp [Materializing.record])
  | stored => exact sound_storedFor hsound

/-! ## All items of a plan -/

variable {items : List ImportPlanItem}

theorem importItems_sound (h : importItems platform context items before = .ok after)
    (hsound : before.Sound before.drawn) : after.Sound after.drawn := by
  refine importItems_induction (motive := fun _ m => m.Sound m.drawn) h hsound ?_
  intro _ _ _ _ _ hm hitem
  exact hitem.sound hm

theorem importItems_grows (h : importItems platform context items before = .ok after) :
    before.toStored.Grows after.toStored := by
  refine importItems_induction (motive := fun _ m => before.toStored.Grows m.toStored) h
    (fun _ => List.prefix_rfl) ?_
  intro _ _ _ _ _ hm hitem key
  exact (hm key).trans (hitem.grows key)

theorem ItemStep.drawn_le (h : ItemStep platform context before item after) :
    before.drawn ≤ after.drawn := by
  cases h with
  | skipped => exact Nat.le_refl _
  | _ => exact Nat.le_add_right _ _

theorem importItems_drawn_le (h : importItems platform context items before = .ok after) :
    before.drawn ≤ after.drawn := by
  refine importItems_induction (motive := fun _ m => before.drawn ≤ m.drawn) h (Nat.le_refl _) ?_
  intro _ _ _ _ _ hm hitem
  exact Nat.le_trans hm hitem.drawn_le

/-- What a snapshot takes over from an item. -/
structure Listed where
  sourcePath : String
  artifactId : Option String
  artifactType : ArtifactType
  classificationStatus : ClassificationStatus
  contentDigest : String
  deriving DecidableEq

def ImportPlanItem.listed (item : ImportPlanItem) : Listed :=
  ⟨item.sourcePath, item.artifactId, item.artifactType, item.classificationStatus,
    item.contentDigest⟩

def CatalogEntry.listed (entry : CatalogEntry) : Listed :=
  ⟨entry.sourcePath, entry.artifactId, entry.artifactType, entry.classificationStatus,
    entry.contentDigest⟩

/-- The items that leave something in the catalog. -/
def remaining (items : List ImportPlanItem) : List ImportPlanItem :=
  items.filter (·.action ≠ .deactivate)

/-- The snapshots of an import are those of its organization and repository, for the items
other than `deactivate` in their order, and each version is one of its artifact. -/
structure SnapshotsOf (context : ImportContext) (items : List ImportPlanItem) (m : Materializing) :
    Prop where
  listed : m.nextSnapshots.map (fun snapshot => snapshot.entry.listed) =
    (remaining items).map ImportPlanItem.listed
  owned : ∀ snapshot ∈ m.nextSnapshots, snapshot.organizationId = context.plan.organizationId ∧
    snapshot.repositoryId = context.plan.repositoryId
  links : m.toStored.Links m.nextSnapshots

theorem SnapshotsOf.record {m : Materializing} {done : List ImportPlanItem} {stored : Stored}
    {version : Option ArtifactVersion} (h : SnapshotsOf context done m)
    (haction : item.action ≠ .deactivate) (hgrows : m.toStored.Grows stored)
    (hversion : ∀ v ∈ version, v.artifactVersionId ∈
      stored.ids (artifactKey context.plan.organizationId item.artifactId)) :
    SnapshotsOf context (done ++ [item]) (m.record context item stored version) where
  listed := by
    rw [Materializing.record, List.map_append, h.listed, remaining, remaining, List.filter_append,
      List.map_append]
    simp [haction, ImportContext.snapshot, Snapshot.entry, CatalogEntry.listed,
      ImportPlanItem.listed]
  owned := by
    intro snapshot hmem
    rcases List.mem_append.mp hmem with hmem | hmem
    · exact h.owned snapshot hmem
    · rw [List.mem_singleton.mp hmem]
      exact ⟨rfl, rfl⟩
  links := by
    intro snapshot hmem id hid
    rcases List.mem_append.mp hmem with hmem | hmem
    · exact (hgrows.ids _).subset (h.links snapshot hmem id hid)
    · rw [List.mem_singleton.mp hmem] at hid ⊢
      obtain ⟨v, hv, rfl⟩ := Option.mem_map.mp hid
      exact hversion v hv

theorem ItemStep.snapshots {done : List ImportPlanItem} {m m' : Materializing}
    (h : ItemStep platform context m item m') (hm : SnapshotsOf context done m) :
    SnapshotsOf context (done ++ [item]) m' := by
  cases h with
  | skipped haction =>
      refine ⟨?_, hm.owned, hm.links⟩
      rw [hm.listed, remaining, remaining, List.filter_append]
      simp [haction]
  | kept haction hprior hid =>
      refine hm.record (fun hskip => by rw [hskip] at haction; cases haction)
        (fun _ => List.prefix_rfl) ?_
      intro v hv
      exact List.mem_map_of_mem (List.mem_of_find?_eq_some hv)
  | unnamed haction hid =>
      exact hm.record (fun hskip => by rw [hskip] at haction; cases haction)
        (fun _ => List.prefix_rfl) (by simp)
  | @stored artifactId entry materialization haction hid hentry hmaterial =>
      refine hm.record (fun hskip => by rw [hskip] at haction; cases haction) grows_storedFor ?_
      intro v hv
      rw [hid, ← Option.some.inj hv]
      exact List.mem_map_of_mem
        (storedVersion_mem context m item artifactId entry materialization)

theorem snapshotsOf_nil (hbefore : before.nextSnapshots = []) : SnapshotsOf context [] before :=
  ⟨by rw [hbefore]; rfl, by simp [hbefore], by simp [Stored.Links, hbefore]⟩

theorem importItems_snapshots (h : importItems platform context items before = .ok after)
    (hbefore : before.nextSnapshots = []) : SnapshotsOf context items after := by
  refine importItems_induction (motive := SnapshotsOf context) h (snapshotsOf_nil hbefore) ?_
  intro _ _ _ _ _ hm hitem
  exact hitem.snapshots hm

end

section

variable {platform : Platform} {context : ImportContext} {before after : Materializing}
  {items : List ImportPlanItem}

/-- An artifact that no item stores content for is left as it is. -/
theorem importItems_frame (h : importItems platform context items before = .ok after)
    {key : ArtifactKey} (hkey : ∀ item ∈ items, item.action.stores = true →
      ∀ artifactId ∈ item.artifactId, key ≠ (context.plan.organizationId, artifactId)) :
    after.artifactVersions key = before.artifactVersions key ∧
      after.artifacts key = before.artifacts key := by
  refine importItems_induction (motive := fun _ m =>
    m.artifactVersions key = before.artifactVersions key ∧
      m.artifacts key = before.artifacts key) h ⟨rfl, rfl⟩ ?_
  intro done item m m' hdone hm hitem
  cases hitem with
  | skipped => exact hm
  | kept => exact hm
  | unnamed => exact hm
  | @stored artifactId entry materialization haction hid hentry hmaterial =>
      have hmem : item ∈ items := hdone.subset (by simp)
      have hne := hkey item hmem haction artifactId hid
      have hversions := artifactVersions_storedFor context m item artifactId entry materialization
        key
      rw [if_neg fun hnew => hne hnew.1] at hversions
      have hartifacts : (storedFor context m item artifactId entry materialization).artifacts key =
          m.artifacts key := Function.update_of_ne hne _ _
      exact ⟨hversions.trans hm.1, hartifacts.trans hm.2⟩

/-- A snapshot without an artifact has a version only where the prior snapshot had it. -/
theorem importItems_unnamed (h : importItems platform context items before = .ok after)
    (hbefore : before.nextSnapshots = []) :
    ∀ snapshot ∈ after.nextSnapshots, snapshot.artifactId = none →
      ∀ id ∈ snapshot.artifactVersionId, ∃ prior ∈ context.previousSnapshots,
        id ∈ prior.artifactVersionId := by
  refine importItems_induction (motive := fun _ m => ∀ snapshot ∈ m.nextSnapshots,
    snapshot.artifactId = none → ∀ id ∈ snapshot.artifactVersionId,
      ∃ prior ∈ context.previousSnapshots, id ∈ prior.artifactVersionId) h (by simp [hbefore]) ?_
  intro done item m m' _ hm hitem snapshot hmem hunnamed id hid
  cases hitem with
  | skipped => exact hm snapshot hmem hunnamed id hid
  | @kept prior priorId haction hprior hpriorid =>
      rcases List.mem_append.mp hmem with hmem | hmem
      · exact hm snapshot hmem hunnamed id hid
      · rw [List.mem_singleton.mp hmem] at hid
        obtain ⟨version, hversion, rfl⟩ := Option.mem_map.mp hid
        have hsame : version.artifactVersionId = priorId := by
          simpa using List.find?_some hversion
        refine ⟨prior, mem_of_previousOf hprior, ?_⟩
        rw [hsame]
        exact hpriorid
  | unnamed haction hitemid =>
      rcases List.mem_append.mp hmem with hmem | hmem
      · exact hm snapshot hmem hunnamed id hid
      · rw [List.mem_singleton.mp hmem] at hid
        cases hid
  | @stored artifactId entry materialization haction hitemid hentry hmaterial =>
      rcases List.mem_append.mp hmem with hmem | hmem
      · exact hm snapshot hmem hunnamed id hid
      · rw [List.mem_singleton.mp hmem] at hunnamed
        have hnamed := hitemid.symm.trans hunnamed
        cases hnamed

end

/-! ## The sweep -/

section

variable {stored : Stored} {snapshots : List Snapshot} {occurredAt : Int} {drawn : Nat}

/-- No version of the artifact is active. -/
def Stored.Idle (stored : Stored) (key : ArtifactKey) : Prop :=
  ∀ version ∈ stored.artifactVersions key, version.active = false

/-- An artifact is deprecated exactly when none of its versions is active. -/
def Stored.Settled (stored : Stored) : Prop :=
  ∀ key, ∀ artifact ∈ stored.artifacts key,
    artifact.lifecycleStatus = .deprecated ↔ stored.Idle key

@[simp] theorem Stored.ids_sweep (stored : Stored) (snapshots : List Snapshot) (occurredAt : Int)
    (key : ArtifactKey) : (stored.sweep snapshots occurredAt).ids key = stored.ids key := by
  simp [Stored.ids, Stored.sweep, sweepVersions, Function.comp_def]

theorem map_version_sweepVersions (snapshots : List Snapshot) (versions : List ArtifactVersion) :
    (sweepVersions snapshots versions).map (·.version) = versions.map (·.version) := by
  simp [sweepVersions, Function.comp_def]

theorem Stored.artifacts_sweep (stored : Stored) (snapshots : List Snapshot) (occurredAt : Int)
    (hsound : stored.Sound drawn) (key : ArtifactKey) :
    (stored.sweep snapshots occurredAt).artifacts key = (stored.artifacts key).map
      (sweepArtifact snapshots occurredAt (stored.artifactVersions key)) := by
  unfold Stored.sweep
  dsimp only
  split
  next hnil =>
    cases hartifact : stored.artifacts key with
    | none => rfl
    | some artifact =>
        have hpresent := (hsound.present key).mp (by simp [hartifact])
        exact absurd hnil hpresent
  next => rfl

theorem Stored.Sound.sweep (h : stored.Sound drawn) (snapshots : List Snapshot) (occurredAt : Int) :
    (stored.sweep snapshots occurredAt).Sound drawn where
  below hid := h.below (by simpa using hid)
  apart hid hother := h.apart (by simpa using hid) (by simpa using hother)
  nodup key := by simpa using h.nodup key
  numbered key := by
    have hversions : (stored.sweep snapshots occurredAt).artifactVersions key =
        sweepVersions snapshots (stored.artifactVersions key) := rfl
    rw [hversions, map_version_sweepVersions, h.numbered, sweepVersions, List.length_map]
  present key := by
    rw [Stored.artifacts_sweep _ _ _ h, Option.isSome_map, h.present]
    simp [Stored.sweep, sweepVersions]
  named := by
    intro key artifact hartifact
    rw [Stored.artifacts_sweep _ _ _ h] at hartifact
    obtain ⟨earlier, hearlier, rfl⟩ := Option.map_eq_some_iff.mp hartifact
    have hnamed : (earlier.organizationId, earlier.artifactId) = key := h.named hearlier
    exact hnamed
  current := by
    intro key artifact hartifact
    rw [Stored.artifacts_sweep _ _ _ h] at hartifact
    obtain ⟨earlier, hearlier, rfl⟩ := Option.map_eq_some_iff.mp hartifact
    have hversions : (stored.sweep snapshots occurredAt).artifactVersions key =
        sweepVersions snapshots (stored.artifactVersions key) := rfl
    rw [hversions]
    unfold sweepArtifact
    dsimp only
    cases hactive : (sweepVersions snapshots (stored.artifactVersions key)).find? (·.active) with
    | none =>
        rw [map_version_sweepVersions]
        exact h.current hearlier
    | some version => exact List.mem_map_of_mem (List.mem_of_find?_eq_some hactive)

theorem lifecycleOf_eq_deprecated_iff {artifactId : String} {activeVersion : Option ArtifactVersion} :
    lifecycleOf snapshots artifactId activeVersion = .deprecated ↔ activeVersion = none := by
  unfold lifecycleOf
  split
  next hnone => simpa using hnone
  next hsome => split <;> simp_all

theorem Stored.settled_sweep (h : stored.Sound drawn) (snapshots : List Snapshot)
    (occurredAt : Int) : (stored.sweep snapshots occurredAt).Settled := by
  intro key artifact hartifact
  rw [Option.mem_def, Stored.artifacts_sweep _ _ _ h] at hartifact
  obtain ⟨earlier, -, rfl⟩ := Option.map_eq_some_iff.mp hartifact
  have hlifecycle : (sweepArtifact snapshots occurredAt (stored.artifactVersions key)
      earlier).lifecycleStatus = lifecycleOf snapshots earlier.artifactId
        ((sweepVersions snapshots (stored.artifactVersions key)).find? (·.active)) := rfl
  rw [hlifecycle, lifecycleOf_eq_deprecated_iff, List.find?_eq_none]
  simp [Stored.Idle, Stored.sweep]

end

end Hseos.ControlPlane
