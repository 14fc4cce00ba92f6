import Hseos.Policy.Configuration

/-! # Merged configurations

What the value of a key is in terms of the set of its candidates. The order of the entries
is not part of that set, and one more candidate only tightens the restrictive kinds.
-/

namespace Hseos

/-! ## Minima -/

namespace JsDouble

theorem min_eq (a b : JsDouble) : (a.place ≤ b.place ∧ a.min b = a) ∨
    (b.place ≤ a.place ∧ a.min b = b) := by
  unfold min
  split
  next h => exact .inl ⟨h, rfl⟩
  next h => exact .inr ⟨le_of_not_ge h, rfl⟩

theorem place_minimum_le {values : List JsDouble} {value : JsDouble} (h : value ∈ values) :
    (minimum values).place ≤ value.place := by
  induction values with
  | nil => cases h
  | cons first rest ih =>
      change (first.min (minimum rest)).place ≤ value.place
      rcases min_eq first (minimum rest) with ⟨hle, hmin⟩ | ⟨hle, hmin⟩ <;> rw [hmin]
      · rcases List.mem_cons.mp h with rfl | hrest
        · exact le_refl _
        · exact hle.trans (ih hrest)
      · rcases List.mem_cons.mp h with rfl | hrest
        · exact hle
        · exact ih hrest

/-- The minimum of finite numbers is one of them. -/
theorem minimum_mem {values : List JsDouble} (hne : values ≠ [])
    (hfinite : ∀ value ∈ values, value.isFinite = true) : minimum values ∈ values := by
  induction values with
  | nil => exact absurd rfl hne
  | cons first rest ih =>
      change first.min (minimum rest) ∈ first :: rest
      rcases min_eq first (minimum rest) with ⟨-, hmin⟩ | ⟨hle, hmin⟩ <;> rw [hmin]
      · exact List.mem_cons_self
      · rw [List.forall_mem_cons] at hfinite
        cases rest with
        | nil =>
            -- no finite number has infinity before it
            exfalso
            have hfirst := hfinite.1
            cases first with
            | nan => cases hfirst
            | infinity => cases hfirst
            | finite negative units =>
                cases negative <;> simp [minimum, place, Prod.Lex.toLex_le_toLex] at hle
        | cons second others => exact List.mem_cons_of_mem _ (ih (by simp) hfinite.2)

end JsDouble

namespace Policy

/-! ## Accepted entries -/

/-- What an entry normalizes to, wherever it stands. -/
def entryOf? (entry : DataValue) : Option ConfigurationEntry := (normalizeEntry entry 0).toOption

theorem requireKey_eq_ok_iff {entry : DataValue} {key : String} :
    requireKey entry = .ok key ↔ configurationKey? entry = some key := by
  cases h : configurationKey? entry <;> simp [requireKey, h]

/-- The index of an entry shows in the errors only. -/
theorem normalizeEntry_index (raw : DataValue) (index other : Nat) {entry : ConfigurationEntry} :
    normalizeEntry raw index = .ok entry ↔ normalizeEntry raw other = .ok entry := by
  simp only [normalizeEntry, bind_eq_ok_iff, reject_eq_ok_iff, requireKey_eq_ok_iff]

theorem normalizeEntry_eq_ok_iff {raw : DataValue} {index : Nat} {entry : ConfigurationEntry} :
    normalizeEntry raw index = .ok entry ↔ entryOf? raw = some entry := by
  rw [normalizeEntry_index raw index 0, entryOf?]
  generalize normalizeEntry raw 0 = result
  cases result <;> simp [Except.toOption]

section

variable {raws others : List DataValue} {entries : List ConfigurationEntry}

/-- Entries are accepted when each is valid and no source defines a key twice. -/
theorem acceptEntries_eq_ok_iff : acceptEntries raws = .ok entries ↔
    (∀ raw ∈ raws, (entryOf? raw).isSome) ∧
      (entries.map ConfigurationEntry.identity).Nodup ∧ raws.filterMap entryOf? = entries :=
  mapDistinct_eq_ok_iff fun _ _ _ => normalizeEntry_eq_ok_iff

/-- Entries in another order are accepted alike. -/
theorem acceptEntries_of_perm (hperm : others.Perm raws) (h : acceptEntries raws = .ok entries) :
    ∃ sorted, acceptEntries others = .ok sorted ∧ sorted.Perm entries :=
  mapDistinct_of_perm (fun _ _ _ => normalizeEntry_eq_ok_iff) hperm h

/-- What is left when an entry is taken away is accepted as it was. -/
theorem acceptEntries_of_cons {raw : DataValue} (h : acceptEntries (raw :: raws) = .ok entries) :
    ∃ entry rest, entryOf? raw = some entry ∧ acceptEntries raws = .ok rest ∧
      entries = entry :: rest :=
  mapDistinct_of_cons (f := normalizeEntry) (fun _ _ _ => normalizeEntry_eq_ok_iff) h

end

/-! ## Candidates -/

instance : Std.Total byPrecedence := ⟨fun a b => le_total b.source.rank a.source.rank⟩

instance : IsTrans ConfigurationEntry byPrecedence := ⟨fun _ _ _ hab hbc => hbc.trans hab⟩

section

variable {entries others : List ConfigurationEntry} {entry : ConfigurationEntry} {key : String}

theorem mem_candidatesOf :
    entry ∈ candidatesOf entries key ↔ entry ∈ entries ∧ entry.key = key := by
  simp [candidatesOf]

/-- The first candidate has the highest precedence. -/
theorem rank_le_of_candidatesOf {first : ConfigurationEntry} {rest : List ConfigurationEntry}
    (h : candidatesOf entries key = first :: rest) :
    ∀ other ∈ first :: rest, other.source.rank ≤ first.source.rank := by
  have hsorted : (candidatesOf entries key).Pairwise byPrecedence :=
    List.pairwise_insertionSort _ _
  rw [h, List.pairwise_cons] at hsorted
  intro other hother
  rcases List.mem_cons.mp hother with rfl | hrest
  · exact le_refl _
  · exact hsorted.1 other hrest

/-- Two entries of one key and one source are one entry. -/
theorem eq_of_source_eq (hdistinct : (entries.map ConfigurationEntry.identity).Nodup)
    {other : ConfigurationEntry} (hentry : entry ∈ entries) (hother : other ∈ entries)
    (hkey : entry.key = other.key) (hsource : entry.source.rank = other.source.rank) :
    entry = other := by
  refine List.inj_on_of_nodup_map hdistinct hentry hother ?_
  rw [ConfigurationEntry.identity, ConfigurationEntry.identity, hkey,
    Source.rank_injective hsource]

/-- The candidates of a key do not depend on the order of the entries. -/
theorem candidatesOf_eq_of_perm (hdistinct : (entries.map ConfigurationEntry.identity).Nodup)
    (hperm : others.Perm entries) : candidatesOf others key = candidatesOf entries key := by
  have hcandidates : (candidatesOf others key).Perm (candidatesOf entries key) :=
    (List.perm_insertionSort _ _).trans
      ((hperm.filter _).trans (List.perm_insertionSort _ _).symm)
  refine List.Perm.eq_of_pairwise ?_ (List.pairwise_insertionSort _ _)
    (List.pairwise_insertionSort _ _) hcandidates
  intro a b ha hb hab hba
  obtain ⟨ha, hakey⟩ := mem_candidatesOf.mp ha
  obtain ⟨hb, hbkey⟩ := mem_candidatesOf.mp hb
  exact eq_of_source_eq hdistinct (hperm.mem_iff.mp ha) hb (hakey.trans hbkey.symm)
    (le_antisymm hba hab)

theorem resolveKey_eq_of_perm (hdistinct : (entries.map ConfigurationEntry.identity).Nodup)
    (hperm : others.Perm entries) : resolveKey others key = resolveKey entries key := by
  rw [resolveKey, candidatesOf_eq_of_perm hdistinct hperm, resolveKey]

end

/-! ## Merged values -/

/-- The entry's list has this string. -/
def ConfigurationEntry.Lists (entry : ConfigurationEntry) (s : String) : Prop :=
  ∃ strings, stringArray? entry.value = some strings ∧ s ∈ strings

/-- The entry's limit. -/
def ConfigurationEntry.limit? (entry : ConfigurationEntry) : Option JsDouble :=
  Policy.limit? entry.value

/-- The value of a key in terms of the set of its candidates. -/
def MergedFrom (candidates : List ConfigurationEntry) (value : DataValue) : MergeKind → Prop
  | .replace => ∃ entry ∈ candidates, entry.value = value ∧
      ∀ other ∈ candidates, other.source.rank ≤ entry.source.rank
  | .denyUnion => ∃ strings, value = textList strings ∧
      ∀ s, s ∈ strings ↔ ∃ entry ∈ candidates, entry.Lists s
  | .allowIntersection => ∃ strings, value = textList strings ∧
      ∀ s, s ∈ strings ↔ ∀ entry ∈ candidates, entry.Lists s
  | .limitMin => ∃ least, value = .num least ∧ (∃ entry ∈ candidates, entry.limit? = some least) ∧
      ∀ entry ∈ candidates, ∃ limit, entry.limit? = some limit ∧ least.place ≤ limit.place

theorem requireStrings_eq_ok_iff {value : DataValue} {label : String} {strings : List String} :
    requireStrings value label = .ok strings ↔ stringArray? value = some strings := by
  cases h : stringArray? value <;> simp [requireStrings, h]

theorem requireLimit_eq_ok_iff {value : DataValue} {key : String} {limit : JsDouble} :
    requireLimit value key = .ok limit ↔ limit? value = some limit := by
  cases h : limit? value <;> simp [requireLimit, h]

theorem mem_intersectLists {lists : List (List String)} (hne : lists ≠ []) {s : String} :
    s ∈ intersectLists lists ↔ ∀ list ∈ lists, s ∈ list := by
  cases lists with
  | nil => exact absurd rfl hne
  | cons first rest =>
      simp only [intersectLists, mem_sortStrings, List.mem_filter, mem_unique, List.all_eq_true,
        decide_eq_true_eq, and_iff_right_iff_imp]
      exact fun h => h first List.mem_cons_self

theorem isFinite_of_limit? {value : DataValue} {limit : JsDouble} (h : limit? value = some limit) :
    limit.isFinite = true := by
  unfold limit? at h
  split at h
  · split at h
    next hlimit =>
      cases h
      exact hlimit.1
    next => cases h
  · cases h

theorem value_of_limit? {value : DataValue} {limit : JsDouble} (h : limit? value = some limit) :
    value = .num limit := by
  unfold limit? at h
  split at h
  · split at h
    next => cases h; rfl
    next => cases h
  · cases h

section

variable {candidates : List ConfigurationEntry} {lists : List (List String)} {label : String}
  {s : String}

/-- The strings of the lists are those of the entries. -/
theorem mem_flatten_iff_lists
    (h : candidates.mapM (fun entry => requireStrings entry.value label) = .ok lists) :
    s ∈ lists.flatten ↔ ∃ entry ∈ candidates, entry.Lists s := by
  rw [List.mem_flatten]
  constructor
  · rintro ⟨list, hlist, hs⟩
    obtain ⟨entry, hentry, hstrings⟩ := mem_of_mapM_eq_ok h list hlist
    exact ⟨entry, hentry, list, requireStrings_eq_ok_iff.mp hstrings, hs⟩
  · rintro ⟨entry, hentry, strings, hstrings, hs⟩
    obtain ⟨list, hlist, hlists⟩ := exists_of_mapM_eq_ok h entry hentry
    obtain rfl : strings = list :=
      Option.some.inj (hstrings.symm.trans (requireStrings_eq_ok_iff.mp hlists))
    exact ⟨strings, hlist, hs⟩

theorem forall_mem_iff_lists
    (h : candidates.mapM (fun entry => requireStrings entry.value label) = .ok lists) :
    (∀ list ∈ lists, s ∈ list) ↔ ∀ entry ∈ candidates, entry.Lists s := by
  constructor
  · intro hall entry hentry
    obtain ⟨list, hlist, hstrings⟩ := exists_of_mapM_eq_ok h entry hentry
    exact ⟨list, requireStrings_eq_ok_iff.mp hstrings, hall list hlist⟩
  · intro hall list hlist
    obtain ⟨entry, hentry, hstrings⟩ := mem_of_mapM_eq_ok h list hlist
    obtain ⟨strings, hlists, hs⟩ := hall entry hentry
    obtain rfl : strings = list :=
      Option.some.inj (hlists.symm.trans (requireStrings_eq_ok_iff.mp hstrings))
    exact hs

end

/-- What candidates merge to, as far as their set determines it. -/
theorem mergedFrom_of_mergeValues {key : String} {kind value : DataValue}
    {first : ConfigurationEntry} {rest : List ConfigurationEntry}
    (hfirst : ∀ other ∈ first :: rest, other.source.rank ≤ first.source.rank)
    (h : mergeValues key kind first (first :: rest) = .ok value) :
    ∃ mergeKind, MergeKind.ofValue? kind = some mergeKind ∧
      MergedFrom (first :: rest) value mergeKind := by
  unfold mergeValues at h
  split at h
  next hkind =>
    cases h
    exact ⟨_, hkind, first, List.mem_cons_self, rfl, hfirst⟩
  next hkind =>
    obtain ⟨lists, hlists, hvalue⟩ := bind_eq_ok_iff.mp h
    cases hvalue
    refine ⟨_, hkind, _, rfl, fun s => ?_⟩
    rw [mem_sortStrings, mem_unique, mem_flatten_iff_lists hlists]
  next hkind =>
    obtain ⟨lists, hlists, hvalue⟩ := bind_eq_ok_iff.mp h
    cases hvalue
    have hne : lists ≠ [] := by
      obtain ⟨list, hlist, -⟩ := exists_of_mapM_eq_ok hlists first List.mem_cons_self
      exact List.ne_nil_of_mem hlist
    refine ⟨_, hkind, _, rfl, fun s => ?_⟩
    rw [mem_intersectLists hne, forall_mem_iff_lists hlists]
  next hkind =>
    obtain ⟨limits, hlimits, hvalue⟩ := bind_eq_ok_iff.mp h
    cases hvalue
    have hne : limits ≠ [] := by
      obtain ⟨limit, hlimit, -⟩ := exists_of_mapM_eq_ok hlimits first List.mem_cons_self
      exact List.ne_nil_of_mem hlimit
    have hfinite : ∀ limit ∈ limits, limit.isFinite = true := by
      intro limit hlimit
      obtain ⟨entry, -, hentry⟩ := mem_of_mapM_eq_ok hlimits limit hlimit
      exact isFinite_of_limit? (requireLimit_eq_ok_iff.mp hentry)
    refine ⟨_, hkind, _, rfl, ?_, ?_⟩
    · obtain ⟨entry, hentry, hleast⟩ :=
        mem_of_mapM_eq_ok hlimits _ (JsDouble.minimum_mem hne hfinite)
      exact ⟨entry, hentry, requireLimit_eq_ok_iff.mp hleast⟩
    · intro entry hentry
      obtain ⟨limit, hlimit, hentryLimit⟩ := exists_of_mapM_eq_ok hlimits entry hentry
      exact ⟨limit, requireLimit_eq_ok_iff.mp hentryLimit, JsDouble.place_minimum_le hlimit⟩
  next => cases h

/-! ## Keys -/

theorem eq_of_sameValueZero_str {text : String} {value : DataValue}
    (h : sameValueZero (.str text) value = true) : value = .str text := by
  cases value <;> simp_all [sameValueZero]

/-- Only strings name a kind. -/
theorem exists_str_of_ofValue? {kind : DataValue} {mergeKind : MergeKind}
    (h : MergeKind.ofValue? kind = some mergeKind) : ∃ text, kind = .str text := by
  cases kind with
  | str text => exact ⟨text, rfl⟩
  | undefined | null | bool | num | arr | obj => cases h

section

variable {entries others : List ConfigurationEntry} {entry : ConfigurationEntry} {key : String}
  {setting : Setting} {configuration : Configuration}

/-- A resolved key has candidates of one kind, and the value they merge to. -/
theorem mergedFrom_of_resolveKey (h : resolveKey entries key = .ok setting) : ∃ mergeKind,
    (∀ entry ∈ candidatesOf entries key,
      MergeKind.ofValue? entry.mergeKind = some mergeKind) ∧
        MergedFrom (candidatesOf entries key) setting.value mergeKind := by
  unfold resolveKey at h
  split at h
  next => cases h
  next first rest hcandidates =>
    obtain ⟨hkinds, h⟩ := reject_bind_eq_ok_iff.mp h
    obtain ⟨value, hvalue, h⟩ := bind_eq_ok_iff.mp h
    cases h
    obtain ⟨mergeKind, hkind, hmerged⟩ :=
      mergedFrom_of_mergeValues (rank_le_of_candidatesOf hcandidates) hvalue
    rw [hcandidates]
    refine ⟨mergeKind, ?_, hmerged⟩
    obtain ⟨text, htext⟩ := exists_str_of_ofValue? hkind
    simp only [Bool.not_eq_false', List.all_eq_true, htext] at hkinds
    intro entry hentry
    rcases List.mem_cons.mp hentry with rfl | hrest
    · exact hkind
    · rw [eq_of_sameValueZero_str (hkinds entry hrest), ← htext]
      exact hkind

/-- The value of a key is what the key resolves to. -/
theorem value?_eq_some_iff (h : resolveKeys entries = .ok configuration) {value : DataValue} :
    configuration.value? key = some value ↔ (∃ entry ∈ entries, entry.key = key) ∧
      ∃ setting, resolveKey entries key = .ok setting ∧ setting.value = value := by
  unfold resolveKeys at h
  obtain ⟨settings, hsettings, hconfiguration⟩ := bind_eq_ok_iff.mp h
  cases hconfiguration
  have hkeys : settings.map Prod.fst = (unique (entries.map (·.key))).map id := by
    refine map_eq_of_mapM_eq_ok hsettings fun key pair hpair => ?_
    obtain ⟨setting, -, hpair⟩ := bind_eq_ok_iff.mp hpair
    cases hpair
    rfl
  rw [List.map_id] at hkeys
  have hnodup : (settings.map Prod.fst).Nodup := hkeys ▸ nodup_unique _
  have hresolved : ∀ pair ∈ settings, resolveKey entries pair.1 = .ok pair.2 := by
    intro pair hpair
    obtain ⟨key, -, hkey⟩ := mem_of_mapM_eq_ok hsettings pair hpair
    obtain ⟨setting, hsetting, hkey⟩ := bind_eq_ok_iff.mp hkey
    cases hkey
    exact hsetting
  rw [Configuration.value?, Option.map_eq_some_iff]
  constructor
  · rintro ⟨pair, hpair, rfl⟩
    obtain ⟨hmem, rfl⟩ := (find?_key_eq_some_iff hnodup).mp hpair
    refine ⟨?_, pair.2, hresolved pair hmem, rfl⟩
    have hkey : pair.1 ∈ unique (entries.map (·.key)) := hkeys ▸ List.mem_map_of_mem hmem
    simpa using hkey
  · rintro ⟨⟨entry, hentry, rfl⟩, setting, hsetting, rfl⟩
    have hkey : entry.key ∈ settings.map Prod.fst := by
      rw [hkeys, mem_unique]
      exact List.mem_map_of_mem hentry
    obtain ⟨pair, hpair, hpairKey⟩ := List.mem_map.mp hkey
    have hsame : pair.2 = setting := by
      have := hresolved pair hpair
      rw [hpairKey, hsetting] at this
      exact (Except.ok.inj this).symm
    exact ⟨pair, (find?_key_eq_some_iff hnodup).mpr ⟨hpair, hpairKey⟩, by rw [hsame]⟩

/-- A key that occurs has a value merged from its candidates. -/
theorem exists_merged (h : resolveKeys entries = .ok configuration) (hentry : entry ∈ entries) :
    ∃ value mergeKind, configuration.value? entry.key = some value ∧
      (∀ other ∈ candidatesOf entries entry.key,
        MergeKind.ofValue? other.mergeKind = some mergeKind) ∧
          MergedFrom (candidatesOf entries entry.key) value mergeKind := by
  have hresolves : ∃ setting, resolveKey entries entry.key = .ok setting := by
    unfold resolveKeys at h
    obtain ⟨settings, hsettings, -⟩ := bind_eq_ok_iff.mp h
    have hkey : entry.key ∈ unique (entries.map (·.key)) :=
      mem_unique.mpr (List.mem_map_of_mem hentry)
    obtain ⟨pair, -, hpair⟩ := exists_of_mapM_eq_ok hsettings entry.key hkey
    obtain ⟨setting, hsetting, -⟩ := bind_eq_ok_iff.mp hpair
    exact ⟨setting, hsetting⟩
  obtain ⟨setting, hsetting⟩ := hresolves
  obtain ⟨mergeKind, hkinds, hmerged⟩ := mergedFrom_of_resolveKey hsetting
  exact ⟨setting.value, mergeKind,
    (value?_eq_some_iff h).mpr ⟨⟨entry, hentry, rfl⟩, setting, hsetting, rfl⟩, hkinds, hmerged⟩

end

/-! ## Resolution -/

section

variable {raws others : List DataValue} {entries sorted : List ConfigurationEntry}
  {entry : ConfigurationEntry} {configuration other : Configuration}

theorem resolveConfiguration_eq_ok_iff : resolveConfiguration (.arr raws) = .ok configuration ↔
    ∃ entries, acceptEntries raws = .ok entries ∧ resolveKeys entries = .ok configuration := by
  simp only [resolveConfiguration, requireEntries, ok_bind, bind_eq_ok_iff]

theorem identities_nodup (h : acceptEntries raws = .ok entries) :
    (entries.map ConfigurationEntry.identity).Nodup := (acceptEntries_eq_ok_iff.mp h).2.1

/-- Entries in another order resolve to the same settings. -/
theorem resolveKeys_of_perm (hdistinct : (entries.map ConfigurationEntry.identity).Nodup)
    (hperm : sorted.Perm entries) (h : resolveKeys entries = .ok configuration) :
    ∃ other, resolveKeys sorted = .ok other ∧ other.settings.Perm configuration.settings := by
  have hkeys : (unique (entries.map (·.key))).Perm (unique (sorted.map (·.key))) := by
    rw [List.perm_ext_iff_of_nodup (nodup_unique _) (nodup_unique _)]
    intro key
    rw [mem_unique, mem_unique, (hperm.map _).mem_iff]
  unfold resolveKeys at h ⊢
  obtain ⟨settings, hsettings, hconfiguration⟩ := bind_eq_ok_iff.mp h
  cases hconfiguration
  obtain ⟨permuted, hpermuted, hsame⟩ := mapM_of_perm hkeys hsettings
  simp only [resolveKey_eq_of_perm hdistinct hperm, hpermuted, ok_bind]
  exact ⟨⟨permuted⟩, rfl, hsame⟩

/-- Settings that agree up to their order agree on every key. -/
theorem value?_of_perm (hdistinct : (entries.map ConfigurationEntry.identity).Nodup)
    (hperm : sorted.Perm entries) (h : resolveKeys entries = .ok configuration)
    (hother : resolveKeys sorted = .ok other) (key : String) :
    other.value? key = configuration.value? key := by
  ext value
  rw [value?_eq_some_iff hother, value?_eq_some_iff h, resolveKey_eq_of_perm hdistinct hperm]
  simp only [hperm.mem_iff]

/-- Entries of other keys do not matter for a key. -/
theorem candidatesOf_cons_of_ne {key : String} (h : entry.key ≠ key) :
    candidatesOf (entry :: entries) key = candidatesOf entries key := by
  rw [candidatesOf, candidatesOf, List.filter_cons_of_neg (by simpa using h)]

theorem mem_candidatesOf_cons {key : String} {found : ConfigurationEntry} (h : entry.key = key) :
    found ∈ candidatesOf (entry :: entries) key ↔
      found = entry ∨ found ∈ candidatesOf entries key := by
  simp only [mem_candidatesOf, List.mem_cons]
  constructor
  · rintro ⟨rfl | hmem, hkey⟩
    · exact .inl rfl
    · exact .inr ⟨hmem, hkey⟩
  · rintro (rfl | ⟨hmem, hkey⟩)
    · exact ⟨.inl rfl, h⟩
    · exact ⟨.inr hmem, hkey⟩

/-- How one more candidate of a restrictive kind changes a value. -/
def Tightens (old new : DataValue) : MergeKind → Prop
  | .denyUnion => ∃ strings others, old = textList strings ∧ new = textList others ∧
      ∀ s ∈ strings, s ∈ others
  | .allowIntersection => ∃ strings others, old = textList strings ∧ new = textList others ∧
      ∀ s ∈ others, s ∈ strings
  | .limitMin => ∃ least less, old = .num least ∧ new = .num less ∧ less.place ≤ least.place
  | .replace => False

/-- More candidates of a restrictive kind tighten what they merge to. -/
theorem tightens_of_subset {candidates more : List ConfigurationEntry} {old new : DataValue}
    {mergeKind : MergeKind} (hsubset : ∀ entry ∈ candidates, entry ∈ more)
    (hold : MergedFrom candidates old mergeKind) (hnew : MergedFrom more new mergeKind)
    (hkind : mergeKind ≠ .replace) : Tightens old new mergeKind := by
  cases mergeKind with
  | replace => exact absurd rfl hkind
  | denyUnion =>
      obtain ⟨strings, rfl, hstrings⟩ := hold
      obtain ⟨others, rfl, hothers⟩ := hnew
      refine ⟨strings, others, rfl, rfl, fun s hs => ?_⟩
      obtain ⟨entry, hentry, hlists⟩ := (hstrings s).mp hs
      exact (hothers s).mpr ⟨entry, hsubset entry hentry, hlists⟩
  | allowIntersection =>
      obtain ⟨strings, rfl, hstrings⟩ := hold
      obtain ⟨others, rfl, hothers⟩ := hnew
      refine ⟨strings, others, rfl, rfl, fun s hs => ?_⟩
      exact (hstrings s).mpr fun entry hentry => (hothers s).mp hs entry (hsubset entry hentry)
  | limitMin =>
      obtain ⟨least, rfl, ⟨entry, hentry, hleast⟩, -⟩ := hold
      obtain ⟨less, rfl, -, hless⟩ := hnew
      obtain ⟨limit, hlimit, hle⟩ := hless entry (hsubset entry hentry)
      obtain rfl : limit = least := Option.some.inj (hlimit.symm.trans hleast)
      exact ⟨limit, less, rfl, rfl, hle⟩

/-- An entry added to a key that is set. -/
theorem tightens_of_cons (hmerge : MergeKind.ofValue? entry.mergeKind ≠ some .replace)
    (hset : ∃ old ∈ entries, old.key = entry.key) (h : resolveKeys entries = .ok configuration)
    (hother : resolveKeys (entry :: entries) = .ok other) :
    (∀ key, key ≠ entry.key → other.value? key = configuration.value? key) ∧
      ∃ old new mergeKind, configuration.value? entry.key = some old ∧
        other.value? entry.key = some new ∧
          MergeKind.ofValue? entry.mergeKind = some mergeKind ∧ Tightens old new mergeKind := by
  constructor
  · intro key hkey
    ext value
    rw [value?_eq_some_iff hother, value?_eq_some_iff h, resolveKey,
      candidatesOf_cons_of_ne (Ne.symm hkey), ← resolveKey]
    simp [List.mem_cons, Ne.symm hkey]
  · obtain ⟨first, hfirst, hfirstKey⟩ := hset
    obtain ⟨old, oldKind, hold, holdKinds, holdMerged⟩ := exists_merged h hfirst
    obtain ⟨new, mergeKind, hnew, hkinds, hmerged⟩ := exists_merged hother List.mem_cons_self
    rw [hfirstKey] at hold holdKinds holdMerged
    have hsubset : ∀ found ∈ candidatesOf entries entry.key,
        found ∈ candidatesOf (entry :: entries) entry.key :=
      fun found hfound => (mem_candidatesOf_cons rfl).mpr (.inr hfound)
    have hcandidate : first ∈ candidatesOf entries entry.key :=
      mem_candidatesOf.mpr ⟨hfirst, hfirstKey⟩
    obtain rfl : oldKind = mergeKind :=
      Option.some.inj
        ((holdKinds first hcandidate).symm.trans (hkinds first (hsubset first hcandidate)))
    have hkind : MergeKind.ofValue? entry.mergeKind = some oldKind :=
      hkinds entry ((mem_candidatesOf_cons rfl).mpr (.inl rfl))
    refine ⟨old, new, oldKind, hold, hnew, hkind,
      tightens_of_subset hsubset holdMerged hmerged ?_⟩
    rintro rfl
    exact hmerge hkind

/-- Some entry of the list, as it normalizes, and what its kind names. -/
def Defines (raws : List DataValue) (entry : ConfigurationEntry) (mergeKind : MergeKind) : Prop :=
  (∃ raw ∈ raws, entryOf? raw = some entry) ∧
    MergeKind.ofValue? entry.mergeKind = some mergeKind

/-- The contract of a configuration that was resolved from entries. -/
structure MergeContract (raws : List DataValue) (configuration : Configuration) : Prop where
  unordered : ∀ others : List DataValue, others.Perm raws → ∃ other,
    resolveConfiguration (.arr others) = .ok other ∧
      other.values.Perm configuration.values ∧ other.provenance.Perm configuration.provenance ∧
        ∀ key, other.value? key = configuration.value? key
  keyed : ∀ key, (∃ value, configuration.value? key = some value) ↔
    ∃ entry mergeKind, Defines raws entry mergeKind ∧ entry.key = key
  denied : ∀ entry, Defines raws entry .denyUnion → ∃ strings,
    configuration.value? entry.key = some (textList strings) ∧ ∀ s, entry.Lists s → s ∈ strings
  allowed : ∀ entry, Defines raws entry .allowIntersection → ∃ strings,
    configuration.value? entry.key = some (textList strings) ∧ ∀ s ∈ strings, entry.Lists s
  limited : ∀ entry, Defines raws entry .limitMin → ∃ least limit,
    configuration.value? entry.key = some (.num least) ∧ entry.value = .num limit ∧
      least.place ≤ limit.place
  replaced : ∀ entry, Defines raws entry .replace →
    (∀ other, Defines raws other .replace → other.key = entry.key →
      other.source.rank ≤ entry.source.rank) → configuration.value? entry.key = some entry.value
  tightened : ∀ (raw : DataValue) (others : List DataValue) (entry : ConfigurationEntry)
    (other : Configuration), others.Perm (raw :: raws) → entryOf? raw = some entry →
      MergeKind.ofValue? entry.mergeKind ≠ some .replace →
        (∃ old, configuration.value? entry.key = some old) →
          resolveConfiguration (.arr others) = .ok other →
            (∀ key, key ≠ entry.key → other.value? key = configuration.value? key) ∧
              ∃ old new mergeKind, configuration.value? entry.key = some old ∧
                other.value? entry.key = some new ∧
                  MergeKind.ofValue? entry.mergeKind = some mergeKind ∧
                    Tightens old new mergeKind

theorem mem_of_entryOf? {raw : DataValue} (h : acceptEntries raws = .ok entries) (hraw : raw ∈ raws)
    (hentry : entryOf? raw = some entry) : entry ∈ entries := by
  obtain ⟨-, -, rfl⟩ := acceptEntries_eq_ok_iff.mp h
  exact List.mem_filterMap.mpr ⟨raw, hraw, hentry⟩

theorem exists_entryOf? (h : acceptEntries raws = .ok entries) (hentry : entry ∈ entries) :
    ∃ raw ∈ raws, entryOf? raw = some entry := by
  obtain ⟨-, -, rfl⟩ := acceptEntries_eq_ok_iff.mp h
  exact List.mem_filterMap.mp hentry

/-- The value of the key of an entry is merged as the kind of the entry says. -/
theorem merged_of_defines (haccept : acceptEntries raws = .ok entries)
    (h : resolveKeys entries = .ok configuration) {mergeKind : MergeKind}
    (hdefines : Defines raws entry mergeKind) : entry ∈ candidatesOf entries entry.key ∧
      (∀ other ∈ candidatesOf entries entry.key, Defines raws other mergeKind) ∧
        ∃ value, configuration.value? entry.key = some value ∧
          MergedFrom (candidatesOf entries entry.key) value mergeKind := by
  obtain ⟨⟨raw, hraw, hentry⟩, hkind⟩ := hdefines
  have hmem : entry ∈ entries := mem_of_entryOf? haccept hraw hentry
  have hcandidate : entry ∈ candidatesOf entries entry.key := mem_candidatesOf.mpr ⟨hmem, rfl⟩
  obtain ⟨value, found, hvalue, hkinds, hmerged⟩ := exists_merged h hmem
  obtain rfl : found = mergeKind :=
    Option.some.inj ((hkinds entry hcandidate).symm.trans hkind)
  refine ⟨hcandidate, ?_, value, hvalue, hmerged⟩
  intro other hother
  exact ⟨exists_entryOf? haccept (mem_candidatesOf.mp hother).1, hkinds other hother⟩

/-- Every configuration that is resolved meets the contract. -/
theorem mergeContract_of_resolved (h : resolveConfiguration (.arr raws) = .ok configuration) :
    MergeContract raws configuration := by
  obtain ⟨entries, haccept, hkeys⟩ := resolveConfiguration_eq_ok_iff.mp h
  have hdistinct := identities_nodup haccept
  refine ⟨?_, ?_, ?_, ?_, ?_, ?_, ?_⟩
  · intro others hperm
    obtain ⟨sorted, hsorted, hsame⟩ := acceptEntries_of_perm hperm haccept
    obtain ⟨other, hother, hsettings⟩ := resolveKeys_of_perm hdistinct hsame hkeys
    exact ⟨other, resolveConfiguration_eq_ok_iff.mpr ⟨sorted, hsorted, hother⟩,
      hsettings.map _, hsettings.map _, value?_of_perm hdistinct hsame hkeys hother⟩
  · intro key
    constructor
    · rintro ⟨value, hvalue⟩
      obtain ⟨⟨entry, hentry, rfl⟩, -⟩ := (value?_eq_some_iff hkeys).mp hvalue
      obtain ⟨-, mergeKind, -, hkinds, -⟩ := exists_merged hkeys hentry
      exact ⟨entry, mergeKind, ⟨exists_entryOf? haccept hentry,
        hkinds entry (mem_candidatesOf.mpr ⟨hentry, rfl⟩)⟩, rfl⟩
    · rintro ⟨entry, mergeKind, hdefines, rfl⟩
      obtain ⟨-, -, value, hvalue, -⟩ := merged_of_defines haccept hkeys hdefines
      exact ⟨value, hvalue⟩
  · intro entry hdefines
    obtain ⟨hcandidate, -, -, hvalue, strings, rfl, hstrings⟩ :=
      merged_of_defines haccept hkeys hdefines
    exact ⟨strings, hvalue, fun s hs => (hstrings s).mpr ⟨entry, hcandidate, hs⟩⟩
  · intro entry hdefines
    obtain ⟨hcandidate, -, -, hvalue, strings, rfl, hstrings⟩ :=
      merged_of_defines haccept hkeys hdefines
    exact ⟨strings, hvalue, fun s hs => (hstrings s).mp hs entry hcandidate⟩
  · intro entry hdefines
    obtain ⟨hcandidate, -, -, hvalue, least, rfl, -, hleast⟩ :=
      merged_of_defines haccept hkeys hdefines
    obtain ⟨limit, hlimit, hle⟩ := hleast entry hcandidate
    exact ⟨least, limit, hvalue, value_of_limit? hlimit, hle⟩
  · intro entry hdefines hhighest
    obtain ⟨hcandidate, hdefined, value, hvalue, first, hfirst, rfl, hrank⟩ :=
      merged_of_defines haccept hkeys hdefines
    obtain ⟨hfirstMem, hfirstKey⟩ := mem_candidatesOf.mp hfirst
    have hsame : first = entry := by
      refine eq_of_source_eq hdistinct hfirstMem (mem_candidatesOf.mp hcandidate).1 hfirstKey ?_
      exact le_antisymm (hhighest first (hdefined first hfirst) hfirstKey) (hrank entry hcandidate)
    rw [hvalue, hsame]
  · rintro raw others entry other hperm hentry hmerge ⟨old, hold⟩ hother
    obtain ⟨added, hadded, hresolved⟩ := resolveConfiguration_eq_ok_iff.mp hother
    obtain ⟨sorted, hsorted, hsame⟩ := acceptEntries_of_perm hperm.symm hadded
    obtain ⟨found, rest, hfound, hrest, rfl⟩ := acceptEntries_of_cons hsorted
    obtain rfl : found = entry := Option.some.inj (hfound.symm.trans hentry)
    obtain rfl : rest = entries := Except.ok.inj (hrest.symm.trans haccept)
    obtain ⟨moved, hmoved, -⟩ := resolveKeys_of_perm (identities_nodup hadded) hsame hresolved
    have hvalues := value?_of_perm (identities_nodup hadded) hsame hresolved hmoved
    obtain ⟨hset, -⟩ := (value?_eq_some_iff hkeys).mp hold
    simp only [← hvalues]
    exact tightens_of_cons hmerge hset hkeys hmoved

end

namespace Sample

/-- The subnormal number of eight units. -/
def eight : DataValue := .num (.finite false ⟨8, by decide⟩)

def fifty : DataValue := .num (.finite false ⟨50, by decide⟩)

def configurationEntry (key source : String) (kind value : DataValue) : DataValue :=
  .obj [("key", .str key), ("source", .str source), ("kind", kind), ("value", value)]

/-- Entries of two sources that ask for every kind. -/
def configurationEntries : List DataValue :=
  [configurationEntry "turns" "project" (.str "limit_min") eight,
    configurationEntry "hosts" "project" (.str "allow_intersection")
      (textList ["b.test", "a.test"]),
    configurationEntry "endpoint" "user" .undefined (.str "second"),
    configurationEntry "turns" "managed" (.str "limit_min") fifty,
    configurationEntry "hosts" "enterprise" (.str "allow_intersection")
      (textList ["c.test", "b.test"]),
    configurationEntry "tools" "user" (.str "deny_union") (textList ["shell", "net"]),
    configurationEntry "endpoint" "managed" (.str "replace") (.str "first")]

def configuration : Configuration where
  settings := [("turns", ⟨eight, [.managed, .project]⟩),
    ("hosts", ⟨textList ["b.test"], [.enterprise, .project]⟩),
    ("endpoint", ⟨.str "first", [.managed, .user]⟩),
    ("tools", ⟨textList ["net", "shell"], [.user]⟩)]

end Sample

theorem mergeContract_sample : MergeContract Sample.configurationEntries Sample.configuration :=
  mergeContract_of_resolved rfl

end Policy

end Hseos
