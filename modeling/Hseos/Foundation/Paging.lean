import Mathlib.Algebra.Ring.Int.Defs
import Mathlib.Algebra.Ring.Nat
import Mathlib.Data.List.Count
import Mathlib.Data.List.Sort

/-! # Pages of merged parts

The entries of a table have increasing keys and belong to owners. A page for a list of owners
is merged from one part for each owner of the list, cut to the size of the page, so an entry is
there as often as its owner is listed.
-/

namespace Hseos

/-! ## Reading page after page -/

section Reading

variable {α : Type}

/-- The pages from a cursor on. The last entry of a page is the cursor of the next one, and an
empty page ends the reading. -/
def readPages (key : α → ℕ) (page : ℕ → List α) : ℕ → ℕ → List α
  | 0, _ => []
  | fuel + 1, cursor =>
      match (page cursor).getLast? with
      | none => []
      | some last => page cursor ++ readPages key page fuel (key last)

theorem readPages_succ {key : α → ℕ} {page : ℕ → List α} {fuel cursor : ℕ} :
    readPages key page (fuel + 1) cursor = page cursor ++
      (page cursor).getLast?.elim [] fun last => readPages key page fuel (key last) := by
  rw [readPages]
  cases hlast : (page cursor).getLast? with
  | none => rw [List.getLast?_eq_none_iff.mp hlast, Option.elim_none, List.append_nil]
  | some last => rfl

end Reading

section Merging

variable {α β : Type} [DecidableEq β]

/-- One part: the first entries of an owner after the cursor. -/
def partOf (key : α → ℕ) (owner : α → β) (entries : List α) (cursor limit : ℕ) (name : β) :
    List α :=
  ((entries.filter fun entry => owner entry = name && cursor < key entry).insertionSort
    fun a b => key a ≤ key b).take limit

/-- The parts of all owners of a list, sorted together and cut. -/
def mergedPage (key : α → ℕ) (owner : α → β) (entries : List α) (owners : List β)
    (limit cursor : ℕ) : List α :=
  ((owners.flatMap (partOf key owner entries cursor limit)).insertionSort
    fun a b => key a ≤ key b).take limit

/-- The entries of the listed owners after the cursor. -/
def listedAfter (key : α → ℕ) (owner : α → β) (entries : List α) (owners : List β) (cursor : ℕ) :
    List α :=
  entries.filter fun entry => owner entry ∈ owners && cursor < key entry

/-- Every entry as often as its owner is listed. -/
def repeated (owner : α → β) (owners : List β) (entries : List α) : List α :=
  entries.flatMap fun entry => List.replicate (owners.count (owner entry)) entry

variable {key : α → ℕ} {owner : α → β} {entries : List α} {owners : List β} {limit cursor : ℕ}

/-- An entry among the first ones is among the first ones that pass a test. -/
theorem mem_take_filter {p : α → Bool} {a : α} (h : a ∈ entries.take limit) (hp : p a = true) :
    a ∈ (entries.filter p).take limit := by
  have hfirst : (entries.take limit).filter p <+: entries.filter p :=
    (List.take_prefix limit entries).filter p
  have hlength : ((entries.take limit).filter p).length ≤ limit :=
    (List.length_filter_le _ _).trans (List.length_take_le _ _)
  have htake : (entries.take limit).filter p <+: (entries.filter p).take limit :=
    List.prefix_take_iff.mpr ⟨hfirst, hlength⟩
  exact htake.subset (List.mem_filter.mpr ⟨h, hp⟩)

theorem insertionSort_of_increasing (h : entries.Pairwise fun a b => key a < key b) :
    entries.insertionSort (fun a b => key a ≤ key b) = entries :=
  (h.imp fun hab => hab.le).insertionSort_eq

theorem partOf_eq (h : entries.Pairwise fun a b => key a < key b) (name : β) :
    partOf key owner entries cursor limit name =
      (entries.filter fun entry => owner entry = name && cursor < key entry).take limit := by
  rw [partOf, insertionSort_of_increasing (h.sublist List.filter_sublist)]

theorem mem_listedAfter {a : α} : a ∈ listedAfter key owner entries owners cursor ↔
    a ∈ entries ∧ owner a ∈ owners ∧ cursor < key a := by
  simp [listedAfter]

theorem length_le_length_repeated (h : ∀ entry ∈ entries, 0 < owners.count (owner entry)) :
    entries.length ≤ (repeated owner owners entries).length := by
  induction entries with
  | nil => exact Nat.zero_le _
  | cons entry rest ih =>
      have hentry := h entry List.mem_cons_self
      have hrest := ih fun other hother => h other (List.mem_cons_of_mem _ hother)
      simp only [repeated, List.flatMap_cons, List.length_append, List.length_replicate,
        List.length_cons] at hrest ⊢
      omega

/-- Keys that increase tell the entries apart. -/
theorem eq_of_key_eq (h : entries.Pairwise fun a b => key a < key b) {a b : α} (ha : a ∈ entries)
    (hb : b ∈ entries) (hkey : key a = key b) : a = b :=
  List.inj_on_of_nodup_map (List.pairwise_map.mpr (h.imp Nat.ne_of_lt)) ha hb hkey

/-- Lists of entries with the same keys are the same. -/
theorem eq_of_map_key_eq (h : entries.Pairwise fun a b => key a < key b) {list others : List α}
    (hlist : ∀ a ∈ list, a ∈ entries) (hothers : ∀ a ∈ others, a ∈ entries)
    (hkeys : list.map key = others.map key) : list = others := by
  induction list generalizing others with
  | nil => exact (List.map_eq_nil_iff.mp hkeys.symm).symm
  | cons a rest ih =>
      cases others with
      | nil => cases hkeys
      | cons b more =>
          rw [List.map_cons, List.map_cons, List.cons.injEq] at hkeys
          obtain ⟨ha, hrest⟩ := List.forall_mem_cons.mp hlist
          obtain ⟨hb, hmore⟩ := List.forall_mem_cons.mp hothers
          rw [eq_of_key_eq h ha hb hkeys.1, ih hrest hmore hkeys.2]

theorem sum_map_ite (name : β) (n : ℕ) :
    (owners.map fun other => if name = other then n else 0).sum = owners.count name * n := by
  induction owners with
  | nil => simp
  | cons other rest ih =>
      by_cases hother : name = other
      · subst hother
        simp [ih, Nat.add_mul, Nat.add_comm]
      · simp [ih, hother, List.count_cons_of_ne (Ne.symm hother)]

theorem count_repeated [DecidableEq α] (a : α) :
    (repeated owner owners entries).count a = entries.count a * owners.count (owner a) := by
  induction entries with
  | nil => simp [repeated]
  | cons entry rest ih =>
      rw [repeated, List.flatMap_cons, List.count_append, List.count_replicate, ← repeated, ih]
      by_cases hentry : entry = a
      · subst hentry
        simp [Nat.add_mul, Nat.add_comm]
      · simp [hentry, List.count_cons_of_ne hentry]

/-- The listed entries that the parts have. -/
def inParts [DecidableEq α] (key : α → ℕ) (owner : α → β) (entries : List α) (owners : List β)
    (limit cursor : ℕ) : List α :=
  (listedAfter key owner entries owners cursor).filter fun a =>
    a ∈ partOf key owner entries cursor limit (owner a)

/-- The parts together have each of their entries as often as its owner is listed. -/
theorem parts_perm [DecidableEq α] (h : entries.Pairwise fun a b => key a < key b) :
    (owners.flatMap (partOf key owner entries cursor limit)).Perm
      (repeated owner owners (inParts key owner entries owners limit cursor)) := by
  have hnodup : entries.Nodup := h.imp fun hab heq => Nat.ne_of_lt hab (congrArg key heq)
  have hpart : ∀ name, (partOf key owner entries cursor limit name).Nodup := by
    intro name
    rw [partOf_eq h]
    exact (hnodup.sublist List.filter_sublist).sublist (List.take_sublist limit _)
  have hmem : ∀ a name, a ∈ partOf key owner entries cursor limit name →
      a ∈ entries ∧ owner a = name ∧ cursor < key a := by
    intro a name ha
    rw [partOf_eq h] at ha
    simpa using List.mem_filter.mp (List.mem_of_mem_take ha)
  have hinParts : (inParts key owner entries owners limit cursor).Nodup :=
    (hnodup.sublist List.filter_sublist).sublist List.filter_sublist
  rw [List.perm_iff_count]
  intro a
  have hcount : ∀ name, (partOf key owner entries cursor limit name).count a =
      if owner a = name then (partOf key owner entries cursor limit (owner a)).count a else 0 := by
    intro name
    by_cases hname : owner a = name
    · rw [if_pos hname, hname]
    · rw [if_neg hname]
      exact List.count_eq_zero_of_not_mem fun ha => hname (hmem a name ha).2.1
  have hmap : owners.map (List.count a ∘ partOf key owner entries cursor limit) =
      owners.map fun name => if owner a = name then
        (partOf key owner entries cursor limit (owner a)).count a else 0 :=
    List.map_congr_left fun name _ => hcount name
  rw [List.count_flatMap, count_repeated, hmap, sum_map_ite, Nat.mul_comm]
  by_cases howner : owner a ∈ owners
  · rw [(hpart _).count, hinParts.count]
    congr 2
    simp only [inParts, List.mem_filter, mem_listedAfter, decide_eq_true_eq, eq_iff_iff]
    exact ⟨fun ha => ⟨⟨(hmem a _ ha).1, howner, (hmem a _ ha).2.2⟩, ha⟩, fun ha => ha.2⟩
  · rw [List.count_eq_zero_of_not_mem howner, Nat.mul_zero, Nat.mul_zero]

/-- The first listed entries are in the parts of their owners. -/
theorem mem_partOf_of_mem_take (h : entries.Pairwise fun a b => key a < key b) {a : α}
    (ha : a ∈ (listedAfter key owner entries owners cursor).take limit) :
    a ∈ partOf key owner entries cursor limit (owner a) := by
  have howner := (mem_listedAfter.mp (List.mem_of_mem_take ha)).2.1
  have hpart := mem_take_filter (p := fun other => decide (owner other = owner a)) ha (by simp)
  rw [listedAfter, List.filter_filter] at hpart
  rw [partOf_eq h]
  convert hpart using 4 with other
  by_cases hother : owner other = owner a
  · simp [hother, howner]
  · simp [hother]

theorem take_repeated_of_take {list : List α} (h : ∀ a ∈ list, 0 < owners.count (owner a))
    (hlimit : limit ≤ list.length) : (repeated owner owners list).take limit =
      (repeated owner owners (list.take limit)).take limit := by
  have hsplit : repeated owner owners list =
      repeated owner owners (list.take limit) ++ repeated owner owners (list.drop limit) := by
    rw [repeated, repeated, repeated, ← List.flatMap_append, List.take_append_drop]
  have hlength := length_le_length_repeated fun a ha => h a (List.mem_of_mem_take (i := limit) ha)
  rw [List.length_take, Nat.min_eq_left hlimit] at hlength
  rw [hsplit, List.take_append_of_le_length hlength]

/-- A merged page is cut from the listed entries, each as often as its owner is listed. -/
theorem mergedPage_eq (h : entries.Pairwise fun a b => key a < key b) :
    mergedPage key owner entries owners limit cursor =
      (repeated owner owners (listedAfter key owner entries owners cursor)).take limit := by
  classical
  have hparts : (inParts key owner entries owners limit cursor).Sublist entries :=
    List.filter_sublist.trans List.filter_sublist
  have hsorted : (repeated owner owners (inParts key owner entries owners limit cursor)).Pairwise
      fun a b => key a ≤ key b := by
    rw [repeated, List.pairwise_flatMap]
    refine ⟨fun a _ => List.pairwise_replicate.mpr (Or.inr le_rfl), ?_⟩
    refine (h.sublist hparts).imp fun hab a ha b hb => ?_
    rw [(List.mem_replicate.mp ha).2, (List.mem_replicate.mp hb).2]
    exact hab.le
  have hmerged : (owners.flatMap (partOf key owner entries cursor limit)).insertionSort
      (fun a b => key a ≤ key b) =
        repeated owner owners (inParts key owner entries owners limit cursor) := by
    have hmerge : (owners.flatMap (partOf key owner entries cursor limit)).Perm _ := parts_perm h
    have hperm := (List.perm_insertionSort (fun a b => key a ≤ key b) _).trans hmerge
    have htotal : Std.Total fun a b : α => key a ≤ key b := ⟨fun _ _ => le_total _ _⟩
    have htrans : IsTrans α fun a b => key a ≤ key b := ⟨fun _ _ _ => le_trans⟩
    refine List.Perm.eq_of_pairwise ?_ (List.pairwise_insertionSort _ _) hsorted hperm
    have hentries : ∀ a, a ∈ repeated owner owners (inParts key owner entries owners limit cursor) →
        a ∈ entries := by
      intro a ha
      obtain ⟨b, hb, hab⟩ := List.mem_flatMap.mp ha
      exact (List.mem_replicate.mp hab).2 ▸ hparts.subset hb
    intro a b ha hb hab hba
    exact eq_of_key_eq h (hentries a (hperm.mem_iff.mp ha)) (hentries b hb) (le_antisymm hab hba)
  rw [mergedPage, hmerged]
  -- the parts have the first of the listed entries, and nothing else is on the page
  have hpositive : ∀ a ∈ listedAfter key owner entries owners cursor, 0 < owners.count (owner a) :=
    fun a ha => List.count_pos_iff.mpr (mem_listedAfter.mp ha).2.1
  have hfirst : ((listedAfter key owner entries owners cursor).take limit).filter
      (fun a => a ∈ partOf key owner entries cursor limit (owner a)) =
        (listedAfter key owner entries owners cursor).take limit :=
    List.filter_eq_self.mpr fun a ha => decide_eq_true (mem_partOf_of_mem_take h ha)
  have hsplit : inParts key owner entries owners limit cursor =
      (listedAfter key owner entries owners cursor).take limit ++
        ((listedAfter key owner entries owners cursor).drop limit).filter
          fun a => a ∈ partOf key owner entries cursor limit (owner a) := by
    conv_lhs => rw [inParts, ← List.take_append_drop limit
      (listedAfter key owner entries owners cursor), List.filter_append, hfirst]
  rcases le_or_gt limit (listedAfter key owner entries owners cursor).length with hlength | hlength
  · have htake : (inParts key owner entries owners limit cursor).take limit =
        (listedAfter key owner entries owners cursor).take limit := by
      rw [hsplit, List.take_append_of_le_length (by rw [List.length_take]; omega), List.take_take,
        Nat.min_self]
    have hlong : limit ≤ (inParts key owner entries owners limit cursor).length := by
      rw [hsplit, List.length_append, List.length_take]
      omega
    have hkept : ∀ a ∈ inParts key owner entries owners limit cursor, 0 < owners.count (owner a) :=
      fun a ha => hpositive a (List.mem_of_mem_filter ha)
    rw [take_repeated_of_take hkept hlong, htake, ← take_repeated_of_take hpositive hlength]
  · have hall : inParts key owner entries owners limit cursor =
        listedAfter key owner entries owners cursor := by
      rw [hsplit, List.drop_of_length_le hlength.le, List.take_of_length_le hlength.le,
        List.filter_nil, List.append_nil]
    rw [hall]

/-! ## Exact pages -/

/-- A page has what is listed, each once, when only its last entry has an owner that is listed
more than once. -/
theorem take_repeated_iff {list : List α} (h : ∀ a ∈ list, 0 < owners.count (owner a))
    (hnodup : list.Nodup) : (repeated owner owners list).take limit = list.take limit ↔
      ∀ a ∈ list.take (limit - 1), owners.count (owner a) = 1 := by
  induction list generalizing limit with
  | nil => simp [repeated]
  | cons a rest ih =>
      obtain ⟨ha, hrest⟩ := List.nodup_cons.mp hnodup
      have hcount := h a List.mem_cons_self
      obtain ⟨more, hmore⟩ := Nat.exists_eq_add_of_lt hcount
      have hrepeated : repeated owner owners (a :: rest) =
          a :: (List.replicate more a ++ repeated owner owners rest) := by
        rw [repeated, List.flatMap_cons, hmore, Nat.zero_add, List.replicate_succ]
        rfl
      rw [hrepeated]
      match limit with
      | 0 => simp
      | 1 => simp
      | limit + 2 =>
          cases more with
          | zero =>
              have hlater := @ih (limit + 1)
                (fun b hb => h b (List.mem_cons_of_mem _ hb)) hrest
              simpa [hmore] using hlater
          | succ more =>
              refine iff_of_false (fun heq => ?_) fun hall => ?_
              · -- the second entry of the page is the first one again
                rw [List.replicate_succ, List.cons_append, List.take_succ_cons, List.take_succ_cons,
                  List.take_succ_cons, List.cons_inj_right] at heq
                have hmem : a ∈ rest.take (limit + 1) := heq ▸ List.mem_cons_self
                exact ha (List.mem_of_mem_take hmem)
              · have := hall a (by simp)
                omega

/-- Every entry that is not the last of a full page has an owner that is listed once. -/
def OnceWithinPages (owner : α → β) (owners : List β) (limit : ℕ) (list : List α) : Prop :=
  ∀ i (h : i < list.length), (i + 1) % limit ≠ 0 → owners.count (owner (list.get ⟨i, h⟩)) = 1

theorem onceWithinPages_iff {list : List α} (hlimit : 0 < limit) :
    OnceWithinPages owner owners limit list ↔
      (∀ a ∈ list.take (limit - 1), owners.count (owner a) = 1) ∧
        OnceWithinPages owner owners limit (list.drop limit) := by
  constructor
  · refine fun h => ⟨fun a ha => ?_, fun i hi hmod => ?_⟩
    · obtain ⟨i, hi, rfl⟩ := List.getElem_of_mem ha
      rw [List.length_take] at hi
      have := h i (by omega) (by rw [Nat.mod_eq_of_lt (by omega)]; omega)
      simpa using this
    · rw [List.length_drop] at hi
      have := h (limit + i) (by omega) (by rwa [Nat.add_assoc, Nat.add_mod_left])
      simpa using this
  · rintro ⟨hfirst, hlater⟩ i hi hmod
    rcases lt_trichotomy (i + 1) limit with hlt | rfl | hgt
    · refine hfirst _ (List.mem_take_iff_getElem.mpr ⟨i, by omega, rfl⟩)
    · exact absurd (Nat.mod_self _) hmod
    · obtain ⟨j, rfl⟩ := Nat.exists_eq_add_of_le (show limit ≤ i by omega)
      have := hlater j (by rw [List.length_drop]; omega)
        (by rwa [Nat.add_assoc, Nat.add_mod_left] at hmod)
      simpa using this

/-- The next page goes on behind the entries of an exact page. -/
theorem listedAfter_last (h : entries.Pairwise fun a b => key a < key b) {last : α}
    (hlast : ((listedAfter key owner entries owners cursor).take limit).getLast? = some last) :
    listedAfter key owner entries owners (key last) =
      (listedAfter key owner entries owners cursor).drop limit := by
  have hsplit := List.take_append_drop limit (listedAfter key owner entries owners cursor)
  have hmem := List.mem_of_getLast? hlast
  have hcursor := (mem_listedAfter.mp (List.mem_of_mem_take hmem)).2.2
  have hsorted : (listedAfter key owner entries owners cursor).Pairwise fun a b => key a < key b :=
    h.sublist List.filter_sublist
  have hlater : listedAfter key owner entries owners (key last) =
      (listedAfter key owner entries owners cursor).filter fun a => key last < key a := by
    rw [listedAfter, listedAfter, List.filter_filter]
    congr 1
    funext a
    by_cases ha : key last < key a
    · simp [ha, hcursor.trans ha]
    · simp [ha]
  rw [← hsplit, List.pairwise_append] at hsorted
  rw [hlater]
  conv_lhs => rw [← hsplit, List.filter_append]
  have hbefore : ((listedAfter key owner entries owners cursor).take limit).filter
      (fun a => key last < key a) = [] := by
    rw [List.filter_eq_nil_iff]
    intro a ha
    obtain ⟨before, hbefore⟩ := List.getLast?_eq_some_iff.mp hlast
    have hle : key a ≤ key last := by
      rw [hbefore] at ha hsorted
      rcases List.mem_append.mp ha with ha | ha
      · exact ((List.pairwise_append.mp hsorted.1).2.2 a ha last List.mem_cons_self).le
      · rw [List.mem_singleton.mp ha]
    simpa using hle
  rw [hbefore, List.nil_append, List.filter_eq_self]
  exact fun a ha => decide_eq_true (hsorted.2.2 last hmem a ha)

theorem mergedPage_of_once (h : entries.Pairwise fun a b => key a < key b) (hlimit : 0 < limit)
    (honce : OnceWithinPages owner owners limit (listedAfter key owner entries owners cursor)) :
    mergedPage key owner entries owners limit cursor =
      (listedAfter key owner entries owners cursor).take limit := by
  have hpositive : ∀ a ∈ listedAfter key owner entries owners cursor,
      0 < owners.count (owner a) :=
    fun a ha => List.count_pos_iff.mpr (mem_listedAfter.mp ha).2.1
  have hnodup : (listedAfter key owner entries owners cursor).Nodup :=
    (h.sublist List.filter_sublist).imp fun hab heq => Nat.ne_of_lt hab (congrArg key heq)
  rw [mergedPage_eq h, take_repeated_iff hpositive hnodup]
  exact ((onceWithinPages_iff hlimit).mp honce).1

theorem mem_of_mem_mergedPage {a : α} (h : a ∈ mergedPage key owner entries owners limit cursor) :
    a ∈ entries := by
  have hparts := (List.mem_insertionSort _).mp (List.mem_of_mem_take h)
  obtain ⟨name, -, hname⟩ := List.mem_flatMap.mp hparts
  have hpart := (List.mem_insertionSort _).mp (List.mem_of_mem_take hname)
  exact List.mem_of_mem_filter hpart

theorem mem_of_mem_readPages {fuel : ℕ} {a : α}
    (h : a ∈ readPages key (mergedPage key owner entries owners limit) fuel cursor) :
    a ∈ entries := by
  induction fuel generalizing cursor with
  | zero => cases h
  | succ fuel ih =>
      rw [readPages_succ] at h
      rcases List.mem_append.mp h with hpage | hlater
      · exact mem_of_mem_mergedPage hpage
      · cases hlast : (mergedPage key owner entries owners limit cursor).getLast? with
        | none =>
            rw [hlast] at hlater
            cases hlater
        | some last =>
            rw [hlast] at hlater
            exact ih hlater

/-- A cut that begins another list is a cut of that list. -/
theorem take_eq_take_of_prefix {list whole : List α} (h : list.take limit <+: whole)
    (hlength : whole.length ≤ list.length) : list.take limit = whole.take limit := by
  rw [List.prefix_iff_eq_take.mp h, List.length_take]
  rcases le_total limit list.length with hle | hle
  · rw [Nat.min_eq_left hle]
  · rw [Nat.min_eq_right hle, List.take_of_length_le hlength,
      List.take_of_length_le (hlength.trans hle)]

/-- Reading page after page gives the listed entries, each once, exactly when an owner that is
listed more than once has only entries at the end of a full page. -/
theorem readPages_eq_iff (h : entries.Pairwise fun a b => key a < key b) (hlimit : 0 < limit)
    {fuel : ℕ} (hfuel : (listedAfter key owner entries owners cursor).length < fuel) :
    readPages key (mergedPage key owner entries owners limit) fuel cursor =
        listedAfter key owner entries owners cursor ↔
      OnceWithinPages owner owners limit (listedAfter key owner entries owners cursor) := by
  induction fuel generalizing cursor with
  | zero => exact absurd hfuel (Nat.not_lt_zero _)
  | succ fuel ih =>
      have hpositive : ∀ a ∈ listedAfter key owner entries owners cursor,
          0 < owners.count (owner a) :=
        fun a ha => List.count_pos_iff.mpr (mem_listedAfter.mp ha).2.1
      have hnodup : (listedAfter key owner entries owners cursor).Nodup :=
        (h.sublist List.filter_sublist).imp fun hab heq => Nat.ne_of_lt hab (congrArg key heq)
      have hlonger := length_le_length_repeated hpositive
      rw [onceWithinPages_iff hlimit, ← take_repeated_iff hpositive hnodup, readPages_succ,
        mergedPage_eq h]
      -- behind an exact page the same holds of the rest
      have hrest : (repeated owner owners (listedAfter key owner entries owners cursor)).take
          limit = (listedAfter key owner entries owners cursor).take limit →
          (((repeated owner owners (listedAfter key owner entries owners cursor)).take
            limit).getLast?.elim [] (fun last => readPages key
              (mergedPage key owner entries owners limit) fuel (key last)) =
                (listedAfter key owner entries owners cursor).drop limit ↔
            OnceWithinPages owner owners limit
              ((listedAfter key owner entries owners cursor).drop limit)) := by
        intro hpage
        rw [hpage]
        cases hlast : ((listedAfter key owner entries owners cursor).take limit).getLast? with
        | none =>
            have hempty : listedAfter key owner entries owners cursor = [] := by
              rcases List.take_eq_nil_iff.mp (List.getLast?_eq_none_iff.mp hlast) with hzero | hnil
              · exact absurd hzero hlimit.ne'
              · exact hnil
            rw [hempty, List.drop_nil]
            exact iff_of_true rfl fun i hi => absurd hi (Nat.not_lt_zero i)
        | some last =>
            have hlater := listedAfter_last h hlast
            have hshorter : (listedAfter key owner entries owners cursor).length ≠ 0 := by
              have hmem := List.mem_of_mem_take (List.mem_of_getLast? hlast)
              exact (List.length_pos_of_mem hmem).ne'
            rw [← hlater]
            refine ih ?_
            rw [hlater, List.length_drop]
            omega
      constructor
      · intro hread
        have hpage := take_eq_take_of_prefix ⟨_, hread⟩ hlonger
        refine ⟨hpage, (hrest hpage).mp ?_⟩
        rw [hpage] at hread ⊢
        exact List.append_cancel_left (hread.trans (List.take_append_drop limit _).symm)
      · intro hexact
        rw [(hrest hexact.1).mpr hexact.2, hexact.1, List.take_append_drop]

end Merging

end Hseos
