import Hseos.Foundation.Run
import Mathlib.Data.List.Nodup
import Mathlib.Data.List.Perm.Basic

/-! # Greedy selection

Selections from a list of candidates by a test that may itself fail: entries are
added while the selection passes, or dropped from the end until what is left does.
-/

namespace Hseos

variable {α ε : Type} (fits : List α → Except ε Bool)

/-- Adds entries until one does not fit, and returns the selection and what is left. -/
def takeFitting (selected : List α) : List α → Except ε (List α × List α)
  | [] => return (selected, [])
  | entry :: rest => do
      if ← fits (selected ++ [entry]) then takeFitting (selected ++ [entry]) rest
      else return (selected, entry :: rest)

/-- Adds every entry that fits, and returns the selection and the others. -/
def filterFitting (selected : List α) : List α → Except ε (List α × List α)
  | [] => return (selected, [])
  | entry :: rest => do
      if ← fits (selected ++ [entry]) then filterFitting (selected ++ [entry]) rest
      else
        let (kept, omitted) ← filterFitting selected rest
        return (kept, entry :: omitted)

/-- Drops the first entries of a list in reverse until the list fits, and returns the list and
what was dropped. An empty list is not tested. -/
def retainFitting : List α → Except ε (List α × List α)
  | [] => return ([], [])
  | last :: front => do
      if ← fits (front.reverse ++ [last]) then return (front.reverse ++ [last], [])
      else
        let (kept, dropped) ← retainFitting front
        return (kept, last :: dropped)

section

variable {fits} {selected list kept left : List α}

/-- Entries are taken from the front. -/
theorem takeFitting_eq_ok (h : takeFitting fits selected list = .ok (kept, left)) :
    ∃ taken, kept = selected ++ taken ∧ list = taken ++ left := by
  induction list generalizing selected with
  | nil =>
      obtain ⟨rfl, rfl⟩ := Prod.mk.inj (pure_eq_ok_iff.mp h)
      exact ⟨[], by simp⟩
  | cons entry rest ih =>
      obtain ⟨fit, hfit, h⟩ := bind_eq_ok_iff.mp h
      cases fit with
      | true =>
          obtain ⟨taken, rfl, rfl⟩ := ih h
          exact ⟨entry :: taken, by simp⟩
      | false =>
          obtain ⟨rfl, rfl⟩ := Prod.mk.inj (pure_eq_ok_iff.mp h)
          exact ⟨[], by simp⟩

/-- A selection that grew fits. -/
theorem takeFitting_fits (h : takeFitting fits selected list = .ok (kept, left)) :
    kept = selected ∨ fits kept = .ok true := by
  induction list generalizing selected with
  | nil =>
      obtain ⟨rfl, rfl⟩ := Prod.mk.inj (pure_eq_ok_iff.mp h)
      exact .inl rfl
  | cons entry rest ih =>
      obtain ⟨fit, hfit, h⟩ := bind_eq_ok_iff.mp h
      cases fit with
      | true =>
          rcases ih h with rfl | hkept
          · exact .inr hfit
          · exact .inr hkept
      | false =>
          obtain ⟨rfl, rfl⟩ := Prod.mk.inj (pure_eq_ok_iff.mp h)
          exact .inl rfl

/-- The selection keeps the order of the candidates, and the others are all that is left. -/
theorem filterFitting_eq_ok (h : filterFitting fits selected list = .ok (kept, left)) :
    ∃ taken, kept = selected ++ taken ∧ taken.Sublist list ∧ (taken ++ left).Perm list := by
  induction list generalizing selected left with
  | nil =>
      obtain ⟨rfl, rfl⟩ := Prod.mk.inj (pure_eq_ok_iff.mp h)
      exact ⟨[], by simp⟩
  | cons entry rest ih =>
      obtain ⟨fit, hfit, h⟩ := bind_eq_ok_iff.mp h
      cases fit with
      | true =>
          obtain ⟨taken, rfl, hsub, hperm⟩ := ih h
          exact ⟨entry :: taken, by simp, hsub.cons_cons entry, hperm.cons entry⟩
      | false =>
          obtain ⟨⟨kept', omitted⟩, hrest, h⟩ := bind_eq_ok_iff.mp h
          obtain ⟨rfl, rfl⟩ := Prod.mk.inj (pure_eq_ok_iff.mp h)
          obtain ⟨taken, rfl, hsub, hperm⟩ := ih hrest
          refine ⟨taken, rfl, hsub.cons entry, ?_⟩
          exact List.perm_middle.trans (hperm.cons entry)

theorem filterFitting_fits (h : filterFitting fits selected list = .ok (kept, left)) :
    kept = selected ∨ fits kept = .ok true := by
  induction list generalizing selected left with
  | nil =>
      obtain ⟨rfl, rfl⟩ := Prod.mk.inj (pure_eq_ok_iff.mp h)
      exact .inl rfl
  | cons entry rest ih =>
      obtain ⟨fit, hfit, h⟩ := bind_eq_ok_iff.mp h
      cases fit with
      | true =>
          rcases ih h with rfl | hkept
          · exact .inr hfit
          · exact .inr hkept
      | false =>
          obtain ⟨⟨kept', omitted⟩, hrest, h⟩ := bind_eq_ok_iff.mp h
          obtain ⟨rfl, rfl⟩ := Prod.mk.inj (pure_eq_ok_iff.mp h)
          exact ih hrest

/-- The list is what is kept and, in reverse, what was dropped. -/
theorem retainFitting_eq_ok (h : retainFitting fits list = .ok (kept, left)) :
    list.reverse = kept ++ left.reverse := by
  induction list generalizing left with
  | nil =>
      obtain ⟨rfl, rfl⟩ := Prod.mk.inj (pure_eq_ok_iff.mp h)
      rfl
  | cons last front ih =>
      obtain ⟨fit, hfit, h⟩ := bind_eq_ok_iff.mp h
      cases fit with
      | true =>
          obtain ⟨rfl, rfl⟩ := Prod.mk.inj (pure_eq_ok_iff.mp h)
          simp
      | false =>
          obtain ⟨⟨kept', dropped⟩, hfront, h⟩ := bind_eq_ok_iff.mp h
          obtain ⟨rfl, rfl⟩ := Prod.mk.inj (pure_eq_ok_iff.mp h)
          rw [List.reverse_cons, ih hfront, List.reverse_cons, List.append_assoc]

theorem retainFitting_self (hkept : kept = [] ∨ fits kept = .ok true) :
    retainFitting fits kept.reverse = .ok (kept, []) := by
  induction kept using List.reverseRecOn with
  | nil => rfl
  | append_singleton front last =>
      have hfits := hkept.resolve_left (by simp)
      rw [List.reverse_concat, retainFitting, List.reverse_reverse, hfits]
      rfl

/-- A list is cut back to a start that fits exactly if every longer start fails the test. -/
theorem retainFitting_iff (hkept : kept = [] ∨ fits kept = .ok true) :
    retainFitting fits (kept ++ left).reverse = .ok (kept, left.reverse) ↔
      ∀ longer, longer <+: left → longer ≠ [] → fits (kept ++ longer) = .ok false := by
  induction left using List.reverseRecOn with
  | nil =>
      simp only [List.append_nil, List.reverse_nil, retainFitting_self hkept, true_iff]
      intro longer hlonger hne
      exact absurd (List.prefix_nil.mp hlonger) hne
  | append_singleton front last ih =>
      have hlast : (kept ++ (front ++ [last])).reverse = last :: (kept ++ front).reverse := by
        rw [← List.append_assoc, List.reverse_concat]
      rw [hlast, retainFitting, List.reverse_reverse, List.append_assoc, List.reverse_concat,
        bind_eq_ok_iff]
      constructor
      · rintro ⟨fit, hfit, h⟩ longer hlonger hne
        cases fit with
        | true =>
            obtain ⟨-, hleft⟩ := Prod.mk.inj (pure_eq_ok_iff.mp h)
            cases hleft
        | false =>
            obtain ⟨⟨kept', dropped⟩, hfront, h⟩ := bind_eq_ok_iff.mp h
            obtain ⟨rfl, hdropped⟩ := Prod.mk.inj (pure_eq_ok_iff.mp h)
            obtain rfl := List.cons_inj_right last |>.mp hdropped
            rcases List.prefix_concat_iff.mp hlonger with rfl | hlonger
            · exact hfit
            · exact ih.mp hfront longer hlonger hne
      · intro h
        refine ⟨false, h _ (List.prefix_refl _) (by simp), ?_⟩
        have hfront := ih.mpr fun longer hlonger hne =>
          h longer (hlonger.trans (List.prefix_append _ _)) hne
        simp only [Bool.false_eq_true, if_false, hfront]
        rfl

end

/-- Parts of a list without repetitions are equal when they have the same entries. -/
theorem eq_of_sublist_of_mem_iff {list first second : List α} (hnodup : list.Nodup)
    (hfirst : first.Sublist list) (hsecond : second.Sublist list)
    (h : ∀ a ∈ list, a ∈ first ↔ a ∈ second) : first = second := by
  induction list generalizing first second with
  | nil =>
      obtain rfl := List.sublist_nil.mp hfirst
      exact (List.sublist_nil.mp hsecond).symm
  | cons entry rest ih =>
      rw [List.nodup_cons] at hnodup
      have hrest : ∀ {part : List α}, part.Sublist rest → entry ∉ part :=
        fun hpart hmem => hnodup.1 (hpart.subset hmem)
      have hentry := h entry List.mem_cons_self
      have htail : ∀ a ∈ rest, a ≠ entry := fun a ha heq => hnodup.1 (heq ▸ ha)
      cases hfirst with
      | cons _ hfirst =>
          cases hsecond with
          | cons _ hsecond =>
              exact ih hnodup.2 hfirst hsecond fun a ha => h a (List.mem_cons_of_mem _ ha)
          | cons_cons _ hsecond =>
              exact absurd (hentry.mpr List.mem_cons_self) (hrest hfirst)
      | cons_cons _ hfirst =>
          cases hsecond with
          | cons _ hsecond =>
              exact absurd (hentry.mp List.mem_cons_self) (hrest hsecond)
          | cons_cons _ hsecond =>
              rw [ih hnodup.2 hfirst hsecond]
              intro a ha
              simpa [htail a ha] using h a (List.mem_cons_of_mem _ ha)

/-! ## Complements by a key -/

section

variable {κ : Type} [BEq κ] [LawfulBEq κ] {key : α → κ} {list front back : List α}

theorem filter_back_of_nodup (h : ((front ++ back).map key).Nodup) :
    (front ++ back).filter (key · ∈ back.map key) = back := by
  rw [List.map_append, List.nodup_append'] at h
  have hfront : front.filter (key · ∈ back.map key) = [] := by
    rw [List.filter_eq_nil_iff]
    intro a ha
    simpa using List.disjoint_left.mp h.2.2 (List.mem_map_of_mem ha)
  have hback : back.filter (key · ∈ back.map key) = back := by
    rw [List.filter_eq_self]
    intro a ha
    simpa using ⟨a, ha, rfl⟩
  rw [List.filter_append, hfront, hback, List.nil_append]

theorem filter_front_of_nodup (h : ((front ++ back).map key).Nodup) :
    (front ++ back).filter (key · ∈ front.map key) = front := by
  rw [List.map_append, List.nodup_append'] at h
  have hfront : front.filter (key · ∈ front.map key) = front := by
    rw [List.filter_eq_self]
    intro a ha
    simpa using ⟨a, ha, rfl⟩
  have hback : back.filter (key · ∈ front.map key) = [] := by
    rw [List.filter_eq_nil_iff]
    intro a ha
    simpa using List.disjoint_right.mp h.2.2 (List.mem_map_of_mem ha)
  rw [List.filter_append, hfront, hback, List.append_nil]

theorem filter_outside_back_of_nodup (h : ((front ++ back).map key).Nodup) :
    (front ++ back).filter (key · ∉ back.map key) = front := by
  rw [List.map_append, List.nodup_append'] at h
  have hfront : front.filter (key · ∉ back.map key) = front := by
    rw [List.filter_eq_self]
    intro a ha
    simpa using List.disjoint_left.mp h.2.2 (List.mem_map_of_mem ha)
  have hback : back.filter (key · ∉ back.map key) = [] := by
    rw [List.filter_eq_nil_iff]
    intro a ha
    simpa using ⟨a, ha, rfl⟩
  rw [List.filter_append, hfront, hback, List.append_nil]

/-- What a selection leaves out completes it. -/
theorem append_filter_outside_perm {selected : List α} (h : (list.map key).Nodup)
    (hselected : selected.Nodup) (hsub : selected ⊆ list) :
    (selected ++ list.filter (key · ∉ selected.map key)).Perm list := by
  have hlist : list.Nodup := h.of_map key
  rw [List.perm_ext_iff_of_nodup _ hlist]
  · intro a
    rw [List.mem_append, List.mem_filter]
    constructor
    · rintro (ha | ⟨ha, -⟩)
      · exact hsub ha
      · exact ha
    · intro ha
      by_cases hkey : key a ∈ selected.map key
      · obtain ⟨b, hb, hab⟩ := List.mem_map.mp hkey
        exact .inl (List.inj_on_of_nodup_map h (hsub hb) ha hab ▸ hb)
      · exact .inr ⟨ha, by simpa using hkey⟩
  · rw [List.nodup_append']
    refine ⟨hselected, hlist.filter _, ?_⟩
    intro a ha houtside
    exact absurd (List.mem_map_of_mem ha) (by simpa using (List.mem_filter.mp houtside).2)

end

end Hseos
