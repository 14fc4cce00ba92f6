import Hseos.Foundation.Run
import Mathlib.Data.List.Perm.Basic

/-! # Checked lists of distinct items

A list is accepted when every item passes a check and no two of the results have one key.
The check may name the index of the item in its errors; what is accepted does not depend
on it, and neither on the order of the items.
-/

namespace Hseos

variable {α β κ ε : Type}

/-- `items.map(f)`, for a function that may throw, from the index of the first item on. -/
def mapIndexed (f : α → Nat → Except ε β) (index : Nat) : List α → Except ε (List β)
  | [] => .ok []
  | item :: rest => do
      let first ← f item index
      let others ← mapIndexed f (index + 1) rest
      return first :: others

section

variable {f : α → Nat → Except ε β} {g : α → Option β}

theorem mapIndexed_eq_ok_iff (hf : ∀ item index result, f item index = .ok result ↔
    g item = some result) {index : Nat} {items : List α} {results : List β} :
    mapIndexed f index items = .ok results ↔
      (∀ item ∈ items, (g item).isSome) ∧ items.filterMap g = results := by
  induction items generalizing index results with
  | nil => simp [mapIndexed]
  | cons item rest ih =>
      simp only [mapIndexed, bind_eq_ok_iff, pure_eq_ok_iff, hf, ih, List.forall_mem_cons]
      constructor
      · rintro ⟨first, hfirst, others, ⟨hrest, hothers⟩, rfl⟩
        refine ⟨⟨by rw [hfirst]; rfl, hrest⟩, ?_⟩
        rw [List.filterMap_cons_some hfirst, hothers]
      · rintro ⟨⟨hitem, hrest⟩, hresults⟩
        obtain ⟨first, hfirst⟩ := Option.isSome_iff_exists.mp hitem
        rw [List.filterMap_cons_some hfirst] at hresults
        exact ⟨first, hfirst, _, ⟨hrest, rfl⟩, hresults⟩

end

/-- The results of a checked list whose keys must be distinct. -/
def mapDistinct [DecidableEq κ] (f : α → Nat → Except ε β) (key : β → κ) (repeated : ε)
    (items : List α) : Except ε (List β) := do
  let results ← mapIndexed f 0 items
  reject (!decide (results.map key).Nodup) repeated
  return results

section

variable [DecidableEq κ] {f : α → Nat → Except ε β} {g : α → Option β} {key : β → κ} {repeated : ε}
  {items others : List α} {results : List β}

theorem mapDistinct_eq_ok_iff (hf : ∀ item index result, f item index = .ok result ↔
    g item = some result) : mapDistinct f key repeated items = .ok results ↔
      (∀ item ∈ items, (g item).isSome) ∧ (results.map key).Nodup ∧
        items.filterMap g = results := by
  simp only [mapDistinct, bind_eq_ok_iff, reject_eq_ok_iff, pure_eq_ok_iff,
    mapIndexed_eq_ok_iff hf, Bool.not_eq_false', decide_eq_true_eq]
  constructor
  · rintro ⟨_, ⟨hvalid, hresults⟩, _, hnodup, rfl⟩
    exact ⟨hvalid, hnodup, hresults⟩
  · rintro ⟨hvalid, hnodup, hresults⟩
    exact ⟨results, ⟨hvalid, hresults⟩, (), hnodup, rfl⟩

/-- Items in another order are accepted alike. -/
theorem mapDistinct_of_perm (hf : ∀ item index result, f item index = .ok result ↔
    g item = some result) (hperm : others.Perm items)
    (h : mapDistinct f key repeated items = .ok results) :
    ∃ sorted, mapDistinct f key repeated others = .ok sorted ∧ sorted.Perm results := by
  obtain ⟨hvalid, hnodup, rfl⟩ := (mapDistinct_eq_ok_iff hf).mp h
  have hresults : (others.filterMap g).Perm (items.filterMap g) := hperm.filterMap g
  refine ⟨_, (mapDistinct_eq_ok_iff hf).mpr ⟨?_, ?_, rfl⟩, hresults⟩
  · intro item hitem
    exact hvalid item (hperm.mem_iff.mp hitem)
  · exact (hresults.map key).nodup_iff.mpr hnodup

/-- What is left when an item is taken away is accepted as it was. -/
theorem mapDistinct_of_cons (hf : ∀ item index result, f item index = .ok result ↔
    g item = some result) {item : α}
    (h : mapDistinct f key repeated (item :: items) = .ok results) :
    ∃ result rest, g item = some result ∧ mapDistinct f key repeated items = .ok rest ∧
      results = result :: rest := by
  obtain ⟨hvalid, hnodup, hresults⟩ := (mapDistinct_eq_ok_iff hf).mp h
  rw [List.forall_mem_cons] at hvalid
  obtain ⟨result, hresult⟩ := Option.isSome_iff_exists.mp hvalid.1
  rw [List.filterMap_cons_some hresult] at hresults
  subst hresults
  refine ⟨result, _, hresult, (mapDistinct_eq_ok_iff hf).mpr ⟨hvalid.2, ?_, rfl⟩, rfl⟩
  rw [List.map_cons, List.nodup_cons] at hnodup
  exact hnodup.2

end

/-- A traversal of the same items in another order has the same results in another order. -/
theorem mapM_of_perm {f : α → Except ε β} {items others : List α} {results : List β}
    (hperm : items.Perm others) (h : items.mapM f = .ok results) :
    ∃ permuted, others.mapM f = .ok permuted ∧ permuted.Perm results := by
  induction hperm generalizing results with
  | nil => exact ⟨results, h, .refl _⟩
  | cons item _ ih =>
      rw [List.mapM_cons] at h
      obtain ⟨first, hfirst, h⟩ := bind_eq_ok_iff.mp h
      obtain ⟨rest, hrest, h⟩ := bind_eq_ok_iff.mp h
      rw [pure_eq_ok_iff] at h
      subst h
      obtain ⟨permuted, hpermuted, hsame⟩ := ih hrest
      refine ⟨first :: permuted, ?_, hsame.cons first⟩
      rw [List.mapM_cons, hfirst, ok_bind, hpermuted]
      rfl
  | swap a b _ =>
      simp only [List.mapM_cons, bind_eq_ok_iff, pure_eq_ok_iff] at h
      obtain ⟨second, hsecond, _, ⟨first, hfirst, rest, hrest, rfl⟩, rfl⟩ := h
      refine ⟨first :: second :: rest, ?_, .swap second first rest⟩
      simp only [List.mapM_cons, hfirst, hsecond, hrest, ok_bind]
      rfl
  | trans _ _ ihfirst ihsecond =>
      obtain ⟨middle, hmiddle, hsame⟩ := ihfirst h
      obtain ⟨permuted, hpermuted, hother⟩ := ihsecond hmiddle
      exact ⟨permuted, hpermuted, hother.trans hsame⟩

end Hseos
