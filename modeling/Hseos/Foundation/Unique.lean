import Mathlib.Data.List.Nodup

/-! # First occurrences

The elements of a list without repetitions, in the order in which they first
occur: what a set built from a list is iterated as.
-/

namespace Hseos

variable {α : Type} [DecidableEq α]

/-- `[...new Set(list)]`. -/
def unique : List α → List α
  | [] => []
  | a :: rest => a :: (unique rest).filter (· ≠ a)

@[simp] theorem unique_nil : unique ([] : List α) = [] := rfl

@[simp] theorem mem_unique {a : α} {list : List α} : a ∈ unique list ↔ a ∈ list := by
  induction list with
  | nil => simp
  | cons b rest ih =>
      by_cases hab : a = b
      · simp [unique, hab]
      · simp [unique, hab, ih]

theorem nodup_unique (list : List α) : (unique list).Nodup := by
  induction list with
  | nil => exact List.nodup_nil
  | cons b rest ih =>
      rw [unique, List.nodup_cons]
      exact ⟨by simp, ih.filter _⟩

theorem unique_append (first second : List α) :
    unique (first ++ second) = unique first ++ (unique second).filter (· ∉ first) := by
  induction first with
  | nil => simp
  | cons a rest ih =>
      rw [List.cons_append, unique, ih, unique, List.cons_append, List.filter_append,
        List.filter_filter]
      congr 2
      apply List.filter_congr
      intro b _
      by_cases hb : b = a <;> simp [hb]

/-- What occurs in the first list adds nothing in the second. -/
theorem unique_append_of_subset {first second : List α} (h : ∀ a ∈ second, a ∈ first) :
    unique (first ++ second) = unique first := by
  rw [unique_append, List.filter_eq_nil_iff.mpr, List.append_nil]
  intro a ha
  simpa using h a (mem_unique.mp ha)

/-- A repeated start changes nothing. -/
theorem unique_append_self (first second : List α) :
    unique (first ++ (first ++ second)) = unique (first ++ second) := by
  rw [← List.append_assoc, unique_append (first ++ first), unique_append first second,
    unique_append_of_subset fun a ha => ha]
  congr 1
  apply List.filter_congr
  intro a _
  simp

end Hseos
