import Mathlib.Data.List.Basic
import Mathlib.Data.List.Nodup
import Mathlib.Data.List.Range

/-! # Numbered lists

Lists whose elements carry the numbers from one on, and the ranges of them that
are selected by number.
-/

namespace Hseos

variable {α : Type} {number : α → Nat} {list more : List α} {a : α} {n : Nat}

/-- The elements carry the numbers from one on. -/
def Numbered (number : α → Nat) (list : List α) : Prop :=
  list.map number = List.range' 1 list.length

theorem foldl_max_range' (n : Nat) : (List.range' 1 n).foldl max 0 = n := by
  induction n with
  | zero => rfl
  | succ n ih => rw [List.range'_concat, List.foldl_append, ih]; simp; omega

namespace Numbered

theorem nil : Numbered number [] := rfl

theorem foldl_max (h : Numbered number list) : (list.map number).foldl max 0 = list.length := by
  rw [h, foldl_max_range']

theorem getElem (h : Numbered number list) {i : Nat} (hi : i < list.length) :
    number list[i] = i + 1 := by
  have hi' : i < (list.map number).length := by simpa using hi
  have hmap : (list.map number)[i] = i + 1 := by
    simp only [show list.map number = List.range' 1 list.length from h, List.getElem_range']
    omega
  simpa using hmap

theorem pos_of_mem (h : Numbered number list) (ha : a ∈ list) : 1 ≤ number a := by
  obtain ⟨i, hi, rfl⟩ := List.getElem_of_mem ha
  rw [h.getElem hi]
  omega

theorem le_of_mem (h : Numbered number list) (ha : a ∈ list) : number a ≤ list.length := by
  obtain ⟨i, hi, rfl⟩ := List.getElem_of_mem ha
  rw [h.getElem hi]
  omega

/-- Different elements carry different numbers. -/
theorem inj (h : Numbered number list) {b : α} (ha : a ∈ list) (hb : b ∈ list)
    (hsame : number a = number b) : a = b := by
  have hnodup : (list.map number).Nodup := by
    rw [h]
    exact List.nodup_range'
  exact List.inj_on_of_nodup_map hnodup ha hb hsame

theorem append (h : Numbered number list)
    (hmore : more.map number = List.range' (list.length + 1) more.length) :
    Numbered number (list ++ more) := by
  rw [Numbered, List.map_append, h, hmore, List.length_append, Nat.add_comm list.length 1,
    List.range'_append_1]

theorem take (h : Numbered number list) (n : Nat) : Numbered number (list.take n) := by
  apply List.ext_getElem
  · simp
  · intro i hi _
    have hlist : i < list.length := by simp at hi; omega
    rw [List.getElem_map, List.getElem_take, h.getElem hlist, List.getElem_range']
    omega

/-- The elements numbered up to `n`. -/
theorem filter_le (h : Numbered number list) (n : Nat) :
    (list.filter fun a => number a ≤ n) = list.take n := by
  induction list using List.reverseRecOn with
  | nil => simp
  | append_singleton past a ih =>
      have hpast : Numbered number past := by
        simpa using h.take past.length
      have hnumber : number a = past.length + 1 := by
        simpa using h.getElem (show past.length < (past ++ [a]).length by simp)
      rw [List.filter_append, ih hpast, List.take_append]
      by_cases ha : past.length + 1 ≤ n
      · rw [List.filter_singleton, hnumber, decide_eq_true ha, List.take_of_length_le (l := [a])]
        · rfl
        · simp only [List.length_singleton]
          omega
      · rw [List.filter_singleton, hnumber, decide_eq_false ha,
          Nat.sub_eq_zero_of_le (by omega), List.take_zero]
        rfl

/-- The elements numbered from `n + 1` on. -/
theorem filter_gt (h : Numbered number list) (n : Nat) :
    (list.filter fun a => n + 1 ≤ number a) = list.drop n := by
  induction list using List.reverseRecOn with
  | nil => simp
  | append_singleton past a ih =>
      have hpast : Numbered number past := by
        simpa using h.take past.length
      have hnumber : number a = past.length + 1 := by
        simpa using h.getElem (show past.length < (past ++ [a]).length by simp)
      rw [List.filter_append, ih hpast, List.drop_append]
      by_cases ha : n ≤ past.length
      · rw [List.filter_singleton, hnumber, decide_eq_true (by omega),
          Nat.sub_eq_zero_of_le ha, List.drop_zero]
        rfl
      · rw [List.filter_singleton, hnumber, decide_eq_false (by omega),
          List.drop_of_length_le (l := [a])]
        · rfl
        · simp only [List.length_singleton]
          omega

end Numbered

end Hseos
