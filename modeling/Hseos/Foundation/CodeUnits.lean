import Hseos.Foundation.JsonParse
import Hseos.Foundation.Unique
import Mathlib.Data.List.Lex

/-! # The order of strings

Strings are ordered by their UTF-16 code units, and sorting the distinct strings of a
list forgets how they were listed.
-/

namespace Hseos

theorem chars_injective : Function.Injective chars := by
  intro a b h
  rw [← String.ofList_toList (s := a), ← String.ofList_toList (s := b)] at h ⊢
  rw [chars_ofList, chars_ofList] at h
  rw [h]

theorem utf16_injective : Function.Injective utf16 := by
  intro a b h
  have hchars : some (chars a) = some (chars b) := by
    rw [← ofUtf16_utf16, ← ofUtf16_utf16]
    exact congrArg ofUtf16 h
  exact chars_injective (Option.some.inj hchars)

instance : Std.Total codeUnitLe := ⟨fun a b => le_total (utf16 a) (utf16 b)⟩

instance : IsTrans String codeUnitLe := ⟨fun _ _ _ => le_trans⟩

instance : Std.Antisymm codeUnitLe := ⟨fun _ _ hab hba => utf16_injective (le_antisymm hab hba)⟩

/-- `list.sort()`. -/
def sortStrings (list : List String) : List String := list.insertionSort codeUnitLe

@[simp] theorem mem_sortStrings {list : List String} {s : String} :
    s ∈ sortStrings list ↔ s ∈ list := List.mem_insertionSort codeUnitLe

/-- Lists without repetitions that have the same strings are sorted alike. -/
theorem sortStrings_eq_of_mem_iff {list other : List String} (hlist : list.Nodup)
    (hother : other.Nodup) (h : ∀ s, s ∈ list ↔ s ∈ other) :
    sortStrings list = sortStrings other := by
  have hperm : (sortStrings list).Perm (sortStrings other) :=
    ((List.perm_insertionSort _ list).trans ((List.perm_ext_iff_of_nodup hlist hother).mpr h)).trans
      (List.perm_insertionSort _ other).symm
  exact hperm.eq_of_pairwise' (List.pairwise_insertionSort _ list)
    (List.pairwise_insertionSort _ other)

end Hseos
