import Mathlib.Data.List.Nodup
import Mathlib.Data.List.Sort
import Hseos.Foundation.Text

/-! # Plain objects used as maps

A plain object literal keeps its own properties in a fixed order and still
answers for the names every object inherits from `Object.prototype`. Both facts
are visible to a program that indexes such an object by caller-chosen names, so
a lookup here distinguishes an own property, an inherited one and an absent one.
-/

namespace Hseos

/-- A type whose values name properties. -/
class PropertyKey (κ : Type) where
  text : κ → String

instance : PropertyKey String := ⟨id⟩

instance {p : String → Prop} : PropertyKey {s : String // p s} := ⟨Subtype.val⟩

/-- The property names that `Object.prototype` gives to every plain object. -/
def objectPrototypeKeys : List String :=
  ["constructor", "__defineGetter__", "__defineSetter__", "hasOwnProperty",
    "__lookupGetter__", "__lookupSetter__", "isPrototypeOf", "propertyIsEnumerable",
    "toString", "valueOf", "__proto__", "toLocaleString"]

/-- The number a nonempty list of decimal digits denotes. -/
def decimal? (digits : List Char) : Option Nat :=
  if digits ≠ [] ∧ digits.all Char.isDigit then
    some (digits.foldl (fun n c => 10 * n + (c.toNat - 48)) 0)
  else none

/-- The number a property name denotes when it is an array index: canonical
decimal digits below `2 ^ 32 - 1`. -/
def arrayIndex? (name : String) : Option Nat :=
  (decimal? (chars name)).filter fun n => Nat.repr n = name ∧ n < 2 ^ 32 - 1

/-- Own-property order: array indices in ascending order, then the other names
in insertion order. -/
def propertyOrder {β : Type} (name : β → String) (entries : List β) : List β :=
  (entries.filter fun e => (arrayIndex? (name e)).isSome).insertionSort
      (fun a b => (arrayIndex? (name a)).getD 0 ≤ (arrayIndex? (name b)).getD 0) ++
    entries.filter fun e => (arrayIndex? (name e)).isNone

theorem perm_propertyOrder {β : Type} (name : β → String) (entries : List β) :
    (propertyOrder name entries).Perm entries := by
  refine ((List.perm_insertionSort _ _).append_right _).trans ?_
  have hnone : (fun e => (arrayIndex? (name e)).isNone) =
      fun e => !(arrayIndex? (name e)).isSome := by
    funext e
    cases arrayIndex? (name e) <;> rfl
  rw [hnone]
  exact List.filter_append_perm _ _

theorem mem_propertyOrder {β : Type} {name : β → String} {entries : List β} {e : β} :
    e ∈ propertyOrder name entries ↔ e ∈ entries :=
  (perm_propertyOrder name entries).mem_iff

/-- With distinct keys, a search by key finds the one element that has it. -/
theorem find?_key_eq_some_iff {β γ : Type} [DecidableEq γ] {key : β → γ} {list : List β}
    (h : (list.map key).Nodup) {k : γ} {e : β} :
    list.find? (fun e => key e = k) = some e ↔ e ∈ list ∧ key e = k := by
  constructor
  · intro hfind
    exact ⟨List.mem_of_find?_eq_some hfind, by simpa using List.find?_some hfind⟩
  · rintro ⟨hmem, hkey⟩
    cases hfind : list.find? (fun e => key e = k) with
    | none => exact absurd hkey (by simpa using List.find?_eq_none.mp hfind e hmem)
    | some found =>
        have hfound : key found = k := by simpa using List.find?_some hfind
        rw [List.inj_on_of_nodup_map h (List.mem_of_find?_eq_some hfind) hmem
          (hfound.trans hkey.symm)]

/-- With distinct keys, a search by key does not depend on the order. -/
theorem find?_key_of_perm {β γ : Type} [DecidableEq γ] {key : β → γ} {list other : List β}
    (hperm : other.Perm list) (h : (list.map key).Nodup) (k : γ) :
    other.find? (fun e => key e = k) = list.find? fun e => key e = k := by
  have hother : (other.map key).Nodup := (hperm.map key).nodup_iff.mpr h
  ext e
  rw [find?_key_eq_some_iff hother, find?_key_eq_some_iff h, hperm.mem_iff]

/-- What reading a property of a plain object finds. -/
inductive Slot (α : Type) where
  | own (value : α)
  | inherited
  | absent
  deriving DecidableEq, Repr

namespace Slot

variable {α : Type}

/-- An inherited property is a function, hence truthy, like any own record. -/
def truthy : Slot α → Bool
  | absent => false
  | _ => true

def own? : Slot α → Option α
  | own value => some value
  | _ => none

@[simp] theorem truthy_own (value : α) : (own value).truthy = true := rfl
@[simp] theorem truthy_inherited : (inherited : Slot α).truthy = true := rfl
@[simp] theorem truthy_absent : (absent : Slot α).truthy = false := rfl
@[simp] theorem own?_own (value : α) : (own value).own? = some value := rfl
@[simp] theorem own?_inherited : (inherited : Slot α).own? = none := rfl
@[simp] theorem own?_absent : (absent : Slot α).own? = none := rfl

end Slot

/-- A plain object with keys `κ`: its own entries in insertion order. -/
structure JsObject (κ α : Type) where
  entries : List (κ × α)
  nodup : (entries.map Prod.fst).Nodup
  deriving DecidableEq

namespace JsObject

variable {κ α : Type}

def empty : JsObject κ α := ⟨[], List.nodup_nil⟩

instance : EmptyCollection (JsObject κ α) := ⟨empty⟩

/-- `Object.keys(o).length`. -/
def size (o : JsObject κ α) : Nat := o.entries.length

/-- `Object.values(o)`. -/
def values [PropertyKey κ] (o : JsObject κ α) : List α :=
  (propertyOrder (fun e => PropertyKey.text e.1) o.entries).map Prod.snd

theorem perm_values [PropertyKey κ] (o : JsObject κ α) :
    o.values.Perm (o.entries.map Prod.snd) :=
  (perm_propertyOrder _ _).map _

variable [DecidableEq κ]

/-- The own property stored under a key. -/
def get? (o : JsObject κ α) (k : κ) : Option α :=
  (o.entries.find? (fun e => e.1 = k)).map Prod.snd

/-- `o[k]`, with the inherited names of a plain object. -/
def slot [PropertyKey κ] (o : JsObject κ α) (k : κ) : Slot α :=
  match o.get? k with
  | some value => .own value
  | none => if PropertyKey.text k ∈ objectPrototypeKeys then .inherited else .absent

/-- `o[k] = value`: an existing property keeps its place, a new one is added last. -/
def set (o : JsObject κ α) (k : κ) (value : α) : JsObject κ α :=
  if h : k ∈ o.entries.map Prod.fst then
    { entries := o.entries.map fun e => if e.1 = k then (k, value) else e
      nodup := by
        have hkeys : (o.entries.map fun e => if e.1 = k then (k, value) else e).map Prod.fst =
            o.entries.map Prod.fst := by
          rw [List.map_map]
          apply List.map_congr_left
          intro e _
          by_cases he : e.1 = k <;> simp [he]
        rw [hkeys]
        exact o.nodup }
  else
    { entries := o.entries ++ [(k, value)]
      nodup := by
        rw [List.map_append, List.map_cons, List.map_nil]
        exact o.nodup.append (List.nodup_singleton k) (by simpa using h) }

theorem get?_eq_some_iff {o : JsObject κ α} {k : κ} {value : α} :
    o.get? k = some value ↔ (k, value) ∈ o.entries := by
  rw [get?, Option.map_eq_some_iff]
  simp only [find?_key_eq_some_iff o.nodup]
  constructor
  · rintro ⟨⟨key, found⟩, ⟨hmem, rfl⟩, rfl⟩
    exact hmem
  · intro hmem
    exact ⟨(k, value), ⟨hmem, rfl⟩, rfl⟩

theorem mem_entries_set {o : JsObject κ α} {k k' : κ} {value value' : α} :
    (k', value') ∈ (o.set k value).entries ↔
      (k' = k ∧ value' = value) ∨ (k' ≠ k ∧ (k', value') ∈ o.entries) := by
  unfold set
  split
  next h =>
    simp only [List.mem_map, Prod.exists]
    constructor
    · rintro ⟨key, found, hmem, heq⟩
      by_cases hkey : key = k
      · rw [if_pos hkey] at heq
        exact Or.inl ⟨(Prod.mk.inj heq).1.symm, (Prod.mk.inj heq).2.symm⟩
      · rw [if_neg hkey] at heq
        obtain ⟨rfl, rfl⟩ := Prod.mk.inj heq
        exact Or.inr ⟨hkey, hmem⟩
    · rintro (⟨rfl, rfl⟩ | ⟨hne, hmem⟩)
      · obtain ⟨⟨key, found⟩, hmem, rfl⟩ := List.mem_map.mp h
        exact ⟨key, found, hmem, if_pos rfl⟩
      · exact ⟨k', value', hmem, if_neg hne⟩
  next h =>
    simp only [List.mem_append, List.mem_singleton, Prod.mk.injEq]
    constructor
    · rintro (hmem | heq)
      · exact Or.inr ⟨fun hk => h (hk ▸ List.mem_map_of_mem (f := Prod.fst) hmem), hmem⟩
      · exact Or.inl heq
    · rintro (heq | ⟨_, hmem⟩)
      · exact Or.inr heq
      · exact Or.inl hmem

@[simp] theorem get?_empty (k : κ) : (∅ : JsObject κ α).get? k = none := rfl

@[simp] theorem get?_set_self (o : JsObject κ α) (k : κ) (value : α) :
    (o.set k value).get? k = some value :=
  get?_eq_some_iff.mpr (mem_entries_set.mpr (Or.inl ⟨rfl, rfl⟩))

theorem get?_set_of_ne (o : JsObject κ α) {k k' : κ} (h : k' ≠ k) (value : α) :
    (o.set k value).get? k' = o.get? k' := by
  ext found
  rw [get?_eq_some_iff, get?_eq_some_iff, mem_entries_set]
  simp [h]

theorem get?_set (o : JsObject κ α) (k k' : κ) (value : α) :
    (o.set k value).get? k' = if k' = k then some value else o.get? k' := by
  by_cases h : k' = k
  · rw [if_pos h, h, get?_set_self]
  · rw [if_neg h, get?_set_of_ne o h]

/-- A new property is added last. -/
theorem entries_set_of_fresh {o : JsObject κ α} {k : κ} (h : o.get? k = none) (value : α) :
    (o.set k value).entries = o.entries ++ [(k, value)] := by
  have hmem : k ∉ o.entries.map Prod.fst := by
    intro hk
    obtain ⟨⟨_, found⟩, hfound, rfl⟩ := List.mem_map.mp hk
    rw [get?_eq_some_iff.mpr hfound] at h
    cases h
  simp [set, hmem]

/-- What holds of every property and of the one that is set holds after the assignment. -/
theorem forall_get?_set {P : κ → α → Prop} {o : JsObject κ α} {k : κ} {value : α}
    (h : ∀ k' found, o.get? k' = some found → P k' found) (hvalue : P k value) :
    ∀ k' found, (o.set k value).get? k' = some found → P k' found := by
  intro k' found hget
  rw [get?_set] at hget
  split at hget
  next hk =>
    obtain rfl := Option.some.inj hget
    exact hk ▸ hvalue
  next hk => exact h k' found hget

/-- A new property adds one to the size. -/
theorem size_set_of_fresh {o : JsObject κ α} {k : κ} (h : o.get? k = none) (value : α) :
    (o.set k value).size = o.size + 1 := by
  rw [size, entries_set_of_fresh h, List.length_append, List.length_singleton, size]

/-- An existing property keeps the size. -/
theorem size_set_of_get? {o : JsObject κ α} {k : κ} {old : α} (h : o.get? k = some old)
    (value : α) : (o.set k value).size = o.size := by
  have hmem : k ∈ o.entries.map Prod.fst :=
    List.mem_map.mpr ⟨_, get?_eq_some_iff.mp h, rfl⟩
  simp [size, set, hmem]

variable [PropertyKey κ]

/-- A sum over the values grows by the term of a new property. -/
theorem sum_values_set_of_fresh {o : JsObject κ α} {k : κ} (h : o.get? k = none) (value : α)
    (f : α → Nat) : ((o.set k value).values.map f).sum = (o.values.map f).sum + f value := by
  rw [((o.set k value).perm_values.map f).sum_nat, (o.perm_values.map f).sum_nat,
    entries_set_of_fresh h]
  simp

/-- A sum over the values stays when the term of the property does. -/
theorem sum_values_set_of_eq {o : JsObject κ α} {k : κ} {old value : α} {f : α → Nat}
    (h : o.get? k = some old) (hf : f value = f old) :
    ((o.set k value).values.map f).sum = (o.values.map f).sum := by
  rw [((o.set k value).perm_values.map f).sum_nat, (o.perm_values.map f).sum_nat]
  have hmem : k ∈ o.entries.map Prod.fst :=
    List.mem_map.mpr ⟨_, get?_eq_some_iff.mp h, rfl⟩
  simp only [set, hmem, dite_true, List.map_map]
  apply congrArg List.sum
  apply List.map_congr_left
  intro e he
  by_cases hk : e.1 = k
  · have hvalue : o.get? k = some e.2 := get?_eq_some_iff.mpr (hk ▸ he)
    rw [Option.some.inj (h.symm.trans hvalue)] at hf
    simp [hk, hf]
  · simp [hk]

/-- The only property of an object is the one that is set. -/
theorem values_set_of_only {o : JsObject κ α} {k : κ} (value : α)
    (h : ∀ k' found, o.get? k' = some found → k' = k) : (o.set k value).values = [value] := by
  have hkeys : ∀ e ∈ (o.set k value).entries, e = (k, value) := by
    rintro ⟨k', found⟩ he
    rcases mem_entries_set.mp he with ⟨rfl, rfl⟩ | ⟨hne, he⟩
    · rfl
    · exact absurd (h k' found (get?_eq_some_iff.mpr he)) hne
  have hreplicate := List.eq_replicate_of_mem hkeys
  have hnodup := (o.set k value).nodup
  have hone : (o.set k value).entries.length = 1 := by
    rw [hreplicate, List.map_replicate, List.nodup_replicate] at hnodup
    have hpos : 0 < (o.set k value).entries.length :=
      List.length_pos_of_mem (mem_entries_set.mpr (.inl ⟨rfl, rfl⟩))
    omega
  have hvalues := (o.set k value).perm_values
  rw [hreplicate, hone] at hvalues
  exact List.perm_singleton.mp hvalues

theorem mem_values {o : JsObject κ α} {value : α} :
    value ∈ o.values ↔ ∃ k, o.get? k = some value := by
  simp only [values, List.mem_map, mem_propertyOrder, get?_eq_some_iff, Prod.exists,
    exists_eq_right]

theorem slot_eq_own_iff {o : JsObject κ α} {k : κ} {value : α} :
    o.slot k = .own value ↔ o.get? k = some value := by
  unfold slot
  cases o.get? k with
  | some found => simp
  | none => simp only [reduceCtorEq, iff_false]; split <;> simp

theorem own?_slot (o : JsObject κ α) (k : κ) : (o.slot k).own? = o.get? k := by
  unfold slot
  cases o.get? k with
  | some found => rfl
  | none => dsimp only; split <;> rfl

theorem get?_eq_none_of_slot_not_truthy {o : JsObject κ α} {k : κ}
    (h : (o.slot k).truthy = false) : o.get? k = none := by
  unfold slot at h
  cases hget : o.get? k with
  | some found => simp [hget] at h
  | none => rfl

end JsObject

end Hseos
