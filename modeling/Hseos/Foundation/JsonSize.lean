import Hseos.Foundation.JsonOrder

/-! # Sizes of canonical texts

The bytes of a canonical text are counted member by member, in whatever order the
members were written.
-/

namespace Hseos

@[simp] theorem byteLength_nil : byteLength [] = 0 := rfl

@[simp] theorem byteLength_cons (c : Char) (text : List Char) :
    byteLength (c :: text) = (utf8Bytes c).length + byteLength text := by
  simp [byteLength, utf8]

@[simp] theorem byteLength_append (first second : List Char) :
    byteLength (first ++ second) = byteLength first + byteLength second := by
  simp [byteLength, utf8]

/-- The bytes of a text that is put together character by character. -/
theorem byteLength_flatMap (f : Char → List Char) (text : List Char) :
    byteLength (text.flatMap f) = (text.map fun c => byteLength (f c)).sum := by
  induction text with
  | nil => rfl
  | cons c rest ih => rw [List.flatMap_cons, byteLength_append, ih, List.map_cons, List.sum_cons]

theorem length_utf8Bytes_of_ascii {c : Char} (h : c.toNat < 0x80) : (utf8Bytes c).length = 1 := by
  simp [utf8Bytes, h]

theorem length_utf8Bytes_le (c : Char) : (utf8Bytes c).length ≤ 4 := by
  unfold utf8Bytes
  dsimp only
  split
  · simp
  · split
    · simp
    · split <;> simp

/-- A text of ASCII characters has one byte for each. -/
theorem byteLength_of_ascii {text : List Char} (h : ∀ c ∈ text, c.toNat < 0x80) :
    byteLength text = text.length := by
  induction text with
  | nil => rfl
  | cons c rest ih =>
      rw [byteLength_cons, length_utf8Bytes_of_ascii (h c List.mem_cons_self),
        ih fun d hd => h d (List.mem_cons_of_mem _ hd), List.length_cons, Nat.add_comm]

/-! ## Strings -/

theorem length_utf8Bytes_digitChar : ∀ n < 16, (utf8Bytes (Nat.digitChar n)).length = 1 := by
  decide

/-- A control character takes six bytes, and no character takes more. -/
theorem byteLength_escapeChar_le (c : Char) : byteLength (escapeChar c) ≤ 6 := by
  have hc := length_utf8Bytes_le c
  have hbackslash : (utf8Bytes '\\').length = 1 := by decide
  unfold escapeChar
  split
  case h_1 | h_2 => simp only [byteLength_cons, byteLength_nil, hbackslash]; omega
  case h_8 n _ _ _ _ _ _ _ =>
    split
    next hcontrol =>
      have hzero : (utf8Bytes '0').length = 1 := by decide
      have hu : (utf8Bytes 'u').length = 1 := by decide
      simp only [byteLength_cons, byteLength_nil, hbackslash, hzero, hu,
        length_utf8Bytes_digitChar (c.toNat / 16) (by omega),
        length_utf8Bytes_digitChar (c.toNat % 16) (by omega)]
      omega
    next => simp only [byteLength_cons, byteLength_nil]; omega
  all_goals decide

theorem byteLength_quoted (s : String) :
    byteLength (quoted s) = (s.toList.map fun c => byteLength (escapeChar c)).sum + 2 := by
  have hquote : (utf8Bytes '\x22').length = 1 := by decide
  rw [quoted, List.cons_append, byteLength_cons, byteLength_append, byteLength_cons,
    byteLength_nil, chars_eq_toList, byteLength_flatMap, hquote]
  omega

/-- Only the quotes of the pieces are counted twice. -/
theorem byteLength_quoted_append (s t : String) :
    byteLength (quoted (s ++ t)) + 2 = byteLength (quoted s) + byteLength (quoted t) := by
  simp only [byteLength_quoted, String.toList_append, List.map_append, List.sum_append]
  omega

theorem byteLength_quoted_le (s : String) : byteLength (quoted s) ≤ 6 * s.length + 2 := by
  have hsum : ∀ text : List Char,
      (text.map fun c => byteLength (escapeChar c)).sum ≤ 6 * text.length := by
    intro text
    induction text with
    | nil => exact Nat.le_refl 0
    | cons c rest ih =>
        have hc := byteLength_escapeChar_le c
        rw [List.map_cons, List.sum_cons, List.length_cons]
        omega
  have hs := hsum s.toList
  rw [byteLength_quoted, ← String.length_toList]
  omega

theorem escapeChar_of_plain {c : Char} (h : 35 ≤ c.toNat ∧ c.toNat < 92 ∨ 93 ≤ c.toNat) :
    escapeChar c = [c] := by
  unfold escapeChar
  split <;> first | omega | skip
  rw [if_neg (by omega)]

/-- A string of ASCII characters that need no escape is quoted as it is. -/
theorem byteLength_quoted_of_plain {s : String}
    (h : ∀ c ∈ s.toList, c.toNat < 0x80 ∧ escapeChar c = [c]) :
    byteLength (quoted s) = s.length + 2 := by
  have hescape : s.toList.flatMap escapeChar = s.toList := by
    rw [List.flatMap_congr fun c hc => (h c hc).2, List.flatMap_singleton']
  have hquote : (utf8Bytes '\x22').length = 1 := by decide
  rw [quoted, chars_eq_toList, hescape, List.cons_append, byteLength_cons, byteLength_append,
    byteLength_cons, byteLength_nil, byteLength_of_ascii fun c hc => (h c hc).1, hquote,
    String.length_toList]
  omega

/-! ## Objects -/

theorem byteLength_commaSeparated {texts : List (List Char)} (h : texts ≠ []) :
    byteLength (commaSeparated texts) + 1 = (texts.map fun text => byteLength text + 1).sum := by
  induction texts with
  | nil => exact absurd rfl h
  | cons text rest ih =>
      cases rest with
      | nil => simp [commaSeparated]
      | cons next others =>
          have hcomma : (utf8Bytes ',').length = 1 := by decide
          have hrest := ih (List.cons_ne_nil next others)
          rw [commaSeparated, byteLength_append, byteLength_cons, hcomma, List.map_cons,
            List.sum_cons, ← hrest]
          · omega
          · exact List.cons_ne_nil next others

/-- The bytes of one member with the colon and the comma around it. -/
def memberSize (member : String × Json) : Nat :=
  byteLength (quoted member.1) + byteLength (canonicalJson member.2) + 2

theorem byteLength_canonicalJson_obj {members : List (String × Json)} (h : members ≠ []) :
    byteLength (canonicalJson (.obj members)) = (members.map memberSize).sum + 1 := by
  have hbrace : (utf8Bytes '\x7b').length = 1 := by decide
  have hclose : (utf8Bytes '\x7d').length = 1 := by decide
  have hcolon : (utf8Bytes ':').length = 1 := by decide
  have hperm : (sortMembers (Json.memberTexts sortMembers members)).Perm
      (members.map fun m => (m.1, canonicalJson m.2)) := by
    rw [Json.memberTexts_eq_map]
    exact List.perm_insertionSort _ _
  have hne : (sortMembers (Json.memberTexts sortMembers members)).map memberText ≠ [] := by
    intro hnil
    have hlength := hperm.length_eq
    rw [List.map_eq_nil_iff.mp hnil, List.length_map] at hlength
    exact h (List.length_eq_zero_iff.mp hlength.symm)
  have htexts := byteLength_commaSeparated hne
  rw [List.map_map, (hperm.map _).sum_nat, List.map_map] at htexts
  have hmembers : (members.map (((fun text => byteLength text + 1) ∘ memberText) ∘
      fun m => (m.1, canonicalJson m.2))).sum = (members.map memberSize).sum := by
    congr 1
    apply List.map_congr_left
    intro member _
    simp only [Function.comp_apply, memberText, byteLength_append, byteLength_cons, hcolon,
      memberSize]
    omega
  rw [canonicalJson, Json.textBy, List.cons_append, byteLength_cons, byteLength_append,
    byteLength_cons, byteLength_nil, hbrace, hclose]
  omega

/-! ## Orders of members -/

/-- The bytes of separated texts, each with a comma but the last. -/
theorem byteLength_commaSeparated_eq (texts : List (List Char)) :
    byteLength (commaSeparated texts) = (texts.map fun text => byteLength text + 1).sum - 1 := by
  by_cases h : texts = []
  · subst h
    rfl
  · rw [← byteLength_commaSeparated h, Nat.add_sub_cancel]

section

variable {order order' : List (String × List Char) → List (String × List Char)}

namespace Json

mutual

/-- A text has as many bytes in one order of its members as in another. -/
theorem byteLength_textBy (h : ∀ texts, (order texts).Perm texts)
    (h' : ∀ texts, (order' texts).Perm texts) :
    ∀ value : Json, byteLength (value.textBy order) = byteLength (value.textBy order')
  | .null | .bool _ | .num _ | .str _ => rfl
  | .arr items => by
      have hitems := byteLength_itemTexts h h' items
      have hsizes := congrArg (fun sizes : List Nat => (sizes.map (· + 1)).sum - 1) hitems
      simp only [List.map_map, Function.comp_def] at hsizes
      simp only [textBy, List.cons_append, byteLength_cons, byteLength_append,
        byteLength_commaSeparated_eq, hsizes]
  | .obj members => by
      have hmembers := byteLength_memberTexts h h' members
      have hsize : ∀ {order : List (String × List Char) → List (String × List Char)},
          (∀ texts, (order texts).Perm texts) → ∀ texts : List (String × List Char),
          byteLength (commaSeparated ((order texts).map memberText)) =
            ((texts.map fun text => byteLength (memberText text)).map (· + 1)).sum - 1 := by
        intro order horder texts
        rw [byteLength_commaSeparated_eq, List.map_map, List.map_map,
          ((horder texts).map _).sum_nat]
        rfl
      simp only [textBy, List.cons_append, byteLength_cons, byteLength_append, hsize h, hsize h',
        hmembers]

theorem byteLength_itemTexts (h : ∀ texts, (order texts).Perm texts)
    (h' : ∀ texts, (order' texts).Perm texts) :
    ∀ items : List Json, (itemTexts order items).map byteLength =
      (itemTexts order' items).map byteLength
  | [] => rfl
  | item :: rest => by
      rw [itemTexts, itemTexts, List.map_cons, List.map_cons, byteLength_textBy h h' item,
        byteLength_itemTexts h h' rest]

theorem byteLength_memberTexts (h : ∀ texts, (order texts).Perm texts)
    (h' : ∀ texts, (order' texts).Perm texts) :
    ∀ members : List (String × Json),
      ((memberTexts order members).map fun text => byteLength (memberText text)) =
        (memberTexts order' members).map fun text => byteLength (memberText text)
  | [] => rfl
  | (name, value) :: rest => by
      rw [memberTexts, memberTexts, List.map_cons, List.map_cons, byteLength_memberTexts h h' rest]
      simp only [memberText, byteLength_append, byteLength_cons, byteLength_textBy h h' value]

end

/-- `JSON.stringify` and the canonical text have the same bytes. -/
theorem byteLength_stringify (value : Json) :
    byteLength value.stringify = byteLength (canonicalJson value) :=
  byteLength_textBy (fun _ => perm_propertyOrder _ _) (fun _ => List.perm_insertionSort _ _) value

end Json

end

theorem byteLength_canonicalJson_arr (items : List Json) :
    byteLength (canonicalJson (.arr items)) =
      (items.map fun item => byteLength (canonicalJson item) + 1).sum - 1 + 2 := by
  have hopen : (utf8Bytes '[').length = 1 := by decide
  have hclose : (utf8Bytes ']').length = 1 := by decide
  have hitems : Json.itemTexts sortMembers items = items.map canonicalJson := by
    induction items with
    | nil => rfl
    | cons item rest ih => rw [Json.itemTexts, ih, List.map_cons, canonicalJson]
  rw [canonicalJson, Json.textBy, List.cons_append, byteLength_cons, byteLength_append,
    byteLength_cons, byteLength_nil, hopen, hclose, hitems, byteLength_commaSeparated_eq,
    List.map_map]
  simp only [Function.comp_def]
  omega

/-- The text of a member is part of that of its object. -/
theorem byteLength_le_of_mem {members : List (String × Json)} {member : String × Json}
    (h : member ∈ members) :
    byteLength (canonicalJson member.2) ≤ byteLength (canonicalJson (.obj members)) := by
  rw [byteLength_canonicalJson_obj (List.ne_nil_of_mem h)]
  obtain ⟨before, after, rfl⟩ := List.append_of_mem h
  simp only [List.map_append, List.map_cons, List.sum_append, List.sum_cons, memberSize]
  omega

end Hseos
