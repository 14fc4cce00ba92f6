import Hseos.Foundation.Json

/-! # Reading JSON texts back

A recursive-descent reader for the JSON grammar. Reading a printed value returns
the value, so two values with the same sorted text differ at most in the order
of their members.
-/

namespace Hseos

/-! ## Lexical elements -/

def isJsonSpace (c : Char) : Bool :=
  c.toNat = 32 || c.toNat = 9 || c.toNat = 10 || c.toNat = 13

def skipSpace (text : List Char) : List Char := text.dropWhile isJsonSpace

def hexValue? (c : Char) : Option Nat :=
  if 48 ≤ c.toNat ∧ c.toNat ≤ 57 then some (c.toNat - 48)
  else if 97 ≤ c.toNat ∧ c.toNat ≤ 102 then some (c.toNat - 87)
  else if 65 ≤ c.toNat ∧ c.toNat ≤ 70 then some (c.toNat - 55)
  else none

/-- The code unit of four hexadecimal digits. -/
def hexUnit? (a b c d : Char) : Option Nat := do
  return 4096 * (← hexValue? a) + 256 * (← hexValue? b) + 16 * (← hexValue? c) + (← hexValue? d)

/-- The character after a backslash other than `u`. -/
def simpleEscape? (c : Char) : Option Char :=
  match c.toNat with
  | 34 => some c
  | 92 => some c
  | 47 => some c
  | 98 => some (Char.ofNat 8)
  | 102 => some (Char.ofNat 12)
  | 110 => some (Char.ofNat 10)
  | 114 => some (Char.ofNat 13)
  | 116 => some (Char.ofNat 9)
  | _ => none

/-- The UTF-16 code units up to the closing quote. -/
def stringUnits : List Char → Option (List Nat × List Char)
  | [] => none
  | '\x22' :: rest => some ([], rest)
  | '\\' :: 'u' :: a :: b :: c :: d :: rest =>
      match hexUnit? a b c d with
      | some unit => (stringUnits rest).map fun p => (unit :: p.1, p.2)
      | none => none
  | '\\' :: c :: rest =>
      match simpleEscape? c with
      | some unescaped => (stringUnits rest).map fun p => (unescaped.toNat :: p.1, p.2)
      | none => none
  | c :: rest =>
      if c.toNat < 32 then none else (stringUnits rest).map fun p => (charUnits c ++ p.1, p.2)

/-- The string of a sequence of code units. An unpaired surrogate denotes no
Unicode scalar value, so such a string has no counterpart here. -/
def ofUtf16 : List Nat → Option (List Char)
  | [] => some []
  | unit :: rest =>
      if 0xD800 ≤ unit ∧ unit < 0xDC00 then
        match rest with
        | [] => none
        | low :: rest =>
            if 0xDC00 ≤ low ∧ low < 0xE000 then
              (ofUtf16 rest).map fun cs =>
                Char.ofNat (0x10000 + (unit - 0xD800) * 0x400 + (low - 0xDC00)) :: cs
            else none
      else if 0xDC00 ≤ unit ∧ unit < 0xE000 then none
      else (ofUtf16 rest).map fun cs => Char.ofNat unit :: cs

/-- The string up to the closing quote, and what follows it. -/
def stringBody (text : List Char) : Option (String × List Char) :=
  match stringUnits text with
  | some (units, rest) => (ofUtf16 units).map fun cs => (String.ofList cs, rest)
  | none => none

def isNumberTokenChar (c : Char) : Bool := isNumberChar c || c.toNat = 69

/-- Assignment of one member: the last value of a repeated name wins and stays
where the name first stood. -/
def setMember {β : Type} (members : List (String × β)) (member : String × β) :
    List (String × β) :=
  if members.any fun m => m.1 = member.1 then
    members.map fun m => if m.1 = member.1 then member else m
  else members ++ [member]

def ownMembers {β : Type} (members : List (String × β)) : List (String × β) :=
  members.foldl setMember []

/-! ## The grammar -/

section Grammar

-- How a number token becomes a number; `none` rejects the token.
variable (number : String → Option JsNumber)

mutual

def parseValue : Nat → List Char → Option (Json × List Char)
  | 0, _ => none
  | fuel + 1, text =>
      match skipSpace text with
      | 'n' :: 'u' :: 'l' :: 'l' :: rest => some (.null, rest)
      | 't' :: 'r' :: 'u' :: 'e' :: rest => some (.bool true, rest)
      | 'f' :: 'a' :: 'l' :: 's' :: 'e' :: rest => some (.bool false, rest)
      | '\x22' :: rest => (stringBody rest).map fun p => (.str p.1, p.2)
      | '[' :: rest =>
          match skipSpace rest with
          | ']' :: rest => some (.arr [], rest)
          | _ => (parseItems fuel rest).map fun p => (.arr p.1, p.2)
      | '\x7b' :: rest =>
          match skipSpace rest with
          | '\x7d' :: rest => some (.obj [], rest)
          | _ => (parseMembers fuel rest).map fun p => (.obj (ownMembers p.1), p.2)
      | token =>
          (number (String.ofList (token.takeWhile isNumberTokenChar))).map fun n =>
            (.num n, token.dropWhile isNumberTokenChar)

def parseItems : Nat → List Char → Option (List Json × List Char)
  | 0, _ => none
  | fuel + 1, text =>
      match parseValue fuel text with
      | some (value, rest) =>
          match skipSpace rest with
          | ',' :: rest => (parseItems fuel rest).map fun p => (value :: p.1, p.2)
          | ']' :: rest => some ([value], rest)
          | _ => none
      | none => none

def parseMembers : Nat → List Char → Option (List (String × Json) × List Char)
  | 0, _ => none
  | fuel + 1, text =>
      match skipSpace text with
      | '\x22' :: rest =>
          match stringBody rest with
          | some (name, rest) =>
              match skipSpace rest with
              | ':' :: rest =>
                  match parseValue fuel rest with
                  | some (value, rest) =>
                      match skipSpace rest with
                      | ',' :: rest => (parseMembers fuel rest).map fun p =>
                          ((name, value) :: p.1, p.2)
                      | '\x7d' :: rest => some ([(name, value)], rest)
                      | _ => none
                  | none => none
              | _ => none
          | none => none
      | _ => none

end

/-- The value of a whole text. Every nested value consumes a character, so the
length of the text is fuel enough. -/
def parseText (text : String) : Option Json :=
  match parseValue number ((chars text).length + 1) (chars text) with
  | some (value, rest) => if skipSpace rest = [] then some value else none
  | none => none

end Grammar

/-! ## Reading a printed value -/

theorem hexUnit?_control : ∀ n < 32,
    hexUnit? '0' '0' (Nat.digitChar (n / 16)) (Nat.digitChar (n % 16)) = some n := by
  decide

theorem simpleEscape?_u : simpleEscape? 'u' = none := rfl

theorem charUnits_of_lt {c : Char} (h : c.toNat < 0x10000) : charUnits c = [c.toNat] := if_pos h

theorem stringUnits_simple {d u : Char} (h : simpleEscape? d = some u) (rest : List Char) :
    stringUnits ('\\' :: d :: rest) = (stringUnits rest).map fun p => (u.toNat :: p.1, p.2) := by
  have hd : d ≠ 'u' := by
    rintro rfl
    simp [simpleEscape?_u] at h
  rw [stringUnits.eq_def]
  split
  next heq => simp at heq
  next heq => simp at heq
  next heq => exact absurd (List.cons.inj (List.cons.inj heq).2).1 hd
  next c rest' _ heq =>
    obtain ⟨rfl, rfl⟩ := List.cons.inj (List.cons.inj heq).2
    simp [h]
  next c rest' hne heq =>
    obtain ⟨rfl, rfl⟩ := List.cons.inj heq
    simp_all

theorem stringUnits_plain {c : Char} (hquote : c.toNat ≠ 34) (hslash : c.toNat ≠ 92)
    (hcontrol : ¬ c.toNat < 32) (rest : List Char) :
    stringUnits (c :: rest) = (stringUnits rest).map fun p => (charUnits c ++ p.1, p.2) := by
  rw [stringUnits.eq_def]
  split
  next heq => simp at heq
  next heq => exact absurd (congrArg Char.toNat (List.cons.inj heq).1) hquote
  next heq => exact absurd (congrArg Char.toNat (List.cons.inj heq).1) hslash
  next heq => exact absurd (congrArg Char.toNat (List.cons.inj heq).1) hslash
  next heq =>
    obtain ⟨rfl, rfl⟩ := List.cons.inj heq
    rw [if_neg hcontrol]

theorem char_eq_ofNat {c : Char} {n : Nat} (h : c.toNat = n) : c = Char.ofNat n := by
  rw [← h, Char.ofNat_toNat]

theorem stringUnits_escapeChar (c : Char) (rest : List Char) :
    stringUnits (escapeChar c ++ rest) =
      (stringUnits rest).map fun p => (charUnits c ++ p.1, p.2) := by
  unfold escapeChar
  split
  case h_8 h34 h92 _ _ _ _ _ =>
    split
    next hcontrol =>
      simp only [List.cons_append, List.nil_append]
      rw [stringUnits.eq_def]
      simp only [hexUnit?_control c.toNat hcontrol, charUnits_of_lt (show c.toNat < 0x10000 by omega)]
      rfl
    next hcontrol => exact stringUnits_plain h34 h92 hcontrol rest
  all_goals
    rename_i h
    rw [char_eq_ofNat h]
    exact stringUnits_simple rfl rest

theorem stringUnits_quoted (cs rest : List Char) :
    stringUnits (cs.flatMap escapeChar ++ '\x22' :: rest) = some (cs.flatMap charUnits, rest) := by
  induction cs with
  | nil => rfl
  | cons c cs ih =>
      rw [List.flatMap_cons, List.append_assoc, stringUnits_escapeChar, ih]
      rfl

theorem ofUtf16_charUnits (c : Char) (units : List Nat) :
    ofUtf16 (charUnits c ++ units) = (ofUtf16 units).map fun cs => c :: cs := by
  have hvalid := c.valid
  unfold charUnits
  split
  next h =>
    have hlow : ¬ (0xD800 ≤ c.toNat ∧ c.toNat < 0xDC00) := by
      rcases hvalid with h | h <;> simp only [Char.toNat] at * <;> omega
    have hhigh : ¬ (0xDC00 ≤ c.toNat ∧ c.toNat < 0xE000) := by
      rcases hvalid with h | h <;> simp only [Char.toNat] at * <;> omega
    rw [List.singleton_append, ofUtf16.eq_def]
    dsimp only
    rw [if_neg hlow, if_neg hhigh, Char.ofNat_toNat]
  next h =>
    have hbound : c.toNat < 0x110000 := by
      rcases hvalid with h | h <;> simp only [Char.toNat] at * <;> omega
    rw [List.cons_append, List.singleton_append, ofUtf16.eq_def]
    dsimp only
    rw [if_pos (by omega), if_pos (by omega)]
    have hsum : 0x10000 + (0xD800 + (c.toNat - 0x10000) / 0x400 - 0xD800) * 0x400 +
        (0xDC00 + (c.toNat - 0x10000) % 0x400 - 0xDC00) = c.toNat := by omega
    rw [hsum, Char.ofNat_toNat]

theorem ofUtf16_utf16 (cs : List Char) : ofUtf16 (cs.flatMap charUnits) = some cs := by
  induction cs with
  | nil => rfl
  | cons c cs ih => rw [List.flatMap_cons, ofUtf16_charUnits, ih]; rfl

theorem stringBody_quoted (s : String) (rest : List Char) :
    stringBody (s.toList.flatMap escapeChar ++ '\x22' :: rest) = some (s, rest) := by
  simp only [stringBody, stringUnits_quoted, ofUtf16_utf16, Option.map_some, String.ofList_toList]

theorem setMember_of_fresh {β : Type} {members : List (String × β)} {member : String × β}
    (h : member.1 ∉ members.map Prod.fst) : setMember members member = members ++ [member] := by
  rw [setMember, if_neg]
  simpa using h

theorem foldl_setMember {β : Type} (members acc : List (String × β))
    (h : ((acc ++ members).map Prod.fst).Nodup) :
    members.foldl setMember acc = acc ++ members := by
  induction members generalizing acc with
  | nil => simp
  | cons member rest ih =>
      have hfresh : member.1 ∉ acc.map Prod.fst := by
        intro hmem
        rw [List.map_append, List.map_cons] at h
        exact (List.disjoint_of_nodup_append h) hmem List.mem_cons_self
      rw [List.foldl_cons, setMember_of_fresh hfresh, ih _ (by simpa using h)]
      simp

theorem ownMembers_of_nodup {β : Type} {members : List (String × β)}
    (h : (members.map Prod.fst).Nodup) : ownMembers members = members := by
  simpa [ownMembers] using foldl_setMember members [] (by simpa using h)

namespace Json

mutual

/-- The fuel with which the reader gets through a printed value. -/
def readFuel : Json → Nat
  | .arr items => itemsFuel items + 1
  | .obj members => membersFuel members + 1
  | _ => 1

def itemsFuel : List Json → Nat
  | [] => 0
  | item :: rest => max (readFuel item) (itemsFuel rest) + 1

def membersFuel : List (String × Json) → Nat
  | [] => 0
  | (_, value) :: rest => max (readFuel value) (membersFuel rest) + 1

end

mutual

/-- A value the reader can return: every number is the reading of its own text
and no object repeats a name. -/
def Readable (number : String → Option JsNumber) : Json → Prop
  | .num n => ∃ text, n = .finite text ∧ number text.val = some n
  | .arr items => ReadableItems number items
  | .obj members => (members.map Prod.fst).Nodup ∧ ReadableMembers number members
  | _ => True

def ReadableItems (number : String → Option JsNumber) : List Json → Prop
  | [] => True
  | item :: rest => Readable number item ∧ ReadableItems number rest

def ReadableMembers (number : String → Option JsNumber) : List (String × Json) → Prop
  | [] => True
  | (_, value) :: rest => Readable number value ∧ ReadableMembers number rest

end

end Json

/-- A text that does not continue a number token. -/
def Delimited (rest : List Char) : Prop := ∀ c ∈ rest.head?, isNumberTokenChar c = false

theorem delimited_nil : Delimited [] := by simp [Delimited]

theorem delimited_cons {c : Char} {rest : List Char} (h : isNumberTokenChar c = false) :
    Delimited (c :: rest) := by simpa [Delimited] using h

section

variable (number : String → Option JsNumber)

theorem isNumberTokenChar_of_isNumberText {s : String} (h : isNumberText s = true) :
    ∀ c ∈ s.toList, isNumberTokenChar c = true := by
  unfold isNumberText at h
  split at h
  next => cases h
  next c rest heq =>
    rw [heq]
    simp only [Bool.and_eq_true, Bool.or_eq_true, decide_eq_true_eq, List.all_eq_true] at h
    intro d hd
    rcases List.mem_cons.mp hd with rfl | hd
    · rcases h.1 with h | h <;> simp [isNumberTokenChar, isNumberChar, h]
    · simp [isNumberTokenChar, h.2 d hd]

theorem numberText_head {s : String} (h : isNumberText s = true) :
    ∃ c cs, s.toList = c :: cs ∧ 45 ≤ c.toNat ∧ c.toNat ≤ 57 := by
  unfold isNumberText at h
  split at h
  next => cases h
  next c rest heq =>
    simp only [Bool.and_eq_true, Bool.or_eq_true, decide_eq_true_eq] at h
    refine ⟨c, rest, heq, ?_⟩
    rcases h.1 with hdigit | hminus
    · simp only [Char.isDigit, Bool.and_eq_true, decide_eq_true_eq] at hdigit
      have hlow : 48 ≤ c.val.toNat := hdigit.1
      have hhigh : c.val.toNat ≤ 57 := hdigit.2
      rw [Char.toNat]
      omega
    · omega

theorem token_append {text rest : List Char} (htext : ∀ c ∈ text, isNumberTokenChar c = true)
    (hrest : Delimited rest) :
    (text ++ rest).takeWhile isNumberTokenChar = text ∧
      (text ++ rest).dropWhile isNumberTokenChar = rest := by
  rw [List.takeWhile_append_of_pos htext, List.dropWhile_append_of_pos htext]
  cases rest with
  | nil => simp
  | cons c rest =>
      have hc : isNumberTokenChar c = false := hrest c (by simp)
      simp [hc]

theorem parseValue_num (text : Refined isNumberText) (n : JsNumber)
    (hnumber : number text.val = some n) (fuel : Nat) {rest : List Char} (hrest : Delimited rest) :
    parseValue number (fuel + 1) (text.val.toList ++ rest) = some (.num n, rest) := by
  obtain ⟨c, cs, hcs, hlow, hhigh⟩ := numberText_head text.2
  obtain ⟨htake, hdrop⟩ := token_append (isNumberTokenChar_of_isNumberText text.2) hrest
  have hspace : skipSpace (text.val.toList ++ rest) = text.val.toList ++ rest := by
    rw [hcs, List.cons_append, skipSpace, List.dropWhile_cons_of_neg]
    simp only [isJsonSpace, Bool.or_eq_true, decide_eq_true_eq]
    omega
  have hhead : ∀ d ds, text.val.toList ++ rest = d :: ds → d.toNat ≤ 57 ∧ 45 ≤ d.toNat := by
    intro d ds heq
    rw [hcs, List.cons_append] at heq
    obtain ⟨rfl, _⟩ := List.cons.inj heq
    exact ⟨hhigh, hlow⟩
  rw [parseValue, hspace]
  split
  case h_7 =>
    rw [htake, hdrop, String.ofList_toList, hnumber]
    rfl
  all_goals
    rename_i heq
    have hbound := hhead _ _ heq
    simp only [Char.reduceToNat] at hbound
    omega

theorem skipSpace_cons {c : Char} {rest : List Char} (h : isJsonSpace c = false) :
    skipSpace (c :: rest) = c :: rest := by
  rw [skipSpace, List.dropWhile_cons_of_neg (by simp [h])]

/-- A printed value starts with neither a space nor a closing bracket. -/
theorem text_head {value : Json} (h : value.Readable number) :
    ∃ c cs, value.textBy id = c :: cs ∧ isJsonSpace c = false ∧ c ≠ ']' := by
  cases value with
  | null => exact ⟨'n', _, rfl, by decide, by decide⟩
  | bool value => cases value <;> exact ⟨_, _, rfl, by decide, by decide⟩
  | num n =>
      obtain ⟨text, rfl, _⟩ := h
      obtain ⟨c, cs, hcs, hlow, hhigh⟩ := numberText_head text.2
      refine ⟨c, cs, hcs, ?_, ?_⟩
      · simp only [isJsonSpace, Bool.or_eq_false_iff, decide_eq_false_iff_not]
        omega
      · rintro rfl
        simp only [Char.reduceToNat] at hhigh
        omega
  | str value => exact ⟨'\x22', _, rfl, by decide, by decide⟩
  | arr items => exact ⟨'[', _, rfl, by decide, by decide⟩
  | obj members => exact ⟨'\x7b', _, rfl, by decide, by decide⟩

theorem quoted_append (s : String) (rest : List Char) :
    quoted s ++ rest = '\x22' :: (s.toList.flatMap escapeChar ++ '\x22' :: rest) := by
  simp [quoted]

theorem parseValue_quote (fuel : Nat) (rest : List Char) :
    parseValue number (fuel + 1) ('\x22' :: rest) =
      (stringBody rest).map fun p => (.str p.1, p.2) := rfl

theorem parseValue_bracket (fuel : Nat) {c : Char} {rest : List Char}
    (hspace : isJsonSpace c = false) (hclose : c ≠ ']') :
    parseValue number (fuel + 1) ('[' :: c :: rest) =
      (parseItems number fuel (c :: rest)).map fun p => (.arr p.1, p.2) := by
  change (match skipSpace (c :: rest) with
    | ']' :: rest => some (Json.arr [], rest)
    | _ => (parseItems number fuel (c :: rest)).map fun p : List Json × List Char =>
        (Json.arr p.1, p.2)) = _
  rw [skipSpace_cons hspace]
  split
  next heq => exact absurd (List.cons.inj heq).1 hclose
  next => rfl

theorem parseValue_brace (fuel : Nat) (rest : List Char) :
    parseValue number (fuel + 1) ('\x7b' :: '\x22' :: rest) =
      (parseMembers number fuel ('\x22' :: rest)).map fun p => (.obj (ownMembers p.1), p.2) := rfl

theorem parseItems_comma {fuel : Nat} {text rest : List Char} {value : Json}
    (h : parseValue number fuel text = some (value, ',' :: rest)) :
    parseItems number (fuel + 1) text =
      (parseItems number fuel rest).map fun p => (value :: p.1, p.2) := by
  rw [parseItems, h]
  rfl

theorem parseItems_close {fuel : Nat} {text rest : List Char} {value : Json}
    (h : parseValue number fuel text = some (value, ']' :: rest)) :
    parseItems number (fuel + 1) text = some ([value], rest) := by
  rw [parseItems, h]
  rfl

theorem parseMembers_comma {fuel : Nat} {name : String} {text rest : List Char} {value : Json}
    (h : parseValue number fuel text = some (value, ',' :: rest)) :
    parseMembers number (fuel + 1) (quoted name ++ ':' :: text) =
      (parseMembers number fuel rest).map fun p => ((name, value) :: p.1, p.2) := by
  rw [quoted_append, parseMembers, skipSpace_cons (by decide)]
  change (match stringBody (name.toList.flatMap escapeChar ++ '\x22' :: ':' :: text) with
    | some (name, rest) => _
    | none => _) = _
  rw [stringBody_quoted]
  change (match parseValue number fuel text with
    | some (value, rest) => _
    | none => _) = _
  rw [h]
  rfl

theorem parseMembers_close {fuel : Nat} {name : String} {text rest : List Char} {value : Json}
    (h : parseValue number fuel text = some (value, '\x7d' :: rest)) :
    parseMembers number (fuel + 1) (quoted name ++ ':' :: text) = some ([(name, value)], rest) := by
  rw [quoted_append, parseMembers, skipSpace_cons (by decide)]
  change (match stringBody (name.toList.flatMap escapeChar ++ '\x22' :: ':' :: text) with
    | some (name, rest) => _
    | none => _) = _
  rw [stringBody_quoted]
  change (match parseValue number fuel text with
    | some (value, rest) => _
    | none => _) = _
  rw [h]
  rfl

mutual

theorem parseValue_text : ∀ (value : Json) (fuel : Nat) (rest : List Char),
    value.Readable number → value.readFuel ≤ fuel → Delimited rest →
    parseValue number fuel (value.textBy id ++ rest) = some (value, rest)
  | .null, fuel + 1, rest, _, _, _ => rfl
  | .bool true, fuel + 1, rest, _, _, _ => rfl
  | .bool false, fuel + 1, rest, _, _, _ => rfl
  | .num n, fuel + 1, rest, h, _, hrest => by
      obtain ⟨text, rfl, hnumber⟩ := h
      exact parseValue_num number text _ hnumber fuel hrest
  | .str value, fuel + 1, rest, _, _, _ => by
      rw [Json.textBy, quoted_append, parseValue_quote, stringBody_quoted]
      rfl
  | .arr [], fuel + 1, rest, _, _, _ => rfl
  | .arr (item :: items), fuel + 1, rest, h, hfuel, _ => by
      have hitems := parseItems_text item items fuel rest h (by
        simpa [Json.readFuel] using hfuel)
      obtain ⟨c, cs, hcs, hspace, hclose⟩ :
          ∃ c cs, commaSeparated (Json.itemTexts id (item :: items)) ++ ']' :: rest = c :: cs ∧
            isJsonSpace c = false ∧ c ≠ ']' := by
        obtain ⟨c, cs, hcs, hc⟩ := text_head number h.1
        cases items with
        | nil => exact ⟨c, cs ++ ']' :: rest, by simp [Json.itemTexts, commaSeparated, hcs], hc⟩
        | cons next items =>
            exact ⟨c, cs ++ ',' :: (commaSeparated (Json.itemTexts id (next :: items)) ++
              ']' :: rest), by simp [Json.itemTexts, commaSeparated, hcs], hc⟩
      rw [Json.textBy, List.cons_append, List.cons_append, List.append_assoc,
        List.singleton_append, hcs, parseValue_bracket number fuel hspace hclose, ← hcs, hitems]
      rfl
  | .obj [], fuel + 1, rest, _, _, _ => rfl
  | .obj ((name, value) :: members), fuel + 1, rest, h, hfuel, _ => by
      have hmembers := parseMembers_text name value members fuel rest h.2 (by
        simpa [Json.readFuel] using hfuel)
      obtain ⟨cs, hcs⟩ : ∃ cs, commaSeparated ((Json.memberTexts id ((name, value) :: members)).map
          memberText) ++ '\x7d' :: rest = '\x22' :: cs := by
        cases members <;> exact ⟨_, rfl⟩
      rw [Json.textBy, List.cons_append, List.cons_append, List.append_assoc,
        List.singleton_append, id_eq, hcs, parseValue_brace, ← hcs, hmembers, Option.map_some,
        ownMembers_of_nodup h.1]
  | .null, 0, _, _, h, _ | .bool _, 0, _, _, h, _ | .num _, 0, _, _, h, _
  | .str _, 0, _, _, h, _ | .arr _, 0, _, _, h, _ | .obj _, 0, _, _, h, _ => by
      simp [Json.readFuel] at h

theorem parseItems_text : ∀ (item : Json) (items : List Json) (fuel : Nat) (rest : List Char),
    Json.ReadableItems number (item :: items) → Json.itemsFuel (item :: items) ≤ fuel →
    parseItems number fuel (commaSeparated (Json.itemTexts id (item :: items)) ++ ']' :: rest) =
      some (item :: items, rest)
  | _, _, 0, _, _, hfuel => by simp [Json.itemsFuel] at hfuel
  | item, [], fuel + 1, rest, h, hfuel =>
      parseItems_close number (parseValue_text item fuel (']' :: rest) h.1
        (by simp [Json.itemsFuel] at hfuel; omega) (delimited_cons (by decide)))
  | item, next :: items, fuel + 1, rest, h, hfuel => by
      have hitem := parseValue_text item fuel
        (',' :: (commaSeparated (Json.itemTexts id (next :: items)) ++ ']' :: rest)) h.1
        (by simp [Json.itemsFuel] at hfuel; omega) (delimited_cons (by decide))
      have hitems := parseItems_text next items fuel rest h.2
        (by simp [Json.itemsFuel] at hfuel ⊢; omega)
      have htext : commaSeparated (Json.itemTexts id (item :: next :: items)) ++ ']' :: rest =
          item.textBy id ++ ',' :: (commaSeparated (Json.itemTexts id (next :: items)) ++
            ']' :: rest) := by
        simp [Json.itemTexts, commaSeparated]
      rw [htext, parseItems_comma number hitem, hitems]
      rfl

theorem parseMembers_text : ∀ (name : String) (value : Json) (members : List (String × Json))
    (fuel : Nat) (rest : List Char),
    Json.ReadableMembers number ((name, value) :: members) →
    Json.membersFuel ((name, value) :: members) ≤ fuel →
    parseMembers number fuel (commaSeparated ((Json.memberTexts id ((name, value) :: members)).map
      memberText) ++ '\x7d' :: rest) = some ((name, value) :: members, rest)
  | _, _, _, 0, _, _, hfuel => by simp [Json.membersFuel] at hfuel
  | name, value, [], fuel + 1, rest, h, hfuel => by
      have hvalue := parseValue_text value fuel ('\x7d' :: rest) h.1
        (by simp [Json.membersFuel] at hfuel; omega) (delimited_cons (by decide))
      have htext : commaSeparated ((Json.memberTexts id [(name, value)]).map memberText) ++
          '\x7d' :: rest = quoted name ++ ':' :: (value.textBy id ++ '\x7d' :: rest) := by
        simp [Json.memberTexts, commaSeparated, memberText]
      rw [htext, parseMembers_close number hvalue]
  | name, value, (nextName, next) :: members, fuel + 1, rest, h, hfuel => by
      have hvalue := parseValue_text value fuel
        (',' :: (commaSeparated ((Json.memberTexts id ((nextName, next) :: members)).map
          memberText) ++ '\x7d' :: rest)) h.1
        (by simp [Json.membersFuel] at hfuel; omega) (delimited_cons (by decide))
      have hmembers := parseMembers_text nextName next members fuel rest h.2
        (by simp [Json.membersFuel] at hfuel ⊢; omega)
      have htext : commaSeparated ((Json.memberTexts id
          ((name, value) :: (nextName, next) :: members)).map memberText) ++ '\x7d' :: rest =
          quoted name ++ ':' :: (value.textBy id ++ ',' :: (commaSeparated ((Json.memberTexts id
            ((nextName, next) :: members)).map memberText) ++ '\x7d' :: rest)) := by
        simp [Json.memberTexts, commaSeparated, memberText]
      rw [htext, parseMembers_comma number hvalue, hmembers]
      rfl

end

/-! ## Whole texts -/

theorem text_length_pos {value : Json} (h : value.Readable number) : 1 ≤ (value.textBy id).length := by
  obtain ⟨c, cs, hcs, -⟩ := text_head number h
  simp [hcs]

mutual

theorem readFuel_le_length : ∀ value : Json, value.Readable number →
    value.readFuel ≤ (value.textBy id).length
  | .null, h | .bool _, h | .num _, h | .str _, h => text_length_pos number h
  | .arr items, h => by
      have hitems := itemsFuel_le_length items h
      simp only [Json.readFuel, Json.textBy, List.length_cons, List.length_append, List.length_nil]
      omega
  | .obj members, h => by
      have hmembers := membersFuel_le_length members h.2
      simp only [Json.readFuel, Json.textBy, id_eq, List.length_cons, List.length_append,
        List.length_nil]
      omega

theorem itemsFuel_le_length : ∀ items : List Json, Json.ReadableItems number items →
    Json.itemsFuel items ≤ (commaSeparated (Json.itemTexts id items)).length + 1
  | [], _ => Nat.zero_le _
  | [item], h => by
      have hitem := readFuel_le_length item h.1
      simp only [Json.itemsFuel, Json.itemTexts, commaSeparated]
      omega
  | item :: next :: items, h => by
      have hitem := readFuel_le_length item h.1
      have hitems := itemsFuel_le_length (next :: items) h.2
      rw [Json.itemsFuel]
      simp only [Json.itemTexts, commaSeparated, List.length_append, List.length_cons] at hitems ⊢
      omega

theorem membersFuel_le_length : ∀ members : List (String × Json),
    Json.ReadableMembers number members → Json.membersFuel members ≤
      (commaSeparated ((Json.memberTexts id members).map memberText)).length + 1
  | [], _ => Nat.zero_le _
  | [(name, value)], h => by
      have hvalue := readFuel_le_length value h.1
      simp only [Json.membersFuel, Json.memberTexts, List.map_cons, List.map_nil, commaSeparated,
        memberText, List.length_append, List.length_cons]
      omega
  | (name, value) :: next :: members, h => by
      have hvalue := readFuel_le_length value h.1
      have hmembers := membersFuel_le_length (next :: members) h.2
      rw [Json.membersFuel]
      simp only [Json.memberTexts, List.map_cons, commaSeparated, memberText, List.length_append,
        List.length_cons] at hmembers ⊢
      omega

end

/-- Reading the text of a value gives the value back. -/
theorem parseText_text {value : Json} (h : value.Readable number) :
    parseText number (String.ofList (value.textBy id)) = some value := by
  have hfuel := readFuel_le_length number value h
  have hparse := parseValue_text number value ((value.textBy id).length + 1) [] h (by omega)
    delimited_nil
  rw [List.append_nil] at hparse
  rw [parseText, chars_ofList, hparse]
  rfl

end

end Hseos
