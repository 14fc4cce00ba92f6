import Mathlib.Data.List.Basic
import Mathlib.Data.String.Basic
import Mathlib.Algebra.Ring.Nat
import Mathlib.Algebra.Ring.Int.Defs

/-! # Strings

The encodings of a string that a program can observe: its UTF-8 bytes and its
UTF-16 code units. Texts that are computed are lists of characters; a string is
read as such a list in one pass over its bytes.
-/

namespace Hseos

instance lawfulBEqChars : LawfulBEq (List Char) := inferInstance

instance lawfulBEqUnits : LawfulBEq (List Nat) := inferInstance

/-- The bytes of the UTF-8 encoding of a string. -/
def bytesOfString (text : String) : List Nat := text.toByteArray.data.toList.map UInt8.toNat

/-- The characters of a sequence of UTF-8 bytes, after the first bytes of a
character of code `code` that has `missing` bytes to come. -/
def decodeUtf8 : Nat → Nat → List Nat → List Char
  | _, _, [] => []
  | _, 0, b :: rest =>
      if b < 0x80 then Char.ofNat b :: decodeUtf8 0 0 rest
      else if b < 0xE0 then decodeUtf8 (b % 0x20) 1 rest
      else if b < 0xF0 then decodeUtf8 (b % 0x10) 2 rest
      else decodeUtf8 (b % 0x08) 3 rest
  | code, 1, b :: rest => Char.ofNat (code * 0x40 + b % 0x40) :: decodeUtf8 0 0 rest
  | code, missing + 2, b :: rest => decodeUtf8 (code * 0x40 + b % 0x40) (missing + 1) rest

/-- The characters of a string. -/
def chars (text : String) : List Char := decodeUtf8 0 0 (bytesOfString text)

theorem decodeUtf8_utf8EncodeChar (c : Char) (rest : List Nat) :
    decodeUtf8 0 0 ((String.utf8EncodeChar c).map UInt8.toNat ++ rest) =
      c :: decodeUtf8 0 0 rest := by
  have hvalid : c.toNat < 0x110000 := by
    have := c.valid
    simp only [UInt32.isValidChar, Nat.isValidChar] at this
    simp only [Char.toNat]
    omega
  have hofNat : ∀ n, n = c.toNat → Char.ofNat n = c := by
    rintro _ rfl
    exact Char.ofNat_toNat c
  unfold String.utf8EncodeChar
  simp only [Char.toNat] at hvalid hofNat
  dsimp only
  split
  next h =>
    simp only [List.map_cons, List.map_nil, UInt8.toNat_ofNat', List.cons_append, List.nil_append,
      decodeUtf8]
    rw [if_pos (by omega), hofNat _ (by omega)]
  next h =>
  split
  next h2 =>
    simp only [List.map_cons, List.map_nil, UInt8.toNat_ofNat', List.cons_append, List.nil_append,
      decodeUtf8]
    rw [if_neg (by omega), if_pos (by omega), hofNat _ (by omega)]
  next h2 =>
  split
  next h3 =>
    simp only [List.map_cons, List.map_nil, UInt8.toNat_ofNat', List.cons_append, List.nil_append,
      decodeUtf8]
    rw [if_neg (by omega), if_neg (by omega), if_pos (by omega), hofNat _ (by omega)]
  next h3 =>
    simp only [List.map_cons, List.map_nil, UInt8.toNat_ofNat', List.cons_append, List.nil_append,
      decodeUtf8]
    rw [if_neg (by omega), if_neg (by omega), if_neg (by omega), hofNat _ (by omega)]

theorem chars_ofList (cs : List Char) : chars (String.ofList cs) = cs := by
  have hbytes : bytesOfString (String.ofList cs) =
      cs.flatMap fun c => (String.utf8EncodeChar c).map UInt8.toNat := by
    simp [bytesOfString, List.utf8Encode, List.map_flatMap]
  rw [chars, hbytes]
  induction cs with
  | nil => rfl
  | cons c rest ih =>
      rw [List.flatMap_cons, decodeUtf8_utf8EncodeChar, ih]
      simp [bytesOfString, List.utf8Encode, List.map_flatMap]

@[simp] theorem chars_eq_toList (text : String) : chars text = text.toList := by
  rw [← String.ofList_toList (s := text), chars_ofList, String.toList_ofList]

/-- The bytes of the UTF-8 encoding of one character. -/
def utf8Bytes (c : Char) : List Nat :=
  let n := c.toNat
  if n < 0x80 then [n]
  else if n < 0x800 then [0xC0 + n / 0x40, 0x80 + n % 0x40]
  else if n < 0x10000 then [0xE0 + n / 0x1000, 0x80 + n / 0x40 % 0x40, 0x80 + n % 0x40]
  else [0xF0 + n / 0x40000, 0x80 + n / 0x1000 % 0x40, 0x80 + n / 0x40 % 0x40, 0x80 + n % 0x40]

/-- `Buffer.from(text, 'utf8')`. -/
def utf8 (text : List Char) : List Nat := text.flatMap utf8Bytes

/-- `Buffer.byteLength(text, 'utf8')`. -/
def byteLength (text : List Char) : Nat := (utf8 text).length

/-- The UTF-16 code units of one character. -/
def charUnits (c : Char) : List Nat :=
  if c.toNat < 0x10000 then [c.toNat]
  else [0xD800 + (c.toNat - 0x10000) / 0x400, 0xDC00 + (c.toNat - 0x10000) % 0x400]

/-- The UTF-16 code units of a string. -/
def utf16 (s : String) : List Nat := (chars s).flatMap charUnits

/-- The `length` of a string. -/
def jsLength (s : String) : Nat := (utf16 s).length

/-- The default order of `Array.prototype.sort` on strings. -/
def codeUnitLe (a b : String) : Prop := utf16 a ≤ utf16 b

instance : DecidableRel codeUnitLe := fun a b => inferInstanceAs (Decidable (utf16 a ≤ utf16 b))

end Hseos
