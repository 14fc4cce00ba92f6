import Hseos.Foundation.JsObject

/-! # JSON values and their texts

Values as `JSON.parse` builds them, the text `JSON.stringify` gives them, and
the text with sorted members. A number is known here by the text it prints as.
Names are ordered by their UTF-16 code units.
-/

namespace Hseos

/-- A string together with the evidence that it passed a check. -/
abbrev Refined (check : String → Bool) := {s : String // check s = true}

/-- The characters of JSON number texts. -/
def isNumberChar (c : Char) : Bool :=
  c.isDigit || c.toNat = 45 || c.toNat = 43 || c.toNat = 46 || c.toNat = 101

/-- A text made of number characters that starts with a digit or a minus sign. -/
def isNumberText (s : String) : Bool :=
  match s.toList with
  | [] => false
  | c :: rest => (c.isDigit || c.toNat = 45) && rest.all isNumberChar

/-- A number as far as its JSON text shows it. `JSON.parse` overflows to an
infinity, which prints as `null`. -/
inductive JsNumber where
  | finite (text : Refined isNumberText)
  | infinite (negative : Bool)
  deriving DecidableEq

inductive Json where
  | null
  | bool (value : Bool)
  | num (value : JsNumber)
  | str (value : String)
  | arr (items : List Json)
  | obj (members : List (String × Json))

namespace Json

mutual

def decEq : (a b : Json) → Decidable (a = b)
  | .null, .null => .isTrue rfl
  | .bool a, .bool b => decidable_of_iff (a = b) (by simp)
  | .num a, .num b => decidable_of_iff (a = b) (by simp)
  | .str a, .str b => decidable_of_iff (a = b) (by simp)
  | .arr a, .arr b => @decidable_of_iff _ (a = b) (by simp) (decEqItems a b)
  | .obj a, .obj b => @decidable_of_iff _ (a = b) (by simp) (decEqMembers a b)
  | .null, .bool _ | .null, .num _ | .null, .str _ | .null, .arr _ | .null, .obj _
  | .bool _, .null | .bool _, .num _ | .bool _, .str _ | .bool _, .arr _ | .bool _, .obj _
  | .num _, .null | .num _, .bool _ | .num _, .str _ | .num _, .arr _ | .num _, .obj _
  | .str _, .null | .str _, .bool _ | .str _, .num _ | .str _, .arr _ | .str _, .obj _
  | .arr _, .null | .arr _, .bool _ | .arr _, .num _ | .arr _, .str _ | .arr _, .obj _
  | .obj _, .null | .obj _, .bool _ | .obj _, .num _ | .obj _, .str _ | .obj _, .arr _ =>
      .isFalse (by simp)

def decEqItems : (a b : List Json) → Decidable (a = b)
  | [], [] => .isTrue rfl
  | [], _ :: _ => .isFalse (by simp)
  | _ :: _, [] => .isFalse (by simp)
  | x :: xs, y :: ys => @decidable_of_iff _ (x = y ∧ xs = ys) (by simp)
      (@instDecidableAnd _ _ (decEq x y) (decEqItems xs ys))

def decEqMembers : (a b : List (String × Json)) → Decidable (a = b)
  | [], [] => .isTrue rfl
  | [], _ :: _ => .isFalse (by simp)
  | _ :: _, [] => .isFalse (by simp)
  | (k, x) :: xs, (l, y) :: ys => @decidable_of_iff _ (k = l ∧ x = y ∧ xs = ys)
      (by simp [and_assoc])
      (@instDecidableAnd _ _ inferInstance
        (@instDecidableAnd _ _ (decEq x y) (decEqMembers xs ys)))

end

instance : DecidableEq Json := decEq

/-- The number of a natural, printed in decimal. -/
def ofNat (n : Nat) : Json := .num (.finite ⟨Nat.repr n, by
  have hdigits : ∀ c ∈ (Nat.repr n).toList, c.isDigit = true := by
    intro c hc
    rw [Nat.toList_repr] at hc
    exact Nat.isDigit_of_mem_toDigits (by omega) (by omega) hc
  have hne : (Nat.repr n).toList ≠ [] := by
    rw [Nat.toList_repr]
    exact Nat.toDigits_ne_nil
  unfold isNumberText
  split
  next heq => exact absurd heq hne
  next c rest heq =>
    rw [heq] at hdigits
    simp only [hdigits c List.mem_cons_self, Bool.true_or, Bool.true_and, List.all_eq_true]
    intro d hd
    simp [isNumberChar, hdigits d (List.mem_cons_of_mem _ hd)]⟩)

/-- An own property of an object value, `none` for anything else. -/
def field? (name : String) : Json → Option Json
  | .obj members => (members.find? fun m => m.1 = name).map Prod.snd
  | _ => none

/-- Conversion to a boolean: `null`, `false`, zero and the empty string are falsy. -/
def truthy : Json → Bool
  | .null => false
  | .bool value => value
  | .num (.finite text) => text.val ≠ "0"
  | .num (.infinite _) => true
  | .str value => value ≠ ""
  | .arr _ => true
  | .obj _ => true

end Json

/-- The escape of one character inside a JSON string. -/
def escapeChar (c : Char) : List Char :=
  match c.toNat with
  | 34 => ['\\', c]
  | 92 => ['\\', c]
  | 8 => ['\\', 'b']
  | 9 => ['\\', 't']
  | 10 => ['\\', 'n']
  | 12 => ['\\', 'f']
  | 13 => ['\\', 'r']
  | n => if n < 32 then '\\' :: 'u' :: '0' :: '0' :: [Nat.digitChar (n / 16), Nat.digitChar (n % 16)]
      else [c]

/-- `JSON.stringify` of a string. -/
def quoted (s : String) : List Char :=
  '\x22' :: (chars s).flatMap escapeChar ++ ['\x22']

/-- Texts separated by commas. -/
def commaSeparated : List (List Char) → List Char
  | [] => []
  | [text] => text
  | text :: rest => text ++ ',' :: commaSeparated rest

/-- One member of an object text. -/
def memberText (member : String × List Char) : List Char :=
  quoted member.1 ++ ':' :: member.2

def JsNumber.text : JsNumber → List Char
  | .finite text => text.val.toList
  | .infinite _ => "null".toList

namespace Json

mutual

/-- The text of a value whose members come out in the order `order` puts them. -/
def textBy (order : List (String × List Char) → List (String × List Char)) : Json → List Char
  | .null => "null".toList
  | .bool value => if value then "true".toList else "false".toList
  | .num value => value.text
  | .str value => quoted value
  | .arr items => '[' :: commaSeparated (itemTexts order items) ++ [']']
  | .obj members =>
      '\x7b' :: commaSeparated ((order (memberTexts order members)).map memberText) ++ ['\x7d']

def itemTexts (order : List (String × List Char) → List (String × List Char)) :
    List Json → List (List Char)
  | [] => []
  | item :: rest => textBy order item :: itemTexts order rest

def memberTexts (order : List (String × List Char) → List (String × List Char)) :
    List (String × Json) → List (String × List Char)
  | [] => []
  | (name, value) :: rest => (name, textBy order value) :: memberTexts order rest

end

/-- `JSON.stringify`: members in own-property order. -/
def stringify (value : Json) : List Char := value.textBy (propertyOrder Prod.fst)

end Json

/-- The members sorted by name, as `Object.keys(value).sort()` visits them. -/
def sortMembers {β : Type} (members : List (String × β)) : List (String × β) :=
  members.insertionSort fun a b => codeUnitLe a.1 b.1

/-- The text of a value with the members of every object sorted by name. -/
def canonicalJson (value : Json) : List Char := value.textBy sortMembers

example : canonicalJson (.obj [("b", .arr [.ofNat 10, .null]), ("a", .str "x\ny")]) =
    "\x7b\"a\":\"x\\ny\",\"b\":[10,null]\x7d".toList := by decide

end Hseos
