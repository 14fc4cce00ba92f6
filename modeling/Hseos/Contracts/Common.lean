import Hseos.Foundation.Number
import Hseos.Foundation.Sha256
import Hseos.Foundation.Timestamp

/-! # Common contract types

The string formats that contracts are written with, and the JSON payloads that
they carry. No code of the session store reads the order in which the members of
a payload object were written, so a payload keeps its members sorted by name.
-/

namespace Hseos

/-! ## String formats -/

def isLowerAlnum (c : Char) : Bool := (97 ≤ c.toNat && c.toNat ≤ 122) || c.isDigit

/-- `IdentifierSchema`. -/
def isIdentifier (s : String) : Bool :=
  match chars s with
  | [] => false
  | c :: rest => isLowerAlnum c && rest.length < 160 &&
      rest.all fun d => isLowerAlnum d || d ∈ ['.', '_', ':', '-']

abbrev Identifier := Refined isIdentifier

instance : LawfulBEq Identifier := inferInstance

/-- A length between two bounds, in UTF-16 code units. -/
def lengthWithin (low high : Nat) (s : String) : Bool := low ≤ jsLength s && jsLength s ≤ high

/-- `boundedString`. -/
def boundedString (maximumBytes : Nat) (s : String) : Bool := byteLength (chars s) ≤ maximumBytes

/-- The characters that `\s` matches. -/
def isJsSpace (c : Char) : Bool :=
  let n := c.toNat
  (9 ≤ n && n ≤ 13) || n = 32 || n = 0xA0 || n = 0x1680 || (0x2000 ≤ n && n ≤ 0x200A) ||
    n = 0x2028 || n = 0x2029 || n = 0x202F || n = 0x205F || n = 0x3000 || n = 0xFEFF

/-- `ModelNameSchema`. -/
def isModelName (s : String) : Bool :=
  lengthWithin 1 256 s && (chars s).all fun c => !isJsSpace c && 32 ≤ c.toNat && c.toNat ≠ 127

abbrev ModelName := Refined isModelName

/-- `ReferenceSchema`. -/
abbrev Reference := Refined (lengthWithin 1 1024)

instance : LawfulBEq Reference := inferInstance

abbrev Timestamp := Refined isTimestamp

/-- Sixty-four lowercase hexadecimal digits. -/
def isSha256 (s : String) : Bool := (chars s).length = 64 && (chars s).all Sha256.isHexChar

abbrev Sha256Text := Refined isSha256

/-- `DigestSchema`. -/
def isDigest (s : String) : Bool :=
  "sha256:".toList <+: chars s && isSha256 (String.ofList ((chars s).drop 7))

abbrev Digest := Refined isDigest

/-- A dot-separated or hyphenated suffix of a version. -/
def isVersionSuffix (text : List Char) : Bool :=
  text ≠ [] && text.all fun c => c.isAlphanum || c = '.' || c = '-'

/-- `SemverSchema`: the part before `-` or `+` is three numbers, and everything
after the first `+` is build metadata. -/
def isSemver (s : String) : Bool :=
  let text := chars s
  let version := text.takeWhile fun c => c.isDigit || c = '.'
  let rest := text.drop version.length
  let numbers := version.splitOn '.'
  let suffixes := match rest with
    | '-' :: rest =>
        let pre := rest.takeWhile (· ≠ '+')
        isVersionSuffix pre &&
          (match rest.drop pre.length with
          | '+' :: build => isVersionSuffix build
          | other => other = [])
    | '+' :: build => isVersionSuffix build
    | other => other = []
  numbers.length = 3 && numbers.all (fun n => n ≠ [] && n.all Char.isDigit) && suffixes

abbrev Semver := Refined isSemver

/-- `session-event://` followed by an event identifier. -/
def sessionEventRef (eventId : Identifier) : String := "session-event://" ++ eventId.val

/-- `Number.MAX_SAFE_INTEGER`. -/
def maxSafeInteger : Nat := 9007199254740991

/-- `z.number().int()` between two bounds; integers are safe ones. -/
def intWithin (low high n : Nat) : Bool := low ≤ n && n ≤ high && n ≤ maxSafeInteger

/-! ## JSON payloads -/

namespace Json

mutual

/-- No name is `__proto__`, which record schemas drop, and numbers are printed doubles. -/
def plain : Json → Bool
  | .num value => value.printed
  | .arr items => plainItems items
  | .obj members => plainMembers members
  | _ => true

def plainItems : List Json → Bool
  | [] => true
  | item :: rest => plain item && plainItems rest

def plainMembers : List (String × Json) → Bool
  | [] => true
  | (name, value) :: rest => name ≠ "__proto__" && plain value && plainMembers rest

end

/-- `z.json()`, in canonical order. -/
def canonical (value : Json) : Bool := value.wellFormed && value.plain && value.sorted = value

/-- `JsonObjectSchema`, in canonical order. -/
def canonicalObject : Json → Bool
  | .obj members => (Json.obj members).canonical
  | _ => false

/-- A checked string as a JSON value. -/
def ofText {check : String → Bool} (s : Refined check) : Json := .str s.val

/-- The list of the given texts. -/
def ofTexts {check : String → Bool} (texts : List (Refined check)) : Json :=
  .arr (texts.map ofText)

/-- The list of the given strings. -/
def ofStrings (texts : List String) : Json := .arr (texts.map .str)

/-- `null` or a value. -/
def ofNullable {α : Type} (toJson : α → Json) (value : Option α) : Json := (value.map toJson).getD .null

/-- An optional member of an object, absent when there is no value. -/
def member? {α : Type} (name : String) (toJson : α → Json) (value : Option α) :
    List (String × Json) :=
  value.toList.map fun a => (name, toJson a)

end Json

/-- `digest`: the SHA-256 of the canonical text. -/
def digest (value : Json) : String := "sha256:" ++ sha256Hex (canonicalJson value)

theorem isDigest_sha256Hex (text : List Char) : isDigest ("sha256:" ++ sha256Hex text) = true := by
  have hlist : chars ("sha256:" ++ sha256Hex text) =
      "sha256:".toList ++ Sha256.hexDigest (utf8 text) := by
    simp [sha256Hex, String.toList_append]
  unfold isDigest
  rw [hlist, List.drop_append_of_le_length (by decide)]
  have hdrop : List.drop 7 "sha256:".toList = [] := by decide
  rw [hdrop, List.nil_append]
  simp [isSha256, Sha256.length_hexDigest, Sha256.isHexChar_hexDigest]

theorem isDigest_digest (value : Json) : isDigest (digest value) = true := isDigest_sha256Hex _

end Hseos
