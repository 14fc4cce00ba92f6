import Hseos.Foundation.Text

/-! # Input safety

Texts, identifiers, versions and path expressions as everything that reaches the
store has them. Texts are lists of characters; lengths and limits count the UTF-16
units of a string.
-/

namespace Hseos.Coordination

/-- A text as it is written in the program. -/
abbrev Text := List Char

/-- The `length` of a text. -/
def units (text : Text) : Nat := (text.flatMap charUnits).length

/-- `slice(0, max)`. A pair of units that the limit would part is left out. -/
def sliceTo : Nat → Text → Text
  | _, [] => []
  | max, c :: rest =>
      if (charUnits c).length ≤ max then c :: sliceTo (max - (charUnits c).length) rest else []

/-! ## Characters -/

def within (low high : Nat) (c : Char) : Bool := low ≤ c.toNat && c.toNat ≤ high

/-- What `trim` takes from the ends. -/
def isSpace (c : Char) : Bool :=
  within 0x09 0x0D c || c.toNat == 0x20 || c.toNat == 0xA0 || c.toNat == 0x1680 ||
    within 0x2000 0x200A c || within 0x2028 0x2029 c || c.toNat == 0x202F || c.toNat == 0x205F ||
    c.toNat == 0x3000 || c.toNat == 0xFEFF

/-- `LINE_CONTROL`: control characters and the separators of lines and paragraphs. -/
def isLineControl (c : Char) : Bool :=
  within 0x00 0x1F c || within 0x7F 0x9F c || within 0x2028 0x2029 c

/-- The characters of the category `Cf`. -/
def isFormat (c : Char) : Bool :=
  c.toNat == 0xAD || within 0x600 0x605 c || c.toNat == 0x61C || c.toNat == 0x6DD ||
    c.toNat == 0x70F || within 0x890 0x891 c || c.toNat == 0x8E2 || c.toNat == 0x180E ||
    within 0x200B 0x200F c || within 0x202A 0x202E c || within 0x2060 0x2064 c ||
    within 0x2066 0x206F c || c.toNat == 0xFEFF || within 0xFFF9 0xFFFB c ||
    c.toNat == 0x110BD || c.toNat == 0x110CD || within 0x13430 0x1343F c ||
    within 0x1BCA0 0x1BCA3 c || within 0x1D173 0x1D17A c || c.toNat == 0xE0001 ||
    within 0xE0020 0xE007F c

/-- `INVISIBLE`. -/
def isInvisible (c : Char) : Bool :=
  isFormat c || c.toNat == 0x34F || within 0x115F 0x1160 c || within 0x17B4 0x17B5 c ||
    c.toNat == 0x2800 || c.toNat == 0x3164 || c.toNat == 0xFFA0 || within 0xFE00 0xFE0F c ||
    within 0xE0100 0xE01EF c

/-- What the dot of a regular expression does not match. -/
def isLineTerminator (c : Char) : Bool := c == '\n' || c == '\r' || within 0x2028 0x2029 c

def hasControl (text : Text) : Bool := text.any fun c => isLineControl c || isInvisible c

def isDigit (c : Char) : Bool := within 0x30 0x39 c

def isLower (c : Char) : Bool := within 0x61 0x7A c

def isUpper (c : Char) : Bool := within 0x41 0x5A c

/-! ## Texts -/

def dropEndWhile (p : Char → Bool) (text : Text) : Text := (text.reverse.dropWhile p).reverse

def trim (text : Text) : Text := dropEndWhile isSpace (text.dropWhile isSpace)

/-- Each run of line and control characters becomes one space. -/
def spaceControls : Text → Text
  | [] => []
  | c :: rest =>
      if isLineControl c then
        match rest with
        | next :: _ => if isLineControl next then spaceControls rest else ' ' :: spaceControls rest
        | [] => [' ']
      else c :: spaceControls rest

def sanitizeText (max : Nat) (text : Text) : Text :=
  sliceTo max (trim (spaceControls (text.filter fun c => !isInvisible c)))

/-- `/^[\dA-Za-z][\w.:@-]{0,127}$/`. -/
def validIdent : Text → Bool
  | [] => false
  | first :: rest =>
      (isDigit first || isUpper first || isLower first) && rest.length ≤ 127 &&
        rest.all fun c =>
          isDigit c || isUpper c || isLower c || c == '_' || c == '.' || c == ':' || c == '@' || c == '-'

/-! ## Packages and versions -/

/-- `[\d_a-z~-]`. -/
def isPackageStart (c : Char) : Bool := isDigit c || c == '_' || isLower c || c == '~' || c == '-'

/-- `[\d_a-z~-][\d._a-z~-]*`. -/
def isPackageWord : Text → Bool
  | [] => false
  | first :: rest => isPackageStart first && rest.all fun c => isPackageStart c || c == '.'

/-- A name, or a scope and a name. -/
def isPackageName : Text → Bool
  | '@' :: rest =>
      match rest.span (· ≠ '/') with
      | (scope, _ :: name) => isPackageWord scope && isPackageWord name
      | (_, []) => false
  | text => isPackageWord text

def validPackage (text : Text) : Bool :=
  units text ≤ 214 && isPackageName text && text.head? ≠ some '.' && text.head? ≠ some '_'

/-- `0|[1-9]\d*`. -/
def isNumeric : Text → Bool
  | [] => false
  | ['0'] => true
  | first :: rest => first ≠ '0' && isDigit first && rest.all isDigit

/-- `[\dA-Za-z-]`. -/
def isIdentifierChar (c : Char) : Bool := isDigit c || isUpper c || isLower c || c == '-'

/-- `0|[1-9]\d*|\d*[A-Za-z-][\dA-Za-z-]*`. -/
def isPrerelease (text : Text) : Bool :=
  isNumeric text || (text.all isIdentifierChar && text.any fun c => !isDigit c)

def isBuild (text : Text) : Bool := text ≠ [] && text.all isIdentifierChar

/-- A text up to the first occurrence of a character, and what follows it when it occurs. -/
def cut (sep : Char) (text : Text) : Text × Option Text :=
  match text.span (· ≠ sep) with
  | (before, []) => (before, none)
  | (before, _ :: after) => (before, some after)

def isCore (text : Text) : Bool :=
  let numbers := text.splitOn '.'
  numbers.length == 3 && numbers.all isNumeric

/-- `canonicalVersion`: a strict version without its build metadata. -/
def canonicalVersion (text : Text) : Option Text :=
  let (release, build) := cut '+' text
  let (core, prerelease) := cut '-' release
  if units text ≤ 128 && isCore core && prerelease.all (fun ids => (ids.splitOn '.').all isPrerelease) &&
      build.all (fun ids => (ids.splitOn '.').all isBuild) then some release
  else none

/-! ## Path expressions -/

def joinSegments (segments : List Text) : Text := ['/'].intercalate segments

/-- `segment.replaceAll(/\*+/g, '*')`. -/
def collapseStars : Text → Text
  | '*' :: '*' :: rest => collapseStars ('*' :: rest)
  | c :: rest => c :: collapseStars rest
  | [] => []

def cleanSegment (segment : Text) : Text :=
  if segment = ['*', '*'] then segment else collapseStars segment

/-- The loop of `normalizePathExpr`; the segments so far come in reverse. -/
def normalizeSegments : List Text → List Text → Option (List Text)
  | out, [] => some out.reverse
  | out, segment :: rest =>
      if segment = [] || segment = ['.'] then normalizeSegments out rest
      else if segment = ['.', '.'] then none
      else
        let clean := cleanSegment segment
        if clean = ['*', '*'] && out.head? = some ['*', '*'] then normalizeSegments out rest
        else normalizeSegments (clean :: out) rest

def normalizePathExpr (input : Text) : Option Text :=
  if input = [] || 256 < units input || hasControl input || '\\' ∈ input || input.head? = some '/' then
    none
  else
    match normalizeSegments [] (input.splitOn '/') with
    | none => none
    | some out => if out ≠ [] && out.length ≤ 32 then some (joinSegments out) else none

def isWildcard (c : Char) : Bool := c == '*' || c == '?'

def isLiteral (normalized : Text) : Bool := !normalized.any isWildcard

/-- The loop of `matchSegment`. After a star, `back` holds the pattern that follows it and the
text from which the star was last tried. -/
def matchFrom (pattern text : Text) (back : Option (Text × Text)) : Bool :=
  match pattern, text with
  | pattern, [] => pattern.all (· == '*')
  | '*' :: pattern, text => matchFrom pattern text (some (pattern, text))
  | pattern, c :: text =>
      let here := match pattern with
        | p :: _ => p == '?' || p == c
        | [] => false
      if here then matchFrom pattern.tail text back
      else
        match back with
        | some (starred, _ :: mark) => matchFrom starred mark (some (starred, mark))
        | _ => false
termination_by
  (match back with
    | none => text.length + 1
    | some (_, mark) => max mark.length text.length, pattern.length)
decreasing_by
  -- Neither the text left to the last star nor the pattern grows, and one of them shrinks.
  · rw [Prod.lex_def]
    simp only [List.length_cons]
    cases back <;> dsimp only <;> omega
  · rw [Prod.lex_def]
    cases pattern with
    | nil => contradiction
    | cons p pattern =>
        simp only [List.tail_cons, List.length_cons]
        cases back <;> dsimp only <;> omega
  · rw [Prod.lex_def]
    simp only [List.length_cons]
    omega

/-- `matchSegment`: wildcards of one segment. -/
def matchSegment (pattern text : Text) : Bool := matchFrom pattern text none

/-- `**` spans any number of segments: it reaches what an earlier entry of the row reaches. -/
def spanRow : Bool → List Bool → List Bool
  | _, [] => []
  | left, reached :: row => (reached || left) :: spanRow (reached || left) row

/-- The next row of the table of `matchGlob`: how many of the first segments of the file the
pattern reaches with one more segment. -/
def nextRow (file : List Text) (row : List Bool) (segment : Text) : List Bool :=
  if segment = ['*', '*'] then spanRow false row
  else false :: List.zipWith (fun reached part => reached && matchSegment segment part) row file

/-- `matchGlob`: a pattern against a literal file. -/
def matchGlob (pattern file : Text) : Bool :=
  match normalizePathExpr pattern, normalizePathExpr file with
  | some normalizedPattern, some normalizedFile =>
      let segments := normalizedFile.splitOn '/'
      let first := true :: List.replicate segments.length false
      let last := (normalizedPattern.splitOn '/').foldl (nextRow segments) first
      last.getLast? = some true
  | _, _ => false

/-- The segments before the first one with a wildcard. -/
def literalPrefix (normalized : Text) : List Text := (normalized.splitOn '/').takeWhile isLiteral

/-- `globsOverlap`: two globs overlap when one of their literal prefixes begins the other. -/
def globsOverlap (a b : Text) : Bool :=
  match normalizePathExpr a, normalizePathExpr b with
  | some na, some nb =>
      if na = nb then true
      else if isLiteral nb then matchGlob na nb
      else if isLiteral na then matchGlob nb na
      else
        let pa := literalPrefix na
        let pb := literalPrefix nb
        let shared := min pa.length pb.length
        pa.take shared = pb.take shared
  | _, _ => false

end Hseos.Coordination
