import Hseos.Coordination.Paths
import Hseos.Foundation.Wildcard

/-! # Path expressions in code units

Path expressions, their matching and their overlap as the program runs them, on the UTF-16 units
of any string. A question mark stands for one unit.
-/

namespace Hseos.Coordination.Globs

/-- A string as its code units. -/
abbrev UnitText := List ℕ

def slash : ℕ := 0x2F

def star : ℕ := 0x2A

def question : ℕ := 0x3F

def dot : ℕ := 0x2E

def backslash : ℕ := 0x5C

def doubleStar : UnitText := [star, star]

/-! ## Control characters -/

def isHigh (unit : ℕ) : Bool := 0xD800 ≤ unit && unit ≤ 0xDBFF

def isLow (unit : ℕ) : Bool := 0xDC00 ≤ unit && unit ≤ 0xDFFF

/-- The code points that a regular expression with the flag `u` sees. A surrogate without its
other half stands for itself. -/
def codePoints : UnitText → List ℕ
  | high :: low :: rest =>
      if isHigh high && isLow low then
        (0x10000 + (high - 0xD800) * 0x400 + (low - 0xDC00)) :: codePoints rest
      else high :: codePoints (low :: rest)
  | [unit] => [unit]
  | [] => []

/-- `LINE_CONTROL` or `INVISIBLE`, of a code point. -/
def isControlPoint (point : ℕ) : Bool :=
  !isHigh point && !isLow point &&
    (isLineControl (Char.ofNat point) || isInvisible (Char.ofNat point))

def hasControl (text : UnitText) : Bool := (codePoints text).any isControlPoint

/-! ## Normal expressions -/

def joinSegments (segments : List UnitText) : UnitText := [slash].intercalate segments

/-- `segment.replaceAll(/\*+/g, '*')`: a star is dropped in front of another one. -/
def collapseStars : UnitText → UnitText
  | [] => []
  | unit :: rest =>
      if unit = star && rest.head? = some star then collapseStars rest
      else unit :: collapseStars rest

def cleanSegment (segment : UnitText) : UnitText :=
  if segment = doubleStar then doubleStar else collapseStars segment

/-- The loop of `normalizePathExpr`; the segments so far come in reverse. -/
def normalizeSegments : List UnitText → List UnitText → Option (List UnitText)
  | out, [] => some out.reverse
  | out, segment :: rest =>
      if segment = [] || segment = [dot] then normalizeSegments out rest
      else if segment = [dot, dot] then none
      else
        let clean := cleanSegment segment
        if clean = doubleStar && out.head? = some doubleStar then normalizeSegments out rest
        else normalizeSegments (clean :: out) rest

def normalizePathExpr (input : UnitText) : Option UnitText :=
  if input = [] || 256 < input.length || hasControl input || backslash ∈ input ||
      input.head? = some slash then none
  else
    match normalizeSegments [] (input.splitOn slash) with
    | none => none
    | some out => if out ≠ [] && out.length ≤ 32 then some (joinSegments out) else none

/-! ## Matching -/

def isWildcard (unit : ℕ) : Bool := unit = star || unit = question

def isLiteral (normalized : UnitText) : Bool := !normalized.any isWildcard

/-- `matchSegment`: the wildcards of one segment, with one star to go back to. -/
def matchSegment (pattern text : UnitText) : Bool :=
  Wildcard.matchFrom (fun item => decide (item = star))
    (fun item unit => item = question || item = unit) pattern text none

/-- `matchGlob`: a table with one row for each segment of the pattern. -/
def matchGlob (pattern file : UnitText) : Bool :=
  match normalizePathExpr pattern, normalizePathExpr file with
  | some normalizedPattern, some normalizedFile =>
      Wildcard.matchRows (fun segment => decide (segment = doubleStar)) matchSegment
        (normalizedPattern.splitOn slash) (normalizedFile.splitOn slash)
  | _, _ => false

/-- The segments before the first one with a wildcard. -/
def literalPrefix (normalized : UnitText) : List UnitText :=
  (normalized.splitOn slash).takeWhile isLiteral

def globsOverlap (a b : UnitText) : Bool :=
  match normalizePathExpr a, normalizePathExpr b with
  | some na, some nb =>
      if na = nb then true
      else if isLiteral nb then matchGlob na nb
      else if isLiteral na then matchGlob nb na
      else
        let pa := literalPrefix na
        let pb := literalPrefix nb
        let shared := min pa.length pb.length
        pa.take shared = pb.take shared
  | _, _ => false

/-! ## Languages -/

/-- The language of a segment: a star stands for any text and a question mark for one unit. -/
def SegmentMatches (pattern text : UnitText) : Prop :=
  Wildcard.Matches (fun item => decide (item = star))
    (fun item unit => item = question ∨ item = unit) pattern text

/-- The language of a list of segments: `**` stands for any segments. -/
def SegmentsMatch (pattern file : List UnitText) : Prop :=
  Wildcard.Matches (fun segment => decide (segment = doubleStar)) SegmentMatches pattern file

/-- An empty segment and `.` name nothing. -/
def isNamed (segment : UnitText) : Bool := segment ≠ [] && segment ≠ [dot]

def namedSegments (input : UnitText) : List UnitText := (input.splitOn slash).filter isNamed

/-- A file, given by its segments, is in the language of an expression. -/
def InLanguage (pattern : UnitText) (file : List UnitText) : Prop :=
  SegmentsMatch (namedSegments pattern) file

end Hseos.Coordination.Globs
