import Hseos.Contracts.Common

/-! # Fenced blocks of a decision record

The lines of a Markdown text, its fences and its comments: what the reader of records collects,
and what the text shows.
-/

namespace Hseos.Bindings

abbrev Line := List Char

/-- `text.split(/\r?\n/)`. -/
def splitLines : List Char → List Line
  | [] => [[]]
  | c :: rest =>
      if c = '\n' then [] :: splitLines rest
      else if c = '\r' ∧ rest.head? = some '\n' then splitLines rest
      else
        match splitLines rest with
        | [] => [[c]]
        | line :: lines => (c :: line) :: lines

/-- `lines.join('\n')`. -/
def joinLines (lines : List Line) : List Char := ['\n'].intercalate lines

/-! ## Searching a line -/

/-- `line.includes(pattern)`. -/
def includes (pattern : List Char) : Line → Bool
  | [] => pattern.isEmpty
  | c :: rest => pattern.isPrefixOf (c :: rest) || includes pattern rest

/-- `line.lastIndexOf(pattern)`. -/
def lastIndexOf? (pattern : List Char) : Line → Option Nat
  | [] => if pattern.isEmpty then some 0 else none
  | c :: rest =>
      match lastIndexOf? pattern rest with
      | some index => some (index + 1)
      | none => if pattern.isPrefixOf (c :: rest) then some 0 else none

def commentStart : List Char := ['<', '!', '-', '-']

def commentEnd : List Char := ['-', '-', '>']

/-! ## Fences -/

def backtick : Char := Char.ofNat 0x60

/-- What the `.` of a regular expression does not take. -/
def isTerminator (c : Char) : Bool := c = '\n' || c = '\r' || c = '\u2028' || c = '\u2029'

/-- The fence characters at the start of a line, behind three spaces at most, and what follows. -/
def fenceRun? (line : Line) : Option (Char × Nat × Line) :=
  let body := line.dropWhile (· = ' ')
  match body with
  | [] => none
  | mark :: _ =>
      let run := body.takeWhile (· = mark)
      if (mark = backtick || mark = '~') && 3 ≤ run.length && line.length - body.length ≤ 3 then
        some (mark, run.length, body.drop run.length)
      else none

/-- The opening line of a fence. -/
structure Opening where
  mark : Char
  length : Nat
  info : Line
  deriving DecidableEq

/-- A line that opens a fence. The info of a fence of backticks has no backtick. -/
def opens? (line : Line) : Option Opening :=
  (fenceRun? line).bind fun (mark, length, info) =>
    if info.any isTerminator || (mark = backtick && info.contains backtick) then none
    else some ⟨mark, length, info⟩

/-- Whether a line closes a fence. -/
def closes (mark : Char) (length : Nat) (line : Line) : Bool :=
  match fenceRun? line with
  | some (other, run, rest) =>
      other = mark && length ≤ run && rest.all fun c => c = ' ' || c = '\t'
  | none => false

/-- `RECORD_INFO`. -/
def recordInfo : List Char := "platform-bindings-downgrade".toList

/-- `trim`. -/
def trimSpace (text : List Char) : List Char :=
  ((text.dropWhile isJsSpace).reverse.dropWhile isJsSpace).reverse

def Opening.isTagged (opening : Opening) : Bool := trimSpace opening.info = recordInfo

/-! ## What the reader collects -/

structure Fence where
  mark : Char
  length : Nat
  collect : Bool
  body : List Line

structure Scan where
  blocks : List (List Char)
  inComment : Bool
  fence : Option Fence

/-- Whether the last `<!--` of a line has no `-->` after it. -/
def leavesOpen (line : Line) : Bool :=
  match lastIndexOf? commentStart line with
  | some opened => !includes commentEnd (line.drop opened)
  | none => false

/-- The loop of `topLevelBlocks`. -/
def scanLine (scan : Scan) (line : Line) : Scan :=
  match scan.fence with
  | some fence =>
      if closes fence.mark fence.length line then
        { scan with
          blocks := if fence.collect then scan.blocks ++ [joinLines fence.body] else scan.blocks
          fence := none }
      else if fence.collect then
        { scan with fence := some { fence with body := fence.body ++ [line] } }
      else scan
  | none =>
      if scan.inComment then { scan with inComment := !includes commentEnd line }
      else
        match opens? line with
        | some opening =>
            { scan with
              fence := some ⟨opening.mark, opening.length, opening.isTagged, []⟩ }
        | none => { scan with inComment := leavesOpen line }

/-- What is left of a scan at the end of a text. -/
def Scan.finish (scan : Scan) : Except String (List (List Char)) :=
  if scan.fence.any Fence.collect then
    .error "has an unterminated platform-bindings-downgrade block"
  else .ok scan.blocks

def blocksOf (lines : List Line) : Except String (List (List Char)) :=
  (lines.foldl scanLine ⟨[], false, none⟩).finish

def topLevelBlocks (text : List Char) : Except String (List (List Char)) :=
  blocksOf (splitLines text)

/-! ## What the text shows -/

/-- Whether a comment is open after a line, from a position of it on, some characters of which
belong to the mark before. A comment runs from a `<!--` to the next `-->` after it. -/
def scanComment : Bool → Nat → Line → Bool
  | inside, _, [] => inside
  | inside, skip + 1, _ :: rest => scanComment inside skip rest
  | false, 0, c :: rest =>
      if commentStart.isPrefixOf (c :: rest) then scanComment true 3 rest
      else scanComment false 0 rest
  | true, 0, c :: rest =>
      if commentEnd.isPrefixOf (c :: rest) then scanComment false 2 rest
      else scanComment true 0 rest

/-- Where a line of the text stands. -/
inductive Region where
  | plain
  | comment
  | fence (mark : Char) (length : Nat)
  deriving DecidableEq

/-- The region after a line. A line opens a fence only outside every fence and comment. -/
def Region.next (region : Region) (line : Line) : Region :=
  match region with
  | plain =>
      match opens? line with
      | some opening => fence opening.mark opening.length
      | none => if scanComment false 0 line then comment else plain
  | comment => if scanComment true 0 line then comment else plain
  | fence mark length => if closes mark length line then plain else fence mark length

/-- The region that a text starts in, and the one after each of its lines. -/
def regionAfter (lines : List Line) : Region := lines.foldl Region.next .plain

/-- The body of a fence that is closed. -/
def closedBody? (mark : Char) (length : Nat) (after : List Line) : Option (List Line) :=
  if after.any (closes mark length) then some (after.takeWhile fun line => !closes mark length line)
  else none

/-- The body of the record block that a line opens. -/
def shownAt? (region : Region) (line : Line) (after : List Line) : Option (List Char) :=
  if region = .plain then
    ((opens? line).filter Opening.isTagged).bind fun opening =>
      (closedBody? opening.mark opening.length after).map joinLines
  else none

/-- The record blocks that the lines show, from a region on. -/
def shownFrom : Region → List Line → List (List Char)
  | _, [] => []
  | region, line :: after =>
      (shownAt? region line after).toList ++ shownFrom (region.next line) after

/-- The bodies of the closed record fences whose opening line lies outside every other fence and
every comment. -/
def shownBlocks (lines : List Line) : List (List Char) := shownFrom .plain lines

end Hseos.Bindings
