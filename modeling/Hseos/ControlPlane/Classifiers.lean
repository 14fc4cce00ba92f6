import Hseos.ControlPlane.Catalog
import Hseos.Foundation.Number

/-! # Source classification

What the git source makes of a file: the artifact it stands for, the structure of
its text and the issues that are left for review. The character tables of the
platform and the YAML reader are parameters.
-/

namespace Hseos.ControlPlane

structure Platform where
  /-- `normalize('NFKD')`. -/
  normalizeNfkd : List Char → List Char
  toLowerCase : List Char → List Char
  /-- The value of a YAML document; `none` where it has errors or aliases. A negative zero is
  the number `-0`. -/
  parseYaml : String → Option Json

/-! ## Paths -/

namespace Posix

/-- The path without slashes at its end. -/
def trimmed (path : List Char) : List Char := (path.reverse.dropWhile (· = '/')).reverse

/-- `path.posix.basename`. -/
def basename (path : List Char) : List Char :=
  ((trimmed path).reverse.takeWhile (· ≠ '/')).reverse

/-- `path.posix.extname`. -/
def extname (path : List Char) : List Char :=
  let name := basename path
  let ext := (name.reverse.takeWhile (· ≠ '.')).reverse
  let stem := name.take (name.length - (ext.length + 1))
  if '.' ∉ name ∨ stem = [] ∨ name = ['.', '.'] then [] else '.' :: ext

/-- `path.posix.dirname`. -/
def dirname (path : List Char) : List Char :=
  let parent := (trimmed path).reverse.dropWhile (· ≠ '/') |>.reverse
  match path, parent with
  | '/' :: _, [] => ['/']
  | _, [] => ['.']
  | _, ['/'] => ['/']
  | _, parent =>
      -- Only the slash next to the last name is taken off.
      let directory := parent.dropLast
      if directory = ['/'] then ['/', '/'] else directory

end Posix

/-! ## Identifiers -/

/-- `[a-z0-9]`. -/
def isSlugChar (c : Char) : Bool := isLowerAlnum c

/-- `replaceAll(/[^a-z0-9]+/g, '-')`. -/
def hyphenated : List Char → List Char
  | [] => []
  | c :: rest =>
      if isSlugChar c then c :: hyphenated rest
      else
        match hyphenated rest with
        | '-' :: others => '-' :: others
        | others => '-' :: others

/-- Without the hyphens at both ends. -/
def trimHyphens (text : List Char) : List Char :=
  ((text.dropWhile (· = '-')).reverse.dropWhile (· = '-')).reverse

/-- The slug of a text before it is cut. -/
def slugText (platform : Platform) (value : List Char) : List Char :=
  trimHyphens (hyphenated (platform.toLowerCase
    ((platform.normalizeNfkd value).filter fun c => !(0x300 ≤ c.toNat && c.toNat ≤ 0x36F))))

def slugify (platform : Platform) (value : List Char) : List Char :=
  (slugText platform value).take 120

/-- The first twelve digits of the SHA-256 of a text. -/
def shortHash (text : List Char) : List Char := (Sha256.hexDigest (utf8 text)).take 12

/-- `replaceAll(/\.[^./]+$/g, '')`. -/
def withoutExtension (path : List Char) : List Char :=
  let ext := (path.reverse.takeWhile fun c => c ≠ '.' && c ≠ '/').reverse
  let stem := path.take (path.length - ext.length)
  if ext ≠ [] ∧ stem.getLast? = some '.' then stem.dropLast else path

/-! ## Structured content -/

def isBlank (c : Char) : Bool := c = ' ' || c = '\t'

/-- What the dot of a regular expression does not match. -/
def isLineTerminator (c : Char) : Bool :=
  c = '\n' || c = '\r' || c.toNat = 0x2028 || c.toNat = 0x2029

/-- The level and the title where a line matches `/^(#{1,6})[ \t]+(.+?)[ \t]*$/`. -/
def heading? (line : List Char) : Option (Nat × String) :=
  let level := (line.takeWhile (· = '#')).length
  let rest := line.drop level
  let blanks := rest.takeWhile isBlank
  let body := (rest.dropWhile isBlank).reverse.dropWhile isBlank |>.reverse
  -- Of a title of blanks alone, the last one is left.
  let title := if body = [] then blanks.drop (blanks.length - 1) else body
  if level < 1 || 6 < level || blanks = [] || (body = [] && blanks.length < 2) ||
      title.any isLineTerminator then none
  else some (level, String.ofList title)

def markdownStructure (content : String) : Json :=
  let headings := ((chars content).splitOn '\n').filterMap heading?
  .obj [("format", .str "markdown"),
    ("title", ((headings.find? fun h => h.1 = 1).map fun h => Json.str h.2).getD .null),
    ("headings", .arr (headings.map fun h =>
      .obj [("level", .ofNat h.1), ("title", .str h.2)]))]

/-- A number that `canonicalize` prints: finite, not a negative zero, and safe where it is
an integer. -/
def losslessNumber : JsNumber → Bool
  | .finite text => text.val ≠ "-0" &&
      match tokenDecimal? text.val with
      | some (_, digits, exponent) =>
          let quotient := decimalQuotient digits exponent
          quotient.1 % quotient.2 ≠ 0 || quotient.1 / quotient.2 ≤ maxSafeInteger
      | none => false
  | .infinite _ => false

mutual

def lossless : Json → Bool
  | .num value => losslessNumber value
  | .arr items => losslessItems items
  | .obj members => losslessMembers members
  | _ => true

def losslessItems : List Json → Bool
  | [] => true
  | item :: rest => lossless item && losslessItems rest

def losslessMembers : List (String × Json) → Bool
  | [] => true
  | (_, value) :: rest => lossless value && losslessMembers rest

end

/-- `canonicalize`, with `none` for a value that has no canonical text. -/
def canonicalize? (value : Json) : Option (List Char) :=
  if lossless value then some (canonicalJson value) else none

def structuredDocument (platform : Platform) (content : String) (extension : List Char) :
    Option Json := do
  let value ← platform.parseYaml content
  if extension = ".json".toList then
    let _ ← parseJson content
  let _ ← canonicalize? value
  return .obj [("format", .str (if extension = ".json".toList then "json" else "yaml")),
    ("value", value)]

/-! ## Classification -/

structure Classification where
  artifactId : Option String
  artifactType : ArtifactType
  classificationStatus : ClassificationStatus
  structuredContent : Json
  issues : List ImportIssue
  deriving DecidableEq

structure DiscoveryEntry where
  sourcePath : String
  rawContent : String
  normalizedContent : String
  contentDigest : String
  classification : Classification
  deriving DecidableEq

def artifactTypeForKind (sourceKind : String) : ArtifactType :=
  match sourceKind with
  | "constitution" => .constitution
  | "standard" => .standard
  | "stack-standard" => .standard
  | "adr" => .adr
  | "policy" => .policy
  | "capability" => .capability
  | "hook" => .hook
  | "workflow" => .workflow
  | "skill" => .skill
  | _ => .unclassified

def artifactIdFor (platform : Platform) (sourcePath : String) (artifactType : ArtifactType) :
    Option String :=
  if artifactType = .constitution then some "enterprise-constitution"
  else
    let withoutExtension := withoutExtension (chars sourcePath)
    let logicalPath :=
      if artifactType = .skill then Posix.dirname withoutExtension else withoutExtension
    let slug := slugify platform logicalPath
    if slug = [] then none
    else some (String.ofList
      (artifactType.text.toList ++ ':' :: slug ++ ':' :: shortHash logicalPath))

/-- The structure of a source by its extension, `none` where parsing failed. -/
def structuredContent? (platform : Platform) (content : String) (extension : List Char) :
    Option Json :=
  if extension = ".md".toList then some (markdownStructure content)
  else if extension ∈ [".yaml".toList, ".yml".toList, ".json".toList] then
    structuredDocument platform content extension
  else
    some (.obj [("format", .str (if extension = ".sh".toList then "shell" else "javascript")),
      ("executable", .bool false)])

def parseFailed (sourcePath : String) : ImportIssue where
  code := "source.parse_failed"
  path := sourcePath
  message := "Source is preserved but requires review because structured parsing failed"
  severity := .error

def classificationRequired (sourcePath : String) : ImportIssue where
  code := "source.classification_required"
  path := sourcePath
  message := "Source has no deterministic artifact classification and requires review"
  severity := .warning

def classifySource (platform : Platform) (sourcePath sourceKind normalizedContent : String) :
    Classification :=
  let artifactType := artifactTypeForKind sourceKind
  let extension := platform.toLowerCase (Posix.extname (chars sourcePath))
  let parsed := structuredContent? platform normalizedContent extension
  let artifactId := artifactIdFor platform sourcePath artifactType
  let unknown := artifactId = none ∨ artifactType = .unclassified
  { artifactId
    artifactType
    classificationStatus :=
      if unknown then .unclassified else if parsed = none then .incomplete else .classified
    structuredContent := parsed.getD (.obj [("format", .str (String.ofList
      (if extension.drop 1 = [] then "unknown".toList else extension.drop 1))),
      ("parse_status", .str "invalid")])
    issues := (if parsed = none then [parseFailed sourcePath] else []) ++
      if unknown then [classificationRequired sourcePath] else [] }

end Hseos.ControlPlane
