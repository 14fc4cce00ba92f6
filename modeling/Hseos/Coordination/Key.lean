import Hseos.Coordination.Paths

/-! # Reservation keys

A key is free text with a kind; the canonical form of a key is the one that the
store holds.
-/

namespace Hseos.Coordination

/-- `toLowerCase`, as the character tables of the platform define it. No other character is
lowered to a colon. -/
structure Casing where
  toLowerCase : Text → Text
  colon : ∀ text, ':' ∈ toLowerCase text → ':' ∈ text

inductive Kind where
  | path
  | version
  | name
  deriving DecidableEq

namespace Kind

/-- How the keys of a kind begin. -/
def start : Kind → Text
  | path => ['p', 'a', 't', 'h', ':']
  | version => ['v', 'e', 'r', 's', 'i', 'o', 'n', ':']
  | name => ['n', 'a', 'm', 'e', ':']

/-- What the store calls the kind. -/
def text : Kind → String
  | path => "path"
  | version => "version"
  | name => "name"

end Kind

/-- What `parseKey` says of a key. -/
structure ParsedKey where
  kind : Kind
  parts : List Text
  key : Text
  deriving DecidableEq

/-! ## Repositories -/

/-- `replace(/\.git$/, '')`. -/
def dropGitSuffix (text : Text) : Text :=
  if ['.', 'g', 'i', 't'].isSuffixOf text then text.dropLast.dropLast.dropLast.dropLast else text

/-- `replace(/^[a-z+]+:\/\//i, '')`. -/
def dropScheme (text : Text) : Text :=
  match text.span fun c => isLower c || isUpper c || c == '+' with
  | (_ :: _, ':' :: '/' :: '/' :: rest) => rest
  | _ => text

/-- `replace(/^[^@/]+@/, '')`. -/
def dropUser (text : Text) : Text :=
  match text.span fun c => c ≠ '@' && c ≠ '/' with
  | (_ :: _, '@' :: rest) => rest
  | _ => text

/-- `\d+\/`, at the beginning of a text. -/
def startsWithPort (text : Text) : Bool :=
  match text.span isDigit with
  | (_ :: _, '/' :: _) => true
  | _ => false

/-- `replace(/^([^/:]+):(?!\d+\/)/, '$1/')`. -/
def slashHost (text : Text) : Text :=
  match text.span fun c => c ≠ '/' && c ≠ ':' with
  | (first :: host, ':' :: rest) => if startsWithPort rest then text else first :: host ++ '/' :: rest
  | _ => text

section

variable (casing : Casing)

/-- `normalizeRepo`. -/
def normalizeRepo (remote : Text) : Option Text :=
  let value := dropGitSuffix (dropEndWhile (· == '/') (trim remote))
  let normal := sanitizeText 200 (casing.toLowerCase (slashHost (dropUser (dropScheme value))))
  if remote = [] || normal = [] then none else some normal

/-! ## Keys -/

def pathKey (repo glob : Text) : Text := Kind.path.start ++ repo ++ ':' :: glob

def versionKey (pkg version : Text) : Text := Kind.version.start ++ pkg ++ '@' :: version

def nameKey (pkg : Text) : Text := Kind.name.start ++ pkg

/-- `.+`. -/
def isDots (text : Text) : Bool := text ≠ [] && !text.any isLineTerminator

/-- A text up to the last occurrence of a character and what follows it. -/
def cutLast (sep : Char) (text : Text) : Option (Text × Text) :=
  match cut sep text.reverse with
  | (_, none) => none
  | (after, some before) => some (before.reverse, after.reverse)

/-- `/^path:([^:]+):(.+)$/`, after the kind. -/
def parsePath (rest : Text) : Option ParsedKey :=
  match cut ':' rest with
  | (remote, some expr) =>
      if remote ≠ [] && isDots expr then
        match normalizeRepo casing remote, normalizePathExpr expr with
        | some repo, some glob => some ⟨.path, [repo, glob], pathKey repo glob⟩
        | _, _ => none
      else none
  | (_, none) => none

/-- `/^version:(.+)@([^@]+)$/`, after the kind. -/
def parseVersion (rest : Text) : Option ParsedKey :=
  match cutLast '@' rest with
  | some (named, value) =>
      if isDots named && value ≠ [] then
        let pkg := casing.toLowerCase named
        match canonicalVersion value with
        | some version =>
            if validPackage pkg then some ⟨.version, [pkg, version], versionKey pkg version⟩ else none
        | none => none
      else none
  | none => none

/-- `/^name:(.+)$/`, after the kind. -/
def parseName (rest : Text) : Option ParsedKey :=
  if isDots rest then
    let pkg := casing.toLowerCase rest
    if validPackage pkg then some ⟨.name, [pkg], nameKey pkg⟩ else none
  else none

/-- What follows a prefix that a text has. -/
def after (start text : Text) : Option Text :=
  if start.isPrefixOf text then some (text.drop start.length) else none

/-- `parseKey`. -/
def parseKey (key : Text) : Option ParsedKey :=
  if 400 < units key then none
  else
    match after Kind.path.start key with
    | some rest => parsePath casing rest
    | none =>
        match after Kind.version.start key with
        | some rest => parseVersion casing rest
        | none => (after Kind.name.start key).bind (parseName casing)

end

/-! ## Canonical keys -/

/-- The keys that are written as `parseKey` writes them. -/
inductive Canonical (casing : Casing) : Text → Prop where
  | path {repo glob : Text} (colon : ':' ∉ repo) (repository : normalizeRepo casing repo = some repo)
      (expression : normalizePathExpr glob = some glob) : Canonical casing (pathKey repo glob)
  | version {pkg version : Text} (separator : '@' ∉ version) (package : casing.toLowerCase pkg = pkg)
      (release : canonicalVersion version = some version) :
      Canonical casing (versionKey pkg version)
  | name {pkg : Text} (package : casing.toLowerCase pkg = pkg) : Canonical casing (nameKey pkg)

end Hseos.Coordination
