import Hseos.Foundation.CodeUnits
import Hseos.Policy.Lattice

/-! # The merge of configurations

The entries of several sources are merged key by key, as the kind of the key says: the
denied are united, the allowed are intersected, the least limit counts, and anything else
is taken from the source of the highest precedence.
-/

namespace Hseos.Policy

/-! ## Entries -/

/-- `entry.kind || 'replace'` when it names a kind. -/
inductive MergeKind where
  | replace
  | denyUnion
  | allowIntersection
  | limitMin
  deriving DecidableEq

def MergeKind.ofValue? : DataValue → Option MergeKind
  | .str "replace" => some .replace
  | .str "deny_union" => some .denyUnion
  | .str "allow_intersection" => some .allowIntersection
  | .str "limit_min" => some .limitMin
  | _ => none

/-- An entry that passed its own checks, the fields that are read. -/
structure ConfigurationEntry where
  key : String
  source : Source
  kind : DataValue
  value : DataValue

/-- `entry.kind || 'replace'`. -/
def ConfigurationEntry.mergeKind (entry : ConfigurationEntry) : DataValue :=
  if entry.kind.truthy then entry.kind else .str "replace"

def reservedKeys : List String := ["__proto__", "prototype", "constructor"]

/-- The key that an entry may have. -/
def configurationKey? (entry : DataValue) : Option String :=
  (entry.field "key").string?.filter fun key =>
    jsLength key ≠ 0 && jsLength key ≤ 256 && key ∉ reservedKeys

def requireKey (entry : DataValue) : Except LatticeError String :=
  match configurationKey? entry with
  | some key => .ok key
  | none => .error (.invalid "configuration key is invalid")

def normalizeEntry (entry : DataValue) (index : Nat) :
    Except LatticeError ConfigurationEntry := do
  reject (!entry.isRecord) (.invalid s!"configuration entry {index} must be an object")
  let key ← requireKey entry
  let source ← normalizeSource (entry.field "source")
  return { key, source, kind := entry.field "kind", value := entry.field "value" }

/-- What tells an entry from the others: its key and its source. -/
def ConfigurationEntry.identity (entry : ConfigurationEntry) : String :=
  entry.key ++ "\x00" ++ entry.source.text

/-! ## Values -/

/-- Strings of one to 1024 code units. -/
def boundedString? : DataValue → Option String
  | .str item => if jsLength item ≠ 0 ∧ jsLength item ≤ 1024 then some item else none
  | _ => none

/-- The strings of a list that `assertStringArray` lets pass. -/
def stringArray? : DataValue → Option (List String)
  | .arr items => items.mapM boundedString?
  | _ => none

def requireStrings (value : DataValue) (label : String) : Except LatticeError (List String) :=
  match stringArray? value with
  | some strings => .ok strings
  | none => .error (.invalid s!"{label} must be an array of bounded strings")

/-- A finite number that is not negative. -/
def limit? : DataValue → Option JsDouble
  | .num value => if value.isFinite ∧ ¬ value.isNegative then some value else none
  | _ => none

def requireLimit (value : DataValue) (key : String) : Except LatticeError JsDouble :=
  match limit? value with
  | some limit => .ok limit
  | none => .error (.invalid s!"{key} limits must be finite non-negative numbers")

/-- The strings that occur in every list, sorted. -/
def intersectLists : List (List String) → List String
  | [] => []
  | first :: rest =>
      sortStrings ((unique first).filter fun value => (first :: rest).all fun list => value ∈ list)

/-- `SameValueZero`, as a set tells its elements apart. Objects are told apart by where
they are, and no two entries hold the same one. -/
def sameValueZero : DataValue → DataValue → Bool
  | .undefined, .undefined | .null, .null => true
  | .bool a, .bool b => a = b
  | .num (.finite sign a), .num (.finite sign' b) => a = b && (sign = sign' || a.val = 0)
  | .num a, .num b => a = b
  | .str a, .str b => a = b
  | _, _ => false

def textList (strings : List String) : DataValue := .arr (strings.map .str)

/-- The value of a key whose candidates have one kind. -/
def mergeValues (key : String) (kind : DataValue) (first : ConfigurationEntry)
    (candidates : List ConfigurationEntry) : Except LatticeError DataValue :=
  match MergeKind.ofValue? kind with
  | some .replace => .ok first.value
  | some .denyUnion => do
      let lists ← candidates.mapM fun entry => requireStrings entry.value (key ++ " deny list")
      return textList (sortStrings (unique lists.flatten))
  | some .allowIntersection => do
      let lists ← candidates.mapM fun entry => requireStrings entry.value (key ++ " allow list")
      return textList (intersectLists lists)
  | some .limitMin => do
      let limits ← candidates.mapM fun entry => requireLimit entry.value key
      return .num (JsDouble.minimum limits)
  | none => .error (.invalid s!"configuration key {key} has an unknown merge kind")

/-! ## Resolution -/

/-- Entries are sorted by falling precedence. -/
def byPrecedence (a b : ConfigurationEntry) : Prop := b.source.rank ≤ a.source.rank

instance : DecidableRel byPrecedence := fun a b =>
  inferInstanceAs (Decidable (b.source.rank ≤ a.source.rank))

/-- The entries of a key, the highest precedence first. -/
def candidatesOf (entries : List ConfigurationEntry) (key : String) : List ConfigurationEntry :=
  (entries.filter fun entry => entry.key = key).insertionSort byPrecedence

/-- The value of a key and the sources that define it. -/
structure Setting where
  value : DataValue
  sources : List Source

def resolveKey (entries : List ConfigurationEntry) (key : String) : Except LatticeError Setting :=
  match candidatesOf entries key with
  | [] => .error (.invalid s!"configuration key {key} has incompatible merge kinds")
  | first :: rest => do
      reject (!rest.all fun entry => sameValueZero first.mergeKind entry.mergeKind)
        (.invalid s!"configuration key {key} has incompatible merge kinds")
      let value ← mergeValues key first.mergeKind first (first :: rest)
      return { value, sources := (first :: rest).map (·.source) }

/-- The settings of all keys, in the order in which the keys first occur. -/
structure Configuration where
  settings : List (String × Setting)

def Configuration.values (configuration : Configuration) : List (String × DataValue) :=
  configuration.settings.map fun setting => (setting.1, setting.2.value)

def Configuration.provenance (configuration : Configuration) : List (String × List Source) :=
  configuration.settings.map fun setting => (setting.1, setting.2.sources)

/-- `configuration.values[key]`, when the key is set. -/
def Configuration.value? (configuration : Configuration) (key : String) : Option DataValue :=
  (configuration.settings.find? fun setting => setting.1 = key).map fun setting => setting.2.value

/-- `Array.isArray(entries)`, with the items. -/
def requireEntries : DataValue → Except LatticeError (List DataValue)
  | .arr entries => .ok entries
  | _ => .error (.invalid "configuration entries must be an array")

/-- The entries normalized, each source defining a key once. -/
def acceptEntries (entries : List DataValue) : Except LatticeError (List ConfigurationEntry) :=
  mapDistinct normalizeEntry ConfigurationEntry.identity
    (.invalid "a configuration source may define each key only once") entries

/-- Every key that occurs is resolved. -/
def resolveKeys (ordered : List ConfigurationEntry) : Except LatticeError Configuration := do
  let settings ← (unique (ordered.map (·.key))).mapM fun key => do
    let setting ← resolveKey ordered key
    return (key, setting)
  return { settings }

def resolveConfiguration (entries : DataValue) : Except LatticeError Configuration := do
  let entries ← requireEntries entries
  let ordered ← acceptEntries entries
  resolveKeys ordered

end Hseos.Policy
