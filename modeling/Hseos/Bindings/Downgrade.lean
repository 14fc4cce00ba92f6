import Hseos.Bindings.Blocks
import Hseos.Foundation.Run

/-! # Authorized downgrades

The decision record that authorizes a change of the governance mode, and everything that is asked
of it. What git, the file system and the YAML parser answer is part of the request.
-/

namespace Hseos.Bindings

/-! ## Records -/

/-- A parsed YAML document: its members, of which the strings matter, or no mapping at all. -/
inductive YamlValue where
  | mapping (members : List (String × Option (List Char)))
  | other

/-- A string member. -/
def YamlValue.text? (name : String) : YamlValue → Option (List Char)
  | mapping members => (members.find? fun m => m.1 = name).bind Prod.snd
  | other => none

/-- `RECORD_KEYS`. -/
def recordKeys : List String := ["status", "from", "to", "approver"]

structure Record where
  status : List Char
  source : List Char
  target : List Char
  approver : List Char

/-- The record of a parsed block. -/
def recordOf (document : YamlValue) : Except String Record :=
  match document with
  | .other => .error "its platform-bindings-downgrade block must be a YAML mapping"
  | .mapping members =>
      let given? (name : String) := (document.text? name).filter fun text => trimSpace text ≠ []
      let absent := recordKeys.filter fun name => (given? name).isNone
      let unknown := (members.map Prod.fst).filter fun name => name ∉ recordKeys
      match given? "status", given? "from", given? "to", given? "approver" with
      | some status, some source, some target, some approver =>
          if unknown = [] then .ok ⟨status, source, target, approver⟩
          else
            .error ("its platform-bindings-downgrade block has unknown keys: " ++
              ", ".intercalate unknown)
      | _, _, _, _ =>
          .error ("its platform-bindings-downgrade block is missing or has an empty " ++
            ", ".intercalate absent)

/-- The record of a text, whose block the YAML parser reads. -/
def parseRecord (parse : List Char → Except String YamlValue) (text : List Char) :
    Except String Record := do
  let blocks ← topLevelBlocks text
  match blocks with
  | [block] =>
      match parse block with
      | .error message =>
          .error ("its platform-bindings-downgrade block is not valid YAML: " ++ message)
      | .ok document => recordOf document
  | _ =>
      .error ("must contain exactly one top-level fenced `platform-bindings-downgrade` block with " ++
        ", ".intercalate recordKeys ++ " (found " ++ toString blocks.length ++ ")")

/-! ## The request -/

/-- What `readCommitted` answers. -/
inductive Committed where
  | failed (message : String)
  | absent
  | content (bytes : List UInt8)

/-- What the working tree has at a path. -/
inductive Working where
  | failed (message : String)
  | symlink
  | content (bytes : List UInt8)

/-- What the repository and the libraries answer to a request. -/
structure Repository where
  /-- The path of the project under the repository root, or the message of the failure. -/
  project : Except String String
  committed : String → Committed
  working : String → Working
  /-- The owners of the bindings file as committed. -/
  resolveOwners : String → Except String (List (List Char))
  /-- `toString('utf8')`. -/
  decode : List UInt8 → List Char
  parse : List Char → Except String YamlValue
  toLowerCase : List Char → List Char

/-- `MAX_RECORD_BYTES`. -/
def maxRecordBytes : Nat := 256 * 1024

/-- `DECISION_RECORD_ROOTS`. -/
def decisionRecordRoots : List String := ["docs/decisions/", ".enterprise/.specs/decisions/"]

def bindingsTarget : String := ".hseos/config/platform-bindings.yaml"

/-- `APPROVED_STATUSES`. -/
def approvedStatuses : List (List Char) := ["accepted".toList, "approved".toList]

/-- Whether a reference names a Markdown file under one of the roots. -/
def isRecordPath (modeRef : String) : Bool :=
  ".md".toList <:+ modeRef.toList && ['.', '.'] ∉ modeRef.toList.splitOn '/' &&
    decisionRecordRoots.any fun root => root.toList <+: modeRef.toList

def normalizeIdentity (repository : Repository) (value : List Char) : List Char :=
  let text := repository.toLowerCase (trimSpace value)
  if text.head? = some '@' then text.drop 1 else text

/-- The content of the record, as far as it is committed and unchanged. -/
def committedRecord (repository : Repository) (modeRef : String) : Except String (List Char) :=
  match repository.project with
  | .error message => .error ("git failed while locating the repository root: " ++ message)
  | .ok project =>
      let path := if project = "" then modeRef else project ++ "/" ++ modeRef
      match repository.committed path with
      | .failed message => .error message
      | .absent => .error "the decision record is not committed (not tracked at HEAD)"
      | .content bytes =>
          if maxRecordBytes < bytes.length then .error "the decision record is too large"
          else
            match repository.working path with
            | .failed message =>
                .error ("the decision record cannot be read from the working tree: " ++ message)
            | .symlink => .error "the decision record is a symlink in the working tree"
            | .content working =>
                if working ≠ bytes then
                  .error ("the decision record differs from its committed content " ++
                    "(uncommitted changes)")
                else .ok (repository.decode bytes)

/-- What a record lacks to authorize a downgrade. -/
def recordProblem (repository : Repository) (record : Record) (source target : List Char) :
    Option String :=
  let project := (repository.project.toOption).getD ""
  let owned := if project = "" then bindingsTarget else project ++ "/" ++ bindingsTarget
  if repository.toLowerCase (trimSpace record.status) ∉ approvedStatuses then
    some ("the record status is '" ++ String.ofList (trimSpace record.status) ++
      "', expected Accepted or Approved")
  else if trimSpace record.source ≠ source ∨ trimSpace record.target ≠ target then
    some ("the record authorizes '" ++ String.ofList (trimSpace record.source) ++ "' -> '" ++
      String.ofList (trimSpace record.target) ++ "'")
  else
    match repository.resolveOwners owned with
    | .error message => some message
    | .ok owners =>
        if owners.any fun owner =>
            normalizeIdentity repository owner = normalizeIdentity repository record.approver then
          none
        else
          some ("approver '" ++ String.ofList (trimSpace record.approver) ++
            "' is not an owner of '" ++ bindingsTarget ++ "' in CODEOWNERS (owners: " ++
            ", ".intercalate (owners.map String.ofList) ++ ")")

/-- Nothing when the record authorizes the downgrade, otherwise what is missing. -/
def downgradeProblem (repository : Repository) (modeRef : String) (source target : List Char) :
    Option String :=
  let subject := "downgrade '" ++ String.ofList source ++ "' -> '" ++ String.ofList target ++
    "' via mode_ref '" ++ modeRef ++ "'"
  let deny (reason : String) := some (subject ++ " is not authorized: " ++ reason)
  if !isRecordPath modeRef then
    deny ("the decision record must be a .md file under " ++
      " or ".intercalate decisionRecordRoots)
  else
    match committedRecord repository modeRef with
    | .error reason => deny reason
    | .ok text =>
        match parseRecord repository.parse text with
        | .error reason => deny ("the decision record " ++ reason)
        | .ok record => (recordProblem repository record source target).bind deny

theorem parseRecord_eq_ok {parse : List Char → Except String YamlValue} {text : List Char}
    {record : Record} (h : parseRecord parse text = .ok record) :
    ∃ block document, topLevelBlocks text = .ok [block] ∧ parse block = .ok document ∧
      recordOf document = .ok record := by
  obtain ⟨blocks, hblocks, h⟩ := bind_eq_ok_iff.mp h
  split at h
  next block =>
    split at h
    next => cases h
    next document hparse => exact ⟨block, document, hblocks, hparse, h⟩
  next => cases h

/-- An authorized downgrade rests on the record of the committed text. -/
theorem downgradeProblem_eq_none {repository : Repository} {modeRef : String}
    {source target : List Char} (h : downgradeProblem repository modeRef source target = none) :
    ∃ text record, committedRecord repository modeRef = .ok text ∧
      parseRecord repository.parse text = .ok record ∧
      recordProblem repository record source target = none := by
  unfold downgradeProblem at h
  simp only at h
  split at h
  next => cases h
  next =>
    split at h
    next => cases h
    next text htext =>
      split at h
      next => cases h
      next record hrecord =>
        refine ⟨text, record, htext, hrecord, ?_⟩
        cases hproblem : recordProblem repository record source target with
        | none => rfl
        | some reason => simp [hproblem] at h

end Hseos.Bindings
