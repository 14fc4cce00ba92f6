import Hseos.Governed.Fact
import Hseos.Ledger.Event

/-! # Approvals

The approvals that authorizers issue and the record of their use. Neither table
is ever updated or deleted from, and a use is recorded in the same transaction
as the facts it authorizes.
-/

namespace Hseos

inductive ApprovalDecision where
  | approved
  | denied
  deriving DecidableEq

/-- A row of `execution_approvals`. -/
structure Approval where
  approvalId : String
  operationId : String
  authorizerJson : List Char
  resourceScopeJson : List Char
  issuedAt : String
  expiresAt : String
  decision : ApprovalDecision
  policyVersion : String
  evidenceRef : String
  deriving DecidableEq

/-- A row of `execution_approval_uses`. -/
structure ApprovalUse where
  approvalId : String
  operationId : String
  consumedAt : String
  deriving DecidableEq

structure ApprovalStore where
  approvals : List Approval
  uses : List ApprovalUse
  deriving DecidableEq

def ApprovalStore.empty : ApprovalStore := ⟨[], []⟩

/-- The code is `EXECUTION_APPROVAL_` followed by its last words. -/
def approvalError (message kind : String) : Thrown :=
  .ofError "ApprovalError" ("EXECUTION_APPROVAL_" ++ kind) message

/-! ## Strict JSON -/

/-- `SENSITIVE_KEYS` of the approval store. -/
def approvalSensitiveKeys : List String :=
  ["access_token", "api_key", "approval_token", "authorization", "client_secret", "cookie",
    "credential", "credentials", "password", "private_key", "refresh_token", "secret",
    "session_cookie", "token"]

def isApprovalSensitiveKey (key : String) : Bool :=
  let normalized := normalizeKey key
  normalized ∈ approvalSensitiveKeys || sensitiveWords.any fun word =>
    normalized = word || ('_' :: chars word) <:+ chars normalized

namespace Json

mutual

/-- The first thing that `assertStrictJson` refuses. -/
def approvalViolation? (path : String) : Json → Option Thrown
  | .num (.infinite _) => some (approvalError s!"{path} contains a non-finite number" "INVALID")
  | .arr items => approvalItemViolation? path 0 items
  | .obj members => approvalMemberViolation? path members
  | _ => none

def approvalItemViolation? (path : String) (index : Nat) : List Json → Option Thrown
  | [] => none
  | item :: rest => (approvalViolation? s!"{path}[{index}]" item).or
      (approvalItemViolation? path (index + 1) rest)

def approvalMemberViolation? (path : String) : List (String × Json) → Option Thrown
  | [] => none
  | (name, value) :: rest =>
      if isApprovalSensitiveKey name then
        some (approvalError s!"Sensitive field is forbidden in {path}: {name}" "SENSITIVE_DATA")
      else (approvalViolation? s!"{path}.{name}" value).or (approvalMemberViolation? path rest)

end

end Json

/-- `stableJson` of the approval store. -/
def approvalJson (value : Option Json) (field : String) : Except Thrown (List Char) :=
  match value with
  | some (.obj members) =>
      match (Json.obj members).approvalViolation? field with
      | some error => .error error
      | none => .ok (Json.obj members).stableJson
  | _ => .error (approvalError s!"{field} must be an object" "INVALID")

def requireText (value : Option Json) (field : String) : Except Thrown String :=
  match (value.bind Json.string?).filter (· ≠ "") with
  | some text => .ok text
  | none => .error (approvalError s!"{field} must be a non-empty string" "INVALID")

/-- A canonical UTC timestamp: what `toISOString` prints of a four-digit year. -/
def requireTimestamp (value : Option Json) (field : String) : Except Thrown String := do
  let text ← requireText value field
  reject (!isUtcTimestamp text)
    (approvalError s!"{field} must be a canonical UTC timestamp" "INVALID")
  return text

/-! ## Issue -/

def readDecision (value : Option Json) : Except Thrown ApprovalDecision :=
  match value.bind Json.string? with
  | some "approved" => .ok .approved
  | some "denied" => .ok .denied
  | _ => .error (approvalError "decision must be approved or denied" "INVALID")

/-- The row that `issue` inserts for a record. -/
def approvalRow (record : Json) : Except Thrown Approval := do
  reject (!record.isObject) (approvalError "Approval must be an object" "INVALID")
  let approvalId ← requireText (record.field? "approval_id") "approval_id"
  let operationId ← requireText (record.field? "operation_id") "operation_id"
  let policyVersion ← requireText (record.field? "policy_version") "policy_version"
  let evidenceRef ← requireText (record.field? "evidence_ref") "evidence_ref"
  let issuedAt ← requireTimestamp (record.field? "issued_at") "issued_at"
  let expiresAt ← requireTimestamp (record.field? "expires_at") "expires_at"
  let decision ← readDecision (record.field? "decision")
  reject (codeUnitLe expiresAt issuedAt)
    (approvalError "expires_at must be after issued_at" "INVALID")
  let authorizerJson ← approvalJson (record.field? "authorizer") "authorizer"
  let resourceScopeJson ← approvalJson (record.field? "resource_scope") "resource_scope"
  let authorizer := (record.field? "authorizer").getD .null
  let _ ← requireText (authorizer.field? "id") "authorizer.id"
  let _ ← requireText (authorizer.field? "type") "authorizer.type"
  reject (memberNames ((record.field? "resource_scope").getD .null) = [])
    (approvalError "resource_scope must not be empty" "INVALID")
  return {
    approvalId, operationId, authorizerJson, resourceScopeJson, issuedAt, expiresAt, decision,
    policyVersion, evidenceRef }

namespace ApprovalStore

/-- `get`. -/
def get (store : ApprovalStore) (approvalId : String) : Option Approval :=
  store.approvals.find? fun row => row.approvalId = approvalId

/-- `issue`. The trigger of the table answers a second insert before its key does. -/
def issue (store : ApprovalStore) (record : Json) : Except Thrown ApprovalStore := do
  let row ← approvalRow record
  reject (store.get row.approvalId).isSome
    (.ofError "SqliteError" "SQLITE_CONSTRAINT_TRIGGER" "execution_approvals identity is immutable")
  return { store with approvals := store.approvals ++ [row] }

/-! ## Consumption -/

/-- What `consume` is asked for. -/
structure Consumption where
  approvalId : String
  operationId : String
  resourceScope : Json
  policyVersion : String
  now : String

/-- The approval that a request may use, once every check has passed. -/
def usable (store : ApprovalStore) (request : Consumption) (resourceScopeJson : List Char) :
    Except Thrown Approval :=
  match store.get request.approvalId with
  | none => .error (approvalError "Approval not found" "NOT_FOUND")
  | some row => do
      reject (store.uses.any fun use =>
          use.approvalId = request.approvalId || use.operationId = request.operationId)
        (approvalError "Approval or operation authorization was already consumed" "REUSED")
      reject (row.decision ≠ .approved) (approvalError "Approval decision is not approved" "DENIED")
      reject (row.operationId ≠ request.operationId)
        (approvalError "Approval operation scope mismatch" "SCOPE_MISMATCH")
      reject (row.policyVersion ≠ request.policyVersion)
        (approvalError "Approval policy version mismatch" "POLICY_MISMATCH")
      reject (row.resourceScopeJson ≠ resourceScopeJson)
        (approvalError "Approval resource scope mismatch" "SCOPE_MISMATCH")
      reject (!codeUnitLe row.issuedAt request.now)
        (approvalError "Approval is not active yet" "NOT_ACTIVE")
      reject (codeUnitLe row.expiresAt request.now) (approvalError "Approval expired" "EXPIRED")
      return row

/-- `consume(request, onConsumed)`: the use and what `onConsumed` does are one
transaction, so an error of either leaves neither. -/
def consume {σ : Type} (store : ApprovalStore) (request : Consumption)
    (onConsumed : Except Thrown σ) : Except Thrown (Approval × ApprovalStore × σ) := do
  let _ ← requireText (some (.str request.approvalId)) "approval_id"
  let _ ← requireText (some (.str request.operationId)) "operation_id"
  let _ ← requireText (some (.str request.policyVersion)) "policy_version"
  let _ ← requireTimestamp (some (.str request.now)) "now"
  let resourceScopeJson ← approvalJson (some request.resourceScope) "resource_scope"
  let row ← store.usable request resourceScopeJson
  let committed ← onConsumed
  let use : ApprovalUse := ⟨request.approvalId, request.operationId, request.now⟩
  return (row, { store with uses := store.uses ++ [use] }, committed)

/-- The approval of a request that may use it. -/
structure Usable (store : ApprovalStore) (request : Consumption) (row : Approval) : Prop where
  found : store.get request.approvalId = some row
  unused : ∀ use ∈ store.uses,
    use.approvalId ≠ request.approvalId ∧ use.operationId ≠ request.operationId
  approved : row.decision = .approved
  operationId : row.operationId = request.operationId
  policyVersion : row.policyVersion = request.policyVersion
  resourceScope :
    approvalJson (some request.resourceScope) "resource_scope" = .ok row.resourceScopeJson
  active : codeUnitLe row.issuedAt request.now
  unexpired : ¬codeUnitLe row.expiresAt request.now

theorem usable_eq_ok {store : ApprovalStore} {request : Consumption} {scopeJson : List Char}
    {row : Approval}
    (hscope : approvalJson (some request.resourceScope) "resource_scope" = .ok scopeJson)
    (h : store.usable request scopeJson = .ok row) : store.Usable request row := by
  unfold usable at h
  cases hrow : store.get request.approvalId with
  | none =>
      rw [hrow] at h
      cases h
  | some found =>
      rw [hrow] at h
      obtain ⟨hunused, h⟩ := reject_bind_eq_ok_iff.mp h
      obtain ⟨hdecision, h⟩ := reject_bind_eq_ok_iff.mp h
      obtain ⟨hoperation, h⟩ := reject_bind_eq_ok_iff.mp h
      obtain ⟨hpolicy, h⟩ := reject_bind_eq_ok_iff.mp h
      obtain ⟨hsame, h⟩ := reject_bind_eq_ok_iff.mp h
      obtain ⟨hactive, h⟩ := reject_bind_eq_ok_iff.mp h
      obtain ⟨hexpired, h⟩ := reject_bind_eq_ok_iff.mp h
      obtain rfl := pure_eq_ok_iff.mp h
      simp only [decide_eq_false_iff_not, not_not] at hdecision hoperation hpolicy hsame
      simp only [Bool.not_eq_false', decide_eq_true_eq, decide_eq_false_iff_not] at hactive hexpired
      refine ⟨hrow, ?_, hdecision, hoperation, hpolicy, hsame ▸ hscope, hactive, hexpired⟩
      intro use huse
      simpa [not_or] using List.any_eq_false.mp hunused use huse

/-- A consumption records one use of an approval that was usable, together with what
the transaction did. -/
theorem consume_eq_ok {σ : Type} {store store' : ApprovalStore} {request : Consumption}
    {onConsumed : Except Thrown σ} {row : Approval} {committed : σ}
    (h : store.consume request onConsumed = .ok (row, store', committed)) :
    onConsumed = .ok committed ∧ store.Usable request row ∧
      store' = { store with
        uses := store.uses ++ [⟨request.approvalId, request.operationId, request.now⟩] } := by
  obtain ⟨-, -, h⟩ := bind_eq_ok_iff.mp h
  obtain ⟨-, -, h⟩ := bind_eq_ok_iff.mp h
  obtain ⟨-, -, h⟩ := bind_eq_ok_iff.mp h
  obtain ⟨-, -, h⟩ := bind_eq_ok_iff.mp h
  obtain ⟨scopeJson, hscope, h⟩ := bind_eq_ok_iff.mp h
  obtain ⟨found, husable, h⟩ := bind_eq_ok_iff.mp h
  obtain ⟨done, hdone, h⟩ := bind_eq_ok_iff.mp h
  obtain ⟨rfl, rfl, rfl⟩ := pure_eq_ok_iff.mp h
  exact ⟨hdone, usable_eq_ok hscope husable, rfl⟩

theorem issue_eq_ok {store store' : ApprovalStore} {record : Json}
    (h : store.issue record = .ok store') :
    ∃ row, approvalRow record = .ok row ∧ store.get row.approvalId = none ∧
      store' = { store with approvals := store.approvals ++ [row] } := by
  obtain ⟨row, hrow, h⟩ := bind_eq_ok_iff.mp h
  obtain ⟨hfresh, h⟩ := reject_bind_eq_ok_iff.mp h
  exact ⟨row, hrow, by simpa using hfresh, (pure_eq_ok_iff.mp h).symm⟩

end ApprovalStore

end Hseos
