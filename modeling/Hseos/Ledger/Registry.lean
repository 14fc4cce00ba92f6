import Hseos.Contracts.Common
import Hseos.Foundation.Run

/-! # Execution event registry

The types of execution events with the fields their payloads have, and the check
that every event of an execution stream passes before it is appended. Earlier
schema versions and their upcasters only serve readers and are left out.
-/

namespace Hseos

/-- The errors that the ledger and its registry throw. -/
inductive LedgerError where
  | typeError
  | schema (message code : String)
  | invalidEvent (message : String)
  | duplicateEvent (eventIds : List String)
  | concurrencyConflict (aggregateType aggregateId : String) (expectedVersion currentVersion : Nat)
  | constraint (message : String)
  | syntaxError
  deriving DecidableEq

/-! ## Strict JSON -/

namespace Json

def isObject : Json → Bool
  | .obj _ => true
  | _ => false

def string? : Json → Option String
  | .str value => some value
  | _ => none

def natural? : Json → Option Nat
  | .num value => value.natural?
  | _ => none

mutual

/-- Distinct member names, and numbers as doubles print: what every value of a
program is. -/
def held : Json → Bool
  | .num (.finite text) => numberOfToken text.val = some (.finite text)
  | .arr items => heldItems items
  | .obj members => (members.map Prod.fst).Nodup && heldMembers members
  | _ => true

def heldItems : List Json → Bool
  | [] => true
  | item :: rest => held item && heldItems rest

def heldMembers : List (String × Json) → Bool
  | [] => true
  | (_, value) :: rest => held value && heldMembers rest

end

mutual

/-- The path of the first number that is not finite. -/
def nonFinite? (path : String) : Json → Option String
  | .num (.infinite _) => some path
  | .arr items => nonFiniteItem? path 0 items
  | .obj members => nonFiniteMember? path members
  | _ => none

def nonFiniteItem? (path : String) (index : Nat) : List Json → Option String
  | [] => none
  | item :: rest =>
      (nonFinite? s!"{path}[{index}]" item).or (nonFiniteItem? path (index + 1) rest)

def nonFiniteMember? (path : String) : List (String × Json) → Option String
  | [] => none
  | (name, value) :: rest =>
      (nonFinite? s!"{path}.{name}" value).or (nonFiniteMember? path rest)

end

mutual

/-- `stableValue`: members inserted by ascending name, then in own-property order. -/
def stableValue : Json → Json
  | .arr items => .arr (stableItems items)
  | .obj members => .obj (propertyOrder Prod.fst (sortMembers (stableMembers members)))
  | value => value

def stableItems : List Json → List Json
  | [] => []
  | item :: rest => stableValue item :: stableItems rest

def stableMembers : List (String × Json) → List (String × Json)
  | [] => []
  | (name, value) :: rest => (name, stableValue value) :: stableMembers rest

end

/-- `stableJson`: the members of a stable value are printed as they stand. -/
def stableJson (value : Json) : List Char := value.stableValue.textBy id

end Json

/-- `assertStrictJson`, throwing the given error. A JSON value has no other defect
than a number that is not finite. -/
def assertStrictJson (error : String → LedgerError) (value : Json) (path : String) :
    Except LedgerError Unit :=
  match value.nonFinite? path with
  | some path => .error (error s!"{path} contains a non-finite number")
  | none => .ok ()

/-! ## Payload checks -/

def schemaError (message : String) : LedgerError :=
  .schema message "EXECUTION_EVENT_SCHEMA_INVALID"

def payloadError (message : String) : LedgerError :=
  .schema message "EXECUTION_EVENT_PAYLOAD_INVALID"

def assertPlainObject (value : Option Json) (label : String) : Except LedgerError Unit :=
  reject (!(value.any Json.isObject)) (schemaError s!"{label} must be an object")

/-- A string with at least one character. -/
def isNonEmptyString (value : Option Json) : Bool :=
  match value.bind Json.string? with
  | some text => text ≠ ""
  | none => false

/-- A check of one field for each field of a list. -/
def requireFields (accepts : Json → String → Bool) (complaint : String) (fields : List String)
    (payload : Json) : Except LedgerError Unit :=
  fields.forM fun field => reject (!accepts payload field) (payloadError s!"{field} {complaint}")

def requireStringFields : List String → Json → Except LedgerError Unit :=
  requireFields (fun payload field => isNonEmptyString (payload.field? field))
    "must be a non-empty string"

def requirePositiveIntegers : List String → Json → Except LedgerError Unit :=
  requireFields (fun payload field => ((payload.field? field).bind Json.natural?).any (1 ≤ ·))
    "must be a positive integer"

def requireOptionalStrings : List String → Json → Except LedgerError Unit :=
  requireFields (fun payload field =>
      (payload.field? field).isNone || isNonEmptyString (payload.field? field))
    "must be a non-empty string"

def requireObjectField (field : String) (payload : Json) : Except LedgerError Unit :=
  assertPlainObject (payload.field? field) field

def requireStringArrayField (field : String) : Json → Except LedgerError Unit :=
  requireFields (fun payload field =>
      match payload.field? field with
      | some (.arr items) => items.all fun item => item.string?.isSome
      | _ => false)
    "must be an array of strings" [field]

def combineValidators (validators : List (Json → Except LedgerError Unit)) (payload : Json) :
    Except LedgerError Unit :=
  validators.forM fun validate => validate payload

def memberNames : Json → List String
  | .obj members => members.map Prod.fst
  | _ => []

def validateError (payload : Json) : Except LedgerError Unit := do
  assertPlainObject (payload.field? "error") "error"
  let error := (payload.field? "error").getD .null
  reject ((memberNames error).any fun key => key ∉ ["code", "message", "retryable"])
    (payloadError "error contains an unknown field")
  requireStringFields ["code", "message"] error
  reject (match error.field? "retryable" with | some (.bool _) => false | _ => true)
    (payloadError "error.retryable must be a boolean")

/-! ## The registry -/

/-- The current schema of an event type. -/
structure EventDefinition where
  eventType : String
  currentVersion : Nat
  allowedFields : List String
  requiredFields : List String
  validate : Json → Except LedgerError Unit

/-- `ExecutionEventRegistry`. -/
structure EventRegistry where
  definitions : List EventDefinition

/-- `validatePayload`. The validator gets a clone with stable members. -/
def EventDefinition.validatePayload (definition : EventDefinition) (payload : Option Json) :
    Except LedgerError Unit := do
  assertPlainObject payload s!"{definition.eventType} v{definition.currentVersion} payload"
  let payload := payload.getD .null
  let keys := memberNames payload
  let unknown := keys.filter fun key => key ∉ definition.allowedFields
  let missing := definition.requiredFields.filter fun key => key ∉ keys
  reject (unknown ≠ [] || missing ≠ [])
    (payloadError s!"Payload does not match {definition.eventType} v{definition.currentVersion}")
  assertStrictJson schemaError payload "payload"
  definition.validate payload.stableValue

namespace EventRegistry

def definition (registry : EventRegistry) (eventType : Option Json) :
    Except LedgerError EventDefinition :=
  match registry.definitions.find? fun d => eventType = some (.str d.eventType) with
  | some definition => .ok definition
  | none =>
      let name := (eventType.bind Json.string?).getD ""
      .error (.schema s!"Unregistered event type: {name}" "EXECUTION_EVENT_TYPE_UNREGISTERED")

/-- `validateForAppend`. -/
def validateForAppend (registry : EventRegistry) (event : Json) : Except LedgerError Unit := do
  assertPlainObject (some event) "event"
  let definition ← registry.definition (event.field? "event_type")
  reject (event.field? "schema_version" ≠ some (.ofNat definition.currentVersion))
    (.schema s!"New {definition.eventType} facts must use schema v{definition.currentVersion}"
      "EXECUTION_EVENT_SCHEMA_NOT_CURRENT")
  definition.validatePayload (event.field? "payload")

end EventRegistry

/-- One lifecycle event: its fields, the required ones, those that are non-empty
strings, and its other checks. -/
def lifecycleEvent (eventType : String) (fields required strings : List String)
    (validators : List (Json → Except LedgerError Unit)) : EventDefinition where
  eventType := eventType
  currentVersion := 1
  allowedFields := fields
  requiredFields := required
  validate := combineValidators (requireStringFields strings :: validators)

/-- `createExecutionEventRegistry`. -/
def createExecutionEventRegistry : EventRegistry where
  definitions :=
    [lifecycleEvent "ExecutionAuthorized"
      ["tool", "capability", "input_schema_version", "output_schema_version", "reversibility",
        "policy_version", "deadline", "cancellation_policy", "idempotency_key", "resource_scope",
        "input_digest", "approval_id", "warnings"]
      ["tool", "capability", "input_schema_version", "output_schema_version", "reversibility",
        "policy_version", "deadline", "cancellation_policy", "idempotency_key", "resource_scope",
        "input_digest", "warnings"]
      ["tool", "capability", "reversibility", "policy_version", "deadline", "cancellation_policy",
        "idempotency_key", "input_digest"]
      [requirePositiveIntegers ["input_schema_version", "output_schema_version"],
        requireObjectField "resource_scope", requireOptionalStrings ["approval_id"],
        requireStringArrayField "warnings"],
    lifecycleEvent "ExecutionStarted"
      ["tool", "provider", "idempotency_key", "dispatch_attempt", "deadline"]
      ["tool", "provider", "idempotency_key", "dispatch_attempt", "deadline"]
      ["tool", "provider", "idempotency_key", "deadline"]
      [requirePositiveIntegers ["dispatch_attempt"]],
    lifecycleEvent "ExecutionSucceeded"
      ["result", "output_schema_version", "provider_receipt_ref", "warnings"]
      ["result", "output_schema_version", "warnings"] []
      [requirePositiveIntegers ["output_schema_version"],
        requireOptionalStrings ["provider_receipt_ref"], requireStringArrayField "warnings"],
    lifecycleEvent "ExecutionFailed" ["error", "provider_receipt_ref", "warnings"]
      ["error", "warnings"] []
      [validateError, requireOptionalStrings ["provider_receipt_ref"],
        requireStringArrayField "warnings"],
    lifecycleEvent "ExecutionCancelled" ["reason", "phase", "provider_receipt_ref", "warnings"]
      ["reason", "phase", "warnings"] ["reason", "phase"]
      [requireOptionalStrings ["provider_receipt_ref"], requireStringArrayField "warnings"],
    lifecycleEvent "ExecutionOutcomeUncertain" ["reason", "provider_receipt_ref", "warnings"]
      ["reason", "warnings"] ["reason"]
      [requireOptionalStrings ["provider_receipt_ref"], requireStringArrayField "warnings"],
    lifecycleEvent "ExecutionCompensated" ["prior_outcome_event_id", "compensation_receipt_ref"]
      ["prior_outcome_event_id", "compensation_receipt_ref"]
      ["prior_outcome_event_id", "compensation_receipt_ref"] [],
    lifecycleEvent "ExecutionCompensationFailed"
      ["prior_outcome_event_id", "error", "compensation_receipt_ref"]
      ["prior_outcome_event_id", "error"] ["prior_outcome_event_id"]
      [validateError, requireOptionalStrings ["compensation_receipt_ref"]]]

/-! ## Stable values are read back -/

namespace Json

theorem stableMembers_eq_map (members : List (String × Json)) :
    stableMembers members = members.map fun m => (m.1, m.2.stableValue) := by
  induction members with
  | nil => rfl
  | cons member rest ih => simp [stableMembers, ih]

/-- A stable value has the members of the value, each of them stable. -/
theorem field?_stableValue {members : List (String × Json)} (h : (members.map Prod.fst).Nodup)
    (name : String) :
    (stableValue (.obj members)).field? name = ((Json.obj members).field? name).map stableValue := by
  have hperm : (propertyOrder Prod.fst (sortMembers (stableMembers members))).Perm
      (stableMembers members) :=
    (perm_propertyOrder _ _).trans (List.perm_insertionSort _ _)
  have hstable : ((stableMembers members).map Prod.fst).Nodup := by
    rw [stableMembers_eq_map, List.map_map]
    exact h
  rw [stableValue, field?, field?, find?_key_of_perm hperm hstable, stableMembers_eq_map,
    List.find?_map, Option.map_map, Option.map_map]
  rfl

mutual

/-- A strict value keeps its numbers and names, so that its stable form is the
reading of its own text. -/
theorem readable_stableValue : ∀ (value : Json) (path : String), value.held = true →
    value.nonFinite? path = none → value.stableValue.Readable numberOfToken
  | .null, _, _, _ | .bool _, _, _, _ | .str _, _, _, _ => trivial
  | .num (.finite text), _, h, _ => ⟨text, rfl, by simpa [held] using h⟩
  | .num (.infinite _), _, _, hfinite => by simp [nonFinite?] at hfinite
  | .arr items, path, h, hfinite => readableItems_stableItems items path 0 h hfinite
  | .obj members, path, h, hfinite => by
      simp only [held, Bool.and_eq_true, decide_eq_true_eq] at h
      have hperm : (propertyOrder Prod.fst (sortMembers (stableMembers members))).Perm
          (stableMembers members) :=
        (perm_propertyOrder _ _).trans (List.perm_insertionSort _ _)
      refine ⟨(hperm.map Prod.fst).nodup_iff.mpr ?_, readableMembers_iff.mpr ?_⟩
      · rw [stableMembers_eq_map, List.map_map]
        exact h.1
      · intro m hm
        exact readableMembers_iff.mp (readableMembers_stableMembers members path h.2 hfinite) m
          (hperm.mem_iff.mp hm)

theorem readableItems_stableItems : ∀ (items : List Json) (path : String) (index : Nat),
    heldItems items = true → nonFiniteItem? path index items = none →
    ReadableItems numberOfToken (stableItems items)
  | [], _, _, _, _ => trivial
  | item :: rest, path, index, h, hfinite => by
      simp only [heldItems, Bool.and_eq_true] at h
      rw [nonFiniteItem?, Option.or_eq_none_iff] at hfinite
      exact ⟨readable_stableValue item _ h.1 hfinite.1,
        readableItems_stableItems rest path (index + 1) h.2 hfinite.2⟩

theorem readableMembers_stableMembers : ∀ (members : List (String × Json)) (path : String),
    heldMembers members = true → nonFiniteMember? path members = none →
    ReadableMembers numberOfToken (stableMembers members)
  | [], _, _, _ => trivial
  | (_, value) :: rest, path, h, hfinite => by
      simp only [heldMembers, Bool.and_eq_true] at h
      rw [nonFiniteMember?, Option.or_eq_none_iff] at hfinite
      exact ⟨readable_stableValue value _ h.1 hfinite.1,
        readableMembers_stableMembers rest path h.2 hfinite.2⟩

end

theorem parseJson_stableJson {value : Json} {path : String} (h : value.held = true)
    (hfinite : value.nonFinite? path = none) :
    parseJson (String.ofList value.stableJson) = some value.stableValue :=
  parseText_text numberOfToken (readable_stableValue value path h hfinite)

end Json

end Hseos
