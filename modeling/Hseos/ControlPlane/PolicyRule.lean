import Hseos.ControlPlane.Classifiers

/-! # Governance rules

The rules, requests and candidates that a policy is resolved from, with what their schemas
check. References are strings of any UTF-16 code units, paired or not: only bytes are
counted before a reference is written to a canonical text.
-/

namespace Hseos.ControlPlane

/-! ## Strings of code units -/

/-- A string by its UTF-16 code units. -/
abbrev CodeUnits := List Nat

def isHighSurrogate (unit : Nat) : Bool := 0xD800 ≤ unit && unit < 0xDC00

def isLowSurrogate (unit : Nat) : Bool := 0xDC00 ≤ unit && unit < 0xE000

/-- The bytes of a unit that is not half of a pair. An unpaired surrogate is written as the
replacement character. -/
def unitBytes (unit : Nat) : Nat :=
  if unit < 0x80 then 1 else if unit < 0x800 then 2 else 3

/-- `Buffer.byteLength(value, 'utf8')`. -/
def unitsByteLength : CodeUnits → Nat
  | [] => 0
  | [unit] => unitBytes unit
  | unit :: next :: rest =>
      if isHighSurrogate unit && isLowSurrogate next then 4 + unitsByteLength rest
      else unitBytes unit + unitsByteLength (next :: rest)

/-- `ReferenceSchema`. -/
def isReference (units : CodeUnits) : Bool :=
  1 ≤ unitsByteLength units && unitsByteLength units ≤ 1024

/-- The text of units without unpaired surrogates. -/
def unitsText? (units : CodeUnits) : Option String := (ofUtf16 units).map String.ofList

/-! ## Rules -/

inductive RuleKind where
  | obligation
  | prohibition
  | permission
  | recommendation
  deriving DecidableEq

def RuleKind.text : RuleKind → String
  | .obligation => "obligation"
  | .prohibition => "prohibition"
  | .permission => "permission"
  | .recommendation => "recommendation"

inductive ActorType where
  | human
  | agent
  | automation
  | service
  deriving DecidableEq

def ActorType.text : ActorType → String
  | .human => "human"
  | .agent => "agent"
  | .automation => "automation"
  | .service => "service"

def ActorType.ofText? : String → Option ActorType
  | "human" => some .human
  | "agent" => some .agent
  | "automation" => some .automation
  | "service" => some .service
  | _ => none

inductive EnforcementPoint where
  | preflight
  | hook
  | cli
  | runtime
  | compiler
  | qualityGate
  | controlPlane
  deriving DecidableEq

def EnforcementPoint.text : EnforcementPoint → String
  | .preflight => "preflight"
  | .hook => "hook"
  | .cli => "cli"
  | .runtime => "runtime"
  | .compiler => "compiler"
  | .qualityGate => "quality-gate"
  | .controlPlane => "control-plane"

/-- `RULE_EFFECTS`, which are the `DECISIONS` too. -/
inductive Effect where
  | allow
  | deny
  | inputRequired
  deriving DecidableEq

def Effect.text : Effect → String
  | .allow => "allow"
  | .deny => "deny"
  | .inputRequired => "input_required"

inductive Operator where
  | equals
  | notEquals
  | in_
  | notIn
  | matches_
  | exists_
  deriving DecidableEq

def Operator.text : Operator → String
  | .equals => "equals"
  | .notEquals => "not_equals"
  | .in_ => "in"
  | .notIn => "not_in"
  | .matches_ => "matches"
  | .exists_ => "exists"

/-- `RuleConditionSchema`. -/
structure RuleCondition where
  field : Identifier
  operator : Operator
  value : Option Json

namespace RuleCondition

def toJson (condition : RuleCondition) : Json :=
  .obj ([("field", .ofText condition.field), ("operator", .str condition.operator.text)] ++
    Json.member? "value" id condition.value)

/-- `z.json()` with a canonical text of at most 64 KiB. -/
def validValue (value : Json) : Bool :=
  value.canonical && lossless value && byteLength (canonicalJson value) ≤ 64 * 1024

/-- Which values an operator takes. -/
def suits (operator : Operator) : Option Json → Bool
  | none => operator = .exists_
  | some (.str _) => operator ∉ [.exists_, .in_, .notIn]
  | some (.arr _) => operator ∉ [.exists_, .matches_]
  | some _ => operator ∉ [.exists_, .matches_, .in_, .notIn]

def valid (condition : RuleCondition) : Bool :=
  condition.value.all validValue && suits condition.operator condition.value

end RuleCondition

/-- `RuleObligationSchema`. -/
structure RuleObligation where
  code : Identifier
  parameters : Json
  deriving DecidableEq

namespace RuleObligation

def toJson (obligation : RuleObligation) : Json :=
  .obj [("code", .ofText obligation.code), ("parameters", obligation.parameters)]

def valid (obligation : RuleObligation) : Bool :=
  obligation.parameters.canonicalObject && lossless obligation.parameters &&
    byteLength (canonicalJson obligation.parameters) ≤ 64 * 1024

/-- `canonicalize(obligation)`. -/
def key (obligation : RuleObligation) : List Char := canonicalJson obligation.toJson

end RuleObligation

structure RuleScope where
  organizations : List Identifier
  repositories : List CodeUnits
  environments : List Identifier
  branches : List CodeUnits
  stackIds : List Identifier
  capabilities : List Identifier

/-- `GovernanceRuleSchema`. -/
structure GovernanceRule where
  ruleId : Identifier
  organizationId : Identifier
  kind : RuleKind
  actorTypes : List ActorType
  roles : List Identifier
  action : Identifier
  resourceType : Identifier
  resourceIdentifiers : List CodeUnits
  scope : RuleScope
  conditions : List RuleCondition
  effect : Effect
  rulePriority : Nat
  obligations : List RuleObligation
  enforcementPoints : List EnforcementPoint
  artifactId : Identifier
  artifactVersion : Nat
  locator : CodeUnits

/-- `uniqueArray`, of items that a key tells apart. -/
def uniqueBy {α κ : Type} [DecidableEq κ] (key : α → κ) (low high : Nat) (items : List α) : Bool :=
  low ≤ items.length && items.length ≤ high && (items.map key).Nodup

namespace RuleScope

def valid (scope : RuleScope) : Bool :=
  uniqueBy id 0 64 scope.organizations && uniqueBy id 0 256 scope.repositories &&
    scope.repositories.all isReference && uniqueBy id 0 64 scope.environments &&
    uniqueBy id 0 256 scope.branches && scope.branches.all isReference &&
    uniqueBy id 0 64 scope.stackIds && uniqueBy id 0 256 scope.capabilities

def toJson? (scope : RuleScope) : Option Json := do
  let repositories ← scope.repositories.mapM unitsText?
  let branches ← scope.branches.mapM unitsText?
  return .obj [("organizations", .ofTexts scope.organizations),
    ("repositories", .ofStrings repositories), ("environments", .ofTexts scope.environments),
    ("branches", .ofStrings branches), ("stacks", .ofTexts scope.stackIds),
    ("capabilities", .ofTexts scope.capabilities)]

end RuleScope

namespace GovernanceRule

def valid (rule : GovernanceRule) : Bool :=
  uniqueBy id 1 4 rule.actorTypes && uniqueBy id 0 64 rule.roles &&
    uniqueBy id 0 256 rule.resourceIdentifiers && rule.resourceIdentifiers.all isReference &&
    rule.scope.valid && uniqueBy (fun c => canonicalJson c.toJson) 0 64 rule.conditions &&
    rule.conditions.all (·.valid) && rule.rulePriority ≤ 1000 &&
    uniqueBy RuleObligation.key 0 64 rule.obligations && rule.obligations.all (·.valid) &&
    uniqueBy id 1 7 rule.enforcementPoints && intWithin 1 maxSafeInteger rule.artifactVersion &&
    isReference rule.locator

/-- The rule as a JSON value, `none` where a reference has no text. -/
def toJson? (rule : GovernanceRule) : Option Json := do
  let identifiers ← rule.resourceIdentifiers.mapM unitsText?
  let scope ← rule.scope.toJson?
  let locator ← unitsText? rule.locator
  return .obj [("schema_version", .ofNat 1), ("rule_id", .ofText rule.ruleId),
    ("organization_id", .ofText rule.organizationId), ("kind", .str rule.kind.text),
    ("subject", .obj [("actor_types", .ofStrings (rule.actorTypes.map ActorType.text)),
      ("roles", .ofTexts rule.roles)]),
    ("action", .ofText rule.action),
    ("resource", .obj [("type", .ofText rule.resourceType),
      ("identifiers", .ofStrings identifiers)]),
    ("scope", scope), ("conditions", .arr (rule.conditions.map RuleCondition.toJson)),
    ("effect", .str rule.effect.text), ("priority", .ofNat rule.rulePriority),
    ("obligations", .arr (rule.obligations.map RuleObligation.toJson)),
    ("enforcement_points", .ofStrings (rule.enforcementPoints.map EnforcementPoint.text)),
    ("source", .obj [("artifact_id", .ofText rule.artifactId),
      ("artifact_version", .ofNat rule.artifactVersion), ("locator", .str locator)])]

end GovernanceRule

end Hseos.ControlPlane
