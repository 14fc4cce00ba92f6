import Hseos.ControlPlane.PolicyRule
import Hseos.Foundation.Indexed

/-! # Resolution of governance policies

A request is answered from the candidate rules that match it. Every candidate carries the
precedence of the layer it comes from; the last layer is that of approved exceptions, which
override what the others say.
-/

namespace Hseos.ControlPlane

/-! ## Errors -/

def resolutionError (message : String) : GovernanceError :=
  ⟨"PolicyResolutionError", message, "MANAGED_GOVERNANCE_POLICY_INVALID"⟩

def sourceError (message : String) : GovernanceError :=
  ⟨"PolicyResolutionError", message, "MANAGED_GOVERNANCE_POLICY_SOURCE_INVALID"⟩

/-- What `Object.hasOwn(null, segment)` throws. It has no code. -/
def ownPropertyError : GovernanceError :=
  ⟨"TypeError", "Cannot convert undefined or null to object", ""⟩

/-- What `canonicalize` throws at an unpaired surrogate. -/
def canonicalJsonError : GovernanceError :=
  ⟨"CanonicalJsonError", "string contains an unpaired surrogate",
    "MANAGED_GOVERNANCE_CANONICAL_JSON_INVALID"⟩

/-! ## Requests -/

/-- A request whose record and fields have the right shape. -/
structure PolicyRequest where
  organizationId : String
  actorType : String
  actorRoles : List CodeUnits
  action : String
  resourceType : String
  resourceIdentifier : CodeUnits
  repository : Option CodeUnits
  environment : String
  branch : Option CodeUnits
  stack : String
  capabilities : List CodeUnits
  facts : Json
  actionClass : String

inductive ActionClass where
  | read
  | mutation
  deriving DecidableEq

def ActionClass.ofText? : String → Option ActionClass
  | "read" => some .read
  | "mutation" => some .mutation
  | _ => none

/-- What `normalizeRequest` returns. -/
structure NormalizedRequest where
  organizationId : Identifier
  actorType : ActorType
  actorRoles : List CodeUnits
  action : Identifier
  resourceType : Identifier
  resourceIdentifier : CodeUnits
  repository : Option CodeUnits
  environment : Identifier
  branch : Option CodeUnits
  stack : Identifier
  capabilities : List CodeUnits
  facts : Json
  actionClass : ActionClass

def boundedIdentifier (value label : String) : Result Identifier :=
  if h : isIdentifier value = true then .ok ⟨value, h⟩
  else .error (resolutionError (label ++ " is invalid"))

def boundedReference (value : CodeUnits) (label : String) : Result CodeUnits :=
  if isReference value then .ok value else .error (resolutionError (label ++ " is invalid"))

/-- `boundedReference(value, label, true)`. -/
def nullableReference (value : Option CodeUnits) (label : String) : Result (Option CodeUnits) :=
  if value.all isReference then .ok value else .error (resolutionError (label ++ " is invalid"))

def stringArray (values : List CodeUnits) (label : String) (maximum : Nat) :
    Result (List CodeUnits) := do
  reject (maximum < values.length) (resolutionError (label ++ " is invalid"))
  reject (!values.all isReference) (resolutionError (label ++ " is invalid"))
  reject (!decide values.Nodup) (resolutionError (label ++ " contains duplicates"))
  return values

def requireActorType (value : String) : Result ActorType :=
  match ActorType.ofText? value with
  | some actorType => .ok actorType
  | none => .error (resolutionError "policy actor type is invalid")

def requireActionClass (value : String) : Result ActionClass :=
  match ActionClass.ofText? value with
  | some actionClass => .ok actionClass
  | none => .error (resolutionError "policy action class is invalid")

/-- The facts are an object whose canonical text has at most 256 KiB. -/
def requireFacts (facts : Json) : Result Json :=
  match facts with
  | .obj members =>
      match canonicalize? (.obj members) with
      | some text =>
          if byteLength text ≤ 256 * 1024 then .ok (.obj members)
          else .error (resolutionError "policy facts exceed the durable evaluation limit")
      | none => .error (resolutionError "policy facts are not canonical JSON")
  | _ => .error (resolutionError "policy facts must be an object")

def normalizeRequest (request : PolicyRequest) : Result NormalizedRequest := do
  let actorType ← requireActorType request.actorType
  let actionClass ← requireActionClass request.actionClass
  let facts ← requireFacts request.facts
  let organizationId ← boundedIdentifier request.organizationId "organization id"
  let actorRoles ← stringArray request.actorRoles "actor roles" 64
  let action ← boundedIdentifier request.action "action"
  let resourceType ← boundedIdentifier request.resourceType "resource type"
  let resourceIdentifier ← boundedReference request.resourceIdentifier "resource identifier"
  let repository ← nullableReference request.repository "scope repository"
  let environment ← boundedIdentifier request.environment "scope environment"
  let branch ← nullableReference request.branch "scope branch"
  let stack ← boundedIdentifier request.stack "scope stack"
  let capabilities ← stringArray request.capabilities "scope capabilities" 256
  return { organizationId, actorType, actorRoles, action, resourceType, resourceIdentifier,
           repository, environment, branch, stack, capabilities, facts, actionClass }

/-! ## Candidates -/

/-- `PRECEDENCE`. -/
inductive Precedence where
  | constitution
  | organizationStandard
  | organizationPolicy
  | portfolioProduct
  | projectRepository
  | environment
  | protectedRef
  | agentAuthority
  | activatedSurface
  | approvedException
  deriving DecidableEq

/-- The index in `PRECEDENCE`. -/
def Precedence.rank : Precedence → Nat
  | .constitution => 0
  | .organizationStandard => 1
  | .organizationPolicy => 2
  | .portfolioProduct => 3
  | .projectRepository => 4
  | .environment => 5
  | .protectedRef => 6
  | .agentAuthority => 7
  | .activatedSurface => 8
  | .approvedException => 9

def Precedence.ofText? : String → Option Precedence
  | "constitution" => some .constitution
  | "organization-standard" => some .organizationStandard
  | "organization-policy" => some .organizationPolicy
  | "portfolio-product" => some .portfolioProduct
  | "project-repository" => some .projectRepository
  | "environment" => some .environment
  | "protected-ref" => some .protectedRef
  | "agent-authority" => some .agentAuthority
  | "activated-surface" => some .activatedSurface
  | "approved-exception" => some .approvedException
  | _ => none

/-- The evidence of an exception. `expiresAt` is what `Date.parse` makes of its text. -/
structure ExceptionEvidence where
  status : String
  evidenceRef : CodeUnits
  expiresAt : Option Int

structure PolicyCandidate where
  rule : GovernanceRule
  precedence : String
  lifecycleStatus : String
  exceptionEvidence : Option ExceptionEvidence

/-- An exception that was approved and is not over. -/
structure ApprovedException where
  evidenceRef : CodeUnits
  expiresAt : Int
  deriving DecidableEq

/-- What `normalizeCandidates` makes of a candidate. -/
structure NormalizedCandidate where
  rule : GovernanceRule
  precedence : Precedence
  approval : Option ApprovedException

/-- `Date.parse(value)`, when it is after an instant. -/
def laterInstant (value : Option Int) (evaluatedAt : Int) : Result Int :=
  match value with
  | some instant =>
      if evaluatedAt < instant then .ok instant
      else .error (resolutionError "approved exception is expired or invalid")
  | none => .error (resolutionError "approved exception is expired or invalid")

def normalizeException (value : Option ExceptionEvidence) (precedence : Precedence)
    (evaluatedAt : Int) : Result (Option ApprovedException) :=
  match value with
  | none =>
      if precedence = .approvedException then
        .error (resolutionError "approved-exception rule requires verified approval evidence")
      else .ok none
  | some value => do
      reject (precedence ≠ .approvedException || value.status ≠ "approved")
        (resolutionError "only approved-exception rules may carry exception evidence")
      let expiresAt ← laterInstant value.expiresAt evaluatedAt
      let evidenceRef ← boundedReference value.evidenceRef "exception evidence reference"
      return some { evidenceRef, expiresAt }

def requirePrecedence (value : String) (index : Nat) : Result Precedence :=
  match Precedence.ofText? value with
  | some precedence => .ok precedence
  | none => .error (resolutionError s!"policy candidate {index} has invalid precedence")

def normalizeCandidate (evaluatedAt : Int) (candidate : PolicyCandidate) (index : Nat) :
    Result NormalizedCandidate := do
  let precedence ← requirePrecedence candidate.precedence index
  reject (candidate.lifecycleStatus ≠ "published")
    (sourceError s!"policy candidate {index} is not published")
  reject (!candidate.rule.valid) (contractError s!"policy candidate {index} rule")
  let approval ← normalizeException candidate.exceptionEvidence precedence evaluatedAt
  return { rule := candidate.rule, precedence, approval }

def normalizeCandidates (candidates : List PolicyCandidate) (evaluatedAt : Int) :
    Result (List NormalizedCandidate) := do
  reject (256 < candidates.length) (resolutionError "policy candidates are invalid")
  mapDistinct (normalizeCandidate evaluatedAt) (fun candidate => candidate.rule.ruleId)
    (resolutionError "policy rule ids must be unique") candidates

/-! ## Wildcards -/

/-- `rows[0]`: how much of a pattern the empty text matches. -/
def firstRow (matched : Bool) : CodeUnits → List Bool
  | [] => [matched]
  | token :: pattern => matched :: firstRow (token = 42 && matched) pattern

/-- The rest of a row, from the entry before it, the rest of the row above it with the entry
before that, and the tokens: `*` is 42, `?` is 63. -/
def nextEntries (unit : Nat) (left above : Bool) : CodeUnits → List Bool → List Bool
  | token :: pattern, here :: row =>
      let entry := if token = 42 then left || here else (token = 63 || token = unit) && above
      entry :: nextEntries unit entry here pattern row
  | _, _ => []

/-- The row of one more unit. -/
def nextRow (pattern : CodeUnits) (row : List Bool) (unit : Nat) : List Bool :=
  match row with
  | above :: row => false :: nextEntries unit false above pattern row
  | [] => []

def wildcardMatch (value pattern : CodeUnits) : Bool :=
  unitsByteLength value ≤ 4096 && unitsByteLength pattern ≤ 256 &&
    (value.foldl (nextRow pattern) (firstRow true pattern)).getLast?.getD false

def includesOrWildcard (values : List CodeUnits) (actual : Option CodeUnits) : Bool :=
  values.isEmpty || actual.any fun actual =>
    values.any fun candidate =>
      candidate = actual || 42 ∈ candidate && wildcardMatch actual candidate

/-! ## Facts -/

/-- What a path may reach: a JSON value, or one unit of a string that is half of a pair. -/
inductive Fact where
  | json (value : Json)
  | surrogate (unit : Nat)
  deriving DecidableEq

/-- One unit of a string, as a string. -/
def factOfUnit (unit : Nat) : Fact :=
  match unitsText? [unit] with
  | some text => .json (.str text)
  | none => .surrogate unit

/-- An own property of a string. -/
def stringProperty (units : CodeUnits) (segment : String) : Option Fact :=
  if segment = "length" then some (.json (.ofNat units.length))
  else (arrayIndex? segment).bind fun index => units[index]?.map factOfUnit

/-- `value[segment]` when `Object.hasOwn(value, segment)`, of anything but `null`. -/
def ownProperty (value : Fact) (segment : String) : Option Fact :=
  match value with
  | .json (.obj members) => ((Json.obj members).field? segment).map .json
  | .json (.arr items) =>
      if segment = "length" then some (.json (.ofNat items.length))
      else (arrayIndex? segment).bind fun index => items[index]?.map .json
  | .json (.str text) => stringProperty (utf16 text) segment
  | .surrogate unit => stringProperty [unit] segment
  | .json _ => none

def reservedSegments : List String := ["__proto__", "prototype", "constructor"]

/-- The rest of a path whose last segment has the text `last`. -/
def followPath (last : String) : Fact → List String → Result (Option Fact)
  | value, [] => .ok (some value)
  | value, segment :: rest =>
      if segment ∈ reservedSegments then .ok none
      else if value = .json .null then .error ownPropertyError
      else
        match ownProperty value segment with
        | none => .ok none
        | some next =>
            if next = .json .null ∧ segment ≠ last then .ok none else followPath last next rest

/-- `field.split('.')`. -/
def pathSegments (field : String) : List String :=
  ((chars field).splitOn '.').map String.ofList

/-- The value at a path, `none` where it does not exist. -/
def factAtPath (facts : Json) (field : String) : Result (Option Fact) :=
  followPath ((pathSegments field).getLast?.getD "") (.json facts) (pathSegments field)

/-- Both sides have one canonical text. A lone surrogate has none. -/
def equalJson (actual : Fact) (value : Json) : Bool :=
  match actual with
  | .json actual =>
      match canonicalize? actual, canonicalize? value with
      | some left, some right => left = right
      | _, _ => false
  | .surrogate _ => false

/-- The units of a string. -/
def Fact.units? : Fact → Option CodeUnits
  | .json (.str text) => some (utf16 text)
  | .surrogate unit => some [unit]
  | .json _ => none

/-- What an operator says of a value that exists. -/
def operatorHolds (condition : RuleCondition) (actual : Fact) : Bool :=
  match condition.operator, condition.value with
  | .exists_, _ => true
  | .equals, some value => equalJson actual value
  | .notEquals, some value => !equalJson actual value
  | .in_, some (.arr values) => values.any fun candidate => equalJson actual candidate
  | .notIn, some (.arr values) => values.all fun candidate => !equalJson actual candidate
  | .matches_, some (.str pattern) =>
      actual.units?.any fun units => wildcardMatch units (utf16 pattern)
  | _, _ => false

def conditionMatches (condition : RuleCondition) (facts : Json) : Result Bool := do
  let actual ← factAtPath facts condition.field.val
  return actual.any (operatorHolds condition)

/-- `rule.conditions.every(...)`, up to the first that fails. -/
def conditionsMatch (facts : Json) : List RuleCondition → Result Bool
  | [] => .ok true
  | condition :: rest => do
      let matched ← conditionMatches condition facts
      if matched then conditionsMatch facts rest else return false

/-! ## Matching -/

/-- What `ruleMatches` asks before it looks at the conditions. -/
def ruleApplies (rule : GovernanceRule) (request : NormalizedRequest) : Bool :=
  let identifiers := fun values : List Identifier => values.map fun value => utf16 value.val
  rule.organizationId = request.organizationId &&
    request.actorType ∈ rule.actorTypes &&
    (rule.roles.isEmpty || (identifiers rule.roles).any fun role => role ∈ request.actorRoles) &&
    rule.action = request.action && rule.resourceType = request.resourceType &&
    includesOrWildcard rule.resourceIdentifiers (some request.resourceIdentifier) &&
    includesOrWildcard (identifiers rule.scope.organizations)
      (some (utf16 request.organizationId.val)) &&
    includesOrWildcard rule.scope.repositories request.repository &&
    includesOrWildcard (identifiers rule.scope.environments)
      (some (utf16 request.environment.val)) &&
    includesOrWildcard rule.scope.branches request.branch &&
    includesOrWildcard (identifiers rule.scope.stackIds) (some (utf16 request.stack.val)) &&
    (identifiers rule.scope.capabilities).all fun capability => capability ∈ request.capabilities

def ruleMatches (rule : GovernanceRule) (request : NormalizedRequest) : Result Bool :=
  if ruleApplies rule request then conditionsMatch request.facts rule.conditions else .ok false

/-- `normalized.filter((candidate) => ruleMatches(candidate.rule, request))`. -/
def matchingCandidates (request : NormalizedRequest) :
    List NormalizedCandidate → Result (List NormalizedCandidate)
  | [] => .ok []
  | candidate :: rest => do
      let matched ← ruleMatches candidate.rule request
      let others ← matchingCandidates request rest
      return if matched then candidate :: others else others

/-- The comparison that matches are sorted by is not positive. -/
def candidateLe (localeCompare : String → String → Int) (left right : NormalizedCandidate) : Prop :=
  left.precedence.rank < right.precedence.rank ∨ left.precedence = right.precedence ∧
    (right.rule.rulePriority < left.rule.rulePriority ∨
      left.rule.rulePriority = right.rule.rulePriority ∧
        localeCompare left.rule.ruleId.val right.rule.ruleId.val ≤ 0)

instance (localeCompare : String → String → Int) : DecidableRel (candidateLe localeCompare) :=
  fun _ _ => inferInstanceAs (Decidable (_ ∨ _))

def orderMatches (localeCompare : String → String → Int) (matched : List NormalizedCandidate) :
    List NormalizedCandidate :=
  matched.insertionSort (candidateLe localeCompare)

/-! ## Decisions -/

def operationalApproval : String := "operational.approval.required"

/-- A decision and its reason. -/
structure PolicyOutcome where
  decision : Effect
  reasonCode : String
  deriving DecidableEq

/-- Some candidate has this effect. -/
def someEffect (candidates : List NormalizedCandidate) (effect : Effect) : Bool :=
  candidates.any fun candidate => candidate.rule.effect = effect

/-- Some level allows and restricts. -/
def samePrecedenceConflict (matched : List NormalizedCandidate) : Bool :=
  matched.any fun candidate =>
    let level := matched.filter fun other => other.precedence = candidate.precedence
    someEffect level .allow && (someEffect level .deny || someEffect level .inputRequired)

/-- What the rules say that are not exceptions. -/
def normalDecision (normal : List NormalizedCandidate) : Effect :=
  if someEffect normal .deny then .deny
  else if someEffect normal .inputRequired then .inputRequired
  else if someEffect normal .allow then .allow
  else .inputRequired

/-- What the exceptions make of that. -/
def exceptionOutcome (exceptions : List NormalizedCandidate) (normal : Effect) : PolicyOutcome :=
  if someEffect exceptions .deny then ⟨.deny, "policy.exception_restricts"⟩
  else if someEffect exceptions .allow then ⟨.allow, "policy.approved_exception"⟩
  else ⟨normal, "policy." ++ normal.text⟩

/-- A matching rule obliges to an operational approval. -/
def requiresApproval (matched : List NormalizedCandidate) : Bool :=
  matched.any fun candidate =>
    candidate.rule.obligations.any fun obligation => obligation.code.val = operationalApproval

def decisionForMatches (matched : List NormalizedCandidate) (actionClass : ActionClass) :
    PolicyOutcome :=
  let normal := matched.filter fun candidate => candidate.precedence ≠ .approvedException
  let exceptions := matched.filter fun candidate => candidate.precedence = .approvedException
  let outcome := exceptionOutcome exceptions (normalDecision normal)
  if matched.isEmpty then ⟨.inputRequired, "policy.no_match"⟩
  else if samePrecedenceConflict matched then
    ⟨if actionClass = .mutation then .deny else .inputRequired, "policy.same_precedence_conflict"⟩
  else if outcome.decision = .allow && requiresApproval matched then
    ⟨.inputRequired, "policy.operational_approval_required"⟩
  else outcome

/-! ## Evidence -/

/-- `DecisionEvidenceSchema`. -/
structure DecisionEvidence where
  code : String
  reference : CodeUnits
  digest : Option Digest
  deriving DecidableEq

/-- `canonicalize(item)`. -/
def DecisionEvidence.key (evidence : DecisionEvidence) : Result (List Char) :=
  match unitsText? evidence.reference with
  | some reference => .ok (canonicalJson (.obj ([("code", .str evidence.code),
      ("reference", .str reference)] ++ Json.member? "digest" Json.ofText evidence.digest)))
  | none => .error canonicalJsonError

/-- `digestCanonical(candidate.rule)`. What is valid but for its references has a text. -/
def ruleDigest (rule : GovernanceRule) : Result Digest :=
  match rule.toJson? with
  | some value => .ok (digestCanonical value)
  | none => .error canonicalJsonError

def selectedEvidence (candidate : NormalizedCandidate) : Result (List DecisionEvidence) := do
  let ruleDigest ← ruleDigest candidate.rule
  return ⟨"policy.rule.selected", utf16 ("rule:" ++ candidate.rule.ruleId.val), some ruleDigest⟩ ::
    candidate.approval.toList.map fun approval =>
      ⟨"policy.exception.approval", approval.evidenceRef, none⟩

/-- The items whose keys were not seen before. -/
def distinctItems {α κ : Type} [DecidableEq κ] (key : α → Result κ) (seen : List κ) :
    List α → Result (List α)
  | [] => .ok []
  | item :: rest => do
      let found ← key item
      let others ← distinctItems key (found :: seen) rest
      return if found ∈ seen then others else item :: others

/-! ## Resolution -/

/-- `GovernanceDecisionSchema`. -/
structure GovernanceDecision where
  decision : Effect
  reasonCode : String
  policyVersion : CodeUnits
  releaseDigest : Option Digest
  obligations : List RuleObligation
  evidence : List DecisionEvidence
  warnings : List String

def DecisionEvidence.valid (evidence : DecisionEvidence) : Bool :=
  isIdentifier evidence.code && isReference evidence.reference

/-- The evidence is told apart by texts, and has them. -/
def uniqueEvidence (evidence : List DecisionEvidence) : Bool :=
  (evidence.mapM DecisionEvidence.key).toOption.any fun keys => keys.Nodup

namespace GovernanceDecision

def valid (decision : GovernanceDecision) : Bool :=
  isIdentifier decision.reasonCode && isReference decision.policyVersion &&
    uniqueBy RuleObligation.key 0 128 decision.obligations &&
    decision.obligations.all RuleObligation.valid &&
    decision.evidence.length ≤ 256 && decision.evidence.all DecisionEvidence.valid &&
    uniqueEvidence decision.evidence && uniqueBy id 0 128 decision.warnings &&
    decision.warnings.all isIdentifier

end GovernanceDecision

/-- The arguments of a resolution. `evaluatedAt` is the time value of the date. -/
structure PolicyQuestion where
  candidates : List PolicyCandidate
  request : PolicyRequest
  policyVersion : CodeUnits
  releaseDigest : Option Digest
  evaluatedAt : Option Int

def requireInstant (value : Option Int) : Result Int :=
  match value with
  | some instant => .ok instant
  | none => .error (resolutionError "evaluatedAt is invalid")

/-- The decision that the sorted matches of a request come to. -/
def answer (question : PolicyQuestion) (request : NormalizedRequest)
    (matched : List NormalizedCandidate) : Result GovernanceDecision := do
  let outcome := decisionForMatches matched request.actionClass
  let obligations ← distinctItems (fun obligation => .ok obligation.key) []
    (matched.flatMap fun candidate => candidate.rule.obligations)
  let selected ← matched.mapM selectedEvidence
  let evidence ← distinctItems DecisionEvidence.key [] selected.flatten
  let policyVersion ← boundedReference question.policyVersion "policy version"
  let decision : GovernanceDecision := {
    decision := outcome.decision
    reasonCode := outcome.reasonCode
    policyVersion
    releaseDigest := question.releaseDigest
    obligations
    evidence
    warnings := if matched.isEmpty then ["policy.no_match"] else [] }
  reject (!decision.valid) (contractError "governance decision")
  return decision

def resolveGovernancePolicy (localeCompare : String → String → Int) (question : PolicyQuestion) :
    Result GovernanceDecision := do
  let evaluatedAt ← requireInstant question.evaluatedAt
  let request ← normalizeRequest question.request
  let normalized ← normalizeCandidates question.candidates evaluatedAt
  let matched ← matchingCandidates request normalized
  answer question request (orderMatches localeCompare matched)

end Hseos.ControlPlane
