import Hseos.Foundation.DataValue
import Hseos.Foundation.Indexed
import Hseos.Foundation.Text
import Mathlib.Data.List.Sort

/-! # The permission lattice

Rules of several stages and sources, an execution mode and a callback of the provider
decide together whether an action is dispatched. A denial outweighs a question, and
both outweigh what the mode and the rules that allow would grant.
-/

namespace Hseos.Policy

/-- `AgentPolicyLatticeError`. The message of an unknown source ends with that source. -/
inductive LatticeError where
  | unknownSource (source : DataValue)
  | invalid (message : String)

/-! ## Sources, stages and decisions -/

inductive Source where
  | runtimeDefault
  | syncedPlugin
  | installedPlugin
  | project
  | user
  | managed
  | enterprise
  deriving DecidableEq

/-- The index in `SOURCE_PRECEDENCE`. -/
def Source.rank : Source → Nat
  | .runtimeDefault => 0
  | .syncedPlugin => 1
  | .installedPlugin => 2
  | .project => 3
  | .user => 4
  | .managed => 5
  | .enterprise => 6

theorem Source.rank_injective : Function.Injective Source.rank := by
  intro a b h
  cases a <;> cases b <;> first | rfl | cases h

def Source.ofText? : String → Option Source
  | "runtime_default" => some .runtimeDefault
  | "synced_plugin" => some .syncedPlugin
  | "installed_plugin" => some .installedPlugin
  | "project" => some .project
  | "user" => some .user
  | "managed" => some .managed
  | "enterprise" => some .enterprise
  | _ => none

/-- `RULE_STAGES`. -/
inductive Stage where
  | constitutional
  | mandatoryHook
  | deny
  | ask
  | allow
  deriving DecidableEq

/-- The index in `STAGE_PRECEDENCE`, where the execution mode comes before `allow`. -/
def Stage.rank : Stage → Nat
  | .constitutional => 0
  | .mandatoryHook => 1
  | .deny => 2
  | .ask => 3
  | .allow => 5

def Stage.ofText? : String → Option Stage
  | "constitutional" => some .constitutional
  | "mandatory_hook" => some .mandatoryHook
  | "deny" => some .deny
  | "ask" => some .ask
  | "allow" => some .allow
  | _ => none

/-- `DECISIONS`. -/
inductive Decision where
  | abstain
  | allow
  | ask
  | deny
  deriving DecidableEq

def Decision.ofText? : String → Option Decision
  | "abstain" => some .abstain
  | "allow" => some .allow
  | "ask" => some .ask
  | "deny" => some .deny
  | _ => none

/-- `EXECUTION_MODES`. -/
inductive ExecutionMode where
  | default
  | bypass
  | plan
  deriving DecidableEq

def ExecutionMode.text : ExecutionMode → String
  | .default => "default"
  | .bypass => "bypass"
  | .plan => "plan"

/-- The mode that a value names. An absent one is the default. -/
def ExecutionMode.ofValue? : DataValue → Option ExecutionMode
  | .undefined => some .default
  | .str "default" => some .default
  | .str "bypass" => some .bypass
  | .str "plan" => some .plan
  | _ => none

def normalizeSource (source : DataValue) : Except LatticeError Source :=
  match source.string?.bind Source.ofText? with
  | some source => .ok source
  | none => .error (.unknownSource source)

def normalizeDecision (value : DataValue) (label : String) : Except LatticeError Decision :=
  match value.string?.bind Decision.ofText? with
  | some decision => .ok decision
  | none => .error (.invalid s!"{label} returned an invalid decision")

def normalizeStage (value : DataValue) (id : String) : Except LatticeError Stage :=
  match value.string?.bind Stage.ofText? with
  | some stage => .ok stage
  | none => .error (.invalid s!"rule {id} has an invalid stage")

/-! ## Rules -/

/-- A rule as `normalizeRule` returns it. The reason is kept as code units. -/
structure Rule where
  id : String
  source : Source
  stage : Stage
  decision : Decision
  reason : List Nat
  deriving DecidableEq

/-- The decision that a stage is bound to. -/
def Stage.fixedDecision? : Stage → Option Decision
  | .deny => some .deny
  | .ask => some .ask
  | .allow => some .allow
  | .constitutional | .mandatoryHook => none

/-- `['constitutional', 'mandatory_hook'].includes(stage)`. -/
def Stage.protective : Stage → Bool
  | .constitutional | .mandatoryHook => true
  | .deny | .ask | .allow => false

/-- `typeof reason === 'string' ? reason.slice(0, 2048) : ''`. -/
def reasonUnits : DataValue → List Nat
  | .str reason => (utf16 reason).take 2048
  | _ => []

/-- The id that a rule may have. -/
def ruleId? (rule : DataValue) : Option String :=
  (rule.field "id").string?.filter fun id => jsLength id ≠ 0 && jsLength id ≤ 256

def requireRuleId (rule : DataValue) (index : Nat) : Except LatticeError String :=
  match ruleId? rule with
  | some id => .ok id
  | none => .error (.invalid s!"rule {index} has an invalid id")

def normalizeRule (rule : DataValue) (index : Nat) : Except LatticeError Rule := do
  reject (!rule.isRecord) (.invalid s!"rule {index} must be an object")
  let id ← requireRuleId rule index
  let stage ← normalizeStage (rule.field "stage") id
  let decision ← normalizeDecision (rule.field "decision") s!"rule {id}"
  reject (stage.fixedDecision?.any fun fixed => decision ≠ .abstain && decision ≠ fixed)
    (.invalid s!"rule {id} has a decision incompatible with its stage")
  reject (stage.protective && decision = .allow)
    (.invalid s!"rule {id} cannot grant authority from a protective stage")
  let source ← normalizeSource (rule.field "source")
  return { id, source, stage, decision, reason := reasonUnits (rule.field "reason") }

/-! ## Evaluation -/

/-- What the provider passes as `provider_callback`. -/
inductive ProviderCallback where
  | absent
  | notFunction
  | answers (value : DataValue)

/-- An entry of the trace. -/
structure TraceEntry where
  stage : String
  source : String
  ruleId : String
  decision : Decision
  deriving DecidableEq

def Source.text : Source → String
  | .runtimeDefault => "runtime_default"
  | .syncedPlugin => "synced_plugin"
  | .installedPlugin => "installed_plugin"
  | .project => "project"
  | .user => "user"
  | .managed => "managed"
  | .enterprise => "enterprise"

def Stage.text : Stage → String
  | .constitutional => "constitutional"
  | .mandatoryHook => "mandatory_hook"
  | .deny => "deny"
  | .ask => "ask"
  | .allow => "allow"

def traceRule (rule : Rule) : TraceEntry :=
  ⟨rule.stage.text, rule.source.text, rule.id, rule.decision⟩

/-- What `evaluatePermissionLattice` returns. -/
structure LatticeOutcome where
  decision : Decision
  dispatchAllowed : Bool
  decidingRuleId : Option String
  trace : List TraceEntry
  deriving DecidableEq

def modeDecision : ExecutionMode → Decision
  | .bypass => .allow
  | .plan => .ask
  | .default => .abstain

section

-- The comparison of the ids: negative, zero or positive.
variable (localeCompare : String → String → Int)

/-- The comparison that the rules are sorted by is not positive. -/
def ruleLe (left right : Rule) : Prop :=
  left.stage.rank < right.stage.rank ∨ left.stage.rank = right.stage.rank ∧
    (right.source.rank < left.source.rank ∨ left.source.rank = right.source.rank ∧
      localeCompare left.id right.id ≤ 0)

instance : DecidableRel (ruleLe localeCompare) :=
  fun _ _ => inferInstanceAs (Decidable (_ ∨ _))

def orderRules (rules : List Rule) : List Rule := rules.insertionSort (ruleLe localeCompare)

end

/-- The rules that deny, ask and allow first, if any do. -/
structure Verdicts where
  deny : Option Rule
  ask : Option Rule
  allow : Option Rule

def findVerdicts (ordered : List Rule) : Verdicts where
  deny := ordered.find? fun rule => rule.decision = .deny
  ask := ordered.find? fun rule => rule.decision = .ask
  allow := ordered.find? fun rule => rule.stage = .allow && rule.decision = .allow

/-- The decision before the provider is asked. -/
def Verdicts.decision (verdicts : Verdicts) (mode : ExecutionMode) : Decision :=
  if verdicts.deny.isSome then .deny
  else if verdicts.ask.isSome then .ask
  else if modeDecision mode = .ask then .ask
  else if verdicts.allow.isSome || modeDecision mode = .allow then .allow
  else .ask

/-- `deny || ask || allow || null`. -/
def Verdicts.decidingRule (verdicts : Verdicts) : Option Rule :=
  verdicts.deny <|> verdicts.ask <|> verdicts.allow

/-- The entries of the rules and of the mode. -/
def traceOf (ordered : List Rule) (mode : ExecutionMode) : List TraceEntry :=
  (ordered.filter fun rule => rule.stage ≠ .allow).map traceRule ++
    ⟨"execution_mode", "runtime_default", "mode:" ++ mode.text, modeDecision mode⟩ ::
      (ordered.filter fun rule => rule.stage = .allow).map traceRule

/-- The decision, the rule that explains it and the trace, so far. -/
structure Standing where
  decision : Decision
  decidingRule : Option Rule
  trace : List TraceEntry

/-- The provider is asked about what would be allowed. An abstention changes nothing. -/
def consultProvider (callback : ProviderCallback) (standing : Standing) :
    Except LatticeError Standing :=
  if standing.decision = .allow then
    match callback with
    | .absent => .ok standing
    | .notFunction => .error (.invalid "provider_callback must be a function")
    | .answers value => do
        let answer ← normalizeDecision value "provider callback"
        let trace := standing.trace ++
          [⟨"provider_callback", "runtime_default", "provider:callback", answer⟩]
        if answer = .abstain then return { standing with trace }
        else return { decision := answer, decidingRule := none, trace }
  else .ok standing

/-- The decision is returned with the entry of the governed dispatch. -/
def Standing.outcome (standing : Standing) : LatticeOutcome where
  decision := standing.decision
  dispatchAllowed := standing.decision = .allow
  decidingRuleId := standing.decidingRule.map Rule.id
  trace := standing.trace ++ [⟨"governed_dispatch", "runtime_default", "dispatch:governed",
    if standing.decision = .allow then .allow else .deny⟩]

/-- `Array.isArray(rules)`, with the items. -/
def requireRules : DataValue → Except LatticeError (List DataValue)
  | .arr rules => .ok rules
  | _ => .error (.invalid "rules must be an array")

def requireMode (mode : DataValue) : Except LatticeError ExecutionMode :=
  match ExecutionMode.ofValue? mode with
  | some mode => .ok mode
  | none => .error (.invalid "execution_mode is invalid")

/-- The rules normalized, with unique ids. -/
def acceptRules (rules : List DataValue) : Except LatticeError (List Rule) :=
  mapDistinct normalizeRule Rule.id (.invalid "rule ids must be unique") rules

/-- What the rules and the mode say together. -/
def standingOf (localeCompare : String → String → Int) (rules : List Rule) (mode : ExecutionMode) :
    Standing :=
  let ordered := orderRules localeCompare rules
  let verdicts := findVerdicts ordered
  { decision := verdicts.decision mode
    decidingRule := verdicts.decidingRule
    trace := traceOf ordered mode }

def evaluatePermissionLattice (localeCompare : String → String → Int) (rules mode : DataValue)
    (callback : ProviderCallback) : Except LatticeError LatticeOutcome := do
  let rules ← requireRules rules
  let mode ← requireMode mode
  let normalized ← acceptRules rules
  let standing ← consultProvider callback (standingOf localeCompare normalized mode)
  return standing.outcome

end Hseos.Policy
