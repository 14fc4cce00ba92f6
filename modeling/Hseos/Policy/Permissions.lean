import Hseos.Policy.Lattice

/-! # What the lattice permits

The decision depends on which decisions the rules make, and not on their order; only the
deciding rule does. A rule that allows is named as deciding even when the plan mode turns
its allowance into a question.
-/

namespace Hseos.Policy

/-! ## Accepted rules -/

/-- What a rule normalizes to, wherever it stands. -/
def ruleOf? (rule : DataValue) : Option Rule := (normalizeRule rule 0).toOption

theorem requireRuleId_eq_ok_iff {rule : DataValue} {index : Nat} {id : String} :
    requireRuleId rule index = .ok id ↔ ruleId? rule = some id := by
  cases h : ruleId? rule <;> simp [requireRuleId, h]

/-- The index of a rule shows in the errors only. -/
theorem normalizeRule_index (raw : DataValue) (index other : Nat) {rule : Rule} :
    normalizeRule raw index = .ok rule ↔ normalizeRule raw other = .ok rule := by
  simp only [normalizeRule, bind_eq_ok_iff, reject_eq_ok_iff, requireRuleId_eq_ok_iff]

theorem normalizeRule_eq_ok_iff {raw : DataValue} {index : Nat} {rule : Rule} :
    normalizeRule raw index = .ok rule ↔ ruleOf? raw = some rule := by
  rw [normalizeRule_index raw index 0, ruleOf?]
  generalize normalizeRule raw 0 = result
  cases result <;> simp [Except.toOption]

/-- Rules are accepted when each is valid and their ids are unique. -/
theorem acceptRules_eq_ok_iff {raws : List DataValue} {rules : List Rule} :
    acceptRules raws = .ok rules ↔ (∀ raw ∈ raws, (ruleOf? raw).isSome) ∧
      (rules.map Rule.id).Nodup ∧ raws.filterMap ruleOf? = rules :=
  mapDistinct_eq_ok_iff fun _ _ _ => normalizeRule_eq_ok_iff

/-- Rules in another order are accepted alike. -/
theorem acceptRules_of_perm {raws others : List DataValue} {rules : List Rule}
    (hperm : others.Perm raws) (h : acceptRules raws = .ok rules) :
    ∃ sorted : List Rule, acceptRules others = .ok sorted ∧ sorted.Perm rules :=
  mapDistinct_of_perm (fun _ _ _ => normalizeRule_eq_ok_iff) hperm h

/-- What is left when a rule is taken away is accepted as it was. -/
theorem acceptRules_of_cons {raw : DataValue} {raws : List DataValue} {rules : List Rule}
    (h : acceptRules (raw :: raws) = .ok rules) :
    ∃ rule others, ruleOf? raw = some rule ∧ acceptRules raws = .ok others ∧
      rules = rule :: others :=
  mapDistinct_of_cons (f := normalizeRule) (fun _ _ _ => normalizeRule_eq_ok_iff) h

/-! ## Decisions -/

/-- Some rule makes this decision. -/
def Says (rules : List Rule) (decision : Decision) : Prop :=
  ∃ rule ∈ rules, rule.decision = decision

/-- Some rule of the allow stage allows. -/
def Grants (rules : List Rule) : Prop :=
  ∃ rule ∈ rules, rule.stage = .allow ∧ rule.decision = .allow

section

variable {localeCompare : String → String → Int} {rules others : List Rule} {mode : ExecutionMode}

theorem perm_orderRules (localeCompare : String → String → Int) (rules : List Rule) :
    (orderRules localeCompare rules).Perm rules :=
  List.perm_insertionSort _ rules

theorem Says.of_perm {decision : Decision} (hperm : rules.Perm others) :
    Says rules decision ↔ Says others decision := by
  simp only [Says, hperm.mem_iff]

theorem Grants.of_perm (hperm : rules.Perm others) : Grants rules ↔ Grants others := by
  simp only [Grants, hperm.mem_iff]

theorem isSome_deny : (findVerdicts rules).deny.isSome ↔ Says rules .deny := by
  simp [findVerdicts, Says, List.find?_isSome]

theorem isSome_ask : (findVerdicts rules).ask.isSome ↔ Says rules .ask := by
  simp [findVerdicts, Says, List.find?_isSome]

theorem isSome_allow : (findVerdicts rules).allow.isSome ↔ Grants rules := by
  simp [findVerdicts, Grants, List.find?_isSome]

/-- The decision asks which verdicts there are, and not for their rules. -/
theorem decision_findVerdicts_of_perm (hperm : rules.Perm others) :
    (findVerdicts rules).decision mode = (findVerdicts others).decision mode := by
  have hdeny : (findVerdicts rules).deny.isSome = (findVerdicts others).deny.isSome := by
    rw [Bool.eq_iff_iff, isSome_deny, isSome_deny, Says.of_perm hperm]
  have hask : (findVerdicts rules).ask.isSome = (findVerdicts others).ask.isSome := by
    rw [Bool.eq_iff_iff, isSome_ask, isSome_ask, Says.of_perm hperm]
  have hallow : (findVerdicts rules).allow.isSome = (findVerdicts others).allow.isSome := by
    rw [Bool.eq_iff_iff, isSome_allow, isSome_allow, Grants.of_perm hperm]
  simp only [Verdicts.decision, hdeny, hask, hallow]

theorem decision_findVerdicts_eq_allow_iff : (findVerdicts rules).decision mode = .allow ↔
    (¬ Says rules .deny ∧ ¬ Says rules .ask) ∧ mode ≠ .plan ∧ (Grants rules ∨ mode = .bypass) := by
  rw [← isSome_deny, ← isSome_ask, ← isSome_allow, Verdicts.decision]
  cases (findVerdicts rules).deny.isSome <;> cases (findVerdicts rules).ask.isSome <;>
    cases (findVerdicts rules).allow.isSome <;> cases mode <;> decide

/-- Before the provider is asked, the order of the rules does not show in the decision. -/
theorem decision_standingOf_of_perm (localeCompare : String → String → Int) (mode : ExecutionMode)
    (hperm : rules.Perm others) :
    (standingOf localeCompare rules mode).decision =
      (standingOf localeCompare others mode).decision :=
  decision_findVerdicts_of_perm
    (((perm_orderRules _ _).trans hperm).trans (perm_orderRules _ _).symm)

theorem decision_standingOf_eq_allow_iff :
    (standingOf localeCompare rules mode).decision = .allow ↔
      (¬ Says rules .deny ∧ ¬ Says rules .ask) ∧ mode ≠ .plan ∧
        (Grants rules ∨ mode = .bypass) := by
  have hperm := perm_orderRules localeCompare rules
  rw [← Says.of_perm hperm, ← Says.of_perm hperm, ← Grants.of_perm hperm]
  exact decision_findVerdicts_eq_allow_iff

end

/-! ## The provider -/

/-- The provider is not asked, or leaves an allowance as it is. -/
def ProviderCallback.consents : ProviderCallback → Prop
  | .absent => True
  | .notFunction => False
  | .answers value => value.string? = some "allow" ∨ value.string? = some "abstain"

theorem normalizeDecision_eq_ok_iff {value : DataValue} {label : String} {decision : Decision} :
    normalizeDecision value label = .ok decision ↔
      value.string?.bind Decision.ofText? = some decision := by
  rw [normalizeDecision]
  cases value.string?.bind Decision.ofText? <;> simp

theorem ofText?_eq_allow_iff {text : String} :
    Decision.ofText? text = some .allow ↔ text = "allow" := by
  unfold Decision.ofText?
  split <;> simp_all

theorem ofText?_eq_abstain_iff {text : String} :
    Decision.ofText? text = some .abstain ↔ text = "abstain" := by
  unfold Decision.ofText?
  split <;> simp_all

section

variable {callback : ProviderCallback} {standing after : Standing}

/-- What is not allowed is not put to the provider. -/
theorem consultProvider_of_ne (h : standing.decision ≠ .allow) :
    consultProvider callback standing = .ok standing := if_neg h

/-- The provider keeps the standing or gives its own decision, with no rule. -/
theorem consultProvider_eq_ok (h : consultProvider callback standing = .ok after) :
    (after.decision = standing.decision ∧ after.decidingRule = standing.decidingRule) ∨
      after.decidingRule = none := by
  unfold consultProvider at h
  split at h
  · cases callback with
    | absent =>
        cases h
        exact .inl ⟨rfl, rfl⟩
    | notFunction => cases h
    | answers value =>
        obtain ⟨answer, -, hafter⟩ := bind_eq_ok_iff.mp h
        by_cases habstain : answer = .abstain
        · rw [if_pos habstain] at hafter
          cases hafter
          exact .inl ⟨rfl, rfl⟩
        · rw [if_neg habstain] at hafter
          cases hafter
          exact .inr rfl
  · cases h
    exact .inl ⟨rfl, rfl⟩

/-- An allowance stands when the rules and the mode allow and the provider consents. -/
theorem consultProvider_allows_iff (callback : ProviderCallback) (standing : Standing) :
    (∃ after, consultProvider callback standing = .ok after ∧ after.decision = .allow) ↔
      standing.decision = .allow ∧ callback.consents := by
  by_cases hallow : standing.decision = .allow
  · cases callback with
    | absent => simp [consultProvider, hallow, ProviderCallback.consents]
    | notFunction => simp [consultProvider, hallow, ProviderCallback.consents]
    | answers value =>
        simp only [consultProvider, hallow, if_true, bind_eq_ok_iff, normalizeDecision_eq_ok_iff,
          ProviderCallback.consents, true_and]
        constructor
        · rintro ⟨after, ⟨answer, hanswer, hafter⟩, hdecision⟩
          obtain ⟨text, htext, htext'⟩ := Option.bind_eq_some_iff.mp hanswer
          split at hafter
          next habstain =>
            subst habstain
            exact .inr (htext.trans (congrArg _ (ofText?_eq_abstain_iff.mp htext')))
          next =>
            cases hafter
            subst hdecision
            exact .inl (htext.trans (congrArg _ (ofText?_eq_allow_iff.mp htext')))
        · rintro (h | h)
          · exact ⟨_, ⟨.allow, by rw [h]; rfl, rfl⟩, rfl⟩
          · exact ⟨_, ⟨.abstain, by rw [h]; rfl, rfl⟩, rfl⟩
  · rw [consultProvider_of_ne hallow]
    simp [hallow]

/-- Standings with one decision come to one decision. -/
theorem decision_consultProvider (callback : ProviderCallback) {other : Standing}
    (h : standing.decision = other.decision) :
    (consultProvider callback standing).map Standing.decision =
      (consultProvider callback other).map Standing.decision := by
  by_cases hallow : standing.decision = .allow
  · have hother : other.decision = .allow := h.symm.trans hallow
    cases callback with
    | absent => simp [consultProvider, hallow, hother, Except.map]
    | notFunction => simp [consultProvider, hallow, hother]
    | answers value =>
        simp only [consultProvider, hallow, hother, if_true]
        cases normalizeDecision value "provider callback" with
        | error => rfl
        | ok answer => cases answer <;> simp [bind, Except.bind, Except.map, pure, Except.pure]
  · rw [consultProvider_of_ne hallow, consultProvider_of_ne (h ▸ hallow)]
    simp [Except.map, h]

end

/-! ## The lattice -/

section

variable {localeCompare : String → String → Int} {raws others : List DataValue}
  {rules : List Rule} {mode : DataValue} {executionMode : ExecutionMode}
  {callback : ProviderCallback} {outcome : LatticeOutcome}

/-- Accepted rules under a valid mode are evaluated through their standing. -/
theorem evaluatePermissionLattice_of_accepted (hrules : acceptRules raws = .ok rules)
    (hmode : ExecutionMode.ofValue? mode = some executionMode) :
    evaluatePermissionLattice localeCompare (.arr raws) mode callback =
      (consultProvider callback (standingOf localeCompare rules executionMode)).map
        Standing.outcome := by
  simp only [evaluatePermissionLattice, requireRules, requireMode, hmode, ok_bind, hrules]
  cases consultProvider callback (standingOf localeCompare rules executionMode) <;> rfl

theorem acceptRules_of_evaluate
    (h : evaluatePermissionLattice localeCompare (.arr raws) mode callback = .ok outcome) :
    ∃ rules, acceptRules raws = .ok rules := by
  simp only [evaluatePermissionLattice, requireRules, ok_bind, bind_eq_ok_iff] at h
  obtain ⟨-, -, rules, hrules, -⟩ := h
  exact ⟨rules, hrules⟩

/-- The action is dispatched. -/
def Dispatches (localeCompare : String → String → Int) (raws : List DataValue) (mode : DataValue)
    (callback : ProviderCallback) : Prop :=
  ∃ outcome, evaluatePermissionLattice localeCompare (.arr raws) mode callback = .ok outcome ∧
    outcome.dispatchAllowed = true

theorem dispatches_iff (hrules : acceptRules raws = .ok rules)
    (hmode : ExecutionMode.ofValue? mode = some executionMode) :
    Dispatches localeCompare raws mode callback ↔
      (¬ Says rules .deny ∧ ¬ Says rules .ask) ∧ executionMode ≠ .plan ∧
        (Grants rules ∨ executionMode = .bypass) ∧ callback.consents := by
  have hallows := consultProvider_allows_iff callback
    (standingOf localeCompare rules executionMode)
  rw [decision_standingOf_eq_allow_iff] at hallows
  simp only [Dispatches, evaluatePermissionLattice_of_accepted hrules hmode, map_eq_ok_iff]
  calc (∃ outcome, (∃ after, consultProvider callback
          (standingOf localeCompare rules executionMode) = .ok after ∧
            after.outcome = outcome) ∧ outcome.dispatchAllowed = true)
      ↔ ∃ after, consultProvider callback
          (standingOf localeCompare rules executionMode) = .ok after ∧ after.decision = .allow := by
        constructor
        · rintro ⟨_, ⟨after, hafter, rfl⟩, hallowed⟩
          exact ⟨after, hafter, by simpa [Standing.outcome] using hallowed⟩
        · rintro ⟨after, hafter, hallowed⟩
          exact ⟨_, ⟨after, hafter, rfl⟩, by simp [Standing.outcome, hallowed]⟩
    _ ↔ _ := by
        rw [hallows]
        simp only [and_assoc]

/-- A rule whose decision is that of the stage allows nothing more. -/
theorem dispatches_of_cons {raw : DataValue}
    (hraw : ∀ rule, ruleOf? raw = some rule → ¬ (rule.stage = .allow ∧ rule.decision = .allow))
    (hmode : ExecutionMode.ofValue? mode = some executionMode) (hperm : others.Perm (raw :: raws))
    (h : Dispatches localeCompare others mode callback) :
    Dispatches localeCompare raws mode callback := by
  obtain ⟨outcome, houtcome, -⟩ := id h
  obtain ⟨added, hadded⟩ := acceptRules_of_evaluate houtcome
  obtain ⟨sorted, hsorted, hsame⟩ := acceptRules_of_perm hperm.symm hadded
  obtain ⟨rule, rules, hrule, hrules, rfl⟩ := acceptRules_of_cons hsorted
  rw [dispatches_iff hadded hmode] at h
  rw [dispatches_iff hrules hmode]
  rw [← Says.of_perm hsame, ← Says.of_perm hsame, ← Grants.of_perm hsame] at h
  obtain ⟨⟨hdeny, hask⟩, hplan, hgrants, hconsents⟩ := h
  have hless : ∀ decision, ¬ Says (rule :: rules) decision → ¬ Says rules decision := by
    rintro decision hsays ⟨other, hother, hdecision⟩
    exact hsays ⟨other, List.mem_cons_of_mem _ hother, hdecision⟩
  refine ⟨⟨hless _ hdeny, hless _ hask⟩, hplan, hgrants.imp_left ?_, hconsents⟩
  rintro ⟨other, hother, hgrant⟩
  rcases List.mem_cons.mp hother with rfl | hother
  · exact absurd hgrant (hraw _ hrule)
  · exact ⟨other, hother, hgrant⟩

/-! ## The deciding rule -/

/-- The mode turns what a rule allows into a question. -/
def Overruled (rules : List Rule) (mode : ExecutionMode) : Prop :=
  mode = .plan ∧ Grants rules ∧ ¬ Says rules .deny ∧ ¬ Says rules .ask

/-- The rule that is named made the decision, unless the mode overruled it. -/
theorem decidingRule_decides (executionMode : ExecutionMode) {rule : Rule}
    (h : (findVerdicts rules).decidingRule = some rule) :
    rule ∈ rules ∧ (rule.decision = (findVerdicts rules).decision executionMode ↔
      ¬ Overruled rules executionMode) := by
  have hfound : ∀ {check : Rule → Bool} {found : Rule}, rules.find? check = some found →
      found ∈ rules ∧ check found = true :=
    fun hfind => ⟨List.mem_of_find?_eq_some hfind, List.find?_some hfind⟩
  rw [Overruled, ← isSome_deny, ← isSome_ask, ← isSome_allow]
  unfold Verdicts.decidingRule at h
  unfold Verdicts.decision
  cases hdeny : (findVerdicts rules).deny with
  | some found =>
      obtain rfl : found = rule := by simpa [hdeny] using h
      obtain ⟨hmem, hcheck⟩ := hfound hdeny
      exact ⟨hmem, by simpa using hcheck⟩
  | none =>
      cases hask : (findVerdicts rules).ask with
      | some found =>
          obtain rfl : found = rule := by simpa [hdeny, hask] using h
          obtain ⟨hmem, hcheck⟩ := hfound hask
          exact ⟨hmem, by simpa using hcheck⟩
      | none =>
          have hallow : (findVerdicts rules).allow = some rule := by
            simpa [hdeny, hask] using h
          obtain ⟨hmem, hcheck⟩ := hfound hallow
          simp only [Bool.and_eq_true, decide_eq_true_eq] at hcheck
          refine ⟨hmem, ?_⟩
          cases executionMode <;> simp [hallow, hcheck.2, modeDecision]

/-- A rule that is overruled is named. -/
theorem exists_decidingRule (h : Grants rules) :
    ∃ rule, (findVerdicts rules).decidingRule = some rule := by
  obtain ⟨rule, hrule⟩ := Option.isSome_iff_exists.mp (isSome_allow.mpr h)
  unfold Verdicts.decidingRule
  cases (findVerdicts rules).deny with
  | some found => exact ⟨found, rfl⟩
  | none =>
      cases (findVerdicts rules).ask with
      | some found => exact ⟨found, rfl⟩
      | none => exact ⟨rule, by rw [hrule]; rfl⟩

/-- The outcome names the deciding rule of the standing, or none when the provider decided. -/
theorem outcome_explained (hrules : acceptRules raws = .ok rules)
    (hmode : ExecutionMode.ofValue? mode = some executionMode)
    (h : evaluatePermissionLattice localeCompare (.arr raws) mode callback = .ok outcome)
    {id : String} (hid : outcome.decidingRuleId = some id) : ∃ rule ∈ rules, rule.id = id ∧
      (rule.decision = outcome.decision ↔ ¬ Overruled rules executionMode) := by
  rw [evaluatePermissionLattice_of_accepted hrules hmode] at h
  obtain ⟨after, hafter, rfl⟩ := map_eq_ok_iff.mp h
  obtain ⟨rule, hrule, rfl⟩ := Option.map_eq_some_iff.mp hid
  rcases consultProvider_eq_ok hafter with ⟨hdecision, hdeciding⟩ | hnone
  · rw [hdeciding] at hrule
    obtain ⟨hmem, hdecides⟩ := decidingRule_decides executionMode hrule
    refine ⟨rule, (perm_orderRules _ _).mem_iff.mp hmem, rfl, ?_⟩
    have hsame : after.outcome.decision =
        (findVerdicts (orderRules localeCompare rules)).decision executionMode := hdecision
    rw [hsame, hdecides, Overruled, Overruled, Says.of_perm (perm_orderRules _ _),
      Says.of_perm (perm_orderRules _ _), Grants.of_perm (perm_orderRules _ _)]
  · rw [hnone] at hrule
    cases hrule

/-- What is overruled is answered with a question that names a rule. -/
theorem outcome_of_overruled (localeCompare : String → String → Int) (callback : ProviderCallback)
    (hrules : acceptRules raws = .ok rules)
    (hmode : ExecutionMode.ofValue? mode = some executionMode)
    (hoverruled : Overruled rules executionMode) : ∃ outcome id,
      evaluatePermissionLattice localeCompare (.arr raws) mode callback = .ok outcome ∧
        outcome.decidingRuleId = some id := by
  have hask : (standingOf localeCompare rules executionMode).decision ≠ .allow := by
    rw [Ne, decision_standingOf_eq_allow_iff]
    exact fun h => h.2.1 hoverruled.1
  obtain ⟨rule, hrule⟩ := exists_decidingRule
    ((Grants.of_perm (perm_orderRules localeCompare rules)).mpr hoverruled.2.1)
  rw [evaluatePermissionLattice_of_accepted hrules hmode, consultProvider_of_ne hask]
  exact ⟨_, rule.id, rfl, by simp [Standing.outcome, standingOf, hrule]⟩

/-- The contract of the lattice over accepted rules and a valid mode. -/
structure PermissionContract (localeCompare : String → String → Int) (raws : List DataValue)
    (rules : List Rule) (mode : DataValue) (executionMode : ExecutionMode)
    (callback : ProviderCallback) : Prop where
  unordered : ∀ others : List DataValue, others.Perm raws →
    (evaluatePermissionLattice localeCompare (.arr others) mode callback).map
        LatticeOutcome.decision =
      (evaluatePermissionLattice localeCompare (.arr raws) mode callback).map
        LatticeOutcome.decision
  dispatched : Dispatches localeCompare raws mode callback ↔
    (¬ Says rules .deny ∧ ¬ Says rules .ask) ∧ executionMode ≠ .plan ∧
      (Grants rules ∨ executionMode = .bypass) ∧ callback.consents
  narrowing : ∀ (raw : DataValue) (others : List DataValue), others.Perm (raw :: raws) →
    (∀ rule, ruleOf? raw = some rule → ¬ (rule.stage = .allow ∧ rule.decision = .allow)) →
      Dispatches localeCompare others mode callback → Dispatches localeCompare raws mode callback
  explained : ∀ (outcome : LatticeOutcome) (id : String),
    evaluatePermissionLattice localeCompare (.arr raws) mode callback = .ok outcome →
      outcome.decidingRuleId = some id →
        ∃ rule ∈ rules, rule.id = id ∧ rule.decision = outcome.decision

/-- The contract holds unless the plan mode overrules a rule that allows. -/
theorem permissionContract_iff (hrules : acceptRules raws = .ok rules)
    (hmode : ExecutionMode.ofValue? mode = some executionMode) :
    PermissionContract localeCompare raws rules mode executionMode callback ↔
      ¬ Overruled rules executionMode := by
  obtain ⟨-, hnodup, -⟩ := acceptRules_eq_ok_iff.mp hrules
  constructor
  · intro hcontract hoverruled
    obtain ⟨outcome, id, houtcome, hid⟩ :=
      outcome_of_overruled localeCompare callback hrules hmode hoverruled
    obtain ⟨rule, hrule, hruleId, hdecision⟩ := hcontract.explained outcome id houtcome hid
    obtain ⟨named, hnamed, hnamedId, hdecides⟩ := outcome_explained hrules hmode houtcome hid
    obtain rfl : rule = named :=
      List.inj_on_of_nodup_map hnodup hrule hnamed (hruleId.trans hnamedId.symm)
    exact hdecides.mp hdecision hoverruled
  · intro hsteady
    refine ⟨?_, dispatches_iff hrules hmode, ?_, ?_⟩
    · intro others hperm
      obtain ⟨sorted, hsorted, hsame⟩ := acceptRules_of_perm hperm hrules
      have hdecision := decision_consultProvider callback
        (decision_standingOf_of_perm localeCompare executionMode hsame)
      rw [evaluatePermissionLattice_of_accepted hsorted hmode,
        evaluatePermissionLattice_of_accepted hrules hmode]
      revert hdecision
      cases consultProvider callback (standingOf localeCompare sorted executionMode) <;>
        cases consultProvider callback (standingOf localeCompare rules executionMode) <;>
        simp [Except.map, Standing.outcome]
    · intro raw others hperm hraw
      exact dispatches_of_cons hraw hmode hperm
    · intro outcome id houtcome hid
      obtain ⟨rule, hrule, hruleId, hdecides⟩ := outcome_explained hrules hmode houtcome hid
      exact ⟨rule, hrule, hruleId, hdecides.mpr hsteady⟩

end

namespace Sample

/-- The comparison of ids of lowercase letters. -/
def localeCompare (left right : String) : Int :=
  if left = right then 0 else if codeUnitLe left right then -1 else 1

def allowRule : DataValue := .obj [("id", .str "alpha"), ("source", .str "project"),
  ("stage", .str "allow"), ("decision", .str "allow")]

def hookRule : DataValue := .obj [("id", .str "beta"), ("source", .str "enterprise"),
  ("stage", .str "mandatory_hook"), ("decision", .str "abstain"), ("reason", .str "checked")]

def allow : Rule := ⟨"alpha", .project, .allow, .allow, []⟩

def hook : Rule := ⟨"beta", .enterprise, .mandatoryHook, .abstain, utf16 "checked"⟩

end Sample

/-- Two rules under the default mode. -/
theorem permissionContract_sample :
    PermissionContract Sample.localeCompare [Sample.allowRule, Sample.hookRule]
      [Sample.allow, Sample.hook] .undefined .default (.answers (.str "abstain")) :=
  (permissionContract_iff rfl rfl).mpr fun h => nomatch h.1

/-- In the plan mode the answer is a question, and the rule named for it allows. -/
theorem not_permissionContract_plan :
    ¬ PermissionContract Sample.localeCompare [Sample.allowRule] [Sample.allow] (.str "plan")
      .plan .absent := by
  intro hcontract
  have houtcome : evaluatePermissionLattice Sample.localeCompare (.arr [Sample.allowRule])
      (.str "plan") .absent = .ok {
        decision := .ask
        dispatchAllowed := false
        decidingRuleId := some "alpha"
        trace := [⟨"execution_mode", "runtime_default", "mode:plan", .ask⟩,
          ⟨"allow", "project", "alpha", .allow⟩,
          ⟨"governed_dispatch", "runtime_default", "dispatch:governed", .deny⟩] } := rfl
  obtain ⟨rule, hrule, -, hdecision⟩ := hcontract.explained _ "alpha" houtcome rfl
  rw [List.mem_singleton.mp hrule] at hdecision
  cases hdecision

end Hseos.Policy
