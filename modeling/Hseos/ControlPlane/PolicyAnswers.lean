import Hseos.ControlPlane.PolicyDecision
import Hseos.Foundation.Unique

/-! # When a policy has an answer

A resolution fails where a path of a condition reads a property of `null`, where a matching
rule has a reference without a text, and where the matching rules oblige to or prove more
than a decision may list.
-/

namespace Hseos.ControlPlane

/-! ## Paths -/

/-- The value that the segments lead to. -/
def lookup : Fact → List String → Option Fact
  | value, [] => some value
  | value, segment :: rest =>
      if segment ∈ reservedSegments then none
      else (ownProperty value segment).bind fun next => lookup next rest

/-- A property is read of a `null` that is found under a segment with the text of the last
segment of the path. -/
def ReadsNull (last : String) (value : Fact) (segments : List String) : Prop :=
  ∃ before segment after, segments = before ++ segment :: after ∧
    lookup value before = some (.json .null) ∧ (∀ found ∈ before.getLast?, found = last) ∧
      segment ∉ reservedSegments

@[simp] theorem ownProperty_null (segment : String) :
    ownProperty (.json .null) segment = none := rfl

/-- From a `null`, a property is read at once or not at all. -/
theorem readsNull_null_cons {last segment : String} {rest : List String} :
    ReadsNull last (.json .null) (segment :: rest) ↔ segment ∉ reservedSegments := by
  constructor
  · rintro ⟨before, found, after, heq, hlookup, -, hfound⟩
    cases before with
    | nil =>
        obtain ⟨rfl, rfl⟩ := List.cons.inj heq
        exact hfound
    | cons first before =>
        simp [lookup] at hlookup
  · intro h
    exact ⟨[], segment, rest, rfl, rfl, by simp, h⟩

theorem readsNull_cons {last segment : String} {rest : List String} {value : Fact}
    (hvalue : value ≠ .json .null) : ReadsNull last value (segment :: rest) ↔
      segment ∉ reservedSegments ∧ ∃ next, ownProperty value segment = some next ∧
        (next = .json .null → segment = last) ∧ ReadsNull last next rest := by
  constructor
  · rintro ⟨before, found, after, heq, hlookup, hlast, hfound⟩
    cases before with
    | nil => exact absurd (Option.some.inj hlookup) hvalue
    | cons first before =>
        obtain ⟨rfl, rfl⟩ := List.cons.inj heq
        by_cases hreserved : segment ∈ reservedSegments
        · simp [lookup, hreserved] at hlookup
        · rw [lookup, if_neg hreserved, Option.bind_eq_some_iff] at hlookup
          obtain ⟨next, hnext, hlookup⟩ := hlookup
          refine ⟨hreserved, next, hnext, ?_, before, found, after, rfl, hlookup, ?_, hfound⟩
          · rintro rfl
            cases before with
            | nil => simpa using hlast
            | cons second before => simp [lookup] at hlookup
          · intro text htext
            apply hlast
            cases before with
            | nil => simp at htext
            | cons second before => simpa using htext
  · rintro ⟨hreserved, next, hnext, hnull, before, found, after, rfl, hlookup, hlast, hfound⟩
    refine ⟨segment :: before, found, after, rfl, ?_, ?_, hfound⟩
    · rw [lookup, if_neg hreserved, hnext]
      exact hlookup
    · intro text htext
      cases before with
      | nil =>
          obtain rfl : segment = text := by simpa using htext
          exact hnull (Option.some.inj hlookup)
      | cons second before => exact hlast text (by simpa using htext)

/-- A path is followed to its end, or fails where it reads a property of `null`. -/
theorem followPath_eq_ok_iff {last : String} {value : Fact} {segments : List String} :
    (∃ found, followPath last value segments = .ok found) ↔ ¬ ReadsNull last value segments := by
  induction segments generalizing value with
  | nil =>
      simp only [followPath, Except.ok.injEq, exists_eq', true_iff]
      rintro ⟨before, segment, after, heq, -⟩
      simp at heq
  | cons segment rest ih =>
      rw [followPath]
      by_cases hreserved : segment ∈ reservedSegments
      · rw [if_pos hreserved]
        simp only [Except.ok.injEq, exists_eq', true_iff]
        by_cases hnull : value = .json .null
        · subst hnull
          rw [readsNull_null_cons]
          exact fun h => h hreserved
        · rw [readsNull_cons hnull]
          exact fun h => h.1 hreserved
      · rw [if_neg hreserved]
        by_cases hnull : value = .json .null
        · subst hnull
          simp [readsNull_null_cons, hreserved]
        · rw [if_neg hnull, readsNull_cons hnull]
          cases hnext : ownProperty value segment with
          | none => simp
          | some next =>
              dsimp only
              by_cases hstop : next = .json .null ∧ segment ≠ last
              · rw [if_pos hstop]
                simp [hreserved, hstop]
              · rw [if_neg hstop, ih]
                simp only [hreserved, not_false_eq_true, Option.some.injEq, exists_eq_left',
                  true_and]
                constructor
                · exact fun h hreads => h hreads.2
                · intro h hreads
                  exact h ⟨fun heq => by_contra fun hne => hstop ⟨heq, hne⟩, hreads⟩

/-- The path of a field reads a property of `null`. -/
def FieldReadsNull (facts : Json) (field : String) : Prop :=
  ReadsNull ((pathSegments field).getLast?.getD "") (.json facts) (pathSegments field)

/-- Every condition that is reached has a path that can be followed. -/
def ConditionsEvaluate (facts : Json) (conditions : List RuleCondition) : Prop :=
  ∀ before condition after, conditions = before ++ condition :: after →
    (∀ earlier ∈ before, conditionMatches earlier facts = .ok true) →
      ¬ FieldReadsNull facts condition.field.val

theorem conditionMatches_eq_ok_iff {condition : RuleCondition} {facts : Json} :
    (∃ found, conditionMatches condition facts = .ok found) ↔
      ¬ FieldReadsNull facts condition.field.val := by
  rw [FieldReadsNull, ← followPath_eq_ok_iff, conditionMatches, factAtPath]
  constructor
  · rintro ⟨found, hfound⟩
    obtain ⟨actual, hactual, -⟩ := bind_eq_ok_iff.mp hfound
    exact ⟨actual, hactual⟩
  · rintro ⟨actual, hactual⟩
    rw [hactual]
    exact ⟨_, rfl⟩

theorem conditionsEvaluate_cons {facts : Json} {condition : RuleCondition}
    {rest : List RuleCondition} : ConditionsEvaluate facts (condition :: rest) ↔
      ¬ FieldReadsNull facts condition.field.val ∧
        (conditionMatches condition facts = .ok true → ConditionsEvaluate facts rest) := by
  constructor
  · intro h
    refine ⟨h [] condition rest rfl (by simp), ?_⟩
    rintro hmatched before other after rfl hbefore
    refine h (condition :: before) other after rfl ?_
    rw [List.forall_mem_cons]
    exact ⟨hmatched, hbefore⟩
  · rintro ⟨hcondition, hrest⟩ before other after heq hbefore
    cases before with
    | nil =>
        obtain ⟨rfl, rfl⟩ := List.cons.inj heq
        exact hcondition
    | cons first before =>
        obtain ⟨rfl, rfl⟩ := List.cons.inj heq
        rw [List.forall_mem_cons] at hbefore
        exact hrest hbefore.1 before other after rfl hbefore.2

theorem conditionsMatch_eq_ok_iff {facts : Json} {conditions : List RuleCondition} :
    (∃ found, conditionsMatch facts conditions = .ok found) ↔
      ConditionsEvaluate facts conditions := by
  induction conditions with
  | nil =>
      simp only [conditionsMatch, Except.ok.injEq, exists_eq', true_iff]
      intro before condition after heq
      simp at heq
  | cons condition rest ih =>
      rw [conditionsEvaluate_cons, ← conditionMatches_eq_ok_iff, conditionsMatch, ← ih]
      cases hcondition : conditionMatches condition facts with
      | error err => simp [bind, Except.bind]
      | ok found => cases found <;> simp [bind, Except.bind, pure, Except.pure]

/-- A rule can be asked when it does not apply or its conditions evaluate. -/
theorem ruleMatches_eq_ok_iff {rule : GovernanceRule} {request : NormalizedRequest} :
    (∃ found, ruleMatches rule request = .ok found) ↔
      (ruleApplies rule request = true → ConditionsEvaluate request.facts rule.conditions) := by
  rw [ruleMatches, ← conditionsMatch_eq_ok_iff]
  cases ruleApplies rule request <;> simp

/-! ## Distinct items -/

section

variable {α κ : Type} {key : α → Result κ} {items out : List α}

theorem length_of_mapM_eq_ok {keys : List κ} (h : items.mapM key = .ok keys) :
    keys.length = items.length := (forall₂_of_mapM_eq_ok h).length_eq.symm

theorem mapM_cons_eq_ok_iff {item : α} {keys : List κ} : (item :: items).mapM key = .ok keys ↔
    ∃ first rest, key item = .ok first ∧ items.mapM key = .ok rest ∧ keys = first :: rest := by
  simp only [List.mapM_cons, bind_eq_ok_iff, pure_eq_ok_iff]
  constructor
  · rintro ⟨first, hfirst, rest, hrest, rfl⟩
    exact ⟨first, rest, hfirst, hrest, rfl⟩
  · rintro ⟨first, rest, hfirst, hrest, rfl⟩
    exact ⟨first, hfirst, rest, hrest, rfl⟩

variable [DecidableEq κ] {seen : List κ}

/-- Items with keys are told apart by these. -/
theorem exists_distinctItems (seen : List κ) {keys : List κ} (h : items.mapM key = .ok keys) :
    ∃ out, distinctItems key seen items = .ok out ∧
      out.mapM key = .ok ((unique keys).filter (· ∉ seen)) ∧ ∀ item ∈ out, item ∈ items := by
  induction items generalizing seen keys with
  | nil =>
      rw [List.mapM_nil, pure_eq_ok_iff] at h
      subst h
      exact ⟨[], rfl, rfl, by simp⟩
  | cons item rest ih =>
      obtain ⟨first, others, hfirst, hothers, rfl⟩ := mapM_cons_eq_ok_iff.mp h
      obtain ⟨out, hout, hkeys, hmem⟩ := @ih (first :: seen) _ hothers
      have hfilter : (unique others).filter (· ∉ first :: seen) =
          ((unique others).filter (· ≠ first)).filter (· ∉ seen) := by
        rw [List.filter_filter]
        apply List.filter_congr
        intro other _
        rw [Bool.eq_iff_iff]
        simp [and_comm]
      rw [hfilter] at hkeys
      rw [distinctItems, hfirst, ok_bind, hout, ok_bind, unique, List.filter_cons]
      by_cases hseen : first ∈ seen
      · refine ⟨out, by rw [if_pos hseen]; rfl, ?_, fun i hi => List.mem_cons_of_mem _ (hmem i hi)⟩
        rw [if_neg (by simpa using hseen)]
        exact hkeys
      · refine ⟨item :: out, by rw [if_neg hseen]; rfl, ?_, ?_⟩
        · rw [if_pos (by simpa using hseen), mapM_cons_eq_ok_iff]
          exact ⟨first, _, hfirst, hkeys, rfl⟩
        · intro found hfound
          rcases List.mem_cons.mp hfound with rfl | hfound
          · exact List.mem_cons_self
          · exact List.mem_cons_of_mem _ (hmem found hfound)

/-- Every item needs a key. -/
theorem mapM_eq_ok_of_distinctItems (h : distinctItems key seen items = .ok out) :
    ∃ keys, items.mapM key = .ok keys := by
  induction items generalizing seen out with
  | nil => exact ⟨[], rfl⟩
  | cons item rest ih =>
      rw [distinctItems] at h
      obtain ⟨first, hfirst, h⟩ := bind_eq_ok_iff.mp h
      obtain ⟨others, hothers, -⟩ := bind_eq_ok_iff.mp h
      obtain ⟨keys, hkeys⟩ := ih hothers
      exact ⟨first :: keys, mapM_cons_eq_ok_iff.mpr ⟨first, keys, hfirst, hkeys, rfl⟩⟩

end

/-! ## References -/

theorem unitsByteLength_le (units : CodeUnits) : unitsByteLength units ≤ 3 * units.length := by
  induction units using unitsByteLength.induct with
  | case1 => simp [unitsByteLength]
  | case2 unit =>
      simp only [unitsByteLength, unitBytes, List.length_singleton]
      split_ifs <;> omega
  | case3 unit next rest hpair ih =>
      rw [unitsByteLength, if_pos hpair]
      simp only [List.length_cons]
      omega
  | case4 unit next rest hpair ih =>
      rw [unitsByteLength, if_neg hpair]
      have hunit : unitBytes unit ≤ 3 := by
        unfold unitBytes
        split_ifs <;> omega
      simp only [List.length_cons] at ih ⊢
      omega

theorem unitsByteLength_pos {units : CodeUnits} (h : units ≠ []) : 1 ≤ unitsByteLength units := by
  have hunit : ∀ unit, 1 ≤ unitBytes unit := by
    intro unit
    unfold unitBytes
    split_ifs <;> omega
  match units with
  | [] => exact absurd rfl h
  | [unit] => exact hunit unit
  | unit :: next :: rest =>
      have := hunit unit
      rw [unitsByteLength]
      split_ifs <;> omega

/-- The reference of a selected rule. -/
theorem isReference_rule (ruleId : Identifier) :
    isReference (utf16 ("rule:" ++ ruleId.val)) = true := by
  have hid : ruleId.val.toList.length ≤ 160 := by
    have h := ruleId.property
    rw [isIdentifier, chars_eq_toList] at h
    cases hlist : ruleId.val.toList with
    | nil => simp
    | cons c rest =>
        simp only [hlist, Bool.and_eq_true, decide_eq_true_eq] at h
        simp only [List.length_cons]
        omega
  have hunits : ∀ cs : List Char, (cs.flatMap charUnits).length ≤ 2 * cs.length := by
    intro cs
    induction cs with
    | nil => simp
    | cons c cs ih =>
        have hc : (charUnits c).length ≤ 2 := by
          unfold charUnits
          split <;> simp
        simp only [List.flatMap_cons, List.length_append, List.length_cons]
        omega
  have hlength := hunits ("rule:" ++ ruleId.val).toList
  have hne : utf16 ("rule:" ++ ruleId.val) ≠ [] := by
    rw [utf16, chars_eq_toList, String.toList_append]
    simp [charUnits]
  have hbytes := unitsByteLength_le (utf16 ("rule:" ++ ruleId.val))
  have hpos := unitsByteLength_pos hne
  rw [String.toList_append, List.length_append] at hlength
  have hrule : ("rule:".toList).length = 5 := by decide
  rw [hrule] at hlength
  rw [isReference, Bool.and_eq_true, decide_eq_true_eq, decide_eq_true_eq]
  refine ⟨hpos, hbytes.trans ?_⟩
  rw [utf16, chars_eq_toList, String.toList_append]
  omega

theorem unitsText?_utf16 (text : String) : unitsText? (utf16 text) = some text := by
  rw [unitsText?, utf16, ofUtf16_utf16, Option.map_some, chars_eq_toList, String.ofList_toList]

/-! ## Answers -/

/-- The references of the rule and of its approval are texts. -/
def HasTexts (candidate : NormalizedCandidate) : Prop :=
  candidate.rule.toJson?.isSome ∧
    ∀ approval ∈ candidate.approval, (unitsText? approval.evidenceRef).isSome

/-- The keys of the evidence that matches are selected with. -/
def evidenceKeys (matched : List NormalizedCandidate) : Result (List (List Char)) := do
  let selected ← matched.mapM selectedEvidence
  selected.flatten.mapM DecisionEvidence.key

theorem exists_mapM_iff {α β : Type} {f : α → Result β} {list : List α} :
    (∃ out, list.mapM f = .ok out) ↔ ∀ a ∈ list, ∃ b, f a = .ok b := by
  constructor
  · rintro ⟨out, hout⟩ a ha
    obtain ⟨b, -, hb⟩ := exists_of_mapM_eq_ok hout a ha
    exact ⟨b, hb⟩
  · intro h
    induction list with
    | nil => exact ⟨[], rfl⟩
    | cons a rest ih =>
        rw [List.forall_mem_cons] at h
        obtain ⟨b, hb⟩ := h.1
        obtain ⟨out, hout⟩ := ih h.2
        exact ⟨b :: out, mapM_cons_eq_ok_iff.mpr ⟨b, out, hb, hout, rfl⟩⟩

theorem length_unique_of_perm {α : Type} [DecidableEq α] {list other : List α}
    (h : list.Perm other) : (unique list).length = (unique other).length := by
  refine ((List.perm_ext_iff_of_nodup (nodup_unique _) (nodup_unique _)).mpr ?_).length_eq
  intro a
  rw [mem_unique, mem_unique, h.mem_iff]

theorem key_eq_ok_iff {evidence : DecisionEvidence} :
    (∃ key, evidence.key = .ok key) ↔ (unitsText? evidence.reference).isSome := by
  rw [DecisionEvidence.key]
  cases unitsText? evidence.reference <;> simp

section

variable {question : PolicyQuestion} {request : NormalizedRequest} {candidate : NormalizedCandidate}
  {matched others : List NormalizedCandidate}

theorem ruleDigest_eq_ok_iff :
    (∃ found, ruleDigest candidate.rule = .ok found) ↔ candidate.rule.toJson?.isSome := by
  rw [ruleDigest]
  cases candidate.rule.toJson? <;> simp

/-- The evidence of a candidate has keys when its references are texts. -/
theorem hasTexts_iff : HasTexts candidate ↔ ∃ evidence, selectedEvidence candidate = .ok evidence ∧
    ∀ item ∈ evidence, ∃ key, item.key = .ok key := by
  rw [HasTexts, ← ruleDigest_eq_ok_iff, selectedEvidence]
  simp only [key_eq_ok_iff, bind_eq_ok_iff, pure_eq_ok_iff]
  constructor
  · rintro ⟨⟨found, hfound⟩, htexts⟩
    refine ⟨_, ⟨found, hfound, rfl⟩, ?_⟩
    rw [List.forall_mem_cons]
    refine ⟨by rw [unitsText?_utf16]; rfl, ?_⟩
    intro item hitem
    obtain ⟨approval, happroval, rfl⟩ := List.mem_map.mp hitem
    exact htexts approval (Option.mem_toList.mp happroval)
  · rintro ⟨_, ⟨found, hfound, rfl⟩, htexts⟩
    refine ⟨⟨found, hfound⟩, fun approval happroval => ?_⟩
    exact htexts _ (List.mem_cons_of_mem _ (List.mem_map_of_mem (Option.mem_toList.mpr happroval)))

theorem evidenceKeys_eq_ok_iff : (∃ keys, evidenceKeys matched = .ok keys) ↔
    ∀ candidate ∈ matched, HasTexts candidate := by
  simp only [hasTexts_iff, evidenceKeys, bind_eq_ok_iff]
  constructor
  · rintro ⟨keys, selected, hselected, hkeys⟩ candidate hcandidate
    obtain ⟨evidence, hevidence, hfound⟩ := exists_of_mapM_eq_ok hselected candidate hcandidate
    refine ⟨evidence, hfound, fun item hitem => ?_⟩
    exact exists_mapM_iff.mp ⟨keys, hkeys⟩ item (List.mem_flatten.mpr ⟨evidence, hevidence, hitem⟩)
  · intro h
    obtain ⟨selected, hselected⟩ := exists_mapM_iff.mpr fun candidate hcandidate =>
      (h candidate hcandidate).imp fun _ hevidence => hevidence.1
    obtain ⟨keys, hkeys⟩ : ∃ keys, selected.flatten.mapM DecisionEvidence.key = .ok keys := by
      rw [exists_mapM_iff]
      intro item hitem
      obtain ⟨evidence, hevidence, hmem⟩ := List.mem_flatten.mp hitem
      obtain ⟨candidate, hcandidate, hfound⟩ := mem_of_mapM_eq_ok hselected evidence hevidence
      obtain ⟨other, hother, hitems⟩ := h candidate hcandidate
      obtain rfl : other = evidence := Except.ok.inj (hother.symm.trans hfound)
      exact hitems item hmem
    exact ⟨keys, selected, hselected, hkeys⟩

theorem evidenceKeys_of_perm {keys : List (List Char)} (hperm : matched.Perm others)
    (h : evidenceKeys matched = .ok keys) :
    ∃ found, evidenceKeys others = .ok found ∧ found.Perm keys := by
  obtain ⟨selected, hselected, hkeys⟩ := bind_eq_ok_iff.mp h
  obtain ⟨other, hother, hsame⟩ := mapM_of_perm hperm hselected
  obtain ⟨found, hfound, hkeysPerm⟩ := mapM_of_perm hsame.symm.flatten hkeys
  exact ⟨found, bind_eq_ok_iff.mpr ⟨other, hother, hfound⟩, hkeysPerm⟩

/-- Every item of the evidence passes its schema. -/
theorem valid_of_selectedEvidence {evaluatedAt : Int} (hvalid : candidate.Valid evaluatedAt)
    {evidence : List DecisionEvidence} (h : selectedEvidence candidate = .ok evidence) :
    ∀ item ∈ evidence, item.valid = true := by
  obtain ⟨found, -, hevidence⟩ := bind_eq_ok_iff.mp h
  cases hevidence
  rw [List.forall_mem_cons]
  have hselected : isIdentifier "policy.rule.selected" = true := by decide
  have happroved : isIdentifier "policy.exception.approval" = true := by decide
  refine ⟨by rw [DecisionEvidence.valid, hselected, isReference_rule]; rfl, ?_⟩
  intro item hitem
  obtain ⟨approval, happroval, rfl⟩ := List.mem_map.mp hitem
  rw [DecisionEvidence.valid, happroved,
    (hvalid.approval approval (Option.mem_toList.mp happroval)).1]
  rfl

theorem isIdentifier_exceptionOutcome (normal : Effect) :
    isIdentifier (exceptionOutcome matched normal).reasonCode = true := by
  unfold exceptionOutcome
  split
  · decide
  · split
    · decide
    · cases normal <;> decide

theorem isIdentifier_reasonCode (actionClass : ActionClass) :
    isIdentifier (decisionForMatches matched actionClass).reasonCode = true := by
  have hconflict : isIdentifier "policy.same_precedence_conflict" = true := by decide
  unfold decisionForMatches
  dsimp only
  split
  · decide
  · split
    · exact hconflict
    · split
      · decide
      · exact isIdentifier_exceptionOutcome _

/-- The keys of all obligations of the matches. -/
def obligationKeys (matched : List NormalizedCandidate) : List (List Char) :=
  (matched.flatMap fun candidate => candidate.rule.obligations).map RuleObligation.key

theorem RuleObligation.valid_of_rule {rule : GovernanceRule} (h : rule.valid = true) :
    ∀ obligation ∈ rule.obligations, obligation.valid = true := by
  simp only [GovernanceRule.valid, Bool.and_eq_true, List.all_eq_true] at h
  exact h.1.1.1.2

theorem perm_orderMatches (localeCompare : String → String → Int)
    (matched : List NormalizedCandidate) : (orderMatches localeCompare matched).Perm matched :=
  List.perm_insertionSort _ matched

theorem obligationKeys_of_perm (h : matched.Perm others) :
    (obligationKeys matched).Perm (obligationKeys others) :=
  (h.flatMap_right _).map _

/-- The obligations of the matches, one for each key. -/
theorem exists_obligations (matched : List NormalizedCandidate) : ∃ obligations,
    distinctItems (fun obligation : RuleObligation => .ok obligation.key) []
        (matched.flatMap fun candidate => candidate.rule.obligations) = .ok obligations ∧
      obligations.map RuleObligation.key = unique (obligationKeys matched) ∧
        ∀ obligation ∈ obligations, ∃ candidate ∈ matched,
          obligation ∈ candidate.rule.obligations := by
  have hall : (matched.flatMap fun candidate => candidate.rule.obligations).mapM
      (fun obligation => (.ok obligation.key : Result _)) = .ok (obligationKeys matched) :=
    mapM_eq_ok_map fun _ _ => rfl
  obtain ⟨obligations, hobligations, hkeys, hmem⟩ := exists_distinctItems [] hall
  refine ⟨obligations, hobligations, ?_, ?_⟩
  · rw [mapM_eq_ok_map (g := RuleObligation.key) fun _ _ => rfl, Except.ok.injEq] at hkeys
    rw [hkeys, List.filter_eq_self.mpr (by simp)]
  · intro obligation hobligation
    simpa using hmem obligation hobligation

/-- What a decision that is answered consists of. -/
structure Answered (question : PolicyQuestion) (request : NormalizedRequest)
    (matched : List NormalizedCandidate) (decision : GovernanceDecision) : Prop where
  outcome : decision.decision = (decisionForMatches matched request.actionClass).decision
  reason : decision.reasonCode = (decisionForMatches matched request.actionClass).reasonCode
  obligations : decision.obligations.map RuleObligation.key = unique (obligationKeys matched)
  origins : ∀ obligation ∈ decision.obligations, ∃ candidate ∈ matched,
    obligation ∈ candidate.rule.obligations
  valid : decision.valid = true
  evidence : ∃ keys, evidenceKeys matched = .ok keys ∧
    decision.evidence.length = (unique keys).length

theorem answered_of_answer {decision : GovernanceDecision}
    (h : answer question request matched = .ok decision) :
    Answered question request matched decision := by
  obtain ⟨obligations, hobligations, hkeys, horigins⟩ := exists_obligations matched
  unfold answer at h
  dsimp only at h
  rw [hobligations, ok_bind] at h
  obtain ⟨selected, hselected, h⟩ := bind_eq_ok_iff.mp h
  obtain ⟨evidence, hevidence, h⟩ := bind_eq_ok_iff.mp h
  obtain ⟨policyVersion, hversion, h⟩ := bind_eq_ok_iff.mp h
  obtain ⟨hvalid, h⟩ := reject_bind_eq_ok_iff.mp h
  cases h
  rw [Bool.not_eq_false'] at hvalid
  obtain ⟨keys, hevidenceKeys⟩ := mapM_eq_ok_of_distinctItems hevidence
  obtain ⟨found, hfound, hfoundKeys, -⟩ := exists_distinctItems [] hevidenceKeys
  obtain rfl : found = evidence := Except.ok.inj (hfound.symm.trans hevidence)
  refine ⟨rfl, rfl, hkeys, horigins, hvalid, keys,
    bind_eq_ok_iff.mpr ⟨selected, hselected, hevidenceKeys⟩, ?_⟩
  rw [List.filter_eq_self.mpr (by simp)] at hfoundKeys
  exact (length_of_mapM_eq_ok hfoundKeys).symm

/-- A request is answered when the matching rules are texts and fit into a decision. -/
theorem answer_eq_ok_iff {evaluatedAt : Int} (hversion : isReference question.policyVersion = true)
    (hvalid : ∀ candidate ∈ matched, candidate.Valid evaluatedAt) :
    (∃ decision, answer question request matched = .ok decision) ↔
      (∀ candidate ∈ matched, HasTexts candidate) ∧
        (unique (obligationKeys matched)).length ≤ 128 ∧
          ∀ keys, evidenceKeys matched = .ok keys → (unique keys).length ≤ 256 := by
  constructor
  · rintro ⟨decision, hdecision⟩
    have hanswered := answered_of_answer hdecision
    obtain ⟨keys, hkeys, hlength⟩ := hanswered.evidence
    have hbounds := hanswered.valid
    simp only [GovernanceDecision.valid, uniqueBy, Bool.and_eq_true, decide_eq_true_eq] at hbounds
    refine ⟨evidenceKeys_eq_ok_iff.mp ⟨keys, hkeys⟩, ?_, ?_⟩
    · rw [← hanswered.obligations, List.length_map]
      exact hbounds.1.1.1.1.1.1.2.1.2
    · intro other hother
      obtain rfl : other = keys := Except.ok.inj (hother.symm.trans hkeys)
      rw [← hlength]
      exact hbounds.1.1.1.1.2
  · rintro ⟨htexts, hobligationBound, hevidenceBound⟩
    obtain ⟨obligations, hobligations, hkeys, horigins⟩ := exists_obligations matched
    obtain ⟨keys, hevidenceKeys⟩ := evidenceKeys_eq_ok_iff.mpr htexts
    obtain ⟨selected, hselected, hitems⟩ := bind_eq_ok_iff.mp hevidenceKeys
    obtain ⟨evidence, hevidence, hdistinct, hmem⟩ := exists_distinctItems [] hitems
    rw [List.filter_eq_self.mpr (by simp)] at hdistinct
    have hlength : evidence.length ≤ 256 := by
      rw [← length_of_mapM_eq_ok hdistinct]
      exact hevidenceBound keys hevidenceKeys
    have hobligationLength : obligations.length ≤ 128 := by
      rw [← hkeys, List.length_map] at hobligationBound
      exact hobligationBound
    have hobligationValid : ∀ obligation ∈ obligations, obligation.valid = true := by
      intro obligation hobligation
      obtain ⟨candidate, hcandidate, hrule⟩ := horigins obligation hobligation
      exact RuleObligation.valid_of_rule (hvalid candidate hcandidate).rule obligation hrule
    have hevidenceValid : ∀ item ∈ evidence, item.valid = true := by
      intro item hitem
      obtain ⟨items, hitemsMem, hitem⟩ := List.mem_flatten.mp (hmem item hitem)
      obtain ⟨candidate, hcandidate, hfound⟩ := mem_of_mapM_eq_ok hselected items hitemsMem
      exact valid_of_selectedEvidence (hvalid candidate hcandidate) hfound item hitem
    have hwarnings : ∀ empty : Bool,
        uniqueBy id 0 128 (if empty then ["policy.no_match"] else []) = true ∧
          (if empty then ["policy.no_match"] else []).all isIdentifier = true := by decide
    unfold answer
    dsimp only
    rw [hobligations, ok_bind, hselected, ok_bind, hevidence, ok_bind, boundedReference,
      if_pos hversion, ok_bind]
    refine ⟨_, reject_bind_eq_ok_iff.mpr ⟨?_, rfl⟩⟩
    rw [Bool.not_eq_false']
    simp only [GovernanceDecision.valid, Bool.and_eq_true, decide_eq_true_eq, List.all_eq_true]
    refine ⟨⟨⟨⟨⟨⟨⟨⟨isIdentifier_reasonCode _, hversion⟩, ?_⟩, hobligationValid⟩, hlength⟩,
      hevidenceValid⟩, ?_⟩, (hwarnings _).1⟩, List.all_eq_true.mp (hwarnings _).2⟩
    · simp only [uniqueBy, hkeys, Bool.and_eq_true, decide_eq_true_eq]
      exact ⟨⟨Nat.zero_le _, hobligationLength⟩, nodup_unique _⟩
    · rw [uniqueEvidence, hdistinct]
      simpa [Except.toOption] using nodup_unique keys

end

/-! ## Resolution -/

/-- When the request has an answer from the candidates. -/
structure Answerable (request : NormalizedRequest) (candidates : List NormalizedCandidate) :
    Prop where
  /-- No condition that is reached reads a property of `null`. -/
  paths : ∀ candidate ∈ candidates, ruleApplies candidate.rule request = true →
    ConditionsEvaluate request.facts candidate.rule.conditions
  texts : ∀ candidate ∈ candidates, selects request candidate = true → HasTexts candidate
  obligations : (unique (obligationKeys (candidates.filter (selects request)))).length ≤ 128
  evidence : ∀ keys, evidenceKeys (candidates.filter (selects request)) = .ok keys →
    (unique keys).length ≤ 256

/-- A valid question is answered exactly when it is answerable. -/
theorem resolve_answerable_iff (localeCompare : String → String → Int) {question : PolicyQuestion}
    {evaluatedAt : Int} {request : NormalizedRequest} {candidates : List NormalizedCandidate}
    (hinstant : question.evaluatedAt = some evaluatedAt)
    (hrequest : normalizeRequest question.request = .ok request)
    (hcandidates : normalizeCandidates question.candidates evaluatedAt = .ok candidates)
    (hversion : isReference question.policyVersion = true) :
    (∃ decision, resolveGovernancePolicy localeCompare question = .ok decision) ↔
      Answerable request candidates := by
  have hvalid := valid_of_normalizeCandidates hcandidates
  have hmatched : ∀ candidate ∈ orderMatches localeCompare (candidates.filter (selects request)),
      candidate.Valid evaluatedAt := by
    intro candidate hcandidate
    exact hvalid candidate (List.mem_of_mem_filter ((perm_orderMatches _ _).mem_iff.mp hcandidate))
  have hpaths : (∀ candidate ∈ candidates, ∃ found,
      ruleMatches candidate.rule request = .ok found) ↔
        ∀ candidate ∈ candidates, ruleApplies candidate.rule request = true →
          ConditionsEvaluate request.facts candidate.rule.conditions := by
    simp only [ruleMatches_eq_ok_iff]
  have hperm := perm_orderMatches localeCompare (candidates.filter (selects request))
  have hanswer := @answer_eq_ok_iff question request _ evaluatedAt hversion hmatched
  simp only [resolveGovernancePolicy, requireInstant, hinstant, ok_bind, hrequest, hcandidates]
  constructor
  · rintro ⟨decision, hdecision⟩
    obtain ⟨matched, hfound, hdecision⟩ := bind_eq_ok_iff.mp hdecision
    obtain ⟨hall, rfl⟩ := matchingCandidates_eq_ok_iff.mp hfound
    obtain ⟨htexts, hobligations, hevidence⟩ := hanswer.mp ⟨decision, hdecision⟩
    refine ⟨hpaths.mp hall, ?_, ?_, ?_⟩
    · intro candidate hcandidate hselects
      exact htexts candidate (hperm.mem_iff.mpr (List.mem_filter.mpr ⟨hcandidate, hselects⟩))
    · rwa [← length_unique_of_perm (obligationKeys_of_perm hperm)]
    · intro keys hkeys
      obtain ⟨other, hother, hsame⟩ := evidenceKeys_of_perm hperm.symm hkeys
      rw [← length_unique_of_perm hsame]
      exact hevidence other hother
  · intro hanswerable
    have hfound := matchingCandidates_eq_ok_iff.mpr ⟨hpaths.mpr hanswerable.paths, rfl⟩
    rw [hfound, ok_bind, hanswer]
    refine ⟨?_, ?_, ?_⟩
    · intro candidate hcandidate
      obtain ⟨hmem, hselects⟩ := List.mem_filter.mp (hperm.mem_iff.mp hcandidate)
      exact hanswerable.texts candidate hmem hselects
    · rw [length_unique_of_perm (obligationKeys_of_perm hperm)]
      exact hanswerable.obligations
    · intro keys hkeys
      obtain ⟨other, hother, hsame⟩ := evidenceKeys_of_perm hperm hkeys
      rw [← length_unique_of_perm hsame]
      exact hanswerable.evidence other hother

/-- A hundred and twenty-eight matches never have too much evidence. -/
theorem length_unique_evidenceKeys_le {matched : List NormalizedCandidate} {keys : List (List Char)}
    (h : evidenceKeys matched = .ok keys) : (unique keys).length ≤ 2 * matched.length := by
  have hunique : ∀ list : List (List Char), (unique list).length ≤ list.length := by
    intro list
    induction list with
    | nil => exact Nat.le_refl 0
    | cons first rest ih =>
        rw [unique, List.length_cons, List.length_cons]
        exact Nat.succ_le_succ ((List.length_filter_le _ _).trans ih)
  have htwo : ∀ (candidate : NormalizedCandidate) (evidence : List DecisionEvidence),
      selectedEvidence candidate = .ok evidence → evidence.length ≤ 2 := by
    intro candidate evidence hevidence
    obtain ⟨found, -, hevidence⟩ := bind_eq_ok_iff.mp hevidence
    cases hevidence
    cases candidate.approval <;> simp
  obtain ⟨selected, hselected, hkeys⟩ := bind_eq_ok_iff.mp h
  have hflatten : selected.flatten.length ≤ 2 * matched.length := by
    have hpairs := forall₂_of_mapM_eq_ok hselected
    clear hselected hkeys h
    induction hpairs with
    | nil => simp
    | cons hfound _ ih =>
        have := htwo _ _ hfound
        simp only [List.flatten_cons, List.length_append, List.length_cons]
        omega
  have hlength := length_of_mapM_eq_ok hkeys
  exact (hunique keys).trans (by omega)

/-- A decision that is returned passes its schema. -/
theorem valid_of_resolve {localeCompare : String → String → Int} {question : PolicyQuestion}
    {decision : GovernanceDecision}
    (h : resolveGovernancePolicy localeCompare question = .ok decision) :
    decision.valid = true := by
  obtain ⟨evaluatedAt, -, h⟩ := bind_eq_ok_iff.mp h
  obtain ⟨request, -, h⟩ := bind_eq_ok_iff.mp h
  obtain ⟨candidates, -, h⟩ := bind_eq_ok_iff.mp h
  obtain ⟨matched, -, h⟩ := bind_eq_ok_iff.mp h
  exact (answered_of_answer h).valid

namespace Sample

def name (text : String) (h : isIdentifier text = true) : Identifier := ⟨text, h⟩

/-- A rule for everyone in an organization, about reading documents. -/
def documentRule (ruleId field : Identifier) (effect : Effect) : GovernanceRule where
  ruleId
  organizationId := name "acme" (by decide)
  kind := .permission
  actorTypes := [.human]
  roles := []
  action := name "read" (by decide)
  resourceType := name "document" (by decide)
  resourceIdentifiers := []
  scope := ⟨[], [], [], [], [], []⟩
  conditions := [⟨field, .exists_, none⟩]
  effect
  rulePriority := 500
  obligations := []
  enforcementPoints := [.runtime]
  artifactId := name "policy" (by decide)
  artifactVersion := 1
  locator := utf16 "p"

def documentRequest : PolicyRequest where
  organizationId := "acme"
  actorType := "human"
  actorRoles := []
  action := "read"
  resourceType := "document"
  resourceIdentifier := utf16 "d"
  repository := none
  environment := "test"
  branch := none
  stack := "node"
  capabilities := []
  facts := .obj [("a", .null)]
  actionClass := "read"

def normalizedRequest : NormalizedRequest where
  organizationId := name "acme" (by decide)
  actorType := .human
  actorRoles := []
  action := name "read" (by decide)
  resourceType := name "document" (by decide)
  resourceIdentifier := utf16 "d"
  repository := none
  environment := name "test" (by decide)
  branch := none
  stack := name "node" (by decide)
  capabilities := []
  facts := .obj [("a", .null)]
  actionClass := .read

def documents : Identifier := name "documents" (by decide)

/-- One candidate whose condition asks for a field of the facts. -/
def documentQuestion (field : Identifier) : PolicyQuestion where
  candidates := [⟨documentRule documents field .allow, "organization-policy", "published", none⟩]
  request := documentRequest
  policyVersion := utf16 "v1"
  releaseDigest := none
  evaluatedAt := some 0

def documentCandidate (field : Identifier) : NormalizedCandidate :=
  ⟨documentRule documents field .allow, .organizationPolicy, none⟩

def found : Identifier := name "a" (by decide)

def repeated : Identifier := name "a.a" (by decide)

end Sample

end Hseos.ControlPlane
