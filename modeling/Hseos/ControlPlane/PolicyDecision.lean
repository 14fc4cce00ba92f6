import Hseos.ControlPlane.PolicyResolver

/-! # What a policy decides

The decision as a function of the set of matching rules. More restrictions never open what
was closed, and what is allowed no rule restricts, except that a matching exception which
asks for input is not heard where the other rules allow.
-/

namespace Hseos.ControlPlane

/-! ## Matching candidates -/

/-- The rule of the candidate matches. -/
def selects (request : NormalizedRequest) (candidate : NormalizedCandidate) : Bool :=
  (ruleMatches candidate.rule request).toOption = some true

theorem toOption_eq_some_iff {ε α : Type} {x : Except ε α} {a : α} :
    x.toOption = some a ↔ x = .ok a := by
  cases x <;> simp [Except.toOption]

theorem selects_iff {request : NormalizedRequest} {candidate : NormalizedCandidate} :
    selects request candidate = true ↔ ruleMatches candidate.rule request = .ok true := by
  rw [selects, decide_eq_true_eq, toOption_eq_some_iff]

/-- The matches are found when every rule can be asked. -/
theorem matchingCandidates_eq_ok_iff {request : NormalizedRequest}
    {candidates matched : List NormalizedCandidate} :
    matchingCandidates request candidates = .ok matched ↔
      (∀ candidate ∈ candidates, ∃ found, ruleMatches candidate.rule request = .ok found) ∧
        candidates.filter (selects request) = matched := by
  induction candidates generalizing matched with
  | nil => simp [matchingCandidates]
  | cons candidate rest ih =>
      simp only [matchingCandidates, bind_eq_ok_iff, pure_eq_ok_iff, ih, List.forall_mem_cons]
      constructor
      · rintro ⟨found, hfound, others, ⟨hrest, hothers⟩, rfl⟩
        refine ⟨⟨⟨found, hfound⟩, hrest⟩, ?_⟩
        have hselects : selects request candidate = found := by
          cases found <;> simp [selects, hfound, Except.toOption]
        rw [List.filter_cons, hselects, hothers]
      · rintro ⟨⟨⟨found, hfound⟩, hrest⟩, hmatched⟩
        have hselects : selects request candidate = found := by
          cases found <;> simp [selects, hfound, Except.toOption]
        rw [List.filter_cons, hselects] at hmatched
        exact ⟨found, hfound, _, ⟨hrest, rfl⟩, hmatched⟩

/-! ## Normalized candidates -/

/-- What normalization leaves of a candidate: a valid rule, and an approval that is a
reference and not over where the candidate is an exception. -/
structure NormalizedCandidate.Valid (evaluatedAt : Int) (candidate : NormalizedCandidate) :
    Prop where
  rule : candidate.rule.valid = true
  approval : ∀ approval ∈ candidate.approval,
    isReference approval.evidenceRef = true ∧ evaluatedAt < approval.expiresAt
  excepted : candidate.precedence = .approvedException → candidate.approval.isSome

/-- What a candidate normalizes to, wherever it stands. -/
def candidateOf? (evaluatedAt : Int) (candidate : PolicyCandidate) : Option NormalizedCandidate :=
  (normalizeCandidate evaluatedAt candidate 0).toOption

theorem requirePrecedence_eq_ok_iff {value : String} {index : Nat} {precedence : Precedence} :
    requirePrecedence value index = .ok precedence ↔
      Precedence.ofText? value = some precedence := by
  rw [requirePrecedence]
  cases Precedence.ofText? value <;> simp

/-- The index of a candidate shows in the errors only. -/
theorem normalizeCandidate_eq_ok_iff {evaluatedAt : Int} (raw : PolicyCandidate) (index : Nat)
    (candidate : NormalizedCandidate) : normalizeCandidate evaluatedAt raw index = .ok candidate ↔
      candidateOf? evaluatedAt raw = some candidate := by
  rw [candidateOf?, toOption_eq_some_iff]
  simp only [normalizeCandidate, bind_eq_ok_iff, reject_eq_ok_iff, requirePrecedence_eq_ok_iff]

theorem laterInstant_eq_ok {value : Option Int} {evaluatedAt instant : Int}
    (h : laterInstant value evaluatedAt = .ok instant) : evaluatedAt < instant := by
  unfold laterInstant at h
  split at h
  · split at h
    next hlater => cases h; exact hlater
    next => cases h
  · cases h

theorem boundedReference_eq_ok {value reference : CodeUnits} {label : String}
    (h : boundedReference value label = .ok reference) : isReference reference = true := by
  unfold boundedReference at h
  split at h
  next hreference => cases h; exact hreference
  next => cases h

theorem valid_of_candidateOf? {evaluatedAt : Int} {raw : PolicyCandidate}
    {candidate : NormalizedCandidate} (h : candidateOf? evaluatedAt raw = some candidate) :
    candidate.Valid evaluatedAt ∧ candidate.rule = raw.rule := by
  rw [candidateOf?, toOption_eq_some_iff] at h
  obtain ⟨precedence, -, h⟩ := bind_eq_ok_iff.mp h
  obtain ⟨-, h⟩ := reject_bind_eq_ok_iff.mp h
  obtain ⟨hrule, h⟩ := reject_bind_eq_ok_iff.mp h
  obtain ⟨approval, happroval, h⟩ := bind_eq_ok_iff.mp h
  cases h
  rw [Bool.not_eq_false'] at hrule
  unfold normalizeException at happroval
  split at happroval
  · split at happroval
    next => cases happroval
    next hnormal =>
      cases happroval
      exact ⟨⟨hrule, by simp, fun h => absurd h hnormal⟩, rfl⟩
  · obtain ⟨-, happroval⟩ := reject_bind_eq_ok_iff.mp happroval
    obtain ⟨expiresAt, hexpires, happroval⟩ := bind_eq_ok_iff.mp happroval
    obtain ⟨evidenceRef, hreference, happroval⟩ := bind_eq_ok_iff.mp happroval
    cases happroval
    refine ⟨⟨hrule, ?_, fun _ => rfl⟩, rfl⟩
    intro found hfound
    cases hfound
    exact ⟨boundedReference_eq_ok hreference, laterInstant_eq_ok hexpires⟩

theorem normalizeCandidates_eq_ok_iff {evaluatedAt : Int} {raws : List PolicyCandidate}
    {candidates : List NormalizedCandidate} :
    normalizeCandidates raws evaluatedAt = .ok candidates ↔
      raws.length ≤ 256 ∧ mapDistinct (normalizeCandidate evaluatedAt)
        (fun candidate => candidate.rule.ruleId)
        (resolutionError "policy rule ids must be unique") raws = .ok candidates := by
  rw [normalizeCandidates, reject_bind_eq_ok_iff, decide_eq_false_iff_not, not_lt]

theorem valid_of_normalizeCandidates {evaluatedAt : Int} {raws : List PolicyCandidate}
    {candidates : List NormalizedCandidate}
    (h : normalizeCandidates raws evaluatedAt = .ok candidates) :
    ∀ candidate ∈ candidates, candidate.Valid evaluatedAt := by
  obtain ⟨-, -, hcandidates⟩ :=
    (mapDistinct_eq_ok_iff normalizeCandidate_eq_ok_iff).mp (normalizeCandidates_eq_ok_iff.mp h).2
  subst hcandidates
  intro candidate hcandidate
  obtain ⟨raw, -, hraw⟩ := List.mem_filterMap.mp hcandidate
  exact (valid_of_candidateOf? hraw).1

/-! ## Effects of a set of rules -/

section

variable {matched others : List NormalizedCandidate} {effect : Effect} {actionClass : ActionClass}

theorem someEffect_iff : someEffect matched effect = true ↔
    ∃ candidate ∈ matched, candidate.rule.effect = effect := by
  simp [someEffect]

/-- The candidate is an approved exception. -/
def NormalizedCandidate.IsException (candidate : NormalizedCandidate) : Prop :=
  candidate.precedence = .approvedException

/-- Two matching rules of one precedence, one of which allows and the other does not. -/
def Conflict (matched : List NormalizedCandidate) : Prop :=
  ∃ first ∈ matched, ∃ second ∈ matched, first.precedence = second.precedence ∧
    first.rule.effect = .allow ∧ second.rule.effect ≠ .allow

theorem samePrecedenceConflict_iff : samePrecedenceConflict matched = true ↔ Conflict matched := by
  simp only [samePrecedenceConflict, List.any_eq_true, Bool.and_eq_true, Bool.or_eq_true,
    someEffect_iff, List.mem_filter, decide_eq_true_eq, Conflict]
  constructor
  · rintro ⟨candidate, -, ⟨first, ⟨hfirst, hlevel⟩, hallow⟩, hrestricts⟩
    rcases hrestricts with
      ⟨second, ⟨hsecond, hother⟩, heffect⟩ | ⟨second, ⟨hsecond, hother⟩, heffect⟩
    · exact ⟨first, hfirst, second, hsecond, hlevel.trans hother.symm, hallow, by simp [heffect]⟩
    · exact ⟨first, hfirst, second, hsecond, hlevel.trans hother.symm, hallow, by simp [heffect]⟩
  · rintro ⟨first, hfirst, second, hsecond, hlevel, hallow, hrestricts⟩
    refine ⟨first, hfirst, ⟨first, ⟨hfirst, rfl⟩, hallow⟩, ?_⟩
    cases heffect : second.rule.effect with
    | allow => exact absurd heffect hrestricts
    | deny => exact .inl ⟨second, ⟨hsecond, hlevel.symm⟩, heffect⟩
    | inputRequired => exact .inr ⟨second, ⟨hsecond, hlevel.symm⟩, heffect⟩

/-- Some matching rule obliges to an operational approval. -/
theorem requiresApproval_iff : requiresApproval matched = true ↔ ∃ candidate ∈ matched,
    ∃ obligation ∈ candidate.rule.obligations, obligation.code.val = operationalApproval := by
  simp [requiresApproval]

theorem normalDecision_eq_allow_iff : normalDecision matched = .allow ↔
    (∃ candidate ∈ matched, candidate.rule.effect = .allow) ∧
      ∀ candidate ∈ matched, candidate.rule.effect = .allow := by
  have hall : (∀ candidate ∈ matched, candidate.rule.effect = .allow) ↔
      ¬ someEffect matched .deny ∧ ¬ someEffect matched .inputRequired := by
    simp only [someEffect_iff, not_exists, not_and]
    constructor
    · intro h
      exact ⟨fun c hc => by simp [h c hc], fun c hc => by simp [h c hc]⟩
    · rintro ⟨hdeny, hinput⟩ c hc
      cases heffect : c.rule.effect with
      | allow => rfl
      | deny => exact absurd heffect (hdeny c hc)
      | inputRequired => exact absurd heffect (hinput c hc)
  rw [hall, ← someEffect_iff, normalDecision]
  cases someEffect matched .deny <;> cases someEffect matched .inputRequired <;>
    cases someEffect matched .allow <;> decide

theorem exceptionOutcome_eq_allow_iff (matched : List NormalizedCandidate) (normal : Effect) :
    (exceptionOutcome matched normal).decision = .allow ↔
      (∀ candidate ∈ matched, candidate.rule.effect ≠ .deny) ∧
        ((∃ candidate ∈ matched, candidate.rule.effect = .allow) ∨ normal = .allow) := by
  have hdeny : (∀ candidate ∈ matched, candidate.rule.effect ≠ .deny) ↔
      ¬ someEffect matched .deny := by
    simp [someEffect]
  rw [hdeny, ← someEffect_iff, exceptionOutcome]
  cases someEffect matched .deny <;> cases someEffect matched .allow <;> cases normal <;> decide

/-- An action is allowed by an exception, or by all the other rules where no exception says
allow or deny. -/
theorem decision_eq_allow_iff : (decisionForMatches matched actionClass).decision = .allow ↔
    ¬ Conflict matched ∧ requiresApproval matched = false ∧
      (∀ candidate ∈ matched, candidate.IsException → candidate.rule.effect ≠ .deny) ∧
        ((∃ candidate ∈ matched, candidate.IsException ∧ candidate.rule.effect = .allow) ∨
          (∃ candidate ∈ matched, ¬ candidate.IsException ∧ candidate.rule.effect = .allow) ∧
            ∀ candidate ∈ matched, ¬ candidate.IsException → candidate.rule.effect = .allow) := by
  have houtcome := exceptionOutcome_eq_allow_iff
    (matched.filter fun candidate => candidate.precedence = .approvedException)
    (normalDecision (matched.filter fun candidate => candidate.precedence ≠ .approvedException))
  rw [normalDecision_eq_allow_iff] at houtcome
  simp only [List.mem_filter, decide_eq_true_eq, and_imp, and_assoc, decide_not,
    Bool.not_eq_eq_eq_not, Bool.not_true, decide_eq_false_iff_not] at houtcome
  rw [← samePrecedenceConflict_iff]
  unfold NormalizedCandidate.IsException
  rw [← houtcome, decisionForMatches]
  cases hempty : matched with
  | nil => simp [exceptionOutcome, normalDecision, someEffect]
  | cons first rest =>
      simp only [List.isEmpty_cons, Bool.false_eq_true, if_false, decide_not]
      generalize exceptionOutcome _ _ = outcome
      by_cases hallow : outcome.decision = .allow <;>
        cases samePrecedenceConflict (first :: rest) <;>
          cases requiresApproval (first :: rest) <;> cases actionClass <;> simp [hallow]

theorem Conflict.mono (hsubset : ∀ candidate ∈ matched, candidate ∈ others)
    (h : Conflict matched) : Conflict others := by
  obtain ⟨first, hfirst, second, hsecond, hlevel, hallow, hrestricts⟩ := h
  exact ⟨first, hsubset first hfirst, second, hsubset second hsecond, hlevel, hallow, hrestricts⟩

/-- Only the set of the matching rules counts. -/
theorem decisionForMatches_of_perm (hperm : matched.Perm others) :
    decisionForMatches matched actionClass = decisionForMatches others actionClass := by
  have heffect : ∀ (check : NormalizedCandidate → Bool) (effect : Effect),
      someEffect (matched.filter check) effect = someEffect (others.filter check) effect := by
    intro check effect
    rw [Bool.eq_iff_iff, someEffect_iff, someEffect_iff]
    simp only [(hperm.filter check).mem_iff]
  have hempty : matched.isEmpty = others.isEmpty := by
    rw [Bool.eq_iff_iff, List.isEmpty_iff, List.isEmpty_iff]
    constructor
    · rintro rfl
      exact List.nil_perm.mp hperm
    · rintro rfl
      exact List.perm_nil.mp hperm
  have hconflict : samePrecedenceConflict matched = samePrecedenceConflict others := by
    rw [Bool.eq_iff_iff, samePrecedenceConflict_iff, samePrecedenceConflict_iff]
    exact ⟨Conflict.mono fun _ => hperm.mem_iff.mp, Conflict.mono fun _ => hperm.mem_iff.mpr⟩
  have happroval : requiresApproval matched = requiresApproval others := by
    rw [Bool.eq_iff_iff, requiresApproval_iff, requiresApproval_iff]
    simp only [hperm.mem_iff]
  have hnormal : ∀ check, normalDecision (matched.filter check) =
      normalDecision (others.filter check) := by
    intro check
    simp only [normalDecision, heffect]
  have hexception : ∀ check effect, exceptionOutcome (matched.filter check) effect =
      exceptionOutcome (others.filter check) effect := by
    intro check effect
    simp only [exceptionOutcome, heffect]
  rw [decisionForMatches, hexception, hnormal, hempty, hconflict, happroval, ← decisionForMatches]

/-- What is allowed among more rules was allowed before those that restrict were added. -/
theorem decision_eq_allow_of_more (hsubset : ∀ candidate ∈ matched, candidate ∈ others)
    (hadded : ∀ candidate ∈ others, candidate.rule.effect = .allow → candidate ∈ matched)
    (h : (decisionForMatches others actionClass).decision = .allow) :
    (decisionForMatches matched actionClass).decision = .allow := by
  rw [decision_eq_allow_iff] at h ⊢
  obtain ⟨hconflict, happroval, hdeny, hallow⟩ := h
  refine ⟨fun h => hconflict (h.mono hsubset), ?_, fun c hc => hdeny c (hsubset c hc), ?_⟩
  · rw [Bool.eq_false_iff, Ne, requiresApproval_iff] at happroval ⊢
    rintro ⟨c, hc, hobligation⟩
    exact happroval ⟨c, hsubset c hc, hobligation⟩
  · rcases hallow with ⟨c, hc, hexception, heffect⟩ | ⟨⟨c, hc, hnormal, heffect⟩, hall⟩
    · exact .inl ⟨c, hadded c hc heffect, hexception, heffect⟩
    · exact .inr ⟨⟨c, hadded c hc heffect, hnormal, heffect⟩, fun d hd => hall d (hsubset d hd)⟩

/-- An exception asks for input, and the other rules are heard as if it did not match. -/
def Unheard (matched : List NormalizedCandidate) : Prop :=
  (∃ candidate ∈ matched, candidate.IsException) ∧
    (∀ candidate ∈ matched, candidate.IsException → candidate.rule.effect = .inputRequired) ∧
      (∃ candidate ∈ matched, ¬ candidate.IsException) ∧
        (∀ candidate ∈ matched, ¬ candidate.IsException → candidate.rule.effect = .allow) ∧
          requiresApproval matched = false

/-- What is allowed no rule restricts, or an exception allows it and none restricts it. -/
def Unrestricted (matched : List NormalizedCandidate) : Prop :=
  (∀ candidate ∈ matched, candidate.rule.effect = .allow) ∨
    (∃ candidate ∈ matched, candidate.IsException ∧ candidate.rule.effect = .allow) ∧
      ∀ candidate ∈ matched, candidate.IsException → candidate.rule.effect = .allow

/-- An allowance is unrestricted unless an exception is not heard. -/
theorem unrestricted_iff (actionClass : ActionClass) :
    ((decisionForMatches matched actionClass).decision = .allow → Unrestricted matched) ↔ ¬ Unheard matched := by
  rw [decision_eq_allow_iff]
  constructor
  · rintro h ⟨⟨exception, hmem, hexception⟩, hasks, ⟨normal, hnormal, hnot⟩, hallows, happroval⟩
    have hconflict : ¬ Conflict matched := by
      rintro ⟨first, hfirst, second, hsecond, hlevel, hallow, hrestricts⟩
      by_cases hfirstException : first.IsException
      · rw [hasks first hfirst hfirstException] at hallow
        cases hallow
      · exact hrestricts (hallows second hsecond fun h => hfirstException (hlevel.trans h))
    have hasked := hasks exception hmem hexception
    rcases h ⟨hconflict, happroval, fun c hc hc' => by simp [hasks c hc hc'],
      .inr ⟨⟨normal, hnormal, hnot, hallows normal hnormal hnot⟩, hallows⟩⟩ with hall | ⟨-, hall⟩
    · rw [hall exception hmem] at hasked
      cases hasked
    · rw [hall exception hmem hexception] at hasked
      cases hasked
  · rintro hheard ⟨hconflict, happroval, hdeny, hallow⟩
    rcases hallow with
      ⟨exception, hmem, hexception, heffect⟩ | ⟨⟨normal, hnormal, hnot, -⟩, hallows⟩
    · refine .inr ⟨⟨exception, hmem, hexception, heffect⟩, ?_⟩
      intro c hc hc'
      by_contra hrestricts
      exact hconflict ⟨exception, hmem, c, hc, hexception.trans hc'.symm, heffect, hrestricts⟩
    · -- without an exception that allows, an exception here asks for input
      by_cases hexceptionAllows :
          ∃ c ∈ matched, c.IsException ∧ c.rule.effect = .allow
      · obtain ⟨exception, hmem, hexception, heffect⟩ := hexceptionAllows
        refine .inr ⟨⟨exception, hmem, hexception, heffect⟩, ?_⟩
        intro c hc hc'
        by_contra hrestricts
        exact hconflict ⟨exception, hmem, c, hc, hexception.trans hc'.symm, heffect, hrestricts⟩
      · left
        intro c hc
        by_cases hc' : c.IsException
        · exfalso
          refine hheard ⟨⟨c, hc, hc'⟩, ?_, ⟨normal, hnormal, hnot⟩, hallows, happroval⟩
          intro other hother hexception
          cases heffect : other.rule.effect with
          | allow => exact absurd ⟨other, hother, hexception, heffect⟩ hexceptionAllows
          | deny => exact absurd heffect (hdeny other hother hexception)
          | inputRequired => rfl
        · exact hallows c hc hc'

end

end Hseos.ControlPlane
