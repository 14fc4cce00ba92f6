import Hseos.ControlPlane.PolicyAnswers
import Hseos.Contracts.Canonical

/-! # The contract of policy decisions

What every decision that is returned says about the candidates that match: the order of the
candidates is not part of it, restrictions are never lost, and the obligations are those of
the matching rules.
-/

namespace Hseos.ControlPlane

/-! ## Obligations -/

theorem faithful_obligation :
    Faithful (fun obligation : RuleObligation => obligation.valid = true)
      RuleObligation.toJson := by
  have hparameters : ∀ {obligation : RuleObligation}, obligation.valid = true →
      obligation.parameters.canonicalObject = true := by
    intro obligation h
    simp only [RuleObligation.valid, Bool.and_eq_true] at h
    exact h.1.1
  have hwellFormed : ∀ {obligation : RuleObligation}, obligation.valid = true →
      obligation.toJson.wellFormed = true := by
    intro obligation h
    have hobject := faithful_canonicalObject.wellFormed (hparameters h)
    simpa [RuleObligation.toJson, Json.wellFormed, Json.wellFormedMembers, Json.ofText]
      using hobject
  refine ⟨hwellFormed, ?_⟩
  intro a b ha hb h
  have hfield := h.field? (hwellFormed ha) (hwellFormed hb)
  have hcode := Faithful.refined.member trivial trivial rfl rfl (hfield "code")
  have hparams := faithful_canonicalObject.member (hparameters ha) (hparameters hb) rfl rfl
    (hfield "parameters")
  cases a
  cases b
  dsimp only at hcode hparams
  rw [hcode, hparams]

theorem RuleObligation.eq_of_key_eq {a b : RuleObligation} (ha : a.valid = true)
    (hb : b.valid = true) (h : a.key = b.key) : a = b :=
  faithful_obligation.eq_of_canonicalJson_eq ha hb h

/-! ## Matching -/

/-- The question as it was considered: its time, its request and its candidates. -/
structure Considered (question : PolicyQuestion) (evaluatedAt : Int) (request : NormalizedRequest)
    (candidates : List NormalizedCandidate) : Prop where
  instant : question.evaluatedAt = some evaluatedAt
  request : normalizeRequest question.request = .ok request
  candidates : normalizeCandidates question.candidates evaluatedAt = .ok candidates
  version : isReference question.policyVersion = true

section

variable {localeCompare : String → String → Int} {question : PolicyQuestion} {evaluatedAt : Int}
  {request : NormalizedRequest} {candidates : List NormalizedCandidate}
  {raws : List PolicyCandidate} {decision other : GovernanceDecision}

theorem isReference_of_answer {matched : List NormalizedCandidate}
    (h : answer question request matched = .ok decision) :
    isReference question.policyVersion = true := by
  obtain ⟨obligations, -, h⟩ := bind_eq_ok_iff.mp h
  obtain ⟨selected, -, h⟩ := bind_eq_ok_iff.mp h
  obtain ⟨evidence, -, h⟩ := bind_eq_ok_iff.mp h
  obtain ⟨policyVersion, hversion, -⟩ := bind_eq_ok_iff.mp h
  unfold boundedReference at hversion
  split at hversion
  next hreference => exact hreference
  next => cases hversion

/-- What a decision was made from. -/
theorem considered_of_resolve (h : resolveGovernancePolicy localeCompare question = .ok decision) :
    ∃ evaluatedAt request candidates, Considered question evaluatedAt request candidates := by
  obtain ⟨evaluatedAt, hinstant, h⟩ := bind_eq_ok_iff.mp h
  obtain ⟨request, hrequest, h⟩ := bind_eq_ok_iff.mp h
  obtain ⟨candidates, hcandidates, h⟩ := bind_eq_ok_iff.mp h
  obtain ⟨matched, -, h⟩ := bind_eq_ok_iff.mp h
  refine ⟨evaluatedAt, request, candidates, ?_, hrequest, hcandidates, isReference_of_answer h⟩
  unfold requireInstant at hinstant
  split at hinstant
  next hvalue => cases hinstant; exact hvalue
  next => cases hinstant

/-- The candidates whose rules match. -/
def matchesOf (request : NormalizedRequest) (candidates : List NormalizedCandidate) :
    List NormalizedCandidate := candidates.filter (selects request)

/-- A decision is answered from the matches of its question. -/
theorem answered_of_resolve (hconsidered : Considered question evaluatedAt request candidates)
    (h : resolveGovernancePolicy localeCompare question = .ok decision) :
    Answered question request (orderMatches localeCompare (matchesOf request candidates))
      decision := by
  simp only [resolveGovernancePolicy, requireInstant, hconsidered.instant, ok_bind,
    hconsidered.request, hconsidered.candidates] at h
  obtain ⟨matched, hmatched, h⟩ := bind_eq_ok_iff.mp h
  obtain ⟨-, rfl⟩ := matchingCandidates_eq_ok_iff.mp hmatched
  exact answered_of_answer h

theorem decision_of_resolve (hconsidered : Considered question evaluatedAt request candidates)
    (h : resolveGovernancePolicy localeCompare question = .ok decision) :
    decision.decision =
        (decisionForMatches (matchesOf request candidates) request.actionClass).decision ∧
      decision.reasonCode =
        (decisionForMatches (matchesOf request candidates) request.actionClass).reasonCode := by
  have hanswered := answered_of_resolve hconsidered h
  rw [← decisionForMatches_of_perm (perm_orderMatches localeCompare _)]
  exact ⟨hanswered.outcome, hanswered.reason⟩

/-! ## Other candidates -/

/-- The same question about other candidates. -/
def PolicyQuestion.about (question : PolicyQuestion) (candidates : List PolicyCandidate) :
    PolicyQuestion := { question with candidates }

theorem Considered.of_perm (hconsidered : Considered question evaluatedAt request candidates)
    (hperm : raws.Perm question.candidates) : ∃ sorted,
      Considered (question.about raws) evaluatedAt request sorted ∧ sorted.Perm candidates := by
  obtain ⟨hlength, hdistinct⟩ := normalizeCandidates_eq_ok_iff.mp hconsidered.candidates
  obtain ⟨sorted, hsorted, hsame⟩ :=
    mapDistinct_of_perm normalizeCandidate_eq_ok_iff hperm hdistinct
  refine ⟨sorted, ⟨hconsidered.instant, hconsidered.request, ?_, hconsidered.version⟩, hsame⟩
  exact normalizeCandidates_eq_ok_iff.mpr ⟨hperm.length_eq ▸ hlength, hsorted⟩

/-- What a question with one more candidate was made from. -/
theorem Considered.of_cons {raw : PolicyCandidate} {added : List NormalizedCandidate}
    (hadded : Considered (question.about (raw :: question.candidates)) evaluatedAt request added)
    (hconsidered : Considered question evaluatedAt request candidates) :
    ∃ candidate, candidate.rule = raw.rule ∧ added = candidate :: candidates := by
  obtain ⟨-, hdistinct⟩ := normalizeCandidates_eq_ok_iff.mp hadded.candidates
  obtain ⟨candidate, rest, hcandidate, hrest, rfl⟩ :=
    mapDistinct_of_cons normalizeCandidate_eq_ok_iff hdistinct
  obtain ⟨-, hcandidates⟩ := normalizeCandidates_eq_ok_iff.mp hconsidered.candidates
  obtain rfl : rest = candidates := Except.ok.inj (hrest.symm.trans hcandidates)
  exact ⟨candidate, (valid_of_candidateOf? hcandidate).2, rfl⟩

/-- The time and the request of a question do not depend on its candidates. -/
theorem Considered.unique {time : Int} {asked : NormalizedRequest}
    {found : List NormalizedCandidate}
    (hfound : Considered (question.about raws) time asked found)
    (hconsidered : Considered question evaluatedAt request candidates) :
    time = evaluatedAt ∧ asked = request :=
  ⟨Option.some.inj (hfound.instant.symm.trans hconsidered.instant),
    Except.ok.inj (hfound.request.symm.trans hconsidered.request)⟩

theorem Answerable.of_perm {sorted : List NormalizedCandidate} (hperm : sorted.Perm candidates)
    (h : Answerable request candidates) : Answerable request sorted := by
  have hmatches := hperm.filter (selects request)
  refine ⟨fun c hc => h.paths c (hperm.mem_iff.mp hc),
    fun c hc => h.texts c (hperm.mem_iff.mp hc), ?_, ?_⟩
  · rw [length_unique_of_perm (obligationKeys_of_perm hmatches)]
    exact h.obligations
  · intro keys hkeys
    obtain ⟨found, hfound, hsame⟩ := evidenceKeys_of_perm hmatches hkeys
    rw [← length_unique_of_perm hsame]
    exact h.evidence found hfound

/-! ## The contract -/

/-- The contract of a decision that a question was answered with. -/
structure DecisionContract (localeCompare : String → String → Int) (question : PolicyQuestion)
    (evaluatedAt : Int) (request : NormalizedRequest) (candidates : List NormalizedCandidate)
    (decision : GovernanceDecision) : Prop where
  unordered : ∀ raws : List PolicyCandidate, raws.Perm question.candidates → ∃ other,
    resolveGovernancePolicy localeCompare (question.about raws) = .ok other ∧
      other.decision = decision.decision ∧ other.reasonCode = decision.reasonCode
  narrowing : ∀ (raw : PolicyCandidate) (raws : List PolicyCandidate) (other : GovernanceDecision),
    raws.Perm (raw :: question.candidates) → raw.rule.effect ≠ .allow →
      resolveGovernancePolicy localeCompare (question.about raws) = .ok other →
        decision.decision ≠ .allow → other.decision ≠ .allow
  allowed : decision.decision = .allow →
    (∀ candidate ∈ matchesOf request candidates, candidate.rule.effect = .allow) ∨
      (∃ candidate ∈ matchesOf request candidates, candidate.IsException ∧
        (∃ approval, candidate.approval = some approval ∧ evaluatedAt < approval.expiresAt) ∧
          candidate.rule.effect = .allow) ∧
        ∀ candidate ∈ matchesOf request candidates, candidate.IsException →
          candidate.rule.effect = .allow
  levels : ∀ first ∈ matchesOf request candidates, ∀ second ∈ matchesOf request candidates,
    first.precedence = second.precedence → first.rule.effect = .allow →
      second.rule.effect = .deny → decision.decision ≠ .allow
  obligations : decision.obligations.Nodup ∧ ∀ obligation, obligation ∈ decision.obligations ↔
    ∃ candidate ∈ matchesOf request candidates, obligation ∈ candidate.rule.obligations

theorem unordered_of_resolve (hconsidered : Considered question evaluatedAt request candidates)
    (h : resolveGovernancePolicy localeCompare question = .ok decision)
    (hperm : raws.Perm question.candidates) : ∃ other,
      resolveGovernancePolicy localeCompare (question.about raws) = .ok other ∧
        other.decision = decision.decision ∧ other.reasonCode = decision.reasonCode := by
  have hanswerable := (resolve_answerable_iff localeCompare hconsidered.instant
    hconsidered.request hconsidered.candidates hconsidered.version).mp ⟨decision, h⟩
  obtain ⟨sorted, hsorted, hsame⟩ := hconsidered.of_perm hperm
  obtain ⟨other, hother⟩ := (resolve_answerable_iff localeCompare
    hsorted.instant hsorted.request hsorted.candidates hsorted.version).mpr
      (hanswerable.of_perm hsame)
  have hfirst := decision_of_resolve hconsidered h
  have hsecond := decision_of_resolve hsorted hother
  have hmatches : (matchesOf request sorted).Perm (matchesOf request candidates) :=
    hsame.filter _
  rw [decisionForMatches_of_perm hmatches] at hsecond
  exact ⟨other, hother, hsecond.1.trans hfirst.1.symm, hsecond.2.trans hfirst.2.symm⟩

/-- One more candidate that restricts does not open what was closed. -/
theorem narrowing_of_resolve (hconsidered : Considered question evaluatedAt request candidates)
    (h : resolveGovernancePolicy localeCompare question = .ok decision) {raw : PolicyCandidate}
    (hperm : raws.Perm (raw :: question.candidates)) (hraw : raw.rule.effect ≠ .allow)
    (hother : resolveGovernancePolicy localeCompare (question.about raws) = .ok other)
    (hallow : other.decision = .allow) : decision.decision = .allow := by
  obtain ⟨time, asked, added, hadded⟩ := considered_of_resolve hother
  obtain ⟨rfl, rfl⟩ := hadded.unique hconsidered
  obtain ⟨sorted, hsorted, hsame⟩ := hadded.of_perm hperm.symm
  obtain ⟨candidate, hrule, rfl⟩ := hsorted.of_cons hconsidered
  rw [(decision_of_resolve hconsidered h).1]
  rw [(decision_of_resolve hadded hother).1] at hallow
  refine decision_eq_allow_of_more ?_ ?_ hallow
  · intro found hfound
    obtain ⟨hmem, hselects⟩ := List.mem_filter.mp hfound
    exact List.mem_filter.mpr ⟨hsame.mem_iff.mp (List.mem_cons_of_mem _ hmem), hselects⟩
  · intro found hfound heffect
    obtain ⟨hmem, hselects⟩ := List.mem_filter.mp hfound
    rcases List.mem_cons.mp (hsame.mem_iff.mpr hmem) with rfl | hmem
    · rw [hrule] at heffect
      exact absurd heffect hraw
    · exact List.mem_filter.mpr ⟨hmem, hselects⟩

/-- The obligations of a decision are those of the matches, each once. -/
theorem obligations_of_resolve (hconsidered : Considered question evaluatedAt request candidates)
    (h : resolveGovernancePolicy localeCompare question = .ok decision) :
    decision.obligations.Nodup ∧ ∀ obligation, obligation ∈ decision.obligations ↔
      ∃ candidate ∈ matchesOf request candidates, obligation ∈ candidate.rule.obligations := by
  have hanswered := answered_of_resolve hconsidered h
  have hperm := perm_orderMatches localeCompare (matchesOf request candidates)
  have hvalid : ∀ candidate ∈ matchesOf request candidates,
      ∀ obligation ∈ candidate.rule.obligations, obligation.valid = true := by
    intro candidate hcandidate
    exact RuleObligation.valid_of_rule (valid_of_normalizeCandidates hconsidered.candidates
      candidate (List.mem_of_mem_filter hcandidate)).rule
  have horigins : ∀ obligation ∈ decision.obligations,
      ∃ candidate ∈ matchesOf request candidates, obligation ∈ candidate.rule.obligations := by
    intro obligation hobligation
    obtain ⟨candidate, hcandidate, hrule⟩ := hanswered.origins obligation hobligation
    exact ⟨candidate, hperm.mem_iff.mp hcandidate, hrule⟩
  refine ⟨List.Nodup.of_map _ (hanswered.obligations ▸ nodup_unique _), fun obligation =>
    ⟨horigins obligation, ?_⟩⟩
  rintro ⟨candidate, hcandidate, hrule⟩
  have hkey : obligation.key ∈ decision.obligations.map RuleObligation.key := by
    rw [hanswered.obligations, mem_unique, obligationKeys]
    refine List.mem_map_of_mem (List.mem_flatMap.mpr ⟨candidate, ?_, hrule⟩)
    exact hperm.mem_iff.mpr hcandidate
  obtain ⟨found, hfound, hsame⟩ := List.mem_map.mp hkey
  obtain ⟨origin, horigin, hfoundRule⟩ := horigins found hfound
  obtain rfl := RuleObligation.eq_of_key_eq (hvalid origin horigin found hfoundRule)
    (hvalid candidate hcandidate obligation hrule) hsame
  exact hfound

/-- A decision meets the contract unless an exception that asks for input is not heard. -/
theorem decisionContract_iff (hconsidered : Considered question evaluatedAt request candidates)
    (h : resolveGovernancePolicy localeCompare question = .ok decision) :
    DecisionContract localeCompare question evaluatedAt request candidates decision ↔
      ¬ Unheard (matchesOf request candidates) := by
  have hdecision := (decision_of_resolve hconsidered h).1
  rw [← unrestricted_iff request.actionClass, ← hdecision]
  constructor
  · intro hcontract hallow
    refine (hcontract.allowed hallow).imp_right ?_
    rintro ⟨⟨candidate, hmem, hexception, -, heffect⟩, hall⟩
    exact ⟨⟨candidate, hmem, hexception, heffect⟩, hall⟩
  · intro hunrestricted
    refine ⟨fun raws hperm => unordered_of_resolve hconsidered h hperm,
      fun raw raws other hperm hraw hother hclosed hopen =>
        hclosed (narrowing_of_resolve hconsidered h hperm hraw hother hopen), ?_, ?_,
      obligations_of_resolve hconsidered h⟩
    · intro hallow
      refine (hunrestricted hallow).imp_right ?_
      rintro ⟨⟨candidate, hmem, hexception, heffect⟩, hall⟩
      have hvalid := valid_of_normalizeCandidates hconsidered.candidates candidate
        (List.mem_of_mem_filter hmem)
      obtain ⟨approval, happroval⟩ := Option.isSome_iff_exists.mp (hvalid.excepted hexception)
      exact ⟨⟨candidate, hmem, hexception,
        ⟨approval, happroval, (hvalid.approval approval happroval).2⟩, heffect⟩, hall⟩
    · intro first hfirst second hsecond hlevel hallows hdenies hallow
      rw [hdecision, decision_eq_allow_iff] at hallow
      exact hallow.1 ⟨first, hfirst, second, hsecond, hlevel, hallows, by simp [hdenies]⟩

end

namespace Sample

theorem documentQuestion_considered :
    Considered (documentQuestion found) 0 normalizedRequest [documentCandidate found] :=
  ⟨rfl, rfl, rfl, rfl⟩

def exceptionEvidence : ExceptionEvidence := ⟨"approved", utf16 "e", some 1⟩

def exceptionRule : GovernanceRule :=
  documentRule (name "exception" (by decide)) found .inputRequired

/-- The sample candidate with an exception that asks for input. -/
def exceptionQuestion : PolicyQuestion := (documentQuestion found).about
  (⟨exceptionRule, "approved-exception", "published", some exceptionEvidence⟩ ::
    (documentQuestion found).candidates)

def exceptionCandidates : List NormalizedCandidate :=
  [⟨exceptionRule, .approvedException, some ⟨utf16 "e", 1⟩⟩, documentCandidate found]

theorem exceptionQuestion_considered :
    Considered exceptionQuestion 0 normalizedRequest exceptionCandidates := ⟨rfl, rfl, rfl, rfl⟩

/-- The rules of the sample have conditions that hold. -/
theorem ruleMatches_sample : ∀ candidate ∈ exceptionCandidates,
    ruleMatches candidate.rule normalizedRequest = .ok true := by
  simp only [exceptionCandidates, List.forall_mem_cons]
  exact ⟨rfl, rfl, by simp⟩

theorem answerable_sample {candidates : List NormalizedCandidate}
    (hsubset : ∀ candidate ∈ candidates, candidate ∈ exceptionCandidates)
    (hlength : candidates.length ≤ 2) : Answerable normalizedRequest candidates := by
  have hmatches : ∀ candidate ∈ candidates,
      ruleMatches candidate.rule normalizedRequest = .ok true :=
    fun candidate hcandidate => ruleMatches_sample candidate (hsubset candidate hcandidate)
  have htexts : ∀ candidate ∈ exceptionCandidates, HasTexts candidate := by
    simp only [exceptionCandidates, List.forall_mem_cons]
    refine ⟨⟨by decide, ?_⟩, ⟨by decide, by simp [documentCandidate]⟩, by simp⟩
    intro approval happroval
    cases happroval
    decide
  have hobligations : ∀ candidate ∈ exceptionCandidates, candidate.rule.obligations = [] := by
    simp only [exceptionCandidates, List.forall_mem_cons]
    exact ⟨rfl, rfl, by simp⟩
  refine ⟨?_, fun candidate hcandidate _ => htexts candidate (hsubset candidate hcandidate), ?_, ?_⟩
  · intro candidate hcandidate
    exact ruleMatches_eq_ok_iff.mp ⟨true, hmatches candidate hcandidate⟩
  · have hnone : obligationKeys (candidates.filter (selects normalizedRequest)) = [] := by
      rw [obligationKeys, List.map_eq_nil_iff, List.flatMap_eq_nil_iff]
      intro candidate hcandidate
      exact hobligations candidate (hsubset candidate (List.mem_of_mem_filter hcandidate))
    rw [hnone]
    decide
  · intro keys hkeys
    have hevidence := length_unique_evidenceKeys_le hkeys
    have hfilter := List.length_filter_le (selects normalizedRequest) candidates
    omega

end Sample

theorem decisionContract_sample : ∃ decision,
    resolveGovernancePolicy (fun _ _ => 0) (Sample.documentQuestion Sample.found) = .ok decision ∧
      DecisionContract (fun _ _ => 0) (Sample.documentQuestion Sample.found) 0
        Sample.normalizedRequest [Sample.documentCandidate Sample.found] decision := by
  have hconsidered := Sample.documentQuestion_considered
  obtain ⟨decision, hdecision⟩ := (resolve_answerable_iff (fun _ _ => 0) hconsidered.instant
    hconsidered.request hconsidered.candidates hconsidered.version).mpr
      (Sample.answerable_sample (by simp [Sample.exceptionCandidates]) (by decide))
  refine ⟨decision, hdecision, (decisionContract_iff hconsidered hdecision).mpr ?_⟩
  rintro ⟨⟨candidate, hcandidate, hexception⟩, -⟩
  obtain rfl := List.mem_singleton.mp (List.mem_of_mem_filter hcandidate)
  cases hexception

/-- Beside a rule that allows, an exception that asks for input does not restrict. -/
theorem exception_asks_unheard : ∃ decision,
    resolveGovernancePolicy (fun _ _ => 0) Sample.exceptionQuestion = .ok decision ∧
      decision.decision = .allow ∧ ¬ DecisionContract (fun _ _ => 0) Sample.exceptionQuestion 0
        Sample.normalizedRequest Sample.exceptionCandidates decision := by
  have hconsidered := Sample.exceptionQuestion_considered
  obtain ⟨decision, hdecision⟩ := (resolve_answerable_iff (fun _ _ => 0) hconsidered.instant
    hconsidered.request hconsidered.candidates hconsidered.version).mpr
      (Sample.answerable_sample (fun _ h => h) (by decide))
  have hmatches : matchesOf Sample.normalizedRequest Sample.exceptionCandidates =
      Sample.exceptionCandidates := by
    rw [matchesOf, List.filter_eq_self]
    intro candidate hcandidate
    exact selects_iff.mpr (Sample.ruleMatches_sample candidate hcandidate)
  have hallow : decision.decision = .allow := by
    rw [(decision_of_resolve hconsidered hdecision).1, hmatches]
    decide
  refine ⟨decision, hdecision, hallow, fun hcontract => ?_⟩
  have hexception : Sample.exceptionCandidates.head (by decide) ∈
      matchesOf Sample.normalizedRequest Sample.exceptionCandidates := by
    rw [hmatches]
    exact List.head_mem _
  rcases hcontract.allowed hallow with hall | ⟨-, hall⟩
  · cases hall _ hexception
  · cases hall _ hexception rfl

end Hseos.ControlPlane
