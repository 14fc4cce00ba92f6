import Hseos.Capability.Vocabulary
import Mathlib.Data.List.Lex
import Mathlib.Data.List.MinMax
import Mathlib.Data.List.Sort
import Mathlib.Data.Prod.Lex

/-! # Coverage of targets

Which implementations serve a target, the best of them, and what a coverage says about its
targets, whatever the order in which they and the implementations are listed.
-/

namespace Hseos.Capability

/-! ## Implementations and targets -/

/-- The statuses that have a rank. -/
inductive Status where
  | stable
  | experimental
  | planned
  deriving DecidableEq, Repr

namespace Status

def text : Status → Text
  | stable => utf16 "stable"
  | experimental => utf16 "experimental"
  | planned => utf16 "planned"

/-- `STATUS_RANK`. -/
def rank : Status → Nat
  | stable => 3
  | experimental => 2
  | planned => 1

/-- The own property of `STATUS_RANK`, if there is one. -/
def ofText? (text : Text) : Option Status :=
  [stable, experimental, planned].find? fun status => status.text = text

theorem rank_injective : Function.Injective rank := by
  intro a b h
  cases a <;> cases b <;> first | rfl | cases h

theorem rank_pos (status : Status) : 0 < status.rank := by
  cases status <;> decide

end Status

structure Implementation where
  status : Text
  stack : Option Text
  deriving DecidableEq

structure Target where
  stack : Text
  required : Option Bool
  deriving DecidableEq

/-- A target with the default of `required`. -/
structure NormalizedTarget where
  stack : Text
  required : Bool
  deriving DecidableEq

/-! ## The best implementation -/

/-- What an implementation does for a target. -/
structure Candidate where
  status : Status
  via : Option Text
  deriving DecidableEq

namespace Candidate

def rank (candidate : Candidate) : Nat := candidate.status.rank

/-- Whether the implementation is of the target's own stack. -/
def direct (candidate : Candidate) : Nat := if candidate.via.isNone then 1 else 0

/-- `via || ''`. -/
def viaText (candidate : Candidate) : Text := candidate.via.getD []

/-- Whether a candidate takes the place of the best one so far. -/
def better (candidate best : Candidate) : Bool :=
  candidate.rank > best.rank ||
    (candidate.rank = best.rank && candidate.direct > best.direct) ||
    (candidate.rank = best.rank && candidate.direct = best.direct &&
      candidate.viaText < best.viaText)

end Candidate

/-- The stack of an implementation, as the vocabulary names it. -/
def Vocabulary.stackOf (table : LowerCase) (vocabulary : Vocabulary)
    (implementation : Implementation) : Text :=
  vocabulary.normalize table (implementation.stack.getD [])

/-- What an implementation does for a target, if it serves it. -/
def candidateOf? (table : LowerCase) (vocabulary : Vocabulary) (targetStack : Text)
    (implementation : Implementation) : Option Candidate :=
  (Status.ofText? implementation.status).bind fun status =>
    let stack := vocabulary.stackOf table implementation
    if stack = targetStack then some ⟨status, none⟩
    else if stack ∈ vocabulary.accepts targetStack then some ⟨status, some stack⟩
    else none

/-- One round of the search for the best candidate. -/
def consider (best : Option Candidate) (candidate : Candidate) : Option Candidate :=
  match best with
  | none => some candidate
  | some held => if candidate.better held then some candidate else some held

/-- Highest status rank first; the target's own stack beats one that it accepts. Without a
candidate the target is missing. -/
def satisfaction (table : LowerCase) (vocabulary : Vocabulary) (targetStack : Text)
    (implementations : List Implementation) : Option Candidate :=
  (implementations.filterMap (candidateOf? table vocabulary targetStack)).foldl consider none

/-! ## Coverage -/

/-- The targets with the default of `required`, sorted by stack. -/
def normalizedTargets (targets : List Target) : List NormalizedTarget :=
  (targets.map fun target => ⟨target.stack, target.required.getD true⟩).insertionSort
    fun a b => a.stack ≤ b.stack

/-- An item of a coverage; a target without a status is missing. -/
structure CoverageItem where
  target : Text
  required : Bool
  status : Option Status
  via : Option Text
  deriving DecidableEq

namespace CoverageItem

/-- The status as the item shows it. -/
def statusText (item : CoverageItem) : Text := (item.status.map Status.text).getD (utf16 "missing")

/-- How good the status is; a missing target comes last. -/
def rank (item : CoverageItem) : Nat := (item.status.map Status.rank).getD 0

end CoverageItem

def coverageItem (table : LowerCase) (vocabulary : Vocabulary)
    (implementations : List Implementation) (target : NormalizedTarget) : CoverageItem :=
  let best := satisfaction table vocabulary (vocabulary.normalize table target.stack)
    implementations
  { target := target.stack
    required := target.required
    status := best.map Candidate.status
    via := (best.bind Candidate.via).filter (· ≠ []) }

/-- One item for each target, sorted by stack. -/
def deriveCoverage (table : LowerCase) (vocabulary : Vocabulary) (targets : List Target)
    (implementations : List Implementation) : List CoverageItem :=
  (normalizedTargets targets).map (coverageItem table vocabulary implementations)

/-! ## The order of candidates -/

namespace Candidate

/-- The three levels of the comparison, of which the last counts backwards. -/
def key (candidate : Candidate) : ℕ ×ₗ ℕ ×ₗ Textᵒᵈ :=
  toLex (candidate.rank, toLex (candidate.direct, OrderDual.toDual candidate.viaText))

theorem key_injective : Function.Injective key := by
  rintro ⟨status, via⟩ ⟨other, others⟩ h
  obtain ⟨hrank, hrest⟩ := Prod.mk.inj (toLex.injective h)
  obtain ⟨hdirect, hvia⟩ := Prod.mk.inj (toLex.injective hrest)
  obtain rfl := Status.rank_injective hrank
  have htext := OrderDual.toDual.injective hvia
  cases via <;> cases others <;> simp_all [direct, viaText]

theorem better_eq_true_iff {candidate best : Candidate} :
    candidate.better best = true ↔ best.key < candidate.key := by
  simp only [better, key, Prod.Lex.toLex_lt_toLex, OrderDual.toDual_lt_toDual, Bool.or_eq_true,
    Bool.and_eq_true, decide_eq_true_eq, gt_iff_lt, eq_comm (a := candidate.rank),
    eq_comm (a := candidate.direct)]
  tauto

end Candidate

/-- The search ends with the greatest candidate. -/
theorem foldl_consider (candidates : List Candidate) :
    candidates.foldl consider none = candidates.argmax Candidate.key := by
  have hstep : consider = List.argAux fun a b => Candidate.key b < Candidate.key a := by
    funext best candidate
    cases best with
    | none => rfl
    | some held => simp only [consider, List.argAux, Candidate.better_eq_true_iff]
  rw [List.argmax, hstep]

theorem rank_le_of_key_le {candidate best : Candidate} (h : candidate.key ≤ best.key) :
    candidate.rank ≤ best.rank := by
  rw [Candidate.key, Candidate.key, Prod.Lex.toLex_le_toLex] at h
  rcases h with hlt | ⟨heq, -⟩
  · exact le_of_lt hlt
  · exact le_of_eq heq

/-- With keys that tell the items apart, the greatest item is known by its place in the order. -/
theorem argmax_eq_some_iff_of_injective {α β : Type} [LinearOrder β] {f : α → β}
    (hf : Function.Injective f) {list : List α} {m : α} :
    list.argmax f = some m ↔ m ∈ list ∧ ∀ a ∈ list, f a ≤ f m := by
  constructor
  · intro h
    exact ⟨List.argmax_mem h, fun a ha => List.le_of_mem_argmax ha h⟩
  · rintro ⟨hmem, hle⟩
    cases hbest : list.argmax f with
    | none => simp [List.argmax_eq_none.mp hbest] at hmem
    | some best =>
        have hbelow := hle best (List.argmax_mem hbest)
        have hboth := le_antisymm hbelow (List.le_of_mem_argmax hmem hbest)
        rw [hf hboth]

/-! ## Satisfaction -/

section

variable {table : LowerCase} {vocabulary : Vocabulary} {target : Text} {status : Status}
  {implementation : Implementation} {implementations others : List Implementation}
  {candidate best : Candidate}

/-- An implementation of the target's own stack, with a status that counts. -/
def IsOwn (table : LowerCase) (vocabulary : Vocabulary) (target : Text) (status : Status)
    (implementation : Implementation) : Prop :=
  implementation.status = status.text ∧ vocabulary.stackOf table implementation = target

/-- An implementation of the target's own stack or one that it accepts, with a status that
counts. -/
def Serves (table : LowerCase) (vocabulary : Vocabulary) (target : Text) (status : Status)
    (implementation : Implementation) : Prop :=
  implementation.status = status.text ∧
    (vocabulary.stackOf table implementation = target ∨
      vocabulary.stackOf table implementation ∈ vocabulary.accepts target)

theorem ofText?_eq_some_iff {text : Text} :
    Status.ofText? text = some status ↔ text = status.text := by
  constructor
  · intro h
    have hfound := List.find?_some h
    exact (of_decide_eq_true hfound).symm
  · rintro rfl
    cases status <;> decide +kernel

theorem candidateOf?_eq_some_iff :
    candidateOf? table vocabulary target implementation = some candidate ↔
      implementation.status = candidate.status.text ∧
        ((vocabulary.stackOf table implementation = target ∧ candidate.via = none) ∨
          (vocabulary.stackOf table implementation ≠ target ∧
            vocabulary.stackOf table implementation ∈ vocabulary.accepts target ∧
            candidate.via = some (vocabulary.stackOf table implementation))) := by
  obtain ⟨status, via⟩ := candidate
  simp only [candidateOf?, Option.bind_eq_some_iff, ofText?_eq_some_iff]
  constructor
  · rintro ⟨status, hstatus, hcandidate⟩
    split at hcandidate
    next hown =>
      cases hcandidate
      exact ⟨hstatus, .inl ⟨hown, rfl⟩⟩
    next hother =>
      split at hcandidate
      next haccepted =>
        cases hcandidate
        exact ⟨hstatus, .inr ⟨hother, haccepted, rfl⟩⟩
      next => cases hcandidate
  · rintro ⟨hstatus, ⟨hown, rfl⟩ | ⟨hother, haccepted, rfl⟩⟩
    · exact ⟨status, hstatus, if_pos hown⟩
    · exact ⟨status, hstatus, (if_neg hother).trans (if_pos haccepted)⟩

theorem serves_iff : Serves table vocabulary target status implementation ↔
    ∃ via, candidateOf? table vocabulary target implementation = some ⟨status, via⟩ := by
  simp only [candidateOf?_eq_some_iff, Serves]
  constructor
  · rintro ⟨hstatus, hserves⟩
    by_cases hown : vocabulary.stackOf table implementation = target
    · exact ⟨none, hstatus, .inl ⟨hown, rfl⟩⟩
    · exact ⟨_, hstatus, .inr ⟨hown, hserves.resolve_left hown, rfl⟩⟩
  · rintro ⟨via, hstatus, ⟨hown, -⟩ | ⟨-, haccepted, -⟩⟩
    · exact ⟨hstatus, .inl hown⟩
    · exact ⟨hstatus, .inr haccepted⟩

theorem candidateOf?_of_isOwn (h : IsOwn table vocabulary target status implementation) :
    candidateOf? table vocabulary target implementation = some ⟨status, none⟩ :=
  candidateOf?_eq_some_iff.mpr ⟨h.1, .inl ⟨h.2, rfl⟩⟩

theorem satisfaction_eq_some_iff :
    satisfaction table vocabulary target implementations = some best ↔
      (∃ implementation ∈ implementations,
        candidateOf? table vocabulary target implementation = some best) ∧
      ∀ implementation ∈ implementations, ∀ candidate,
        candidateOf? table vocabulary target implementation = some candidate →
          candidate.key ≤ best.key := by
  rw [satisfaction, foldl_consider, argmax_eq_some_iff_of_injective Candidate.key_injective]
  simp only [List.mem_filterMap, forall_exists_index, and_imp]
  exact and_congr_right fun _ =>
    ⟨fun h implementation hmem candidate => h candidate implementation hmem,
      fun h candidate implementation hmem => h implementation hmem candidate⟩

theorem satisfaction_eq_none_iff :
    satisfaction table vocabulary target implementations = none ↔
      ∀ implementation ∈ implementations, ∀ status,
        ¬ Serves table vocabulary target status implementation := by
  rw [satisfaction, foldl_consider, List.argmax_eq_none, List.filterMap_eq_nil_iff]
  refine forall₂_congr fun implementation _ => ?_
  simp only [serves_iff, Option.eq_none_iff_forall_ne_some]
  exact ⟨fun h status ⟨via, hsome⟩ => h _ hsome,
    fun h best hsome => h best.status ⟨best.via, hsome⟩⟩

/-- The best candidate does not depend on the order of the implementations. -/
theorem satisfaction_of_perm (hperm : others.Perm implementations) :
    satisfaction table vocabulary target others =
      satisfaction table vocabulary target implementations := by
  ext best
  simp only [satisfaction_eq_some_iff, hperm.mem_iff]

/-- More implementations give no lower status. -/
theorem satisfaction_mono (hsubset : implementations ⊆ others)
    (h : satisfaction table vocabulary target implementations = some best) :
    ∃ better, satisfaction table vocabulary target others = some better ∧
      best.rank ≤ better.rank := by
  obtain ⟨⟨implementation, hmem, hcandidate⟩, -⟩ := satisfaction_eq_some_iff.mp h
  cases hothers : satisfaction table vocabulary target others with
  | none =>
      exact absurd (serves_iff.mpr ⟨best.via, hcandidate⟩)
        (satisfaction_eq_none_iff.mp hothers implementation (hsubset hmem) best.status)
  | some better =>
      exact ⟨better, rfl, rank_le_of_key_le
        ((satisfaction_eq_some_iff.mp hothers).2 implementation (hsubset hmem) best hcandidate)⟩

theorem satisfaction_best
    (h : satisfaction table vocabulary target implementations = some best) :
    (∃ implementation ∈ implementations,
      Serves table vocabulary target best.status implementation) ∧
    ∀ implementation ∈ implementations, ∀ status,
      Serves table vocabulary target status implementation → status.rank ≤ best.status.rank := by
  obtain ⟨⟨implementation, hmem, hcandidate⟩, hgreatest⟩ := satisfaction_eq_some_iff.mp h
  refine ⟨⟨implementation, hmem, serves_iff.mpr ⟨best.via, hcandidate⟩⟩, ?_⟩
  intro other hother status hserves
  obtain ⟨via, hsome⟩ := serves_iff.mp hserves
  exact rank_le_of_key_le (hgreatest other hother _ hsome)

/-- No other stack is named where the target's own has the best status. -/
theorem satisfaction_direct
    (h : satisfaction table vocabulary target implementations = some best)
    (hmem : implementation ∈ implementations)
    (hown : IsOwn table vocabulary target best.status implementation) : best.via = none := by
  have hle := (satisfaction_eq_some_iff.mp h).2 implementation hmem _ (candidateOf?_of_isOwn hown)
  by_contra hvia
  simp [Candidate.key, Prod.Lex.toLex_le_toLex, Candidate.rank, Candidate.direct, hvia] at hle

end

/-! ## Coverage of all targets -/

/-- With distinct keys, sorting by key does not depend on the order. -/
theorem insertionSort_key_of_perm {β γ : Type} [LinearOrder γ] {key : β → γ}
    {list other : List β} (hperm : other.Perm list) (h : (list.map key).Nodup) :
    other.insertionSort (fun a b => key a ≤ key b) =
      list.insertionSort fun a b => key a ≤ key b := by
  have hsorted : (other.insertionSort fun a b => key a ≤ key b).Perm
      (list.insertionSort fun a b => key a ≤ key b) :=
    (List.perm_insertionSort _ _).trans (hperm.trans (List.perm_insertionSort _ _).symm)
  have htotal : Std.Total fun (a b : β) => key a ≤ key b := ⟨fun a b => le_total _ _⟩
  have htrans : IsTrans β fun a b => key a ≤ key b := ⟨fun a b c => le_trans⟩
  refine List.Perm.eq_of_pairwise ?_ (List.pairwise_insertionSort _ _)
    (List.pairwise_insertionSort _ _) hsorted
  intro a b ha hb hab hba
  have ha := hperm.mem_iff.mp ((List.perm_insertionSort _ _).mem_iff.mp ha)
  have hb := (List.perm_insertionSort _ _).mem_iff.mp hb
  exact List.inj_on_of_nodup_map h ha hb (le_antisymm hab hba)

theorem normalizedTargets_of_perm {targets others : List Target} (hperm : others.Perm targets)
    (hdistinct : (targets.map (·.stack)).Nodup) :
    normalizedTargets others = normalizedTargets targets := by
  apply insertionSort_key_of_perm (hperm.map _)
  rwa [List.map_map]

/-- What `normalize` promises about the names of stacks. -/
structure Vocabulary.Names (table : LowerCase) (vocabulary : Vocabulary) : Prop where
  ids : ∀ id ∈ vocabulary.ids, vocabulary.normalize table id = id
  aliases : ∀ stack ∈ vocabulary.entries, ∀ name ∈ stack.aliases,
    vocabulary.normalize table name = stack.id
  idempotent : ∀ value, vocabulary.normalize table (vocabulary.normalize table value) =
    vocabulary.normalize table value

/-- What a coverage promises about its targets. -/
structure Vocabulary.Covers (table : LowerCase) (vocabulary : Vocabulary) : Prop where
  unordered : ∀ targets others implementations more, others.Perm targets →
    more.Perm implementations → (targets.map Target.stack).Nodup →
    deriveCoverage table vocabulary others more =
      deriveCoverage table vocabulary targets implementations
  targets : ∀ targets implementations,
    ((deriveCoverage table vocabulary targets implementations).map
        fun item => (item.target, item.required)).Perm
      (targets.map fun target => (target.stack, target.required.getD true))
  missing : ∀ targets implementations,
    ∀ item ∈ deriveCoverage table vocabulary targets implementations,
      item.status = none ↔ ¬ ∃ implementation ∈ implementations, ∃ status,
        Serves table vocabulary (vocabulary.normalize table item.target) status implementation
  best : ∀ targets implementations,
    ∀ item ∈ deriveCoverage table vocabulary targets implementations,
      ∀ status, item.status = some status →
        (∃ implementation ∈ implementations,
          Serves table vocabulary (vocabulary.normalize table item.target) status
            implementation) ∧
        ∀ implementation ∈ implementations, ∀ other,
          Serves table vocabulary (vocabulary.normalize table item.target) other
            implementation → other.rank ≤ status.rank
  direct : ∀ targets implementations,
    ∀ item ∈ deriveCoverage table vocabulary targets implementations,
      ∀ status, item.status = some status →
        (∃ implementation ∈ implementations,
          IsOwn table vocabulary (vocabulary.normalize table item.target) status
            implementation) → item.via = none
  grows : ∀ targets before implementation after,
    List.Forall₂ (fun item more => item.target = more.target ∧ item.rank ≤ more.rank)
      (deriveCoverage table vocabulary targets (before ++ after))
      (deriveCoverage table vocabulary targets (before ++ implementation :: after))

/-- The coverage keeps its promises with every vocabulary, whatever the names it maps. -/
theorem covers (table : LowerCase) (vocabulary : Vocabulary) : vocabulary.Covers table where
  unordered targets others implementations more htargets hmore hdistinct := by
    rw [deriveCoverage, deriveCoverage, normalizedTargets_of_perm htargets hdistinct]
    refine List.map_congr_left fun target _ => ?_
    rw [coverageItem, satisfaction_of_perm hmore, coverageItem]
  targets targets implementations := by
    rw [deriveCoverage, List.map_map]
    refine ((List.perm_insertionSort _ _).map _).trans ?_
    rw [List.map_map]
    exact List.Perm.refl _
  missing targets implementations item hitem := by
    obtain ⟨target, -, rfl⟩ := List.mem_map.mp hitem
    rw [coverageItem, Option.map_eq_none_iff, satisfaction_eq_none_iff]
    push Not
    rfl
  best targets implementations item hitem status hstatus := by
    obtain ⟨target, -, rfl⟩ := List.mem_map.mp hitem
    obtain ⟨best, hbest, rfl⟩ := Option.map_eq_some_iff.mp hstatus
    exact satisfaction_best hbest
  direct targets implementations item hitem status hstatus := by
    rintro ⟨implementation, hmem, hown⟩
    obtain ⟨target, -, rfl⟩ := List.mem_map.mp hitem
    obtain ⟨best, hbest, rfl⟩ := Option.map_eq_some_iff.mp hstatus
    have hvia := satisfaction_direct hbest hmem hown
    simp [coverageItem, hbest, hvia]
  grows targets before implementation after := by
    rw [deriveCoverage, deriveCoverage, List.forall₂_map_left_iff, List.forall₂_map_right_iff,
      List.forall₂_same]
    intro target _
    refine ⟨rfl, ?_⟩
    have hsubset : before ++ after ⊆ before ++ implementation :: after :=
      (List.Sublist.append_left (List.sublist_cons_self _ _) before).subset
    cases hbest : satisfaction table vocabulary (vocabulary.normalize table target.stack)
        (before ++ after) with
    | none => simp [CoverageItem.rank, coverageItem, hbest]
    | some best =>
        obtain ⟨better, hbetter, hle⟩ := satisfaction_mono hsubset hbest
        simpa [CoverageItem.rank, coverageItem, hbest, hbetter, Candidate.rank] using hle

/-- The names of an accepted document are what `normalize` promises exactly where every stack id
is found again. The coverage keeps its promises in any case. -/
theorem vocabulary_names_iff (table : LowerCase) {document : DocumentValue}
    {vocabulary : Vocabulary} (h : createVocabulary table document = .ok vocabulary) :
    vocabulary.Names table ∧ vocabulary.Covers table ↔
      ∀ stack ∈ readStacks (entriesOf document), normalizeToken table stack.id = stack.id ∨
        normalizeToken table stack.id ∈ stack.aliases := by
  obtain ⟨hstacks, hnames⟩ := createVocabulary_eq_ok h
  rw [← hstacks]
  constructor
  · rintro ⟨hpromises, -⟩ stack hstack
    exact (normalize_id_iff hnames hstack).mp
      (hpromises.ids stack.id (List.mem_map_of_mem hstack))
  · intro hresolves
    refine ⟨⟨?_, ?_, ?_⟩, covers table vocabulary⟩
    · intro id hid
      obtain ⟨stack, hstack, rfl⟩ := List.mem_map.mp hid
      exact (normalize_id_iff hnames hstack).mpr (hresolves stack hstack)
    · intro stack hstack name hname
      exact normalize_alias hnames hstack hname
    · exact normalize_normalize hnames hresolves

/-! ## A stack whose id is not found again -/

/-- A document of one stack without aliases. -/
def sampleDocument (id : String) : DocumentValue :=
  .record
    [(utf16 "schema_version", .text (utf16 "1")), (utf16 "stacks_version", .text (utf16 "1.0.0")),
      (utf16 "stacks", .list
        [.record
          [(utf16 "id", .text (utf16 id)), (utf16 "family", .text (utf16 "web")),
            (utf16 "summary", .text (utf16 "pages")), (utf16 "aliases", .list []),
            (utf16 "accepts", .list [])]])]

theorem sample_problems :
    (vocabularyProblems asciiLowerCase (sampleDocument "web-app") = [] ∧
      ∀ stack ∈ readStacks (entriesOf (sampleDocument "web-app")),
        stack.Resolves asciiLowerCase) ∧
    (vocabularyProblems asciiLowerCase (sampleDocument "web--app") = [] ∧
      ∃ stack ∈ readStacks (entriesOf (sampleDocument "web--app")),
        ¬ stack.Resolves asciiLowerCase) := by
  decide +kernel

theorem createVocabulary_of_no_problems {table : LowerCase} {document : DocumentValue}
    (h : vocabularyProblems table document = []) :
    ∃ vocabulary, createVocabulary table document = .ok vocabulary :=
  ⟨_, if_pos h⟩

theorem vocabulary_names_sample : ∃ vocabulary,
    createVocabulary asciiLowerCase (sampleDocument "web-app") = .ok vocabulary ∧
      vocabulary.Names asciiLowerCase ∧ vocabulary.Covers asciiLowerCase := by
  obtain ⟨vocabulary, hvocabulary⟩ := createVocabulary_of_no_problems sample_problems.1.1
  exact ⟨vocabulary, hvocabulary,
    (vocabulary_names_iff asciiLowerCase hvocabulary).mpr sample_problems.1.2⟩

/-- The id `web--app` passes the check, and `normalize` makes `web-app` of it, which is no
stack. -/
theorem doubled_hyphen_lost : ∃ vocabulary,
    createVocabulary asciiLowerCase (sampleDocument "web--app") = .ok vocabulary ∧
      ¬ (vocabulary.Names asciiLowerCase ∧ vocabulary.Covers asciiLowerCase) := by
  obtain ⟨vocabulary, hvocabulary⟩ := createVocabulary_of_no_problems sample_problems.2.1
  obtain ⟨hstacks, hnames⟩ := createVocabulary_eq_ok hvocabulary
  obtain ⟨stack, hstack, hlost⟩ := sample_problems.2.2
  rw [← hstacks] at hstack
  refine ⟨vocabulary, hvocabulary, fun hpromises => hlost ?_⟩
  apply (normalize_id_iff hnames hstack).mp
  exact hpromises.1.ids stack.id (List.mem_map_of_mem hstack)

end Hseos.Capability
