import Hseos.Capability.Token
import Hseos.Foundation.JsObject

/-! # Stack vocabularies

The document that names the stacks, what its check refuses, and the names that a vocabulary
maps to its stacks.
-/

namespace Hseos.Capability

/-! ## Documents -/

/-- A value of a JSON document whose numbers nobody looks at. -/
inductive DocumentValue where
  | null
  | bool (value : Bool)
  | number
  | text (value : Text)
  | list (items : List DocumentValue)
  | record (members : List (Text × DocumentValue))

namespace DocumentValue

/-- An own property of a plain object. -/
def field? (name : String) : DocumentValue → Option DocumentValue
  | record members => (members.find? fun m => m.1 = utf16 name).map Prod.snd
  | _ => none

def text? : DocumentValue → Option Text
  | text value => some value
  | _ => none

/-- The strings of a list, without its other items. -/
def texts : DocumentValue → List Text
  | list items => items.filterMap text?
  | _ => []

/-- `Array.isArray(value) && value.every((item) => typeof item === 'string')`. -/
def isTexts : DocumentValue → Bool
  | list items => items.all fun item => item.text?.isSome
  | _ => false

end DocumentValue

/-- The `aliases` or the `accepts` of an entry, as far as they are strings. -/
def DocumentValue.names (entry : DocumentValue) (key : String) : List Text :=
  ((entry.field? key).map DocumentValue.texts).getD []

/-! ## The check of a document -/

def quote (text : Text) : Text := utf16 "'" ++ text ++ utf16 "'"

def isDigits (text : Text) : Bool :=
  match text with
  | [] => false
  | first :: rest => (0x30 ≤ first && first ≤ 0x39) && (first ≠ 0x30 || rest = []) &&
      rest.all fun unit => 0x30 ≤ unit && unit ≤ 0x39

/-- `SEMVER`. -/
def isSemver (text : Text) : Bool :=
  match text.splitOn 0x2e with
  | [major, minor, patch] => isDigits major && isDigits minor && isDigits patch
  | _ => false

/-- `STACK_ID`. -/
def isStackId : Text → Bool
  | [] => false
  | first :: rest => (0x61 ≤ first && first ≤ 0x7a) &&
      rest.all fun unit => isLowerAlnum unit || unit = hyphen

def vocabularyKeys : List String := ["schema_version", "stacks_version", "stacks"]

def stackKeys : List String := ["id", "family", "summary", "aliases", "accepts"]

/-- A problem when a condition fails. -/
def demand (condition : Bool) (problem : Text) : List Text := if condition then [] else [problem]

def unknownFields (label : Text) (keys : List String) : DocumentValue → List Text
  | .record members => (members.filter fun m => m.1 ∉ keys.map utf16).map fun m =>
      label ++ utf16 " has unknown field " ++ quote m.1
  | _ => []

/-- The string that the `id` of an entry is, if it is a stack id. -/
def stackId? (entry : DocumentValue) : Option Text :=
  ((entry.field? "id").bind DocumentValue.text?).filter isStackId

/-- The problems of one entry but for those of its id. -/
def shapeProblems (label : Text) (entry : DocumentValue) : List Text :=
  unknownFields label stackKeys entry ++
    (["family", "summary"].flatMap fun key =>
      demand (((entry.field? key).bind DocumentValue.text?).any (· ≠ []))
        (label ++ utf16 ("." ++ key ++ " must be a non-empty string"))) ++
    (["aliases", "accepts"].flatMap fun key =>
      demand ((entry.field? key).any DocumentValue.isTexts)
        (label ++ utf16 ("." ++ key ++ " must be a list of strings")))

/-- The problems of the entries from a position on, after the ids that were seen. -/
def entryProblems : Nat → List Text → List DocumentValue → List Text
  | _, _, [] => []
  | index, ids, entry :: rest =>
      let label := utf16 ("stacks[" ++ toString index ++ "]")
      match entry with
      | .record _ =>
          shapeProblems label entry ++
            match stackId? entry with
            | some id =>
                demand (id ∉ ids)
                    (utf16 "stack id " ++ quote id ++ utf16 " is defined more than once") ++
                  entryProblems (index + 1) (ids ++ [id]) rest
            | none => (label ++ utf16 ".id must be a stack id") ::
                entryProblems (index + 1) ids rest
      | _ => (label ++ utf16 " must be an object") :: entryProblems (index + 1) ids rest

/-- A stack as the later checks and the vocabulary read it. -/
structure Stack where
  id : Text
  aliases : List Text
  accepts : List Text

/-- The stacks of the entries that have an id. -/
def readStacks (entries : List DocumentValue) : List Stack :=
  entries.filterMap fun entry => (stackId? entry).map fun id =>
    ⟨id, entry.names "aliases", entry.names "accepts"⟩

/-- The problems of the aliases of a stack, after the aliases that were seen with their stacks. -/
def aliasProblems (table : LowerCase) (ids : List Text) (id : Text) :
    List (Text × Text) → List Text → List Text
  | _, [] => []
  | seen, name :: rest =>
      demand (normalizeToken table name = name)
          (id ++ utf16 ": alias " ++ quote name ++ utf16 " is not in normalized form (" ++
            quote (normalizeToken table name) ++ utf16 ")") ++
        demand (name ∉ ids)
          (id ++ utf16 ": alias " ++ quote name ++
            utf16 " is also a stack id (ids and aliases must be disjoint)") ++
        match seen.find? fun m => m.1 = name with
        | some (_, owner) =>
            (utf16 "alias " ++ quote name ++ utf16 " is declared " ++
              (if owner = id then utf16 "twice"
               else utf16 "by " ++ quote owner ++ utf16 " and " ++ quote id)) ::
              aliasProblems table ids id seen rest
        | none => aliasProblems table ids id (seen ++ [(name, id)]) rest

/-- The problems of the accepted stacks, after those that were listed. -/
def acceptProblems (ids : List Text) (id : Text) : List Text → List Text → List Text
  | _, [] => []
  | accepted, other :: rest =>
      (if other = id then [id ++ utf16 ": accepts must not list itself"]
       else demand (other ∈ ids)
        (id ++ utf16 ": accepts refers to unknown stack " ++ quote other)) ++
        demand (other ∉ accepted)
          (id ++ utf16 ": accepts lists " ++ quote other ++ utf16 " more than once") ++
        acceptProblems ids id (accepted ++ [other]) rest

/-- The problems of the names of the stacks, after the aliases that were seen. -/
def nameProblems (table : LowerCase) (ids : List Text) :
    List (Text × Text) → List Stack → List Text
  | _, [] => []
  | seen, stack :: rest =>
      aliasProblems table ids stack.id seen stack.aliases ++
        acceptProblems ids stack.id [] stack.accepts ++
        nameProblems table ids (seen ++ stack.aliases.map (·, stack.id)) rest

/-- The entries of a document. -/
def entriesOf (document : DocumentValue) : List DocumentValue :=
  match document.field? "stacks" with
  | some (.list entries) => entries
  | _ => []

def vocabularyProblems (table : LowerCase) (document : DocumentValue) : List Text :=
  match document with
  | .record _ =>
      let ids := (readStacks (entriesOf document)).map (·.id)
      unknownFields (utf16 "stacks.json") vocabularyKeys document ++
        demand (((document.field? "schema_version").bind DocumentValue.text?) = some (utf16 "1"))
          (utf16 "stacks.json schema_version must be '1'") ++
        demand (((document.field? "stacks_version").bind DocumentValue.text?).any isSemver)
          (utf16 "stacks.json stacks_version must be a semantic version") ++
        match entriesOf document with
        | [] => [utf16 "stacks.json must have a non-empty 'stacks' list"]
        | entries => entryProblems 0 [] entries ++ nameProblems table ids [] (readStacks entries)
  | _ => [utf16 "stacks.json must be an object"]

/-! ## Vocabularies -/

structure Vocabulary where
  version : Text
  entries : List Stack

/-- `createVocabulary`, which throws the first ten problems. -/
def createVocabulary (table : LowerCase) (document : DocumentValue) : Except Text Vocabulary :=
  let problems := vocabularyProblems table document
  if problems = [] then
    .ok
      { version := ((document.field? "stacks_version").bind DocumentValue.text?).getD []
        entries := readStacks (entriesOf document) }
  else
    .error (utf16 "Invalid stack vocabulary: " ++
      (utf16 "; ").intercalate (problems.take 10) ++
      if 10 < problems.length then
        utf16 ("; and " ++ toString (problems.length - 10) ++ " more")
      else [])

namespace Vocabulary

variable (vocabulary : Vocabulary)

def ids : List Text := vocabulary.entries.map (·.id)

/-- The stack that an alias stands for; the last declaration is the one that stays. -/
def aliasOf? (token : Text) : Option Text :=
  ((vocabulary.entries.flatMap fun stack => stack.aliases.map (·, stack.id)).reverse.find?
    fun m => m.1 = token).map Prod.snd

def normalize (table : LowerCase) (value : Text) : Text :=
  (vocabulary.aliasOf? (normalizeToken table value)).getD (normalizeToken table value)

/-- The stacks that a stack accepts in its place. -/
def accepts (id : Text) : List Text :=
  ((vocabulary.entries.reverse.find? fun stack => stack.id = id).map Stack.accepts).getD []

end Vocabulary

/-! ## Accepted documents -/

@[simp] theorem demand_eq_nil_iff {condition : Bool} {problem : Text} :
    demand condition problem = [] ↔ condition = true := by
  cases condition <;> simp [demand]

/-- The ids of accepted entries are distinct, and none of them was seen. -/
theorem ids_of_entryProblems {index : Nat} {ids : List Text} {entries : List DocumentValue}
    (h : entryProblems index ids entries = []) :
    ((readStacks entries).map (·.id)).Nodup ∧
      ∀ id ∈ (readStacks entries).map (·.id), id ∉ ids := by
  induction entries generalizing index ids with
  | nil => simp [readStacks]
  | cons entry rest ih =>
      unfold entryProblems at h
      cases hid : stackId? entry with
      | none =>
          have hread : readStacks (entry :: rest) = readStacks rest := by
            simp [readStacks, hid]
          cases entry <;> simp [hid] at h
      | some id =>
          cases entry with
          | record members =>
              simp only [hid, List.append_eq_nil_iff, demand_eq_nil_iff, decide_eq_true_eq] at h
              obtain ⟨-, hfresh, hrest⟩ := h
              obtain ⟨hnodup, hnew⟩ := ih hrest
              have hread : (readStacks (.record members :: rest)).map (·.id) =
                  id :: (readStacks rest).map (·.id) := by
                simp [readStacks, hid]
              rw [hread]
              refine ⟨List.nodup_cons.mpr ⟨fun hmem => ?_, hnodup⟩, ?_⟩
              · exact hnew id hmem (List.mem_append_right _ (List.mem_singleton_self id))
              · intro other hother
                rcases List.mem_cons.mp hother with rfl | hother
                · exact hfresh
                · exact fun hmem => hnew other hother (List.mem_append_left _ hmem)
          | _ => simp at h

/-- The aliases of an accepted stack are normalized, no ids, distinct, and none was seen. -/
theorem aliases_of_aliasProblems {table : LowerCase} {ids : List Text} {id : Text}
    {seen : List (Text × Text)} {names : List Text}
    (h : aliasProblems table ids id seen names = []) :
    (∀ name ∈ names, normalizeToken table name = name ∧ name ∉ ids) ∧ names.Nodup ∧
      ∀ name ∈ names, name ∉ seen.map Prod.fst := by
  induction names generalizing seen with
  | nil => simp
  | cons name rest ih =>
      unfold aliasProblems at h
      cases hseen : seen.find? fun m => m.1 = name with
      | some found => simp [hseen] at h
      | none =>
          simp only [hseen, List.append_eq_nil_iff, demand_eq_nil_iff, decide_eq_true_eq] at h
          obtain ⟨⟨hnormal, hid⟩, hrest⟩ := h
          obtain ⟨hnames, hnodup, hnew⟩ := ih hrest
          have hfresh : name ∉ seen.map Prod.fst := by
            intro hmem
            obtain ⟨pair, hpair, hfst⟩ := List.mem_map.mp hmem
            simpa [hfst] using List.find?_eq_none.mp hseen pair hpair
          simp only [List.map_append, List.map_cons, List.map_nil, List.mem_append,
            List.mem_singleton, not_or] at hnew
          refine ⟨?_, List.nodup_cons.mpr ⟨fun hmem => (hnew name hmem).2 rfl, hnodup⟩, ?_⟩
          · intro other hother
            rcases List.mem_cons.mp hother with rfl | hother
            · exact ⟨hnormal, hid⟩
            · exact hnames other hother
          · intro other hother
            rcases List.mem_cons.mp hother with rfl | hother
            · exact hfresh
            · exact (hnew other hother).1

theorem map_fst_named (names : List Text) (id : Text) :
    (names.map fun name => (name, id)).map Prod.fst = names := by
  rw [List.map_map]
  exact List.map_id _

/-- The names of accepted stacks: aliases are normalized, no ids, and stand for one stack. -/
theorem aliases_of_nameProblems {table : LowerCase} {ids : List Text}
    {seen : List (Text × Text)} {entries : List Stack}
    (h : nameProblems table ids seen entries = []) :
    (∀ stack ∈ entries, ∀ name ∈ stack.aliases,
        normalizeToken table name = name ∧ name ∉ ids) ∧
      (entries.flatMap (·.aliases)).Nodup ∧
      ∀ name ∈ entries.flatMap (·.aliases), name ∉ seen.map Prod.fst := by
  induction entries generalizing seen with
  | nil => simp
  | cons stack rest ih =>
      unfold nameProblems at h
      simp only [List.append_eq_nil_iff] at h
      obtain ⟨⟨halias, -⟩, hrest⟩ := h
      obtain ⟨hnames, hnodup, hfresh⟩ := aliases_of_aliasProblems halias
      obtain ⟨hothers, hdistinct, hnew⟩ := ih hrest
      simp only [List.map_append, map_fst_named, List.mem_append, not_or] at hnew
      refine ⟨?_, ?_, ?_⟩
      · intro other hother
        rcases List.mem_cons.mp hother with rfl | hother
        · exact hnames
        · exact hothers other hother
      · rw [List.flatMap_cons, List.nodup_append']
        exact ⟨hnodup, hdistinct, fun name hname hmem => (hnew name hmem).2 hname⟩
      · intro name hname
        rw [List.flatMap_cons] at hname
        rcases List.mem_append.mp hname with hname | hname
        · exact hfresh name hname
        · exact (hnew name hname).1

/-- What the check of a document secures about the names of its stacks. -/
structure Stack.NamesApart (table : LowerCase) (entries : List Stack) : Prop where
  ids : (entries.map (·.id)).Nodup
  aliases : (entries.flatMap (·.aliases)).Nodup
  normal : ∀ stack ∈ entries, ∀ name ∈ stack.aliases,
    normalizeToken table name = name ∧ name ∉ entries.map (·.id)

theorem createVocabulary_eq_ok {table : LowerCase} {document : DocumentValue}
    {vocabulary : Vocabulary} (h : createVocabulary table document = .ok vocabulary) :
    vocabulary.entries = readStacks (entriesOf document) ∧
      Stack.NamesApart table vocabulary.entries := by
  unfold createVocabulary at h
  simp only at h
  split at h
  next hproblems =>
    cases h
    refine ⟨rfl, ?_⟩
    cases document with
    | record members =>
        simp only [vocabularyProblems, List.append_eq_nil_iff] at hproblems
        obtain ⟨-, hentries⟩ := hproblems
        generalize entriesOf (.record members) = entries at hentries
        cases entries with
        | nil => simp at hentries
        | cons entry rest =>
            simp only [List.append_eq_nil_iff] at hentries
            obtain ⟨hids, hnames⟩ := hentries
            obtain ⟨hnormal, haliases, -⟩ := aliases_of_nameProblems hnames
            exact ⟨(ids_of_entryProblems hids).1, haliases, hnormal⟩
    | _ => simp [vocabularyProblems] at hproblems
  next => cases h

/-! ## Names -/

section

variable {table : LowerCase} {vocabulary : Vocabulary}

/-- In an accepted vocabulary an alias stands for the stack that declares it. -/
theorem aliasOf?_eq_some_iff (hnames : Stack.NamesApart table vocabulary.entries)
    {token id : Text} : vocabulary.aliasOf? token = some id ↔
      ∃ stack ∈ vocabulary.entries, token ∈ stack.aliases ∧ stack.id = id := by
  have hkeys : ((vocabulary.entries.flatMap fun stack =>
      stack.aliases.map fun name => (name, stack.id)).reverse.map Prod.fst).Nodup := by
    rw [List.map_reverse, List.nodup_reverse, List.map_flatMap]
    simpa only [map_fst_named] using hnames.aliases
  rw [Vocabulary.aliasOf?, Option.map_eq_some_iff]
  simp only [find?_key_eq_some_iff hkeys, List.mem_reverse, List.mem_flatMap, List.mem_map]
  constructor
  · rintro ⟨_, ⟨⟨stack, hstack, name, hname, rfl⟩, rfl⟩, rfl⟩
    exact ⟨stack, hstack, hname, rfl⟩
  · rintro ⟨stack, hstack, hname, rfl⟩
    exact ⟨(token, stack.id), ⟨⟨stack, hstack, token, hname, rfl⟩, rfl⟩, rfl⟩

theorem aliasOf?_eq_none_iff (hnames : Stack.NamesApart table vocabulary.entries) {token : Text} :
    vocabulary.aliasOf? token = none ↔
      ∀ stack ∈ vocabulary.entries, token ∉ stack.aliases := by
  rw [Option.eq_none_iff_forall_ne_some]
  constructor
  · intro hnone stack hstack hmem
    exact hnone stack.id ((aliasOf?_eq_some_iff hnames).mpr ⟨stack, hstack, hmem, rfl⟩)
  · intro hnone id hsome
    obtain ⟨stack, hstack, hmem, -⟩ := (aliasOf?_eq_some_iff hnames).mp hsome
    exact hnone stack hstack hmem

theorem normalize_alias (hnames : Stack.NamesApart table vocabulary.entries) {stack : Stack}
    (hstack : stack ∈ vocabulary.entries) {name : Text} (hname : name ∈ stack.aliases) :
    vocabulary.normalize table name = stack.id := by
  have howner := (aliasOf?_eq_some_iff hnames).mpr ⟨stack, hstack, hname, rfl⟩
  rw [Vocabulary.normalize, (hnames.normal stack hstack name hname).1, howner]
  rfl

/-- Where a stack id is found again: it is its own normal form, or its normal form is one of its
aliases. -/
def Stack.Resolves (table : LowerCase) (stack : Stack) : Prop :=
  normalizeToken table stack.id = stack.id ∨ normalizeToken table stack.id ∈ stack.aliases

instance (table : LowerCase) (stack : Stack) : Decidable (stack.Resolves table) :=
  inferInstanceAs (Decidable (_ ∨ _))

theorem normalize_id_iff (hnames : Stack.NamesApart table vocabulary.entries) {stack : Stack}
    (hstack : stack ∈ vocabulary.entries) :
    vocabulary.normalize table stack.id = stack.id ↔ stack.Resolves table := by
  have hid : stack.id ∈ vocabulary.entries.map (·.id) := List.mem_map_of_mem hstack
  rw [Vocabulary.normalize]
  cases howner : vocabulary.aliasOf? (normalizeToken table stack.id) with
  | none =>
      have hnone := (aliasOf?_eq_none_iff hnames).mp howner stack hstack
      simp [Stack.Resolves, hnone]
  | some id =>
      obtain ⟨owner, hmem, hname, rfl⟩ := (aliasOf?_eq_some_iff hnames).mp howner
      simp only [Option.getD_some, Stack.Resolves]
      constructor
      · intro heq
        have hsame := List.inj_on_of_nodup_map hnames.ids hmem hstack heq
        exact .inr (hsame ▸ hname)
      · rintro (hnormal | hself)
        · rw [hnormal] at hname
          exact absurd hid (hnames.normal owner hmem _ hname).2
        · have hown := (aliasOf?_eq_some_iff hnames).mpr ⟨stack, hstack, hself, rfl⟩
          exact Option.some.inj (howner.symm.trans hown)

/-- Where every id is found again, a normalized name stays what it is. -/
theorem normalize_normalize (hnames : Stack.NamesApart table vocabulary.entries)
    (hresolves : ∀ stack ∈ vocabulary.entries, stack.Resolves table) (value : Text) :
    vocabulary.normalize table (vocabulary.normalize table value) =
      vocabulary.normalize table value := by
  cases howner : vocabulary.aliasOf? (normalizeToken table value) with
  | none =>
      have hvalue : vocabulary.normalize table value = normalizeToken table value := by
        simp [Vocabulary.normalize, howner]
      rw [hvalue, Vocabulary.normalize, normalizeToken_normalizeToken, howner]
      rfl
  | some id =>
      obtain ⟨stack, hstack, -, rfl⟩ := (aliasOf?_eq_some_iff hnames).mp howner
      have hvalue : vocabulary.normalize table value = stack.id := by
        simp [Vocabulary.normalize, howner]
      rw [hvalue]
      exact (normalize_id_iff hnames hstack).mpr (hresolves stack hstack)

end

end Hseos.Capability
