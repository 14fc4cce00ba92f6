import Hseos.Foundation.Text
import Mathlib.Data.List.DropRight

/-! # Tokens

The normalisation of the names that refer to a stack. Strings are lists of UTF-16 code units,
paired or not.
-/

namespace Hseos.Capability

/-- A string, as its UTF-16 code units. -/
abbrev Text := List Nat

/-- `SPACE`: what Python takes for white space. -/
def isSpace (unit : Nat) : Bool :=
  (9 ≤ unit && unit ≤ 13) || (0x1c ≤ unit && unit ≤ 0x20) || unit = 0x85 || unit = 0xa0 ||
    unit = 0x1680 || (0x2000 ≤ unit && unit ≤ 0x200a) || unit = 0x2028 || unit = 0x2029 ||
    unit = 0x202f || unit = 0x205f || unit = 0x3000

def hyphen : Nat := 0x2d

/-- What `SEPARATORS` takes: white space, an underscore or a hyphen. -/
def isSeparator (unit : Nat) : Bool := isSpace unit || unit = 0x5f || unit = hyphen

/-- A lower-case ASCII letter or a digit. -/
def isLowerAlnum (unit : Nat) : Bool :=
  (0x61 ≤ unit && unit ≤ 0x7a) || (0x30 ≤ unit && unit ≤ 0x39)

/-- `value.replaceAll(EDGE_SPACE, '')`. -/
def trimSpace (text : Text) : Text := (text.dropWhile isSpace).rdropWhile isSpace

/-- `text.replaceAll(SEPARATORS, '-')`, where the text may follow a separator that was replaced. -/
def collapse : Bool → Text → Text
  | _, [] => []
  | replaced, unit :: rest =>
      if isSeparator unit then
        if replaced then collapse true rest else hyphen :: collapse true rest
      else unit :: collapse false rest

/-- A text without separators. -/
def IsWord (text : Text) : Prop := ∀ unit ∈ text, isSeparator unit = false

/-- `toLowerCase`, as far as the vocabulary relies on it. A separator has no case, and it ends the
context on which the form of a letter depends. -/
structure LowerCase where
  toLowerCase : Text → Text
  idempotent : ∀ text, toLowerCase (toLowerCase text) = toLowerCase text
  separator : ∀ before unit after, isSeparator unit = true →
    toLowerCase (before ++ unit :: after) = toLowerCase before ++ unit :: toLowerCase after
  word : ∀ text, IsWord text → IsWord (toLowerCase text)
  alnum : ∀ text, (∀ unit ∈ text, isLowerAlnum unit = true) → toLowerCase text = text

def isCapital (unit : Nat) : Bool := 0x41 ≤ unit && unit ≤ 0x5a

theorem plain_of_isCapital {unit : Nat} (h : isCapital unit = true) :
    isSeparator unit = false ∧ isLowerAlnum unit = false ∧ isCapital (unit + 0x20) = false ∧
      isSeparator (unit + 0x20) = false := by
  simp only [isCapital, Bool.and_eq_true, decide_eq_true_eq] at h
  have hhyphen : hyphen = 0x2d := rfl
  simp only [isCapital, isSeparator, isSpace, isLowerAlnum, Bool.or_eq_false_iff,
    Bool.and_eq_false_iff, decide_eq_false_iff_not]
  omega

/-- The small letters of ASCII. -/
def asciiLowerCase : LowerCase where
  toLowerCase text := text.map fun unit => if isCapital unit then unit + 0x20 else unit
  idempotent text := by
    rw [List.map_map]
    refine List.map_congr_left fun unit _ => ?_
    by_cases hunit : isCapital unit = true
    · simp [hunit, (plain_of_isCapital hunit).2.2.1]
    · simp [hunit]
  separator before unit after hunit := by
    rw [List.map_append, List.map_cons, if_neg]
    intro hcapital
    rw [(plain_of_isCapital hcapital).1] at hunit
    cases hunit
  word text hword := by
    intro unit hunit
    obtain ⟨upper, hupper, rfl⟩ := List.mem_map.mp hunit
    split
    next hcapital => exact (plain_of_isCapital hcapital).2.2.2
    next => exact hword upper hupper
  alnum text halnum := by
    refine (List.map_congr_left fun unit hunit => ?_).trans (List.map_id _)
    refine if_neg fun hcapital => ?_
    have hunit := halnum unit hunit
    rw [(plain_of_isCapital hcapital).2.1] at hunit
    cases hunit

/-- Trim, lower-case and collapse runs of separators into one hyphen. -/
def normalizeToken (table : LowerCase) (value : Text) : Text :=
  collapse false (table.toLowerCase (trimSpace value))

/-! ## Collapsed texts -/

theorem isSpace_collapse (replaced : Bool) (text : Text) :
    ∀ unit ∈ collapse replaced text, isSpace unit = false := by
  induction text generalizing replaced with
  | nil => simp [collapse]
  | cons first rest ih =>
      intro unit hunit
      unfold collapse at hunit
      split at hunit
      next hfirst =>
        split at hunit
        · exact ih true unit hunit
        · rcases List.mem_cons.mp hunit with rfl | hunit
          · rfl
          · exact ih true unit hunit
      next hfirst =>
        rcases List.mem_cons.mp hunit with rfl | hunit
        · have hword := Bool.not_eq_true _ ▸ hfirst
          simp only [isSeparator, Bool.or_eq_false_iff] at hword
          exact hword.1.1
        · exact ih false unit hunit

theorem trimSpace_of_forall {text : Text} (h : ∀ unit ∈ text, isSpace unit = false) :
    trimSpace text = text := by
  have hdrop : text.dropWhile isSpace = text := by
    cases text with
    | nil => rfl
    | cons first rest => rw [List.dropWhile_cons, h first List.mem_cons_self]; rfl
  rw [trimSpace, hdrop, List.rdropWhile_eq_self_iff]
  intro hne
  rw [h _ (List.getLast_mem hne)]
  exact Bool.false_ne_true

@[simp] theorem collapse_collapse (replaced : Bool) (text : Text) :
    collapse replaced (collapse replaced text) = collapse replaced text := by
  induction text generalizing replaced with
  | nil => rfl
  | cons unit rest ih =>
      have hhyphen : isSeparator hyphen = true := rfl
      by_cases hunit : isSeparator unit = true
      · cases replaced with
        | false => simp [collapse, hunit, hhyphen, ih]
        | true => simpa [collapse, hunit] using ih true
      · simp [collapse, hunit, ih]

/-! ## Texts in small letters -/

section

variable {table : LowerCase} {text word : Text}

theorem isWord_nil : IsWord [] := fun _ hmem => nomatch hmem

theorem IsWord.snoc {unit : Nat} (hword : IsWord word) (hunit : isSeparator unit = false) :
    IsWord (word ++ [unit]) := by
  intro other hother
  rcases List.mem_append.mp hother with hother | hother
  · exact hword other hother
  · rwa [List.mem_singleton.mp hother]

theorem IsWord.append_cons_inj {unit : Nat} {other rest : Text} (hword : IsWord word)
    (hother : IsWord other) (hunit : isSeparator unit = true)
    (h : word ++ unit :: text = other ++ unit :: rest) : word = other ∧ text = rest := by
  induction word generalizing other with
  | nil =>
      cases other with
      | nil => exact ⟨rfl, (List.cons.inj h).2⟩
      | cons first others =>
          rw [(List.cons.inj h).1, hother first List.mem_cons_self] at hunit
          cases hunit
  | cons first others ih =>
      cases other with
      | nil =>
          rw [← (List.cons.inj h).1, hword first List.mem_cons_self] at hunit
          cases hunit
      | cons second more =>
          obtain ⟨rfl, htail⟩ := List.cons.inj h
          obtain ⟨rfl, hrest⟩ := ih (fun c hc => hword c (List.mem_cons_of_mem _ hc))
            (fun c hc => hother c (List.mem_cons_of_mem _ hc)) htail
          exact ⟨rfl, hrest⟩

/-- Where a text in small letters has a separator, its two sides are in small letters. -/
theorem fixed_of_separator {unit : Nat} (hword : IsWord word) (hunit : isSeparator unit = true)
    (h : table.toLowerCase (word ++ unit :: text) = word ++ unit :: text) :
    table.toLowerCase word = word ∧ table.toLowerCase text = text := by
  rw [table.separator word unit text hunit] at h
  exact (table.word word hword).append_cons_inj hword hunit h

/-- Collapsing separators leaves small letters small. The word is the part since the last
separator, on which the next letter may depend. -/
theorem fixed_append_collapse (hword : IsWord word) {replaced : Bool}
    (hreplaced : replaced = true → word = [])
    (h : table.toLowerCase (word ++ text) = word ++ text) :
    table.toLowerCase (word ++ collapse replaced text) = word ++ collapse replaced text := by
  induction text generalizing word replaced with
  | nil => exact h
  | cons unit rest ih =>
      by_cases hunit : isSeparator unit = true
      · obtain ⟨hfixed, hrest⟩ := fixed_of_separator hword hunit h
        have htail : table.toLowerCase (collapse true rest) = collapse true rest :=
          ih isWord_nil (fun _ => rfl) hrest
        cases replaced with
        | true =>
            rw [hreplaced rfl]
            simpa [collapse, hunit] using htail
        | false =>
            have hhyphen : collapse false (unit :: rest) = hyphen :: collapse true rest := by
              simp [collapse, hunit]
            rw [hhyphen, table.separator _ _ _ rfl, hfixed]
            exact congrArg (word ++ hyphen :: ·) htail
      · have hplain : collapse replaced (unit :: rest) = unit :: collapse false rest := by
          simp [collapse, hunit]
        rw [hplain, List.append_cons]
        have hsnoc : IsWord (word ++ [unit]) := hword.snoc (Bool.not_eq_true _ ▸ hunit)
        apply @ih _ hsnoc false (fun h => nomatch h)
        rw [List.append_assoc]
        exact h

/-- A normalized token is its own normal form. -/
@[simp] theorem normalizeToken_normalizeToken (table : LowerCase) (value : Text) :
    normalizeToken table (normalizeToken table value) = normalizeToken table value := by
  have hsmall : table.toLowerCase (collapse false (table.toLowerCase (trimSpace value))) =
      collapse false (table.toLowerCase (trimSpace value)) :=
    fixed_append_collapse isWord_nil (fun _ => rfl) (table.idempotent _)
  unfold normalizeToken
  rw [trimSpace_of_forall (isSpace_collapse false _), hsmall, collapse_collapse]

end

end Hseos.Capability
