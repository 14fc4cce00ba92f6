import Mathlib.Data.List.Forall2
import Mathlib.Data.List.Infix

/-! # Patterns with stars

A pattern is a list of items. A star stands for any list, and every other item for one entry
that it meets. Two decision procedures: a loop that goes back to the last star, and a table with
one row for each item of the pattern.
-/

namespace Hseos.Wildcard

section

variable {α β : Type} (star : β → Bool)

/-- The language of a pattern: item after item, any entries for a star and one entry that it
meets for another item. -/
def Matches (meets : β → α → Prop) : List β → List α → Prop
  | [], text => text = []
  | item :: pattern, text =>
      if star item then ∃ skipped rest, text = skipped ++ rest ∧ Matches meets pattern rest
      else ∃ a rest, text = a :: rest ∧ meets item a ∧ Matches meets pattern rest

/-! ## The language -/

section

variable {star} {meets : β → α → Prop} {item : β} {pattern : List β} {text : List α}

@[simp] theorem matches_nil : Matches star meets [] text ↔ text = [] := Iff.rfl

theorem matches_star (h : star item = true) : Matches star meets (item :: pattern) text ↔
    ∃ rest, rest <:+ text ∧ Matches star meets pattern rest := by
  rw [Matches, if_pos h]
  constructor
  · rintro ⟨skipped, rest, rfl, hrest⟩
    exact ⟨rest, List.suffix_append skipped rest, hrest⟩
  · rintro ⟨rest, ⟨skipped, rfl⟩, hrest⟩
    exact ⟨skipped, rest, rfl, hrest⟩

theorem matches_cons (h : star item = false) : Matches star meets (item :: pattern) text ↔
    ∃ a rest, text = a :: rest ∧ meets item a ∧ Matches star meets pattern rest := by
  rw [Matches, if_neg (by simp [h])]

@[simp] theorem matches_cons_nil : Matches star meets (item :: pattern) [] ↔
    star item = true ∧ Matches star meets pattern [] := by
  cases hitem : star item with
  | true => simp [matches_star hitem]
  | false => simp [matches_cons hitem]

/-- Only stars stand for nothing. -/
theorem matches_nil_iff : Matches star meets pattern [] ↔ pattern.all star = true := by
  induction pattern with
  | nil => simp
  | cons item pattern ih => simp [ih]

theorem matches_cons_cons (h : star item = false) {a : α} :
    Matches star meets (item :: pattern) (a :: text) ↔
      meets item a ∧ Matches star meets pattern text := by
  rw [matches_cons h]
  constructor
  · rintro ⟨b, rest, heq, hmeets, hrest⟩
    obtain ⟨rfl, rfl⟩ := List.cons.inj heq
    exact ⟨hmeets, hrest⟩
  · rintro ⟨hmeets, hrest⟩
    exact ⟨a, text, rfl, hmeets, hrest⟩

/-- A star takes the first entry, or it stands for nothing. -/
theorem matches_star_cons (h : star item = true) {a : α} :
    Matches star meets (item :: pattern) (a :: text) ↔
      Matches star meets pattern (a :: text) ∨ Matches star meets (item :: pattern) text := by
  rw [matches_star h, matches_star h]
  constructor
  · rintro ⟨rest, hrest, hmatch⟩
    rcases List.suffix_cons_iff.mp hrest with rfl | hrest
    · exact Or.inl hmatch
    · exact Or.inr ⟨rest, hrest, hmatch⟩
  · rintro (hmatch | ⟨rest, hrest, hmatch⟩)
    · exact ⟨_, List.suffix_rfl, hmatch⟩
    · exact ⟨rest, hrest.trans (List.suffix_cons a text), hmatch⟩

/-- A second star adds nothing. -/
theorem matches_star_star {other : β} (h : star item = true) (hother : star other = true) :
    Matches star meets (item :: other :: pattern) text ↔
      Matches star meets (other :: pattern) text := by
  rw [matches_star h]
  constructor
  · rintro ⟨rest, hrest, hmatch⟩
    obtain ⟨last, hlast, hmatch⟩ := (matches_star hother).mp hmatch
    exact (matches_star hother).mpr ⟨last, hlast.trans hrest, hmatch⟩
  · exact fun hmatch => ⟨text, List.suffix_rfl, hmatch⟩

theorem matches_cons_congr {other : β} (hstar : star item = star other)
    (hmeets : ∀ a, meets item a ↔ meets other a) :
    Matches star meets (item :: pattern) text ↔ Matches star meets (other :: pattern) text := by
  rw [Matches, Matches, hstar]
  simp only [hmeets]

/-- The front of a pattern does not look at what follows it. -/
theorem matches_append_congr {others : List β}
    (h : ∀ text, Matches star meets pattern text ↔ Matches star meets others text)
    (front : List β) (text : List α) :
    Matches star meets (front ++ pattern) text ↔ Matches star meets (front ++ others) text := by
  induction front generalizing text with
  | nil => exact h text
  | cons item front ih =>
      rw [List.cons_append, List.cons_append, Matches, Matches]
      simp only [ih]

/-- Items without stars meet the entries one by one. -/
theorem matches_append {front : List β} (h : ∀ item ∈ front, star item = false) :
    Matches star meets (front ++ pattern) text ↔
      ∃ met rest, text = met ++ rest ∧ List.Forall₂ meets front met ∧
        Matches star meets pattern rest := by
  induction front generalizing text with
  | nil =>
      constructor
      · exact fun hmatch => ⟨[], text, rfl, .nil, hmatch⟩
      · rintro ⟨met, rest, rfl, hmet, hmatch⟩
        rw [List.forall₂_nil_left_iff] at hmet
        rwa [hmet]
  | cons item front ih =>
      have hitem := h item List.mem_cons_self
      have hfront := fun text =>
        @ih text fun other hother => h other (List.mem_cons_of_mem _ hother)
      rw [List.cons_append, matches_cons hitem]
      constructor
      · rintro ⟨a, rest, rfl, ha, hrest⟩
        obtain ⟨met, last, rfl, hmet, hlast⟩ := (hfront rest).mp hrest
        exact ⟨a :: met, last, rfl, .cons ha hmet, hlast⟩
      · rintro ⟨met, last, rfl, hmet, hlast⟩
        obtain ⟨a, others, ha, hothers, rfl⟩ := List.forall₂_cons_left_iff.mp hmet
        exact ⟨a, others ++ last, rfl, ha, (hfront _).mpr ⟨others, last, rfl, hothers, hlast⟩⟩

/-- A pattern without stars. -/
theorem matches_iff_forall₂ (h : ∀ item ∈ pattern, star item = false) :
    Matches star meets pattern text ↔ List.Forall₂ meets pattern text := by
  have hall : Matches star meets (pattern ++ []) text ↔ ∃ met rest, text = met ++ rest ∧
      List.Forall₂ meets pattern met ∧ Matches star meets [] rest :=
    matches_append h
  rw [List.append_nil] at hall
  rw [hall]
  constructor
  · rintro ⟨met, rest, rfl, hmet, rfl⟩
    rwa [List.append_nil]
  · exact fun hmet => ⟨text, [], (List.append_nil text).symm, hmet, rfl⟩

end

/-! ## One way back -/

variable (meets : β → α → Bool)

/-- The loop over a text. After a star, `back` holds the pattern that follows it and the text
from which the star was last tried. -/
def matchFrom (pattern : List β) (text : List α) (back : Option (List β × List α)) : Bool :=
  match text with
  | [] => pattern.all star
  | a :: rest =>
      match pattern with
      | item :: others =>
          if star item then matchFrom others (a :: rest) (some (others, a :: rest))
          else if meets item a then matchFrom others rest back
          else
            match back with
            | some (starred, _ :: mark) => matchFrom starred mark (some (starred, mark))
            | _ => false
      | [] =>
          match back with
          | some (starred, _ :: mark) => matchFrom starred mark (some (starred, mark))
          | _ => false
termination_by
  (match back with
    | none => text.length + 1
    | some (_, mark) => max mark.length text.length, pattern.length)
decreasing_by
  -- neither the text left to the last star nor the pattern grows, and one of them shrinks
  · rw [Prod.lex_def]
    simp only [List.length_cons]
    cases back <;> dsimp only <;> omega
  · rw [Prod.lex_def]
    simp only [List.length_cons]
    cases back <;> dsimp only <;> omega
  · rw [Prod.lex_def]
    simp only [List.length_cons]
    omega
  · rw [Prod.lex_def]
    simp only [List.length_cons]
    omega

end

section

variable {α β : Type} {star : β → Bool} {meets : β → α → Bool} {pattern : List β} {text : List α}
  {back : Option (List β × List α)}

/-- Where the loop stands: behind the last star it has met entries one by one. -/
def Stands (star : β → Bool) (meets : β → α → Bool) (pattern : List β) (text : List α) :
    Option (List β × List α) → Prop
  | none => True
  | some (starred, mark) => ∃ front met, starred = front ++ pattern ∧ mark = met ++ text ∧
      (∀ item ∈ front, star item = false) ∧ List.Forall₂ (fun item a => meets item a = true) front met

/-- What the loop decides: the rest matches, or the last star can take more. -/
def Left (star : β → Bool) (meets : β → α → Bool) (pattern : List β) (text : List α) :
    Option (List β × List α) → Prop
  | none => Matches star (fun item a => meets item a = true) pattern text
  | some (starred, mark) => ∃ rest, rest <:+ mark ∧
      Matches star (fun item a => meets item a = true) starred rest

variable {starred : List β} {mark : List α}

theorem left_of_matches (h : Stands star meets pattern text back)
    (hmatch : Matches star (fun item a => meets item a = true) pattern text) :
    Left star meets pattern text back := by
  cases back with
  | none => exact hmatch
  | some saved =>
      obtain ⟨front, met, hstarred, hmark, hfront, hmet⟩ := h
      refine ⟨saved.2, List.suffix_rfl, ?_⟩
      rw [hstarred, hmark]
      exact (matches_append hfront).mpr ⟨met, text, rfl, hmet, hmatch⟩

/-- Wherever the last star ends, the rest of the pattern matches an end of the text. -/
theorem matches_suffix_of_left (h : Stands star meets pattern text back)
    (hleft : Left star meets pattern text back) : ∃ rest, rest <:+ text ∧
      Matches star (fun item a => meets item a = true) pattern rest := by
  cases back with
  | none => exact ⟨text, List.suffix_rfl, hleft⟩
  | some saved =>
      obtain ⟨front, met, hstarred, hmark, hfront, hmet⟩ := h
      obtain ⟨tried, ⟨skipped, hskipped⟩, hmatch⟩ := hleft
      rw [hstarred] at hmatch
      obtain ⟨others, rest, rfl, hothers, hrest⟩ := (matches_append hfront).mp hmatch
      -- both alignments of the items behind the star are of one length
      have hlength : met.length = others.length := hmet.length_eq.symm.trans hothers.length_eq
      refine ⟨rest, ?_, hrest⟩
      have hsplit : (skipped ++ others) ++ rest = met ++ text := by
        rw [List.append_assoc, hskipped, hmark]
      refine List.suffix_of_suffix_length_le ⟨_, hsplit⟩ (List.suffix_append met text) ?_
      have := congrArg List.length hsplit
      simp only [List.length_append] at this
      omega

theorem left_nil_iff (h : Stands star meets pattern [] back) :
    Left star meets pattern [] back ↔ pattern.all star = true := by
  have hnil : Matches star (fun item a => meets item a = true) pattern [] ↔ _ := matches_nil_iff
  rw [← hnil]
  constructor
  · intro hleft
    obtain ⟨rest, hrest, hmatch⟩ := matches_suffix_of_left h hleft
    rwa [List.suffix_nil.mp hrest] at hmatch
  · exact left_of_matches h

/-- At a new star the earlier one is given up. -/
theorem left_star_iff {item : β} (h : Stands star meets (item :: pattern) text back)
    (hitem : star item = true) : Left star meets (item :: pattern) text back ↔
      Left star meets pattern text (some (pattern, text)) := by
  constructor
  · intro hleft
    obtain ⟨rest, hrest, hmatch⟩ := matches_suffix_of_left h hleft
    obtain ⟨last, hlast, hmatch⟩ := (matches_star hitem).mp hmatch
    exact ⟨last, hlast.trans hrest, hmatch⟩
  · exact fun hleft => left_of_matches h ((matches_star hitem).mpr hleft)

/-- Where the entries do not match, the last star takes one more. -/
theorem left_back_iff {a : α} (h : Stands star meets pattern text (some (starred, a :: mark)))
    (hmiss : ¬ Matches star (fun item a => meets item a = true) pattern text) :
    Left star meets pattern text (some (starred, a :: mark)) ↔
      Left star meets starred mark (some (starred, mark)) := by
  constructor
  · rintro ⟨tried, htried, hmatch⟩
    rcases List.suffix_cons_iff.mp htried with rfl | htried
    · exfalso
      obtain ⟨front, met, hstarred, hmark, hfront, hmet⟩ := h
      rw [hstarred, hmark] at hmatch
      obtain ⟨others, rest, hsplit, hothers, hrest⟩ := (matches_append hfront).mp hmatch
      have hlength : met.length = others.length := hmet.length_eq.symm.trans hothers.length_eq
      rw [(List.append_inj hsplit hlength).2] at hmiss
      exact hmiss hrest
    · exact ⟨tried, htried, hmatch⟩
  · rintro ⟨tried, htried, hmatch⟩
    exact ⟨tried, htried.trans (List.suffix_cons a mark), hmatch⟩

/-- Without a star to go back to there is nothing left but a match. -/
theorem not_left_of_none (h : Stands star meets pattern text back) (htext : text ≠ [])
    (hback : ∀ starred a mark, back = some (starred, a :: mark) → False)
    (hmiss : ¬ Matches star (fun item a => meets item a = true) pattern text) :
    ¬ Left star meets pattern text back := by
  match back with
  | none => exact hmiss
  | some (starred, []) =>
      obtain ⟨front, met, -, hmark, -⟩ := h
      exact absurd (List.append_eq_nil_iff.mp hmark.symm).2 htext
  | some (starred, a :: mark) => exact (hback starred a mark rfl).elim

theorem stands_start : Stands star meets pattern text (some (pattern, text)) :=
  ⟨[], [], rfl, rfl, List.forall_mem_nil _, .nil⟩

theorem stands_met {item : β} {a : α}
    (h : Stands star meets (item :: pattern) (a :: text) back) (hitem : star item = false)
    (hmeets : meets item a = true) : Stands star meets pattern text back := by
  cases back with
  | none => exact h
  | some saved =>
      obtain ⟨front, met, hstarred, hmark, hfront, hmet⟩ := h
      refine ⟨front ++ [item], met ++ [a], by simpa using hstarred, by simpa using hmark, ?_, ?_⟩
      · intro other hother
        rcases List.mem_append.mp hother with hother | hother
        · exact hfront other hother
        · rwa [List.mem_singleton.mp hother]
      · exact List.rel_append hmet (.cons hmeets .nil)

theorem left_met_iff {item : β} {a : α} (hitem : star item = false) (hmeets : meets item a = true) :
    Left star meets (item :: pattern) (a :: text) back ↔ Left star meets pattern text back := by
  cases back with
  | none =>
      rw [Left, Left, matches_cons_cons hitem]
      exact and_iff_right hmeets
  | some saved => exact Iff.rfl

/-- The loop decides what is left at every point. -/
theorem matchFrom_iff (h : Stands star meets pattern text back) :
    matchFrom star meets pattern text back = true ↔ Left star meets pattern text back := by
  fun_induction matchFrom star meets pattern text back with
  | case1 pattern back => exact (left_nil_iff h).symm
  | case2 back a rest item others hitem ih => rw [ih stands_start, left_star_iff h hitem]
  | case3 back a rest item others hitem hmeets ih =>
      rw [Bool.not_eq_true] at hitem
      rw [ih (stands_met h hitem hmeets), left_met_iff hitem hmeets]
  | case4 a rest item others hitem hmeets starred first mark ih =>
      rw [Bool.not_eq_true] at hitem
      rw [ih stands_start, left_back_iff h]
      rw [matches_cons_cons hitem]
      exact fun hmatch => hmeets hmatch.1
  | case5 back a rest item others hitem hmeets hback =>
      rw [Bool.not_eq_true] at hitem
      refine iff_of_false Bool.false_ne_true (not_left_of_none h (List.cons_ne_nil a rest) hback ?_)
      rw [matches_cons_cons hitem]
      exact fun hmatch => hmeets hmatch.1
  | case6 a rest starred first mark ih =>
      rw [ih stands_start, left_back_iff h]
      exact List.cons_ne_nil a rest
  | case7 back a rest hback =>
      refine iff_of_false Bool.false_ne_true (not_left_of_none h (List.cons_ne_nil a rest) hback ?_)
      exact List.cons_ne_nil a rest

/-- From the start the loop decides the language. -/
theorem matchFrom_none_iff : matchFrom star meets pattern text none = true ↔
    Matches star (fun item a => meets item a = true) pattern text :=
  matchFrom_iff trivial

end

/-! ## One row for each item -/

section

variable {α β : Type} (star : β → Bool) (meets : β → α → Bool)

/-- A star reaches what an earlier entry of the row reaches. -/
def spanRow : Bool → List Bool → List Bool
  | _, [] => []
  | left, reached :: row => (reached || left) :: spanRow (reached || left) row

/-- The next row of the table: which beginnings of the text the pattern reaches with one more
item. -/
def nextRow (text : List α) (row : List Bool) (item : β) : List Bool :=
  if star item then spanRow false row
  else false :: List.zipWith (fun reached a => reached && meets item a) row text

/-- Whether the whole text is reached after the last row. -/
def matchRows (pattern : List β) (text : List α) : Bool :=
  (pattern.foldl (nextRow star meets text)
    (true :: List.replicate text.length false)).getLast? = some true

end

section

variable {α β : Type} {star : β → Bool} {meets : β → α → Bool} {text : List α} {row : List Bool}

theorem length_spanRow (left : Bool) (row : List Bool) :
    (spanRow left row).length = row.length := by
  induction row generalizing left with
  | nil => rfl
  | cons reached row ih => rw [spanRow, List.length_cons, List.length_cons, ih]

theorem spanRow_eq_true_iff {left : Bool} {j : ℕ} : (spanRow left row)[j]? = some true ↔
    j < row.length ∧ (left = true ∨ ∃ i ≤ j, row[i]? = some true) := by
  induction row generalizing left j with
  | nil => simp [spanRow]
  | cons reached row ih =>
      cases j with
      | zero => simp [spanRow, Or.comm]
      | succ j =>
          rw [spanRow, List.getElem?_cons_succ, ih, List.length_cons, Nat.succ_lt_succ_iff,
            Bool.or_eq_true]
          refine and_congr_right fun _ => ?_
          constructor
          · rintro ((hreached | hleft) | ⟨i, hi, hrow⟩)
            · exact Or.inr ⟨0, Nat.zero_le _, by rw [hreached]; rfl⟩
            · exact Or.inl hleft
            · exact Or.inr ⟨i + 1, by omega, hrow⟩
          · rintro (hleft | ⟨i, hi, hrow⟩)
            · exact Or.inl (Or.inr hleft)
            · cases i with
              | zero => exact Or.inl (Or.inl (by simpa using hrow))
              | succ i => exact Or.inr ⟨i, by omega, by simpa using hrow⟩

theorem zipRow_eq_true_iff {item : β} {j : ℕ} :
    (false :: List.zipWith (fun reached a => reached && meets item a) row text)[j]? = some true ↔
      ∃ i a, j = i + 1 ∧ row[i]? = some true ∧ text[i]? = some a ∧ meets item a = true := by
  cases j with
  | zero => simp
  | succ j =>
      rw [List.getElem?_cons_succ, List.getElem?_zipWith_eq_some]
      constructor
      · rintro ⟨reached, a, hreached, ha, htrue⟩
        obtain ⟨rfl, hmeets⟩ := Bool.and_eq_true_iff.mp htrue
        exact ⟨j, a, rfl, hreached, ha, hmeets⟩
      · rintro ⟨i, a, hi, hreached, ha, hmeets⟩
        obtain rfl := Nat.succ.inj hi
        exact ⟨true, a, hreached, ha, hmeets⟩

theorem drop_eq_cons_iff {i : ℕ} {a : α} {rest : List α} :
    text.drop i = a :: rest ↔ text[i]? = some a ∧ rest = text.drop (i + 1) := by
  constructor
  · intro h
    have hhead := congrArg (·[0]?) h
    have htail := congrArg List.tail h
    rw [List.tail_drop] at htail
    exact ⟨by simpa using hhead, htail.symm⟩
  · rintro ⟨ha, rfl⟩
    obtain ⟨hi, rfl⟩ := List.getElem?_eq_some_iff.mp ha
    exact List.drop_eq_getElem_cons hi

theorem length_nextRow (h : row.length = text.length + 1) (item : β) :
    (nextRow star meets text row item).length = text.length + 1 := by
  unfold nextRow
  split
  · rw [length_spanRow, h]
  · rw [List.length_cons, List.length_zipWith, h]
    omega

/-- From a row on, the rows follow the language. -/
theorem foldl_nextRow_iff {pattern : List β} (h : row.length = text.length + 1) :
    (pattern.foldl (nextRow star meets text) row)[text.length]? = some true ↔
      ∃ j, row[j]? = some true ∧
        Matches star (fun item a => meets item a = true) pattern (text.drop j) := by
  induction pattern generalizing row with
  | nil =>
      rw [List.foldl_nil]
      constructor
      · exact fun hrow => ⟨text.length, hrow, List.drop_length⟩
      · rintro ⟨j, hrow, hdrop⟩
        have hj := (List.getElem?_eq_some_iff.mp hrow).1
        rw [matches_nil, List.drop_eq_nil_iff] at hdrop
        obtain rfl : j = text.length := by omega
        exact hrow
  | cons item pattern ih =>
      rw [List.foldl_cons, ih (length_nextRow h item)]
      cases hitem : star item with
      | true =>
          simp only [nextRow, hitem, if_true, spanRow_eq_true_iff, Bool.false_eq_true, false_or,
            matches_star hitem]
          constructor
          · rintro ⟨j, ⟨hj, i, hi, hrow⟩, hmatch⟩
            refine ⟨i, hrow, text.drop j, ?_, hmatch⟩
            obtain ⟨k, rfl⟩ := Nat.exists_eq_add_of_le hi
            rw [← List.drop_drop]
            exact List.drop_suffix k _
          · rintro ⟨i, hrow, rest, hrest, hmatch⟩
            have hi := (List.getElem?_eq_some_iff.mp hrow).1
            have hdrop := List.suffix_iff_eq_drop.mp hrest
            rw [List.drop_drop, List.length_drop] at hdrop
            rw [hdrop] at hmatch
            exact ⟨_, ⟨by omega, i, Nat.le_add_right i _, hrow⟩, hmatch⟩
      | false =>
          simp only [nextRow, hitem, Bool.false_eq_true, if_false, matches_cons hitem,
            zipRow_eq_true_iff]
          constructor
          · rintro ⟨j, ⟨i, a, rfl, hrow, ha, hmeets⟩, hmatch⟩
            exact ⟨i, hrow, a, _, drop_eq_cons_iff.mpr ⟨ha, rfl⟩, hmeets, hmatch⟩
          · rintro ⟨i, hrow, a, rest, hdrop, hmeets, hmatch⟩
            obtain ⟨ha, rfl⟩ := drop_eq_cons_iff.mp hdrop
            exact ⟨i + 1, ⟨i, a, rfl, hrow, ha, hmeets⟩, hmatch⟩

/-- The table decides the language. -/
theorem matchRows_iff {pattern : List β} : matchRows star meets pattern text = true ↔
    Matches star (fun item a => meets item a = true) pattern text := by
  have hlength : ∀ row : List Bool, row.length = text.length + 1 →
      (pattern.foldl (nextRow star meets text) row).length = text.length + 1 := by
    induction pattern with
    | nil => exact fun row hrow => hrow
    | cons item pattern ih => exact fun row hrow => ih _ (length_nextRow hrow item)
  have hfirst : (true :: List.replicate text.length false).length = text.length + 1 := by simp
  rw [matchRows, decide_eq_true_eq, List.getLast?_eq_getElem?, hlength _ hfirst,
    Nat.add_sub_cancel, foldl_nextRow_iff hfirst]
  constructor
  · rintro ⟨j, hrow, hmatch⟩
    cases j with
    | zero => exact hmatch
    | succ j =>
        rw [List.getElem?_cons_succ, List.getElem?_replicate] at hrow
        split at hrow <;> cases hrow
  · exact fun hmatch => ⟨0, rfl, hmatch⟩

end

end Hseos.Wildcard
