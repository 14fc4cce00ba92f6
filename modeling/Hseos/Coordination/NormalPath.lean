import Hseos.Coordination.Paths
import Mathlib.Data.List.Chain

/-! # Normal path expressions

A path expression that came out of `normalizePathExpr` goes through it unchanged.
-/

namespace Hseos.Coordination

variable {text input out segment : Text} {segments acc : List Text} {c : Char}

/-! ## Texts and their units -/

@[simp] theorem units_nil : units [] = 0 := rfl

theorem units_cons : units (c :: text) = (charUnits c).length + units text := by
  simp [units]

theorem units_append {more : Text} : units (text ++ more) = units text + units more := by
  simp [units]

theorem mem_joinSegments (h : c ∈ joinSegments segments) : c = '/' ∨ ∃ s ∈ segments, c ∈ s := by
  induction segments with
  | nil => simp [joinSegments] at h
  | cons first rest ih =>
      by_cases hrest : rest = []
      · subst hrest
        exact .inr ⟨first, List.mem_singleton_self first, by simpa [joinSegments] using h⟩
      · rw [joinSegments, List.intercalate_cons_of_ne_nil hrest] at h
        rcases List.mem_append.mp h with h | h
        · rcases List.mem_append.mp h with h | h
          · exact .inr ⟨first, List.mem_cons_self, h⟩
          · exact .inl (List.mem_singleton.mp h)
        · rcases ih h with h | ⟨s, hs, h⟩
          · exact .inl h
          · exact .inr ⟨s, List.mem_cons_of_mem _ hs, h⟩

/-- The units of a list of segments, each with a separator. -/
def segmentUnits (segments : List Text) : Nat := (segments.map fun s => units s + 1).sum

theorem units_joinSegments (h : segments ≠ []) :
    units (joinSegments segments) + 1 = segmentUnits segments := by
  induction segments with
  | nil => exact absurd rfl h
  | cons first rest ih =>
      by_cases hrest : rest = []
      · subst hrest
        simp [joinSegments, segmentUnits]
      · have hunits := ih hrest
        simp only [joinSegments, segmentUnits] at hunits ⊢
        rw [List.intercalate_cons_of_ne_nil hrest, units_append, units_append, List.map_cons,
          List.sum_cons, ← hunits]
        have : units ['/'] = 1 := rfl
        omega

/-- What a character that is in a segment of a text is in. -/
theorem mem_of_mem_splitOn (hsegment : segment ∈ input.splitOn '/') (hc : c ∈ segment) :
    c ∈ input ∧ c ≠ '/' := by
  induction input generalizing segment with
  | nil =>
      rw [List.splitOn_nil, List.mem_singleton] at hsegment
      simp [hsegment] at hc
  | cons d rest ih =>
      rw [List.splitOn_cons_eq_if_modifyHead] at hsegment
      split at hsegment
      · rcases List.mem_cons.mp hsegment with rfl | hsegment
        · simp at hc
        · exact ⟨List.mem_cons_of_mem _ (ih hsegment hc).1, (ih hsegment hc).2⟩
      next hd =>
        obtain ⟨first, others, hsplit⟩ := List.exists_cons_of_ne_nil (List.splitOn_ne_nil '/' rest)
        rw [hsplit, List.modifyHead_cons] at hsegment
        rcases List.mem_cons.mp hsegment with rfl | hsegment
        · rcases List.mem_cons.mp hc with rfl | hc
          · exact ⟨List.mem_cons_self, by simpa using hd⟩
          · have := ih (hsplit ▸ List.mem_cons_self) hc
            exact ⟨List.mem_cons_of_mem _ this.1, this.2⟩
        · have := ih (hsplit ▸ List.mem_cons_of_mem _ hsegment) hc
          exact ⟨List.mem_cons_of_mem _ this.1, this.2⟩

/-! ## Segments -/

/-- A star is dropped in front of another one. -/
theorem collapseStars_cons (c : Char) (rest : Text) : collapseStars (c :: rest) =
    if c = '*' ∧ rest.head? = some '*' then collapseStars rest else c :: collapseStars rest := by
  by_cases h : c = '*' ∧ rest.head? = some '*'
  · obtain ⟨rfl, hhead⟩ := h
    obtain ⟨more, rfl⟩ := List.head?_eq_some_iff.mp hhead
    rw [if_pos ⟨rfl, hhead⟩, collapseStars]
  · rw [if_neg h, collapseStars]
    intro more hc hrest
    exact h ⟨hc, by rw [hrest, List.head?_cons]⟩

theorem head?_collapseStars (text : Text) : (collapseStars text).head? = text.head? := by
  induction text with
  | nil => rfl
  | cons c rest ih =>
      rw [collapseStars_cons]
      split
      next hstars => rw [ih, hstars.2, List.head?_cons, hstars.1]
      next => rfl

theorem mem_of_mem_collapseStars (h : c ∈ collapseStars text) : c ∈ text := by
  induction text with
  | nil => exact h
  | cons d rest ih =>
      rw [collapseStars_cons] at h
      split at h
      · exact List.mem_cons_of_mem _ (ih h)
      · rcases List.mem_cons.mp h with rfl | h
        · exact List.mem_cons_self
        · exact List.mem_cons_of_mem _ (ih h)

theorem units_collapseStars_le : units (collapseStars text) ≤ units text := by
  induction text with
  | nil => exact le_rfl
  | cons d rest ih =>
      rw [collapseStars_cons]
      split
      · rw [units_cons]
        omega
      · rw [units_cons, units_cons]
        omega

theorem collapseStars_collapseStars (text : Text) :
    collapseStars (collapseStars text) = collapseStars text := by
  induction text with
  | nil => rfl
  | cons d rest ih =>
      rw [collapseStars_cons]
      split
      · exact ih
      next hkept => rw [collapseStars_cons, head?_collapseStars, if_neg hkept, ih]

theorem collapseStars_of_not_mem (h : '*' ∉ collapseStars text) : collapseStars text = text := by
  induction text with
  | nil => rfl
  | cons d rest ih =>
      rw [collapseStars_cons] at h ⊢
      split at h
      next hstars =>
        exfalso
        exact h (List.mem_of_mem_head? (by rw [head?_collapseStars, hstars.2]; rfl))
      next hkept => rw [if_neg hkept, ih fun hmem => h (List.mem_cons_of_mem _ hmem)]

theorem collapseStars_ne_stars : collapseStars text ≠ ['*', '*'] := by
  intro h
  have := collapseStars_collapseStars text
  rw [h] at this
  simp [collapseStars] at this

/-- A segment that the loop adds. -/
structure NormalSegment (s : Text) : Prop where
  nonempty : s ≠ []
  dot : s ≠ ['.']
  dots : s ≠ ['.', '.']
  clean : cleanSegment s = s
  slash : '/' ∉ s

theorem normalSegment_cleanSegment (hnonempty : segment ≠ []) (hdot : segment ≠ ['.'])
    (hdots : segment ≠ ['.', '.']) (hslash : '/' ∉ segment) : NormalSegment (cleanSegment segment) := by
  unfold cleanSegment
  split
  next hstars =>
    subst hstars
    exact ⟨by simp, by simp, by simp, rfl, by simp⟩
  · refine ⟨?_, ?_, ?_, ?_, fun h => hslash (mem_of_mem_collapseStars h)⟩
    · intro h
      have hhead := head?_collapseStars segment
      rw [h] at hhead
      exact hnonempty (List.head?_eq_none_iff.mp hhead.symm)
    · intro h
      exact hdot ((collapseStars_of_not_mem (by simp [h])).symm.trans h)
    · intro h
      exact hdots ((collapseStars_of_not_mem (by simp [h])).symm.trans h)
    · rw [cleanSegment, if_neg collapseStars_ne_stars, collapseStars_collapseStars]

theorem units_cleanSegment_le (segment : Text) : units (cleanSegment segment) ≤ units segment := by
  unfold cleanSegment
  split
  · exact le_rfl
  · exact units_collapseStars_le

theorem mem_of_mem_cleanSegment (h : c ∈ cleanSegment segment) : c ∈ segment := by
  unfold cleanSegment at h
  split at h
  · exact h
  · exact mem_of_mem_collapseStars h

/-! ## The loop -/

/-- Segments that went through the loop: normal ones, without two `**` in a row. -/
def NormalSegments (segments : List Text) : Prop :=
  (∀ s ∈ segments, NormalSegment s) ∧
    segments.IsChain fun s next => ¬ (s = ['*', '*'] ∧ next = ['*', '*'])

theorem NormalSegments.snoc (h : NormalSegments acc.reverse) (hsegment : NormalSegment segment)
    (hstars : ¬ (segment = ['*', '*'] ∧ acc.head? = some ['*', '*'])) :
    NormalSegments (segment :: acc).reverse := by
  rw [List.reverse_cons]
  refine ⟨?_, ?_⟩
  · intro s hs
    rcases List.mem_append.mp hs with hs | hs
    · exact h.1 s hs
    · rwa [List.mem_singleton.mp hs]
  · rw [List.isChain_append]
    refine ⟨h.2, List.isChain_singleton _, ?_⟩
    intro s hs next hnext
    rw [List.getLast?_reverse] at hs
    obtain rfl : segment = next := by simpa using hnext
    exact fun both => hstars ⟨both.2, both.1 ▸ hs⟩

theorem normalizeSegments_eq_some (hacc : NormalSegments acc.reverse)
    (hslash : ∀ s ∈ segments, '/' ∉ s) {result : List Text}
    (h : normalizeSegments acc segments = some result) :
    NormalSegments result ∧ segmentUnits result ≤ segmentUnits acc + segmentUnits segments ∧
      ∀ s ∈ result, ∀ c ∈ s, (∃ old ∈ acc, c ∈ old) ∨ ∃ old ∈ segments, c ∈ old := by
  induction segments generalizing acc with
  | nil =>
      obtain rfl := Option.some.inj h
      refine ⟨hacc, ?_, fun s hs c hc => .inl ⟨s, List.mem_reverse.mp hs, hc⟩⟩
      simp [segmentUnits, List.sum_reverse]
  | cons segment rest ih =>
      have hrest : ∀ s ∈ rest, '/' ∉ s := fun s hs => hslash s (List.mem_cons_of_mem _ hs)
      have hcons : segmentUnits (segment :: rest) = units segment + 1 + segmentUnits rest := rfl
      -- The segment is dropped, or its clean form is added.
      have hdropped : normalizeSegments acc rest = some result → NormalSegments result ∧
          segmentUnits result ≤ segmentUnits acc + segmentUnits (segment :: rest) ∧
          ∀ s ∈ result, ∀ c ∈ s,
            (∃ old ∈ acc, c ∈ old) ∨ ∃ old ∈ segment :: rest, c ∈ old := by
        intro h
        obtain ⟨hnormal, hunits, hmem⟩ := ih hacc hrest h
        refine ⟨hnormal, by omega, fun s hs c hc => ?_⟩
        rcases hmem s hs c hc with hold | ⟨old, hold, hc⟩
        · exact .inl hold
        · exact .inr ⟨old, List.mem_cons_of_mem _ hold, hc⟩
      rw [normalizeSegments] at h
      split at h
      · exact hdropped h
      next hkept =>
        simp only [Bool.or_eq_true, decide_eq_true_eq, not_or] at hkept
        split at h
        · cases h
        next hdots =>
          dsimp only at h
          split at h
          · exact hdropped h
          next hstars =>
            have hsegment := normalSegment_cleanSegment hkept.1 hkept.2 hdots
              (hslash segment List.mem_cons_self)
            obtain ⟨hnormal, hunits, hmem⟩ := ih (hacc.snoc hsegment (by simpa using hstars)) hrest h
            have hclean := units_cleanSegment_le segment
            have hacc' : segmentUnits (cleanSegment segment :: acc) =
                units (cleanSegment segment) + 1 + segmentUnits acc := rfl
            refine ⟨hnormal, by omega, fun s hs c hc => ?_⟩
            rcases hmem s hs c hc with ⟨old, hold, hc⟩ | ⟨old, hold, hc⟩
            · rcases List.mem_cons.mp hold with rfl | hold
              · exact .inr ⟨segment, List.mem_cons_self, mem_of_mem_cleanSegment hc⟩
              · exact .inl ⟨old, hold, hc⟩
            · exact .inr ⟨old, List.mem_cons_of_mem _ hold, hc⟩

/-- Normal segments go through the loop unchanged. -/
theorem normalizeSegments_of_normal (h : NormalSegments (acc.reverse ++ segments)) :
    normalizeSegments acc segments = some (acc.reverse ++ segments) := by
  induction segments generalizing acc with
  | nil => simp [normalizeSegments]
  | cons segment rest ih =>
      have hsegment := h.1 segment (by simp)
      have hstars : ¬ (segment = ['*', '*'] ∧ acc.head? = some ['*', '*']) := by
        rintro ⟨hsegment, hhead⟩
        have hchain := (List.isChain_append.mp h.2).2.2
        exact hchain ['*', '*'] (by rw [List.getLast?_reverse]; exact hhead) segment rfl ⟨rfl, hsegment⟩
      rw [normalizeSegments]
      simp only [hsegment.nonempty, hsegment.dot, hsegment.dots, hsegment.clean, decide_false,
        Bool.or_self, Bool.false_eq_true, if_false]
      rw [if_neg (by simpa using hstars), ih (by simpa using h)]
      simp

/-! ## Expressions -/

theorem normalizePathExpr_eq_some (h : normalizePathExpr input = some out) :
    hasControl out = false ∧ out ≠ [] ∧ units out ≤ units input ∧
      normalizePathExpr out = some out := by
  unfold normalizePathExpr at h
  split at h
  · cases h
  next hinput =>
    simp only [Bool.or_eq_true, decide_eq_true_eq, not_or, Bool.not_eq_true, Nat.not_lt] at hinput
    obtain ⟨⟨⟨⟨hempty, hlength⟩, hcontrol⟩, hbackslash⟩, habsolute⟩ := hinput
    split at h
    · cases h
    next segments hsegments =>
      split at h
      · obtain rfl := Option.some.inj h
        next hcount =>
        simp only [Bool.and_eq_true, decide_eq_true_eq] at hcount
        have hslash : ∀ s ∈ input.splitOn '/', '/' ∉ s :=
          fun s hs hc => (mem_of_mem_splitOn hs hc).2 rfl
        have hnil : NormalSegments ([] : List Text).reverse := ⟨by simp, List.isChain_nil⟩
        obtain ⟨hnormal, hunits, hmem⟩ := normalizeSegments_eq_some hnil hslash hsegments
        have hinput : units input + 1 = segmentUnits (input.splitOn '/') := by
          rw [← units_joinSegments (List.splitOn_ne_nil '/' input), joinSegments,
            List.intercalate_splitOn]
        have hout := units_joinSegments hcount.1
        have hle : units (joinSegments segments) ≤ units input := by
          have : segmentUnits [] = 0 := rfl
          omega
        have hchars : ∀ c ∈ joinSegments segments, c = '/' ∨ c ∈ input := by
          intro c hc
          rcases mem_joinSegments hc with hc | ⟨s, hs, hc⟩
          · exact .inl hc
          · rcases hmem s hs c hc with ⟨old, hold, -⟩ | ⟨old, hold, hc⟩
            · cases hold
            · exact .inr (mem_of_mem_splitOn hold hc).1
        have hcontrol' : hasControl (joinSegments segments) = false := by
          rw [hasControl, List.any_eq_false] at hcontrol ⊢
          intro c hc
          rcases hchars c hc with rfl | hc
          · decide
          · exact hcontrol c hc
        have hsplit : (joinSegments segments).splitOn '/' = segments :=
          List.splitOn_intercalate '/' (fun s hs => (hnormal.1 s hs).slash) hcount.1
        obtain ⟨first, rest, rfl⟩ := List.exists_cons_of_ne_nil hcount.1
        obtain ⟨c, others, hfirst⟩ := List.exists_cons_of_ne_nil (hnormal.1 first (by simp)).nonempty
        have hhead : (joinSegments (first :: rest)).head? = some c := by
          rw [hfirst, joinSegments]
          cases rest <;> simp [List.intercalate_cons_of_ne_nil]
        have hc : c ≠ '/' := by
          rintro rfl
          exact (hnormal.1 first (by simp)).slash (by simp [hfirst])
        have hne : joinSegments (first :: rest) ≠ [] := by
          intro hnil
          rw [hnil] at hhead
          cases hhead
        refine ⟨hcontrol', hne, hle, ?_⟩
        have hagain : normalizeSegments [] (first :: rest) = some (first :: rest) :=
          normalizeSegments_of_normal hnormal
        have hkept : (decide (first :: rest ≠ []) && decide ((first :: rest).length ≤ 32)) = true := by
          simpa using hcount
        unfold normalizePathExpr
        rw [if_neg, hsplit, hagain]
        · exact if_pos hkept
        · simp only [Bool.or_eq_true, decide_eq_true_eq, not_or, Bool.not_eq_true, Nat.not_lt]
          refine ⟨⟨⟨⟨hne, by omega⟩, hcontrol'⟩, ?_⟩, ?_⟩
          · intro hbackslash'
            rcases hchars _ hbackslash' with hslash' | hmem'
            · exact absurd hslash' (by decide)
            · exact hbackslash hmem'
          · rw [hhead]
            simpa using hc
      · cases h

end Hseos.Coordination
