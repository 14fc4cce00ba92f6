import Hseos.Coordination.Globs
import Mathlib.Algebra.BigOperators.Group.List.Basic
import Mathlib.Data.List.Chain
import Mathlib.Data.List.TakeWhile

/-! # The languages of path expressions

Normalisation keeps the language of an expression and is done in one go, the matching of a file
decides it, and the overlap of two expressions misses no common file.
-/

namespace Hseos.Coordination.Globs

variable {text input out segment : UnitText} {segments acc : List UnitText} {unit : ℕ}

/-! ## Control characters -/

theorem codePoints_cons (h : isHigh unit = false) (text : UnitText) :
    codePoints (unit :: text) = unit :: codePoints text := by
  cases text with
  | nil => rfl
  | cons next rest => rw [codePoints, if_neg (by simp [h])]

/-- A unit that is no half of a pair parts the code points. -/
theorem codePoints_append (hhigh : isHigh unit = false) (hlow : isLow unit = false)
    (front text : UnitText) :
    codePoints (front ++ unit :: text) = codePoints front ++ unit :: codePoints text := by
  fun_induction codePoints front with
  | case1 high low rest hpair ih =>
      rw [List.cons_append, List.cons_append, codePoints, if_pos hpair, ih, List.cons_append]
  | case2 high low rest hpair ih =>
      rw [List.cons_append, List.cons_append, codePoints, if_neg hpair, ← List.cons_append, ih,
        List.cons_append]
  | case3 first =>
      rw [List.singleton_append, codePoints, if_neg (by simp [hlow]), codePoints_cons hhigh]
      rfl
  | case4 => exact codePoints_cons hhigh text

theorem hasControl_append (hhigh : isHigh unit = false) (hlow : isLow unit = false)
    (hcontrol : isControlPoint unit = false) (front text : UnitText) :
    hasControl (front ++ unit :: text) = (hasControl front || hasControl text) := by
  rw [hasControl, codePoints_append hhigh hlow, List.any_append, List.any_cons, hcontrol,
    Bool.false_or]
  rfl

theorem hasControl_cons_star (text : UnitText) : hasControl (star :: text) = hasControl text :=
  hasControl_append rfl rfl (by decide) [] text

/-! ## Segments -/

theorem joinSegments_cons (first : UnitText) (h : segments ≠ []) :
    joinSegments (first :: segments) = first ++ slash :: joinSegments segments := by
  rw [joinSegments, List.intercalate_cons_of_ne_nil h, List.append_assoc]
  rfl

@[simp] theorem joinSegments_singleton : joinSegments [segment] = segment := by
  simp [joinSegments]

theorem hasControl_joinSegments (segments : List UnitText) :
    hasControl (joinSegments segments) = segments.any hasControl := by
  induction segments with
  | nil => rfl
  | cons first rest ih =>
      by_cases hrest : rest = []
      · subst hrest
        simp
      · rw [joinSegments_cons first hrest, hasControl_append rfl rfl (by decide), ih,
          List.any_cons]

theorem mem_joinSegments (h : unit ∈ joinSegments segments) :
    unit = slash ∨ ∃ s ∈ segments, unit ∈ s := by
  induction segments with
  | nil => cases h
  | cons first rest ih =>
      by_cases hrest : rest = []
      · subst hrest
        exact Or.inr ⟨first, List.mem_singleton_self first, by simpa using h⟩
      · rw [joinSegments_cons first hrest] at h
        rcases List.mem_append.mp h with h | h
        · exact Or.inr ⟨first, List.mem_cons_self, h⟩
        · rcases List.mem_cons.mp h with h | h
          · exact Or.inl h
          · refine (ih h).imp_right ?_
            rintro ⟨s, hs, hunit⟩
            exact ⟨s, List.mem_cons_of_mem _ hs, hunit⟩

theorem mem_joinSegments_of_mem (hsegment : segment ∈ segments) (h : unit ∈ segment) :
    unit ∈ joinSegments segments := by
  induction segments with
  | nil => cases hsegment
  | cons first rest ih =>
      by_cases hrest : rest = []
      · subst hrest
        rw [joinSegments_singleton]
        rwa [List.mem_singleton.mp hsegment] at h
      · rw [joinSegments_cons first hrest, List.mem_append, List.mem_cons]
        rcases List.mem_cons.mp hsegment with rfl | hsegment
        · exact Or.inl h
        · exact Or.inr (Or.inr (ih hsegment))

theorem head?_joinSegments {first : UnitText} {rest : List UnitText} (h : first ≠ []) :
    (joinSegments (first :: rest)).head? = first.head? := by
  by_cases hrest : rest = []
  · rw [hrest, joinSegments_singleton]
  · rw [joinSegments_cons first hrest, List.head?_append_of_ne_nil _ h]

/-- The units of a list of segments, each with a separator. -/
def totalLength (segments : List UnitText) : ℕ := (segments.map fun s => s.length + 1).sum

theorem length_joinSegments (h : segments ≠ []) :
    (joinSegments segments).length + 1 = totalLength segments := by
  induction segments with
  | nil => exact absurd rfl h
  | cons first rest ih =>
      by_cases hrest : rest = []
      · subst hrest
        simp [totalLength]
      · have hlength := ih hrest
        rw [joinSegments_cons first hrest, List.length_append, List.length_cons, hlength,
          totalLength, totalLength, List.map_cons, List.sum_cons]
        omega

theorem slash_not_mem_of_mem_splitOn (h : segment ∈ input.splitOn slash) : slash ∉ segment := by
  induction input generalizing segment with
  | nil =>
      rw [List.splitOn_nil, List.mem_singleton] at h
      simp [h]
  | cons first rest ih =>
      rw [List.splitOn_cons_eq_if_modifyHead] at h
      split at h
      · rcases List.mem_cons.mp h with rfl | h
        · exact List.not_mem_nil
        · exact ih h
      next hfirst =>
        obtain ⟨head, others, hsplit⟩ := List.exists_cons_of_ne_nil (List.splitOn_ne_nil slash rest)
        rw [hsplit, List.modifyHead_cons] at h
        rcases List.mem_cons.mp h with rfl | h
        · intro hmem
          rcases List.mem_cons.mp hmem with rfl | hmem
          · exact hfirst (beq_self_eq_true _)
          · exact ih (hsplit ▸ List.mem_cons_self) hmem
        · exact ih (hsplit ▸ List.mem_cons_of_mem _ h)

theorem joinSegments_splitOn (input : UnitText) : joinSegments (input.splitOn slash) = input :=
  List.intercalate_splitOn slash

theorem splitOn_joinSegments (h : segments ≠ []) (hslash : ∀ s ∈ segments, slash ∉ s) :
    (joinSegments segments).splitOn slash = segments :=
  List.splitOn_intercalate slash hslash h

/-! ## Runs of stars -/

theorem head?_collapseStars (text : UnitText) : (collapseStars text).head? = text.head? := by
  induction text with
  | nil => rfl
  | cons first rest ih =>
      rw [collapseStars]
      split
      next hstars =>
        rw [Bool.and_eq_true, decide_eq_true_eq, decide_eq_true_eq] at hstars
        rw [ih, hstars.2, hstars.1, List.head?_cons]
      next => rfl

theorem collapseStars_collapseStars (text : UnitText) :
    collapseStars (collapseStars text) = collapseStars text := by
  induction text with
  | nil => rfl
  | cons first rest ih =>
      rw [collapseStars]
      split
      · exact ih
      next hkept => rw [collapseStars, head?_collapseStars, if_neg hkept, ih]

theorem mem_of_mem_collapseStars (h : unit ∈ collapseStars text) : unit ∈ text := by
  induction text with
  | nil => exact h
  | cons first rest ih =>
      rw [collapseStars] at h
      split at h
      · exact List.mem_cons_of_mem _ (ih h)
      · rcases List.mem_cons.mp h with rfl | h
        · exact List.mem_cons_self
        · exact List.mem_cons_of_mem _ (ih h)

theorem collapseStars_of_not_mem (h : star ∉ text) : collapseStars text = text := by
  induction text with
  | nil => rfl
  | cons first rest ih =>
      rw [List.mem_cons, not_or] at h
      rw [collapseStars, if_neg (by simp [Ne.symm h.1]), ih h.2]

theorem length_collapseStars_le (text : UnitText) : (collapseStars text).length ≤ text.length := by
  induction text with
  | nil => exact le_rfl
  | cons first rest ih =>
      rw [collapseStars]
      split
      · rw [List.length_cons]
        omega
      · rw [List.length_cons, List.length_cons]
        omega

theorem collapseStars_ne_doubleStar : collapseStars text ≠ doubleStar := by
  intro h
  have hagain := collapseStars_collapseStars text
  rw [h] at hagain
  exact absurd hagain (by decide)

theorem hasControl_collapseStars (text : UnitText) :
    hasControl (collapseStars text) = hasControl text := by
  fun_induction codePoints text with
  | case1 high low rest hpair ih =>
      have hhigh : high ≠ star := by
        rintro rfl
        exact absurd hpair (by simp [isHigh, star])
      have hlow : low ≠ star := by
        rintro rfl
        exact absurd hpair (by simp [isLow, star])
      rw [collapseStars, if_neg (by simp [hhigh]), collapseStars, if_neg (by simp [hlow]),
        hasControl, hasControl, codePoints, codePoints, if_pos hpair, if_pos hpair, List.any_cons,
        List.any_cons]
      exact congrArg _ ih
  | case2 first next rest hpair ih =>
      rw [collapseStars]
      split
      next hstars =>
        rw [Bool.and_eq_true, decide_eq_true_eq] at hstars
        rw [hstars.1, hasControl_cons_star, ih]
      next =>
        -- the next unit is kept in front of what follows it
        obtain ⟨others, hothers⟩ := List.head?_eq_some_iff.mp
          ((head?_collapseStars (next :: rest)).trans List.head?_cons)
        rw [hothers] at ih ⊢
        rw [hasControl, hasControl, codePoints, codePoints, if_neg hpair, if_neg hpair,
          List.any_cons, List.any_cons]
        exact congrArg _ ih
  | case3 first => simp [collapseStars]
  | case4 => rfl

theorem hasControl_cleanSegment (segment : UnitText) :
    hasControl (cleanSegment segment) = hasControl segment := by
  unfold cleanSegment
  split
  next hstars => rw [hstars]
  · exact hasControl_collapseStars segment

theorem mem_of_mem_cleanSegment (h : unit ∈ cleanSegment segment) : unit ∈ segment := by
  unfold cleanSegment at h
  split at h
  next hstars => rwa [hstars]
  · exact mem_of_mem_collapseStars h

theorem length_cleanSegment_le (segment : UnitText) :
    (cleanSegment segment).length ≤ segment.length := by
  unfold cleanSegment
  split
  next hstars => rw [hstars]
  · exact length_collapseStars_le segment

theorem cleanSegment_eq_doubleStar_iff : cleanSegment segment = doubleStar ↔
    segment = doubleStar := by
  unfold cleanSegment
  split
  next hstars => exact iff_of_true rfl hstars
  next hstars => exact iff_of_false collapseStars_ne_doubleStar hstars

/-! ## Normal segments -/

/-- A segment that the loop adds. -/
structure NormalSegment (s : UnitText) : Prop where
  nonempty : s ≠ []
  dot : s ≠ [dot]
  dots : s ≠ [Globs.dot, Globs.dot]
  clean : cleanSegment s = s
  slash : slash ∉ s

theorem star_mem_collapseStars (h : star ∈ text) : star ∈ collapseStars text := by
  induction text with
  | nil => exact h
  | cons first rest ih =>
      rw [collapseStars]
      split
      next hstars =>
        rw [Bool.and_eq_true, decide_eq_true_eq, decide_eq_true_eq] at hstars
        exact ih (List.mem_of_mem_head? hstars.2)
      next =>
        rcases List.mem_cons.mp h with rfl | h
        · exact List.mem_cons_self
        · exact List.mem_cons_of_mem _ (ih h)

theorem eq_of_collapseStars_eq (h : collapseStars text = out) (hout : star ∉ out) : text = out := by
  have hstar : star ∉ text := fun hmem => hout (h ▸ star_mem_collapseStars hmem)
  rw [← h, collapseStars_of_not_mem hstar]

theorem normalSegment_cleanSegment (hnonempty : segment ≠ []) (hdot : segment ≠ [dot])
    (hdots : segment ≠ [dot, dot]) (hslash : slash ∉ segment) :
    NormalSegment (cleanSegment segment) := by
  unfold cleanSegment
  split
  next hstars =>
    exact ⟨by decide, by decide, by decide, rfl, by decide⟩
  · refine ⟨?_, ?_, ?_, ?_, fun h => hslash (mem_of_mem_collapseStars h)⟩
    · intro h
      have hhead := head?_collapseStars segment
      rw [h] at hhead
      exact hnonempty (List.head?_eq_none_iff.mp hhead.symm)
    · exact fun h => hdot (eq_of_collapseStars_eq h (by decide))
    · exact fun h => hdots (eq_of_collapseStars_eq h (by decide))
    · rw [cleanSegment, if_neg collapseStars_ne_doubleStar, collapseStars_collapseStars]

/-- Segments that went through the loop: normal ones, without two `**` in a row. -/
def NormalSegments (segments : List UnitText) : Prop :=
  (∀ s ∈ segments, NormalSegment s) ∧
    segments.IsChain fun s next => ¬ (s = doubleStar ∧ next = doubleStar)

theorem NormalSegments.snoc (h : NormalSegments acc.reverse) (hsegment : NormalSegment segment)
    (hstars : ¬ (segment = doubleStar ∧ acc.head? = some doubleStar)) :
    NormalSegments (segment :: acc).reverse := by
  rw [List.reverse_cons]
  refine ⟨?_, ?_⟩
  · intro s hs
    rcases List.mem_append.mp hs with hs | hs
    · exact h.1 s hs
    · rwa [List.mem_singleton.mp hs]
  · rw [List.isChain_append]
    refine ⟨h.2, List.isChain_singleton _, ?_⟩
    intro s hs next hnext
    rw [List.getLast?_reverse] at hs
    obtain rfl : segment = next := by simpa using hnext
    exact fun both => hstars ⟨both.2, both.1 ▸ hs⟩

/-- Normal segments go through the loop unchanged. -/
theorem normalizeSegments_of_normal (h : NormalSegments (acc.reverse ++ segments)) :
    normalizeSegments acc segments = some (acc.reverse ++ segments) := by
  induction segments generalizing acc with
  | nil => rw [normalizeSegments, List.append_nil]
  | cons segment rest ih =>
      have hsegment := h.1 segment (by simp)
      have hstars : ¬ (segment = doubleStar ∧ acc.head? = some doubleStar) := by
        rintro ⟨hsegment, hhead⟩
        have hchain := (List.isChain_append.mp h.2).2.2
        exact hchain doubleStar (by rw [List.getLast?_reverse]; exact hhead) segment rfl
          ⟨rfl, hsegment⟩
      rw [normalizeSegments]
      simp only [hsegment.nonempty, hsegment.dot, hsegment.dots, hsegment.clean, decide_false,
        Bool.or_self, Bool.false_eq_true, if_false]
      rw [if_neg (by simpa using hstars), ih (by simpa using h)]
      simp

/-! ## What the loop makes of the segments -/

theorem segmentMatches_collapseStars (pattern text : UnitText) :
    SegmentMatches (collapseStars pattern) text ↔ SegmentMatches pattern text := by
  induction pattern generalizing text with
  | nil => exact Iff.rfl
  | cons first rest ih =>
      rw [collapseStars]
      split
      next hstars =>
        rw [Bool.and_eq_true, decide_eq_true_eq, decide_eq_true_eq] at hstars
        obtain ⟨hfirst, hnext⟩ := hstars
        obtain ⟨more, rfl⟩ := List.head?_eq_some_iff.mp hnext
        rw [ih, SegmentMatches, SegmentMatches, hfirst, Wildcard.matches_star_star] <;> rfl
      next => exact Wildcard.matches_append_congr ih [first] text

theorem segmentMatches_cleanSegment (segment text : UnitText) :
    SegmentMatches (cleanSegment segment) text ↔ SegmentMatches segment text := by
  unfold cleanSegment
  split
  next hstars => rw [hstars]
  · exact segmentMatches_collapseStars segment text

theorem normalizeSegments_normal {result : List UnitText} (hacc : NormalSegments acc.reverse)
    (hslash : ∀ s ∈ segments, slash ∉ s) (h : normalizeSegments acc segments = some result) :
    NormalSegments result := by
  fun_induction normalizeSegments acc segments with
  | case1 acc => exact Option.some.inj h ▸ hacc
  | case2 acc segment rest hunnamed ih =>
      exact ih hacc (fun s hs => hslash s (List.mem_cons_of_mem _ hs)) h
  | case3 => cases h
  | case4 acc segment rest hunnamed hdots clean hstars ih =>
      exact ih hacc (fun s hs => hslash s (List.mem_cons_of_mem _ hs)) h
  | case5 acc segment rest hnamed hdots clean hstars ih =>
      simp only [Bool.or_eq_true, decide_eq_true_eq, not_or] at hnamed
      have hsegment := normalSegment_cleanSegment hnamed.1 hnamed.2 hdots
        (hslash segment List.mem_cons_self)
      exact ih (hacc.snoc hsegment (by simpa using hstars))
        (fun s hs => hslash s (List.mem_cons_of_mem _ hs)) h

/-- Each segment of the result is the clean form of one of the segments. -/
theorem normalizeSegments_mem {result : List UnitText}
    (h : normalizeSegments acc segments = some result) :
    ∀ s ∈ result, s ∈ acc ∨ ∃ old ∈ segments, s = cleanSegment old := by
  fun_induction normalizeSegments acc segments with
  | case1 acc =>
      obtain rfl := Option.some.inj h
      exact fun s hs => Or.inl (List.mem_reverse.mp hs)
  | case2 acc segment rest hunnamed ih | case4 acc segment rest hunnamed hdots clean hstars ih =>
      intro s hs
      refine (ih h s hs).imp_right ?_
      rintro ⟨old, hold, heq⟩
      exact ⟨old, List.mem_cons_of_mem _ hold, heq⟩
  | case3 => cases h
  | case5 acc segment rest hnamed hdots clean hstars ih =>
      intro s hs
      rcases ih h s hs with hs | ⟨old, hold, heq⟩
      · rcases List.mem_cons.mp hs with rfl | hs
        · exact Or.inr ⟨segment, List.mem_cons_self, rfl⟩
        · exact Or.inl hs
      · exact Or.inr ⟨old, List.mem_cons_of_mem _ hold, heq⟩

theorem normalizeSegments_length {result : List UnitText}
    (h : normalizeSegments acc segments = some result) :
    totalLength result ≤ totalLength acc + totalLength segments := by
  fun_induction normalizeSegments acc segments with
  | case1 acc =>
      obtain rfl := Option.some.inj h
      simp [totalLength, List.sum_reverse]
  | case2 acc segment rest hunnamed ih | case4 acc segment rest hunnamed hdots clean hstars ih =>
      have hrest := ih h
      have hcons : totalLength (segment :: rest) = segment.length + 1 + totalLength rest := rfl
      omega
  | case3 => cases h
  | case5 acc segment rest hnamed hdots clean hstars ih =>
      have hrest := ih h
      have hcons : totalLength (segment :: rest) = segment.length + 1 + totalLength rest := rfl
      have hclean : totalLength (clean :: acc) = clean.length + 1 + totalLength acc := rfl
      have hle : clean.length ≤ segment.length := length_cleanSegment_le segment
      omega

theorem isNamed_of_kept (h : ¬(decide (segment = []) || decide (segment = [dot])) = true) :
    isNamed segment = true := by
  simpa [isNamed] using h

theorem normalizeSegments_language {result : List UnitText}
    (h : normalizeSegments acc segments = some result) (file : List UnitText) :
    SegmentsMatch result file ↔ SegmentsMatch (acc.reverse ++ segments.filter isNamed) file := by
  fun_induction normalizeSegments acc segments with
  | case1 acc =>
      obtain rfl := Option.some.inj h
      rw [List.filter_nil, List.append_nil]
  | case2 acc segment rest hunnamed ih =>
      rw [ih h, List.filter_cons_of_neg]
      simpa [isNamed, or_iff_not_imp_left] using hunnamed
  | case3 => cases h
  | case4 acc segment rest hnamed hdots clean hstars ih =>
      rw [Bool.and_eq_true, decide_eq_true_eq, decide_eq_true_eq] at hstars
      obtain ⟨more, rfl⟩ := List.head?_eq_some_iff.mp hstars.2
      have hsegment : segment = doubleStar := cleanSegment_eq_doubleStar_iff.mp hstars.1
      rw [ih h, List.filter_cons_of_pos (isNamed_of_kept hnamed), hsegment, List.reverse_cons,
        List.append_assoc, List.append_assoc]
      refine Wildcard.matches_append_congr (fun file => ?_) more.reverse file
      exact (Wildcard.matches_star_star rfl rfl).symm
  | case5 acc segment rest hnamed hdots clean hstars ih =>
      rw [ih h, List.filter_cons_of_pos (isNamed_of_kept hnamed), List.reverse_cons,
        List.append_assoc]
      refine Wildcard.matches_append_congr (fun file => ?_) acc.reverse file
      refine Wildcard.matches_cons_congr ?_ (segmentMatches_cleanSegment segment)
      exact decide_eq_decide.mpr cleanSegment_eq_doubleStar_iff

/-! ## Expressions -/

/-- The checks of an expression in front of the loop. -/
def Admissible (input : UnitText) : Prop :=
  input ≠ [] ∧ input.length ≤ 256 ∧ hasControl input = false ∧ backslash ∉ input ∧
    input.head? ≠ some slash

theorem normalizePathExpr_eq_some_iff : normalizePathExpr input = some out ↔
    Admissible input ∧ ∃ segments, normalizeSegments [] (input.splitOn slash) = some segments ∧
      segments ≠ [] ∧ segments.length ≤ 32 ∧ out = joinSegments segments := by
  unfold normalizePathExpr Admissible
  split
  next hbad =>
    refine iff_of_false (by simp) fun hgood => ?_
    obtain ⟨⟨hempty, hlength, hcontrol, hbackslash, hslash⟩, -⟩ := hgood
    simp [hempty, hcontrol, hbackslash, hslash] at hbad
    omega
  next hgood =>
    simp only [Bool.or_eq_true, decide_eq_true_eq, not_or, Bool.not_eq_true, Nat.not_lt] at hgood
    obtain ⟨⟨⟨⟨hempty, hlength⟩, hcontrol⟩, hbackslash⟩, hslash⟩ := hgood
    rw [and_iff_right ⟨hempty, hlength, hcontrol, hbackslash, hslash⟩]
    cases normalizeSegments [] (input.splitOn slash) with
    | none => simp
    | some segments =>
        simp only [Option.some.injEq, exists_eq_left']
        split
        next hkept =>
          rw [Bool.and_eq_true, decide_eq_true_eq, decide_eq_true_eq] at hkept
          simp [hkept, eq_comm]
        next hdropped =>
          rw [Bool.and_eq_true, decide_eq_true_eq, decide_eq_true_eq] at hdropped
          simp only [reduceCtorEq, false_iff]
          exact fun hkept => hdropped ⟨hkept.1, hkept.2.1⟩

/-- What is known of a normal expression: its segments are normal. -/
structure Normal (out : UnitText) : Prop where
  segments : NormalSegments (out.splitOn slash)
  again : normalizePathExpr out = some out

theorem normal_of_normalizePathExpr (h : normalizePathExpr input = some out) : Normal out := by
  obtain ⟨⟨hempty, hlength, hcontrol, hbackslash, hslash⟩, segments, hloop, hne, hcount, rfl⟩ :=
    normalizePathExpr_eq_some_iff.mp h
  have hparts : ∀ s ∈ input.splitOn slash, slash ∉ s := fun s hs => slash_not_mem_of_mem_splitOn hs
  have hnormal := normalizeSegments_normal
    (show NormalSegments ([] : List UnitText).reverse from ⟨by simp, List.isChain_nil⟩) hparts hloop
  have hmem : ∀ s ∈ segments, ∃ old ∈ input.splitOn slash, s = cleanSegment old := by
    intro s hs
    exact (normalizeSegments_mem hloop s hs).resolve_left List.not_mem_nil
  have hsplit : (joinSegments segments).splitOn slash = segments :=
    splitOn_joinSegments hne fun s hs => (hnormal.1 s hs).slash
  have hinput := joinSegments_splitOn input
  obtain ⟨first, rest, rfl⟩ := List.exists_cons_of_ne_nil hne
  have hfirst := hnormal.1 first List.mem_cons_self
  have hhead : (joinSegments (first :: rest)).head? = first.head? :=
    head?_joinSegments hfirst.nonempty
  refine ⟨by rwa [hsplit], normalizePathExpr_eq_some_iff.mpr ⟨⟨?_, ?_, ?_, ?_, ?_⟩, first :: rest,
    ?_, hne, hcount, rfl⟩⟩
  · intro hnil
    rw [hnil] at hhead
    exact hfirst.nonempty (List.head?_eq_none_iff.mp hhead.symm)
  · have hle := normalizeSegments_length hloop
    have hout := length_joinSegments hne
    have hin := length_joinSegments (List.splitOn_ne_nil slash input)
    rw [hinput] at hin
    have hzero : totalLength [] = 0 := rfl
    omega
  · rw [← hinput, hasControl_joinSegments, List.any_eq_false] at hcontrol
    rw [hasControl_joinSegments, List.any_eq_false]
    intro s hs
    obtain ⟨old, hold, rfl⟩ := hmem s hs
    rw [hasControl_cleanSegment]
    exact hcontrol old hold
  · intro hmember
    rcases mem_joinSegments hmember with heq | ⟨s, hs, hunit⟩
    · exact absurd heq (by decide)
    · obtain ⟨old, hold, rfl⟩ := hmem s hs
      exact hbackslash (hinput ▸ mem_joinSegments_of_mem hold (mem_of_mem_cleanSegment hunit))
  · rw [hhead]
    exact fun hslash => hfirst.slash (List.mem_of_mem_head? hslash)
  · rw [hsplit]
    exact normalizeSegments_of_normal
      (show NormalSegments (([] : List UnitText).reverse ++ (first :: rest)) from hnormal)

/-! ## Files and their expressions -/

theorem namedSegments_of_normal (h : Normal out) : namedSegments out = out.splitOn slash := by
  refine List.filter_eq_self.mpr fun s hs => ?_
  have hs := h.segments.1 s hs
  simp [isNamed, hs.nonempty, hs.dot]

theorem inLanguage_normalizePathExpr (h : normalizePathExpr input = some out)
    (file : List UnitText) : InLanguage out file ↔ InLanguage input file := by
  have hnormal := normal_of_normalizePathExpr h
  obtain ⟨-, segments, hloop, hne, -, rfl⟩ := normalizePathExpr_eq_some_iff.mp h
  have hparts : ∀ s ∈ input.splitOn slash, slash ∉ s := fun s hs => slash_not_mem_of_mem_splitOn hs
  have hsegments := normalizeSegments_normal
    (show NormalSegments ([] : List UnitText).reverse from ⟨by simp, List.isChain_nil⟩) hparts hloop
  rw [InLanguage, namedSegments_of_normal hnormal,
    splitOn_joinSegments hne fun s hs => (hsegments.1 s hs).slash,
    normalizeSegments_language hloop]
  rfl

theorem matchSegment_iff (pattern text : UnitText) :
    matchSegment pattern text = true ↔ SegmentMatches pattern text := by
  rw [matchSegment, Wildcard.matchFrom_none_iff, SegmentMatches]
  simp only [Bool.or_eq_true, decide_eq_true_eq]

theorem matchGlob_iff {pattern file normalizedPattern normalizedFile : UnitText}
    (hpattern : normalizePathExpr pattern = some normalizedPattern)
    (hfile : normalizePathExpr file = some normalizedFile) :
    matchGlob pattern file = true ↔ InLanguage normalizedPattern (normalizedFile.splitOn slash) := by
  rw [matchGlob, hpattern, hfile, InLanguage,
    namedSegments_of_normal (normal_of_normalizePathExpr hpattern), SegmentsMatch]
  simp only [Wildcard.matchRows_iff, matchSegment_iff]

/-- A file that an expression matches. -/
theorem matchGlob_eq_true_iff {pattern file : UnitText} : matchGlob pattern file = true ↔
    ∃ normalizedPattern normalizedFile, normalizePathExpr pattern = some normalizedPattern ∧
      normalizePathExpr file = some normalizedFile ∧
      InLanguage normalizedPattern (normalizedFile.splitOn slash) := by
  constructor
  · intro h
    cases hpattern : normalizePathExpr pattern with
    | none => simp [matchGlob, hpattern] at h
    | some normalizedPattern =>
        cases hfile : normalizePathExpr file with
        | none => simp [matchGlob, hpattern, hfile] at h
        | some normalizedFile =>
            exact ⟨_, _, rfl, rfl, (matchGlob_iff hpattern hfile).mp h⟩
  · rintro ⟨_, _, hpattern, hfile, h⟩
    exact (matchGlob_iff hpattern hfile).mpr h

/-! ## Literals -/

theorem isLiteral_iff : isLiteral text = true ↔ star ∉ text ∧ question ∉ text := by
  simp only [isLiteral, isWildcard, Bool.not_eq_true', List.any_eq_false, Bool.or_eq_true,
    decide_eq_true_eq, not_or]
  constructor
  · exact fun h => ⟨fun hmem => (h _ hmem).1 rfl, fun hmem => (h _ hmem).2 rfl⟩
  · exact fun h unit hmem => ⟨fun heq => h.1 (heq ▸ hmem), fun heq => h.2 (heq ▸ hmem)⟩

/-- Items that meet only one entry each. -/
theorem forall₂_iff_eq {α : Type} {R : α → α → Prop} {list : List α}
    (h : ∀ a ∈ list, ∀ b, R a b ↔ b = a) (others : List α) :
    List.Forall₂ R list others ↔ others = list := by
  induction list generalizing others with
  | nil => rw [List.forall₂_nil_left_iff]
  | cons a rest ih =>
      have hrest := ih fun b hb => h b (List.mem_cons_of_mem _ hb)
      rw [List.forall₂_cons_left_iff]
      constructor
      · rintro ⟨b, more, hab, hmore, rfl⟩
        rw [(h a List.mem_cons_self b).mp hab, (hrest more).mp hmore]
      · rintro rfl
        exact ⟨a, rest, (h a List.mem_cons_self a).mpr rfl, (hrest rest).mpr rfl, rfl⟩

theorem segmentMatches_of_isLiteral (h : isLiteral segment = true) (text : UnitText) :
    SegmentMatches segment text ↔ text = segment := by
  obtain ⟨hstar, hquestion⟩ := isLiteral_iff.mp h
  rw [SegmentMatches, Wildcard.matches_iff_forall₂]
  · refine forall₂_iff_eq (fun item hitem unit => ?_) text
    have hitem' : item ≠ question := fun heq => hquestion (heq ▸ hitem)
    rw [or_iff_right hitem', eq_comm]
  · exact fun item hitem => decide_eq_false fun heq => hstar (heq ▸ hitem)

/-- Segments without wildcards begin every file of the language. -/
theorem segmentsMatch_append {front : List UnitText} {pattern file : List UnitText}
    (h : ∀ s ∈ front, isLiteral s = true) : SegmentsMatch (front ++ pattern) file ↔
      ∃ rest, file = front ++ rest ∧ SegmentsMatch pattern rest := by
  rw [SegmentsMatch, Wildcard.matches_append]
  · simp only [forall₂_iff_eq fun s hs => segmentMatches_of_isLiteral (h s hs)]
    constructor
    · rintro ⟨_, rest, rfl, rfl, hrest⟩
      exact ⟨rest, rfl, hrest⟩
    · rintro ⟨rest, rfl, hrest⟩
      exact ⟨front, rest, rfl, rfl, hrest⟩
  · refine fun s hs => decide_eq_false ?_
    rintro rfl
    exact absurd (h _ hs) (by decide)

theorem segmentsMatch_of_literals {pattern file : List UnitText}
    (h : ∀ s ∈ pattern, isLiteral s = true) : SegmentsMatch pattern file ↔ file = pattern := by
  have hall : SegmentsMatch (pattern ++ []) file ↔ ∃ rest, file = pattern ++ rest ∧
      SegmentsMatch [] rest :=
    segmentsMatch_append h
  rw [List.append_nil] at hall
  rw [hall]
  constructor
  · rintro ⟨rest, rfl, hrest⟩
    rw [Wildcard.matches_nil.mp hrest, List.append_nil]
  · exact fun heq => ⟨[], heq.trans (List.append_nil _).symm, rfl⟩

theorem isLiteral_splitOn (h : isLiteral text = true) : ∀ s ∈ text.splitOn slash,
    isLiteral s = true := by
  intro s hs
  obtain ⟨hstar, hquestion⟩ := isLiteral_iff.mp h
  rw [← joinSegments_splitOn text] at hstar hquestion
  exact isLiteral_iff.mpr ⟨fun hmem => hstar (mem_joinSegments_of_mem hs hmem),
    fun hmem => hquestion (mem_joinSegments_of_mem hs hmem)⟩

theorem splitOn_injective (h : text.splitOn slash = out.splitOn slash) : text = out := by
  rw [← joinSegments_splitOn text, h, joinSegments_splitOn]

/-- A literal matches itself only. -/
theorem inLanguage_of_isLiteral (h : Normal out) (hliteral : isLiteral out = true)
    (file : UnitText) : InLanguage out (file.splitOn slash) ↔ file = out := by
  rw [InLanguage, namedSegments_of_normal h,
    segmentsMatch_of_literals (isLiteral_splitOn hliteral)]
  exact ⟨splitOn_injective, congrArg _⟩

/-- Every file of the language begins with the literal prefix. -/
theorem literalPrefix_prefix (h : Normal out) {file : List UnitText}
    (hfile : InLanguage out file) : literalPrefix out <+: file := by
  rw [InLanguage, namedSegments_of_normal h,
    ← List.takeWhile_append_dropWhile (p := isLiteral) (l := out.splitOn slash)] at hfile
  obtain ⟨rest, rfl, -⟩ := (segmentsMatch_append fun s hs => List.mem_takeWhile_imp hs).mp hfile
  exact List.prefix_append _ rest

/-! ## Overlap -/

theorem matchGlob_of_isLiteral {a b na nb : UnitText} (ha : normalizePathExpr a = some na)
    (hb : normalizePathExpr b = some nb) (hliteral : isLiteral na = true) :
    matchGlob a b = true ↔ nb = na := by
  rw [matchGlob_iff ha hb,
    inLanguage_of_isLiteral (normal_of_normalizePathExpr ha) hliteral]

theorem globsOverlap_comm (a b : UnitText) : globsOverlap a b = globsOverlap b a := by
  unfold globsOverlap
  cases ha : normalizePathExpr a with
  | none => cases normalizePathExpr b <;> rfl
  | some na =>
      cases hb : normalizePathExpr b with
      | none => rfl
      | some nb =>
          have hna := (normal_of_normalizePathExpr ha).again
          have hnb := (normal_of_normalizePathExpr hb).again
          dsimp only
          by_cases heq : na = nb
          · rw [if_pos heq, if_pos heq.symm]
          · rw [if_neg heq, if_neg (Ne.symm heq)]
            by_cases hla : isLiteral na = true
            · by_cases hlb : isLiteral nb = true
              · -- two literals overlap only when they are equal
                rw [if_pos hlb, if_pos hla, Bool.eq_iff_iff, matchGlob_of_isLiteral hna hnb hla,
                  matchGlob_of_isLiteral hnb hna hlb]
                exact eq_comm
              · rw [if_pos hla, if_neg hlb, if_pos hla]
            · by_cases hlb : isLiteral nb = true
              · rw [if_pos hlb, if_neg hla, if_pos hlb]
              · rw [if_neg hla, if_neg hlb, if_neg hla, if_neg hlb, Nat.min_comm]
                exact decide_eq_decide.mpr eq_comm

/-- A common file is never missed. -/
theorem globsOverlap_of_matchGlob {a b file : UnitText} (ha : matchGlob a file = true)
    (hb : matchGlob b file = true) : globsOverlap a b = true := by
  obtain ⟨na, nfile, hna, hfile, hafile⟩ := matchGlob_eq_true_iff.mp ha
  obtain ⟨nb, _, hnb, hfile', hbfile⟩ := matchGlob_eq_true_iff.mp hb
  obtain rfl := Option.some.inj (hfile.symm.trans hfile')
  have hnormala := normal_of_normalizePathExpr hna
  have hnormalb := normal_of_normalizePathExpr hnb
  unfold globsOverlap
  rw [hna, hnb]
  dsimp only
  split
  · rfl
  · split
    next hliteral =>
      rw [inLanguage_of_isLiteral hnormalb hliteral] at hbfile
      rw [hbfile] at hafile
      exact (matchGlob_iff hnormala.again hnormalb.again).mpr hafile
    next =>
      split
      next hliteral =>
        rw [inLanguage_of_isLiteral hnormala hliteral] at hafile
        rw [hafile] at hbfile
        exact (matchGlob_iff hnormalb.again hnormala.again).mpr hbfile
      next =>
        -- both prefixes begin the common file
        have hpa := literalPrefix_prefix hnormala hafile
        have hpb := literalPrefix_prefix hnormalb hbfile
        rw [decide_eq_true_eq]
        rcases List.prefix_or_prefix_of_prefix hpa hpb with hle | hle
        · rw [Nat.min_eq_left hle.length_le, List.take_length, ← List.prefix_iff_eq_take]
          exact hle
        · rw [Nat.min_eq_right hle.length_le, List.take_length, eq_comm,
            ← List.prefix_iff_eq_take]
          exact hle

/-! ## Wildcards -/

theorem isLiteral_of_cleanSegment (h : isLiteral (cleanSegment segment) = true) :
    isLiteral segment = true := by
  obtain ⟨hstar, hquestion⟩ := isLiteral_iff.mp h
  unfold cleanSegment at hstar hquestion
  split at hstar
  · exact absurd hstar (by decide)
  next hstars =>
    rw [if_neg hstars] at hquestion
    have hno : star ∉ segment := fun hmem => hstar (star_mem_collapseStars hmem)
    rw [collapseStars_of_not_mem hno] at hquestion
    exact isLiteral_iff.mpr ⟨hno, hquestion⟩

theorem normalizeSegments_kept {result : List UnitText}
    (h : normalizeSegments acc segments = some result) : ∀ s ∈ acc, s ∈ result := by
  fun_induction normalizeSegments acc segments with
  | case1 acc =>
      obtain rfl := Option.some.inj h
      exact fun s hs => List.mem_reverse.mpr hs
  | case2 acc segment rest hunnamed ih => exact ih h
  | case3 => cases h
  | case4 acc segment rest hnamed hdots clean hstars ih => exact ih h
  | case5 acc segment rest hnamed hdots clean hstars ih =>
      exact fun s hs => ih h s (List.mem_cons_of_mem _ hs)

/-- No wildcard is lost: a dropped `**` stands behind another one. -/
theorem normalizeSegments_literal {result : List UnitText}
    (h : normalizeSegments acc segments = some result) (hresult : ∀ s ∈ result, isLiteral s = true) :
    ∀ s ∈ segments, isLiteral s = true := by
  fun_induction normalizeSegments acc segments with
  | case1 => exact fun s hs => absurd hs List.not_mem_nil
  | case2 acc segment rest hunnamed ih =>
      refine List.forall_mem_cons.mpr ⟨?_, ih h⟩
      simp only [Bool.or_eq_true, decide_eq_true_eq] at hunnamed
      rcases hunnamed with rfl | rfl <;> decide
  | case3 => cases h
  | case4 acc segment rest hnamed hdots clean hstars ih =>
      rw [Bool.and_eq_true, decide_eq_true_eq, decide_eq_true_eq] at hstars
      have hlast := hresult _ (normalizeSegments_kept h _ (List.mem_of_mem_head? hstars.2))
      exact absurd hlast (by decide)
  | case5 acc segment rest hnamed hdots clean hstars ih =>
      refine List.forall_mem_cons.mpr ⟨?_, ih h⟩
      have hclean := hresult _ (normalizeSegments_kept h _ List.mem_cons_self)
      exact isLiteral_of_cleanSegment hclean

theorem isLiteral_of_segments (h : ∀ s ∈ text.splitOn slash, isLiteral s = true) :
    isLiteral text = true := by
  rw [isLiteral_iff, ← joinSegments_splitOn text]
  refine ⟨fun hmem => ?_, fun hmem => ?_⟩
  · rcases mem_joinSegments hmem with heq | ⟨s, hs, hunit⟩
    · exact absurd heq (by decide)
    · exact (isLiteral_iff.mp (h s hs)).1 hunit
  · rcases mem_joinSegments hmem with heq | ⟨s, hs, hunit⟩
    · exact absurd heq (by decide)
    · exact (isLiteral_iff.mp (h s hs)).2 hunit

theorem isLiteral_normalizePathExpr (h : normalizePathExpr input = some out) :
    isLiteral out = isLiteral input := by
  have hnormal := normal_of_normalizePathExpr h
  obtain ⟨-, segments, hloop, hne, -, rfl⟩ := normalizePathExpr_eq_some_iff.mp h
  have hparts : ∀ s ∈ input.splitOn slash, slash ∉ s := fun s hs => slash_not_mem_of_mem_splitOn hs
  have hsegments := normalizeSegments_normal
    (show NormalSegments ([] : List UnitText).reverse from ⟨by simp, List.isChain_nil⟩) hparts hloop
  have hsplit := splitOn_joinSegments hne fun s hs => (hsegments.1 s hs).slash
  rw [Bool.eq_iff_iff]
  constructor
  · intro hliteral
    have hall := isLiteral_splitOn hliteral
    rw [hsplit] at hall
    exact isLiteral_of_segments (normalizeSegments_literal hloop hall)
  · intro hliteral
    refine isLiteral_of_segments fun s hs => ?_
    rw [hsplit] at hs
    obtain ⟨old, hold, rfl⟩ := (normalizeSegments_mem hloop s hs).resolve_left List.not_mem_nil
    obtain ⟨hstar, hquestion⟩ := isLiteral_iff.mp (isLiteral_splitOn hliteral old hold)
    exact isLiteral_iff.mpr ⟨fun hmem => hstar (mem_of_mem_cleanSegment hmem),
      fun hmem => hquestion (mem_of_mem_cleanSegment hmem)⟩

/-- A pattern with a wildcard overlaps the literals that it matches. -/
theorem globsOverlap_literal {a b : UnitText} (ha : isLiteral a = false) (hb : isLiteral b = true) :
    globsOverlap a b = matchGlob a b := by
  unfold globsOverlap
  cases hna : normalizePathExpr a with
  | none => simp [matchGlob, hna]
  | some na =>
      cases hnb : normalizePathExpr b with
      | none => simp [matchGlob, hna, hnb]
      | some nb =>
          have hla := (isLiteral_normalizePathExpr hna).trans ha
          have hlb := (isLiteral_normalizePathExpr hnb).trans hb
          have hne : na ≠ nb := by
            rintro rfl
            rw [hla] at hlb
            cases hlb
          dsimp only
          rw [if_neg hne, if_pos hlb, matchGlob, matchGlob, hna, hnb,
            (normal_of_normalizePathExpr hna).again, (normal_of_normalizePathExpr hnb).again]

/-- Matching decides the language of the normal pattern, normalisation is done in one go and
keeps the language, and the overlap of two expressions is symmetric and misses no common file. -/
theorem globs_decide_languages :
    (∀ pattern file normalizedPattern normalizedFile,
      normalizePathExpr pattern = some normalizedPattern →
      normalizePathExpr file = some normalizedFile →
        (matchGlob pattern file = true ↔
          InLanguage normalizedPattern (normalizedFile.splitOn slash))) ∧
    (∀ input out, normalizePathExpr input = some out → normalizePathExpr out = some out ∧
      ∀ file, InLanguage out file ↔ InLanguage input file) ∧
    (∀ a b, globsOverlap a b = globsOverlap b a) ∧
    ∀ a b file, matchGlob a file = true → matchGlob b file = true → globsOverlap a b = true :=
  ⟨fun _ _ _ _ hpattern hfile => matchGlob_iff hpattern hfile,
    fun _ _ h => ⟨(normal_of_normalizePathExpr h).again, inLanguage_normalizePathExpr h⟩,
    globsOverlap_comm, fun _ _ _ => globsOverlap_of_matchGlob⟩

end Hseos.Coordination.Globs
