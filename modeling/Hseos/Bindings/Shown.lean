import Hseos.Bindings.Downgrade

/-! # Hidden blocks

A text whose lines the reader of records takes as they are shown, and the lines that it misreads:
those where a comment opens behind one that closes, and those where a comment opens with the end
of a mark that would close it.
-/

namespace Hseos.Bindings

/-! ## Lines that are misread -/

/-- Whether the last `<!--` of a line opens a comment and is followed by the rest of a `-->` that
would share its hyphens, and by no other `-->`. -/
def opensUnseen (line : Line) : Bool :=
  match lastIndexOf? commentStart line with
  | some opened =>
      let after := line.drop (opened + 4)
      !scanComment false 0 (line.take opened) && !includes commentEnd after &&
        (['>'].isPrefixOf after || ['-', '>'].isPrefixOf after)
  | none => false

/-- Whether a comment opens behind one that closes on the line. -/
def reopensUnseen (line : Line) : Bool := includes commentEnd line && scanComment true 0 line

/-! ## Marks of comments -/

section

variable {pattern before after text line : Line} {c : Char}

/-- A pattern is not found across a character that it lacks. -/
theorem isPrefixOf_append_of_notMem (hc : c ∉ pattern) (before rest : Line) :
    pattern.isPrefixOf (before ++ c :: rest) = pattern.isPrefixOf before := by
  induction pattern generalizing before with
  | nil => simp
  | cons first pattern ih =>
      rw [List.mem_cons, not_or] at hc
      cases before with
      | nil => simp [List.isPrefixOf, Ne.symm hc.1]
      | cons head before => simp [List.isPrefixOf, ih hc.2]

theorem length_le_of_isPrefixOf (h : pattern.isPrefixOf text = true) :
    pattern.length ≤ text.length :=
  (List.isPrefixOf_iff_prefix.mp h).length_le

theorem includes_cons : includes pattern (c :: text) =
    (pattern.isPrefixOf (c :: text) || includes pattern text) := rfl

/-- A comment that starts behind some part of a line is none of that part's. -/
theorem scanComment_append (inside : Bool) (skip : Nat) (before rest : Line)
    (hskip : skip ≤ before.length) :
    scanComment inside skip (before ++ '<' :: rest) =
      scanComment (scanComment inside skip before) 0 ('<' :: rest) := by
  induction before generalizing inside skip with
  | nil =>
      obtain rfl : skip = 0 := Nat.le_zero.mp hskip
      cases inside <;> rfl
  | cons first before ih =>
      cases skip with
      | succ skip =>
          have hrest := ih inside skip (Nat.le_of_succ_le_succ hskip)
          simpa [scanComment] using hrest
      | zero =>
          cases inside with
          | false =>
              have hfirst : commentStart.isPrefixOf (first :: (before ++ '<' :: rest)) =
                  commentStart.isPrefixOf (first :: before) := by
                have hmarks : '<' ∉ ['!', '-', '-'] := by decide
                simp [commentStart, List.isPrefixOf_cons_cons, isPrefixOf_append_of_notMem hmarks]
              rw [List.cons_append, scanComment, hfirst, scanComment]
              split
              next hopens =>
                exact ih true 3 (Nat.le_of_succ_le_succ (length_le_of_isPrefixOf hopens))
              next => exact ih false 0 (Nat.zero_le _)
          | true =>
              have hfirst : commentEnd.isPrefixOf (first :: (before ++ '<' :: rest)) =
                  commentEnd.isPrefixOf (first :: before) := by
                have hmarks : '<' ∉ commentEnd := by decide
                exact isPrefixOf_append_of_notMem hmarks (first :: before) rest
              rw [List.cons_append, scanComment, hfirst, scanComment]
              split
              next hcloses =>
                exact ih false 2 (Nat.le_of_succ_le_succ (length_le_of_isPrefixOf hcloses))
              next => exact ih true 0 (Nat.zero_le _)

/-- Without a `<!--` no comment opens. -/
theorem scanComment_of_no_start (skip : Nat) (h : includes commentStart text = false) :
    scanComment false skip text = false := by
  induction text generalizing skip with
  | nil => cases skip <;> rfl
  | cons c text ih =>
      rw [includes_cons, Bool.or_eq_false_iff] at h
      cases skip with
      | zero => simpa [scanComment, h.1] using ih 0 h.2
      | succ skip => exact ih skip h.2

/-- Without a `-->` a comment stays open. -/
theorem scanComment_of_no_end (h : includes commentEnd text = false) :
    scanComment true 0 text = true := by
  induction text with
  | nil => rfl
  | cons c text ih =>
      rw [includes_cons, Bool.or_eq_false_iff] at h
      simpa [scanComment, h.1] using ih h.2

/-- Where no other comment opens, a comment is closed by any `-->`. -/
theorem scanComment_inside (h : includes commentStart text = false) :
    scanComment true 0 text = !includes commentEnd text := by
  induction text with
  | nil => rfl
  | cons c text ih =>
      rw [includes_cons, Bool.or_eq_false_iff] at h
      rw [scanComment, includes_cons]
      split
      next hcloses => simp [hcloses, scanComment_of_no_start 2 h.2]
      next hopen => simp [hopen, ih h.2]

theorem includes_drop (count : Nat) (h : includes pattern text = false) :
    includes pattern (text.drop count) = false := by
  induction text generalizing count with
  | nil => rwa [List.drop_nil]
  | cons c text ih =>
      cases count with
      | zero => exact h
      | succ count =>
          rw [includes_cons, Bool.or_eq_false_iff] at h
          exact ih count h.2

theorem includes_of_lastIndexOf?_eq_none (h : lastIndexOf? pattern line = none) :
    includes pattern line = false := by
  induction line with
  | nil => simpa [lastIndexOf?, includes] using h
  | cons c rest ih =>
      rw [lastIndexOf?] at h
      cases hrest : lastIndexOf? pattern rest with
      | some index => simp [hrest] at h
      | none =>
          rw [includes_cons, ih hrest, Bool.or_false]
          simpa only [hrest, ite_eq_right_iff, reduceCtorEq, imp_false, Bool.not_eq_true] using h

/-- The last place of a pattern, between what comes before and what comes after. -/
theorem lastIndexOf?_eq_some {index : Nat} (h : lastIndexOf? (c :: pattern) line = some index) :
    line.drop index = c :: pattern ++ line.drop (index + (pattern.length + 1)) ∧
      includes (c :: pattern) (line.drop (index + (pattern.length + 1))) = false := by
  induction line generalizing index with
  | nil => cases h
  | cons first rest ih =>
      rw [lastIndexOf?] at h
      cases hrest : lastIndexOf? (c :: pattern) rest with
      | some other =>
          rw [hrest] at h
          cases h
          rw [Nat.add_right_comm]
          exact ih hrest
      | none =>
          simp only [hrest] at h
          split at h
          next hbegins =>
            cases h
            obtain ⟨after, hafter⟩ := List.isPrefixOf_iff_prefix.mp hbegins
            have hdrop : (first :: rest).drop (0 + (pattern.length + 1)) = after := by
              rw [Nat.zero_add, ← hafter, ← List.length_cons, List.drop_left]
            refine ⟨by rw [hdrop]; exact hafter.symm, ?_⟩
            rw [Nat.zero_add, List.drop_succ_cons]
            exact includes_drop _ (includes_of_lastIndexOf?_eq_none hrest)
          next => cases h

theorem includes_commentEnd_append (after : Line) :
    includes commentEnd (commentStart ++ after) =
      (['>'].isPrefixOf after || ['-', '>'].isPrefixOf after || includes commentEnd after) := by
  simp [commentStart, commentEnd, includes, List.isPrefixOf_cons_cons, Bool.or_assoc]

/-- The comments of a line: the last `<!--` decides, unless it opens a comment that its own
hyphens seem to close. -/
theorem scanComment_outside (line : Line) :
    scanComment false 0 line = (leavesOpen line || opensUnseen line) := by
  unfold leavesOpen opensUnseen
  cases hlast : lastIndexOf? commentStart line with
  | none => exact scanComment_of_no_start 0 (includes_of_lastIndexOf?_eq_none hlast)
  | some opened =>
      dsimp only
      have hfound := lastIndexOf?_eq_some hlast
      have hdrop : line.drop opened = commentStart ++ line.drop (opened + 4) := hfound.1
      have hafter : includes commentStart (line.drop (opened + 4)) = false := hfound.2
      have hline : scanComment false 0 line =
          scanComment (scanComment false 0 (line.take opened)) 0 (line.drop opened) := by
        conv_lhs => rw [← List.take_append_drop opened line, hdrop]
        rw [hdrop]
        exact scanComment_append false 0 (line.take opened) _ (Nat.zero_le _)
      rw [hline, hdrop]
      generalize line.drop (opened + 4) = after at hafter ⊢
      generalize scanComment false 0 (line.take opened) = inside
      rw [includes_commentEnd_append]
      cases inside with
      | false =>
          have hopens : scanComment false 0 (commentStart ++ after) = scanComment true 0 after := rfl
          rw [hopens, scanComment_inside hafter]
          cases includes commentEnd after <;> cases ['>'].isPrefixOf after <;>
            cases ['-', '>'].isPrefixOf after <;> rfl
      | true =>
          have hhyphens : includes commentStart ('-' :: '-' :: after) = false := by
            simpa [includes, commentStart, List.isPrefixOf_cons_cons] using hafter
          have hstays : scanComment true 0 (commentStart ++ after) =
              scanComment true 0 ('-' :: '-' :: after) := rfl
          rw [hstays, scanComment_inside hhyphens]
          simp [commentEnd, includes, Bool.or_assoc]

end

/-! ## The reader and the text -/

/-- Whether the reader misses that a comment is open after a line. -/
def Region.misreads : Region → Line → Bool
  | plain, line => (opens? line).isNone && opensUnseen line
  | comment, line => reopensUnseen line
  | fence _ _, _ => false

/-- No line of a text is misread where it stands. -/
def Readable (lines : List Line) : Prop :=
  ∀ before line, before ++ [line] <+: lines → (regionAfter before).misreads line = false

/-- Where the reader takes its next line to stand. -/
def Scan.region (scan : Scan) : Region :=
  match scan.fence with
  | some fence => .fence fence.mark fence.length
  | none => if scan.inComment then .comment else .plain

/-- Inside a fence there is no comment. -/
def Scan.Tidy (scan : Scan) : Prop := scan.fence.isSome → scan.inComment = false

/-- The block that an open fence still yields. -/
def Scan.pending (scan : Scan) (lines : List Line) : List (List Char) :=
  match scan.fence with
  | some fence =>
      if fence.collect then
        ((closedBody? fence.mark fence.length lines).map fun body =>
          joinLines (fence.body ++ body)).toList
      else []
  | none => []

section

variable {scan : Scan} {line : Line} {lines before after : List Line}

theorem closedBody?_cons (mark : Char) (length : Nat) (line : Line) (after : List Line) :
    closedBody? mark length (line :: after) =
      if closes mark length line then some []
      else (closedBody? mark length after).map (line :: ·) := by
  by_cases hcloses : closes mark length line = true
  · simp [closedBody?, hcloses]
  · by_cases hafter : after.any (closes mark length) = true
    · simp [closedBody?, hcloses, hafter]
    · simp [closedBody?, hcloses, hafter]

theorem tidy_scanLine (htidy : scan.Tidy) : (scanLine scan line).Tidy := by
  obtain ⟨blocks, inComment, fence⟩ := scan
  cases fence with
  | some fence =>
      obtain rfl : inComment = false := htidy rfl
      obtain ⟨mark, length, collect, body⟩ := fence
      by_cases hcloses : closes mark length line = true
      · simp [Scan.Tidy, scanLine, hcloses]
      · cases collect <;> simp [Scan.Tidy, scanLine, hcloses]
  | none =>
      cases inComment with
      | true => simp [Scan.Tidy, scanLine]
      | false => cases hopens : opens? line <;> simp [Scan.Tidy, scanLine, hopens]

theorem region_scanLine (htidy : scan.Tidy) (h : scan.region.misreads line = false) :
    (scanLine scan line).region = scan.region.next line := by
  obtain ⟨blocks, inComment, fence⟩ := scan
  cases fence with
  | some fence =>
      obtain rfl : inComment = false := htidy rfl
      obtain ⟨mark, length, collect, body⟩ := fence
      by_cases hcloses : closes mark length line = true
      · simp [Scan.region, scanLine, Region.next, hcloses]
      · cases collect <;> simp [Scan.region, scanLine, Region.next, hcloses]
  | none =>
      cases inComment with
      | true =>
          have hmisread : reopensUnseen line = false := h
          rw [reopensUnseen] at hmisread
          cases hends : includes commentEnd line with
          | false => simp [Scan.region, scanLine, Region.next, hends, scanComment_of_no_end hends]
          | true =>
              rw [hends, Bool.true_and] at hmisread
              simp [Scan.region, scanLine, Region.next, hends, hmisread]
      | false =>
          cases hopens : opens? line with
          | some opening => simp [Scan.region, scanLine, Region.next, hopens]
          | none =>
              have hmisread : opensUnseen line = false := by
                simpa [Scan.region, Region.misreads, hopens] using h
              simp [Scan.region, scanLine, Region.next, hopens, scanComment_outside, hmisread]

/-- A line makes of the blocks so far what the text shows up to it. -/
theorem shown_scanLine (htidy : scan.Tidy) (h : scan.region.misreads line = false)
    (after : List Line) :
    scan.blocks ++ scan.pending (line :: after) ++ shownFrom scan.region (line :: after) =
      (scanLine scan line).blocks ++ (scanLine scan line).pending after ++
        shownFrom (scanLine scan line).region after := by
  rw [region_scanLine htidy h, shownFrom]
  obtain ⟨blocks, inComment, fence⟩ := scan
  cases fence with
  | some fence =>
      obtain ⟨mark, length, collect, body⟩ := fence
      by_cases hcloses : closes mark length line = true
      · cases collect <;>
          simp [Scan.pending, Scan.region, shownAt?, scanLine, closedBody?_cons, hcloses]
      · cases collect <;> cases hbody : closedBody? mark length after <;>
          simp [Scan.pending, Scan.region, shownAt?, scanLine, closedBody?_cons, hcloses, hbody]
  | none =>
      cases inComment with
      | true => simp [Scan.pending, Scan.region, shownAt?, scanLine]
      | false =>
          cases hopens : opens? line with
          | none => simp [Scan.pending, Scan.region, shownAt?, scanLine, hopens]
          | some opening =>
              cases htag : opening.isTagged <;>
                simp [Scan.pending, Scan.region, shownAt?, scanLine, hopens, htag, Option.filter]

/-- Lines that are not misread leave the reader where the text is, with the blocks that it has
shown. -/
theorem shown_foldl (htidy : scan.Tidy)
    (h : ∀ before line, before ++ [line] <+: lines →
      (before.foldl Region.next scan.region).misreads line = false) :
    (lines.foldl scanLine scan).Tidy ∧
      (lines.foldl scanLine scan).region = lines.foldl Region.next scan.region ∧
      ∀ after, scan.blocks ++ scan.pending (lines ++ after) ++
          shownFrom scan.region (lines ++ after) =
        (lines.foldl scanLine scan).blocks ++ (lines.foldl scanLine scan).pending after ++
          shownFrom (lines.foldl scanLine scan).region after := by
  induction lines generalizing scan with
  | nil => exact ⟨htidy, rfl, fun after => rfl⟩
  | cons line rest ih =>
      have hline : scan.region.misreads line = false := h [] line ⟨rest, rfl⟩
      have hregion := region_scanLine htidy hline
      have hlater : ∀ before other, before ++ [other] <+: rest →
          (before.foldl Region.next (scanLine scan line).region).misreads other = false := by
        intro before other hbegins
        rw [hregion]
        exact h (line :: before) other (List.cons_prefix_cons.mpr ⟨rfl, hbegins⟩)
      obtain ⟨htail, hrest, hshown⟩ := ih (tidy_scanLine htidy) hlater
      refine ⟨htail, hrest.trans (by rw [hregion]; rfl), fun after => ?_⟩
      rw [List.cons_append, shown_scanLine htidy hline (rest ++ after)]
      exact hshown after

end

/-! ## Reading a text -/

/-- The reader returns the blocks that the lines show. -/
def ReadsShown (lines : List Line) : Prop :=
  ∀ blocks, blocksOf lines = .ok blocks → blocks = shownBlocks lines

theorem Readable.of_isPrefix {lines before : List Line} (h : Readable lines)
    (hbegins : before <+: lines) : Readable before :=
  fun earlier line hearlier => h earlier line (hearlier.trans hbegins)

/-- The state of the reader behind lines that are not misread. -/
theorem Readable.foldl {lines : List Line} (h : Readable lines) :
    (lines.foldl scanLine ⟨[], false, none⟩).region = regionAfter lines ∧
      ∀ after, shownBlocks (lines ++ after) =
        (lines.foldl scanLine ⟨[], false, none⟩).blocks ++
          (lines.foldl scanLine ⟨[], false, none⟩).pending after ++
            shownFrom (regionAfter lines) after := by
  have htidy : Scan.Tidy ⟨[], false, none⟩ := fun _ => rfl
  obtain ⟨-, hregion, hshown⟩ := shown_foldl htidy h
  refine ⟨hregion, fun after => ?_⟩
  have hafter := hshown after
  rw [hregion] at hafter
  exact hafter

theorem Readable.readsShown {lines : List Line} (h : Readable lines) : ReadsShown lines := by
  intro blocks hblocks
  obtain ⟨-, hshown⟩ := h.foldl
  have hlines := hshown []
  unfold blocksOf Scan.finish at hblocks
  split at hblocks
  next => cases hblocks
  next hopen =>
    cases hblocks
    have hpending : (lines.foldl scanLine ⟨[], false, none⟩).pending [] = [] := by
      unfold Scan.pending
      split
      next fence hfence => simp [closedBody?]
      next => rfl
    rw [List.append_nil, hpending, List.append_nil] at hlines
    rw [hlines]
    exact (List.append_nil _).symm

/-- The lines of a record, none of which has a mark of a comment. -/
structure IsRecord (block : List Line) (body : List Line) : Prop where
  lines : ∃ first last opening, block = first :: body ++ [last] ∧ opens? first = some opening ∧
    opening.isTagged = true ∧ (∀ line ∈ body, closes opening.mark opening.length line = false) ∧
    closes opening.mark opening.length last = true
  unmarked : ∀ line ∈ block, includes commentStart line = false ∧ includes commentEnd line = false

section

variable {before lines block body : List Line} {line : Line}

theorem lastIndexOf?_of_not_includes {pattern : List Char} (h : includes pattern line = false) :
    lastIndexOf? pattern line = none := by
  induction line with
  | nil => simpa [lastIndexOf?, includes] using h
  | cons c rest ih =>
      rw [includes_cons, Bool.or_eq_false_iff] at h
      rw [lastIndexOf?, ih h.2]
      exact if_neg (Bool.eq_false_iff.mp h.1)

/-- A line without marks is not misread anywhere. -/
theorem misreads_of_unmarked (region : Region) (hstart : includes commentStart line = false)
    (hend : includes commentEnd line = false) : region.misreads line = false := by
  cases region with
  | plain =>
      have hopens : opensUnseen line = false := by
        rw [opensUnseen, lastIndexOf?_of_not_includes hstart]
      rw [Region.misreads, hopens, Bool.and_false]
  | comment => rw [Region.misreads, reopensUnseen, hend, Bool.false_and]
  | fence => rfl

theorem Readable.append_record (h : Readable before) (hrecord : IsRecord block body) :
    Readable (before ++ block) := by
  intro earlier line hearlier
  rcases List.prefix_or_prefix_of_prefix hearlier (List.prefix_append before block) with
    hbefore | hbefore
  · exact h earlier line hbefore
  · rcases List.prefix_concat_iff.mp hbefore with heq | ⟨rest, rfl⟩
    · exact h earlier line (heq ▸ List.prefix_rfl)
    · rw [List.append_assoc, List.prefix_append_right_inj] at hearlier
      have hline : line ∈ block := hearlier.subset (List.mem_append_right _ (by simp))
      obtain ⟨hstart, hend⟩ := hrecord.unmarked line hline
      exact misreads_of_unmarked _ hstart hend

theorem leavesOpen_of_opensUnseen (h : opensUnseen line = true) : leavesOpen line = false := by
  unfold opensUnseen at h
  unfold leavesOpen
  cases hlast : lastIndexOf? commentStart line with
  | none => rfl
  | some opened =>
      have hdrop : line.drop opened = commentStart ++ line.drop (opened + 4) :=
        (lastIndexOf?_eq_some hlast).1
      simp only [hlast, Bool.and_eq_true] at h
      simp only [hdrop, includes_commentEnd_append, h.2, Bool.true_or, Bool.not_true]

/-- Behind a misread line the reader is outside every comment, and the text is not. -/
theorem scanLine_of_misreads {scan : Scan} (h : scan.region.misreads line = true) :
    scanLine scan line = ⟨scan.blocks, false, none⟩ ∧ scan.region.next line = .comment ∧
      ∀ after, shownAt? scan.region line after = none := by
  obtain ⟨blocks, inComment, fence⟩ := scan
  cases fence with
  | some fence => cases h
  | none =>
      cases inComment with
      | true =>
          have hreopens : reopensUnseen line = true := h
          rw [reopensUnseen, Bool.and_eq_true] at hreopens
          simp [scanLine, Scan.region, Region.next, shownAt?, hreopens.1, hreopens.2]
      | false =>
          have hunseen : ((opens? line).isNone && opensUnseen line) = true := h
          rw [Bool.and_eq_true, Option.isNone_iff_eq_none] at hunseen
          obtain ⟨hopens, hunseen⟩ := hunseen
          simp [scanLine, Scan.region, Region.next, shownAt?, hopens, hunseen,
            leavesOpen_of_opensUnseen hunseen, scanComment_outside]

/-- A comment hides every line up to a `-->`. -/
theorem shownFrom_comment (h : ∀ line ∈ lines, includes commentEnd line = false) :
    shownFrom .comment lines = [] := by
  induction lines with
  | nil => rfl
  | cons line rest ih =>
      have hnext : Region.next .comment line = .comment :=
        if_pos (scanComment_of_no_end (h line List.mem_cons_self))
      rw [shownFrom, hnext, ih fun other hother => h other (List.mem_cons_of_mem _ hother)]
      simp [shownAt?]

theorem foldl_scanLine_body {mark : Char} {length : Nat} (blocks : List (List Char))
    (seen : List Line) (h : ∀ line ∈ body, closes mark length line = false) :
    body.foldl scanLine ⟨blocks, false, some ⟨mark, length, true, seen⟩⟩ =
      ⟨blocks, false, some ⟨mark, length, true, seen ++ body⟩⟩ := by
  induction body generalizing seen with
  | nil => rw [List.append_nil]; rfl
  | cons line rest ih =>
      have hline := h line List.mem_cons_self
      rw [List.foldl_cons, List.append_cons,
        ← ih (seen ++ [line]) fun other hother => h other (List.mem_cons_of_mem _ hother)]
      simp [scanLine, hline]

/-- Outside every fence and comment the reader collects a record. -/
theorem foldl_scanLine_record (blocks : List (List Char)) (h : IsRecord block body) :
    block.foldl scanLine ⟨blocks, false, none⟩ = ⟨blocks ++ [joinLines body], false, none⟩ := by
  obtain ⟨first, last, opening, rfl, hopens, htag, hbody, hcloses⟩ := h.lines
  have hfirst : scanLine ⟨blocks, false, none⟩ first =
      ⟨blocks, false, some ⟨opening.mark, opening.length, true, []⟩⟩ := by
    simp [scanLine, hopens, htag]
  rw [List.cons_append, List.foldl_cons, hfirst, List.foldl_append,
    foldl_scanLine_body blocks [] hbody]
  simp [scanLine, hcloses]

/-- A record behind the first misread line is collected, and the text hides it. -/
theorem not_readsShown_of_misreads (hbefore : Readable before)
    (h : (regionAfter before).misreads line = true) (hrecord : IsRecord block body) :
    ¬ ReadsShown (before ++ [line] ++ block) := by
  obtain ⟨hregion, hshown⟩ := hbefore.foldl
  generalize hscan : before.foldl scanLine ⟨[], false, none⟩ = scan at hregion hshown
  rw [← hregion] at h
  obtain ⟨hline, hnext, hhidden⟩ := scanLine_of_misreads h
  have hcollected : blocksOf (before ++ [line] ++ block) =
      .ok (scan.blocks ++ [joinLines body]) := by
    rw [blocksOf, List.foldl_append, List.foldl_append, hscan, List.foldl_cons, List.foldl_nil,
      hline, foldl_scanLine_record scan.blocks hrecord]
    rfl
  have hblocks : shownBlocks (before ++ [line] ++ block) = scan.blocks := by
    have hpending : scan.pending ([line] ++ block) = [] := by
      obtain ⟨blocks, inComment, fence⟩ := scan
      cases fence with
      | some fence => cases h
      | none => rfl
    rw [List.append_assoc, hshown, hpending, ← hregion, List.singleton_append, shownFrom,
      hhidden, hnext, shownFrom_comment fun other hother => (hrecord.unmarked other hother).2]
    simp
  intro hreads
  have hequal := hreads _ hcollected
  rw [hblocks] at hequal
  simpa using congrArg List.length hequal

end

/-- A record without a body. -/
theorem emptyRecord_isRecord :
    IsRecord ["```platform-bindings-downgrade".toList, "```".toList] [] where
  lines := ⟨_, _, ⟨backtick, 3, recordInfo⟩, rfl, by decide +kernel⟩
  unmarked := by decide +kernel

/-- What the reader and the authorization make of a text is what the text shows. -/
structure ReadsAsShown (text : List Char) : Prop where
  blocks : ∀ blocks, topLevelBlocks text = .ok blocks → blocks = shownBlocks (splitLines text)
  authorized : ∀ (repository : Repository) modeRef source target,
    committedRecord repository modeRef = .ok text →
      downgradeProblem repository modeRef source target = none →
        ∃ block document record, shownBlocks (splitLines text) = [block] ∧
          repository.parse block = .ok document ∧ recordOf document = .ok record ∧
            recordProblem repository record source target = none

/-- A text is read as it is shown, and remains so when a record is put behind any of its lines,
exactly if no line of it is misread. -/
theorem records_shown_iff (text : List Char) :
    (ReadsAsShown text ∧ ∀ before, before <+: splitLines text → ∀ block body,
        IsRecord block body → ReadsShown (before ++ block)) ↔
      Readable (splitLines text) := by
  constructor
  · rintro ⟨-, hrecords⟩ before line hline
    induction hlength : before.length using Nat.strong_induction_on generalizing before line with
    | _ length ih =>
        by_contra hmisreads
        have hbefore : Readable before := by
          intro earlier other hother
          have hshort := hother.length_le
          rw [List.length_append, List.length_singleton] at hshort
          have hwhole : earlier ++ [other] <+: splitLines text :=
            hother.trans ((List.prefix_append before [line]).trans hline)
          exact ih earlier.length (by omega) earlier other hwhole rfl
        exact not_readsShown_of_misreads hbefore (Bool.not_eq_false _ ▸ hmisreads)
          emptyRecord_isRecord (hrecords (before ++ [line]) hline _ _ emptyRecord_isRecord)
  · intro hreadable
    refine ⟨⟨hreadable.readsShown, ?_⟩, ?_⟩
    · intro repository modeRef source target htext hnone
      obtain ⟨committed, record, hcommitted, hrecord, hproblem⟩ := downgradeProblem_eq_none hnone
      obtain rfl : text = committed := Except.ok.inj (htext.symm.trans hcommitted)
      obtain ⟨block, document, hblocks, hparse, hdocument⟩ := parseRecord_eq_ok hrecord
      exact ⟨block, document, record, (hreadable.readsShown _ hblocks).symm, hparse, hdocument,
        hproblem⟩
    · intro before hbefore block body hrecord
      exact ((hreadable.of_isPrefix hbefore).append_record hrecord).readsShown

/-! ## A hidden record that authorizes -/

def hiddenBody : List Char :=
  "status: Accepted\nfrom: platform\nto: local\napprover: owner".toList

/-- A record in a comment that opens on the line on which another one closes. -/
def hiddenRecord : List Char :=
  "<!--\n--> <!--\n```platform-bindings-downgrade\n".toList ++ hiddenBody ++ "\n```\n-->\n".toList

def sampleBytes (text : List Char) : List UInt8 := text.map fun c => UInt8.ofNat c.toNat

/-- A repository that has committed a text. -/
def sampleRepository (text : List Char) : Repository where
  project := .ok ""
  committed _ := .content (sampleBytes text)
  working _ := .content (sampleBytes text)
  resolveOwners _ := .ok ["@Owner".toList]
  decode bytes := bytes.map fun byte => Char.ofNat byte.toNat
  parse block :=
    if block = hiddenBody then
      .ok (.mapping
        [("status", some "Accepted".toList), ("from", some "platform".toList),
          ("to", some "local".toList), ("approver", some "owner".toList)])
    else .ok .other
  toLowerCase text := text.map Char.toLower

theorem hiddenRecord_read :
    downgradeProblem (sampleRepository hiddenRecord) "docs/decisions/1.md"
        "platform".toList "local".toList = none ∧
      (topLevelBlocks hiddenRecord).toOption = some [hiddenBody] ∧
      shownBlocks (splitLines hiddenRecord) = [] := by
  decide +kernel

/-- The hidden record authorizes the downgrade, and the text shows no record. -/
theorem hidden_record_authorizes :
    downgradeProblem (sampleRepository hiddenRecord) "docs/decisions/1.md"
        "platform".toList "local".toList = none ∧
      shownBlocks (splitLines hiddenRecord) = [] ∧ ¬ ReadsAsShown hiddenRecord := by
  obtain ⟨hauthorized, hcollected, hshown⟩ := hiddenRecord_read
  refine ⟨hauthorized, hshown, fun hreads => ?_⟩
  cases hblocks : topLevelBlocks hiddenRecord with
  | error message => simp [hblocks, Except.toOption] at hcollected
  | ok blocks =>
      rw [hblocks] at hcollected
      have hone : blocks = [hiddenBody] := Option.some.inj hcollected
      have hnone := hreads.blocks blocks hblocks
      rw [hshown, hone] at hnone
      cases hnone

end Hseos.Bindings
