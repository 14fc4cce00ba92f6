import Hseos.Coordination.Key
import Hseos.Coordination.NormalPath
import Mathlib.Data.List.TakeDrop
import Mathlib.Data.List.TakeWhile

/-! # Canonical keys

A key that is written as `parseKey` writes it is parsed to itself, and a key that
is parsed to itself is written so.
-/

namespace Hseos.Coordination

variable {casing : Casing} {text before rest key repo glob : Text} {sep c : Char} {parsed : ParsedKey}

/-! ## Cuts -/

theorem cut_append (h : sep ∉ before) : cut sep (before ++ sep :: rest) = (before, some rest) := by
  have hbefore : ∀ a ∈ before, decide (a ≠ sep) = true := by
    intro a ha
    simp only [decide_eq_true_eq]
    rintro rfl
    exact h ha
  rw [cut, List.span_eq_takeWhile_dropWhile, List.takeWhile_append_of_pos hbefore,
    List.dropWhile_append_of_pos hbefore]
  simp

theorem cut_eq_some (h : cut sep text = (before, some rest)) :
    text = before ++ sep :: rest ∧ sep ∉ before := by
  rw [cut, List.span_eq_takeWhile_dropWhile] at h
  cases hdrop : text.dropWhile (· ≠ sep) with
  | nil =>
      rw [hdrop] at h
      cases h
  | cons d others =>
      rw [hdrop] at h
      obtain ⟨rfl, hrest⟩ := Prod.mk.inj h
      obtain rfl := Option.some.inj hrest
      have hhead := List.head?_dropWhile_not (fun c => decide (c ≠ sep)) text
      rw [hdrop] at hhead
      obtain rfl : d = sep := by simpa using hhead
      refine ⟨?_, fun hmem => ?_⟩
      · rw [← hdrop, List.takeWhile_append_dropWhile]
      · have := List.mem_takeWhile_imp hmem
        simp at this

theorem cut_fst_subset : (cut sep text).1 ⊆ text := by
  rw [cut, List.span_eq_takeWhile_dropWhile]
  split <;> next hspan =>
    obtain ⟨rfl, -⟩ := Prod.mk.inj hspan
    exact (List.takeWhile_prefix _).subset

theorem cutLast_append (h : sep ∉ rest) :
    cutLast sep (before ++ sep :: rest) = some (before, rest) := by
  have hreverse : (before ++ sep :: rest).reverse = rest.reverse ++ sep :: before.reverse := by simp
  rw [cutLast, hreverse, cut_append fun hmem => h (List.mem_reverse.mp hmem)]
  simp

theorem cutLast_eq_some (h : cutLast sep text = some (before, rest)) :
    text = before ++ sep :: rest ∧ sep ∉ rest := by
  unfold cutLast at h
  split at h
  · cases h
  next after left hcut =>
    obtain ⟨rfl, rfl⟩ := Prod.mk.inj (Option.some.inj h)
    obtain ⟨hreverse, hsep⟩ := cut_eq_some hcut
    refine ⟨?_, fun hmem => hsep (List.mem_reverse.mp hmem)⟩
    rw [← List.reverse_reverse text, hreverse]
    simp

theorem after_append : after before (before ++ rest) = some rest := by
  simp [after]

theorem after_eq_some (h : after before text = some rest) : text = before ++ rest := by
  unfold after at h
  split at h
  next hbegins =>
    obtain rfl := Option.some.inj h
    obtain ⟨others, rfl⟩ := List.isPrefixOf_iff_prefix.mp hbegins
    simp
  · cases h

/-! ## Repositories -/

theorem mem_of_mem_sliceTo {max : Nat} (h : c ∈ sliceTo max text) : c ∈ text := by
  induction text generalizing max with
  | nil => simp [sliceTo] at h
  | cons d rest ih =>
      rw [sliceTo] at h
      split at h
      · rcases List.mem_cons.mp h with rfl | h
        · exact List.mem_cons_self
        · exact List.mem_cons_of_mem _ (ih h)
      · simp at h

theorem mem_of_mem_dropEndWhile {p : Char → Bool} (h : c ∈ dropEndWhile p text) : c ∈ text :=
  List.mem_reverse.mp (List.dropWhile_subset p (List.mem_reverse.mp h))

theorem mem_of_mem_trim (h : c ∈ trim text) : c ∈ text :=
  List.dropWhile_subset _ (mem_of_mem_dropEndWhile h)

theorem mem_of_mem_spaceControls (h : c ∈ spaceControls text) : c = ' ' ∨ c ∈ text := by
  fun_induction spaceControls text with
  | case1 => simp at h
  | case2 d _ next rest _ ih =>
      exact (ih h).imp_right (List.mem_cons_of_mem _)
  | case3 d _ next rest _ ih =>
      rcases List.mem_cons.mp h with rfl | h
      · exact .inl rfl
      · exact (ih h).imp_right (List.mem_cons_of_mem _)
  | case4 d _ => exact .inl (by simpa using h)
  | case5 d rest _ ih =>
      rcases List.mem_cons.mp h with rfl | h
      · exact .inr List.mem_cons_self
      · exact (ih h).imp_right (List.mem_cons_of_mem _)

theorem mem_of_mem_sanitizeText {max : Nat} (h : c ∈ sanitizeText max text) : c = ' ' ∨ c ∈ text :=
  (mem_of_mem_spaceControls (mem_of_mem_trim (mem_of_mem_sliceTo h))).imp_right List.mem_of_mem_filter

theorem mem_of_mem_dropGitSuffix (h : c ∈ dropGitSuffix text) : c ∈ text := by
  unfold dropGitSuffix at h
  split at h
  · exact List.dropLast_subset _ (List.dropLast_subset _ (List.dropLast_subset _
      (List.dropLast_subset _ h)))
  · exact h

theorem span_eq {p : Char → Bool} (h : text.span p = (before, rest)) : text = before ++ rest := by
  rw [List.span_eq_takeWhile_dropWhile] at h
  obtain ⟨rfl, rfl⟩ := Prod.mk.inj h
  exact List.takeWhile_append_dropWhile.symm

theorem mem_of_mem_dropScheme (h : c ∈ dropScheme text) : c ∈ text := by
  unfold dropScheme at h
  split at h
  next hspan =>
    rw [span_eq hspan]
    simp [h]
  · exact h

theorem mem_of_mem_dropUser (h : c ∈ dropUser text) : c ∈ text := by
  unfold dropUser at h
  split at h
  next hspan =>
    rw [span_eq hspan]
    simp [h]
  · exact h

/-- A text without a colon has no host to part from a path. -/
theorem slashHost_of_not_mem (h : ':' ∉ text) : slashHost text = text := by
  unfold slashHost
  split
  next hspan => exact absurd (by rw [span_eq hspan]; simp) h
  · rfl

theorem colon_normalizeRepo (hcolon : ':' ∉ text) (h : normalizeRepo casing text = some repo) :
    ':' ∉ repo ∧ repo ≠ [] ∧ text ≠ [] := by
  unfold normalizeRepo at h
  dsimp only at h
  split at h
  · cases h
  next hempty =>
    obtain rfl := Option.some.inj h
    simp only [Bool.or_eq_true, decide_eq_true_eq, not_or] at hempty
    refine ⟨fun hmem => ?_, hempty.2, hempty.1⟩
    -- No step but the lowering writes a colon, and the lowering writes none of its own.
    have hkept : ':' ∉ dropUser (dropScheme (dropGitSuffix (dropEndWhile (· == '/') (trim text)))) :=
      fun hmem => hcolon (mem_of_mem_trim (mem_of_mem_dropEndWhile (mem_of_mem_dropGitSuffix
        (mem_of_mem_dropScheme (mem_of_mem_dropUser hmem)))))
    rcases mem_of_mem_sanitizeText hmem with hspace | hmem
    · exact absurd hspace (by decide)
    · rw [slashHost_of_not_mem hkept] at hmem
      exact hkept (casing.colon _ hmem)

/-! ## Parsed keys -/

theorem canonicalVersion_subset {version : Text} (h : canonicalVersion text = some version) :
    version ⊆ text := by
  unfold canonicalVersion at h
  dsimp only at h
  split at h
  · obtain rfl := Option.some.inj h
    exact cut_fst_subset
  · cases h

theorem isDots_of_normalizePathExpr {expr : Text} (h : normalizePathExpr expr = some glob) :
    isDots glob = true := by
  obtain ⟨hcontrol, hne, -, -⟩ := normalizePathExpr_eq_some h
  rw [isDots, Bool.and_eq_true, decide_eq_true_eq, Bool.not_eq_true', List.any_eq_false]
  refine ⟨hne, fun c hc hterminator => ?_⟩
  have hplain := List.any_eq_false.mp hcontrol c hc
  simp only [Bool.or_eq_true, not_or, Bool.not_eq_true] at hplain
  have hline : isLineControl c = true := by
    simp only [isLineTerminator, Bool.or_eq_true, beq_iff_eq] at hterminator
    rcases hterminator with (rfl | rfl) | hterminator
    · decide
    · decide
    · simp [isLineControl, hterminator]
  rw [hplain.1] at hline
  cases hline

theorem parsePath_canonical (hcolon : ':' ∉ repo) (hrepo : normalizeRepo casing repo = some repo)
    (hglob : normalizePathExpr glob = some glob) :
    parsePath casing (repo ++ ':' :: glob) = some ⟨.path, [repo, glob], pathKey repo glob⟩ := by
  have hne := (colon_normalizeRepo hcolon hrepo).2.1
  simp [parsePath, cut_append hcolon, isDots_of_normalizePathExpr hglob, hrepo, hglob, hne]

theorem parsePath_eq_some (h : parsePath casing rest = some parsed) :
    ∃ remote expr repo glob, rest = remote ++ ':' :: expr ∧ ':' ∉ remote ∧
      normalizeRepo casing remote = some repo ∧ normalizePathExpr expr = some glob ∧
      parsed = ⟨.path, [repo, glob], pathKey repo glob⟩ := by
  unfold parsePath at h
  split at h
  next remote expr hcut =>
    split at h
    · split at h
      next repo glob hrepo hglob =>
        obtain ⟨hrest, hcolon⟩ := cut_eq_some hcut
        exact ⟨remote, expr, repo, glob, hrest, hcolon, hrepo, hglob, (Option.some.inj h).symm⟩
      · cases h
    · cases h
  · cases h

theorem parseVersion_eq_some (h : parseVersion casing rest = some parsed) :
    ∃ named value version, rest = named ++ '@' :: value ∧ '@' ∉ value ∧
      canonicalVersion value = some version ∧
      parsed = ⟨.version, [casing.toLowerCase named, version],
        versionKey (casing.toLowerCase named) version⟩ := by
  unfold parseVersion at h
  split at h
  next named value hcut =>
    split at h
    · dsimp only at h
      split at h
      next version hversion =>
        split at h
        · obtain ⟨hrest, hseparator⟩ := cutLast_eq_some hcut
          exact ⟨named, value, version, hrest, hseparator, hversion, (Option.some.inj h).symm⟩
        · cases h
      · cases h
    · cases h
  · cases h

theorem parseName_eq_some (h : parseName casing rest = some parsed) :
    parsed = ⟨.name, [casing.toLowerCase rest], nameKey (casing.toLowerCase rest)⟩ := by
  unfold parseName at h
  split at h
  · dsimp only at h
    split at h
    · exact (Option.some.inj h).symm
    · cases h
  · cases h

/-- A parsed key has one of the three forms. -/
theorem parseKey_eq_some (h : parseKey casing key = some parsed) :
    units key ≤ 400 ∧
      ((∃ rest, key = Kind.path.start ++ rest ∧ parsePath casing rest = some parsed) ∨
        (∃ rest, key = Kind.version.start ++ rest ∧ parseVersion casing rest = some parsed) ∨
        ∃ rest, key = Kind.name.start ++ rest ∧ parseName casing rest = some parsed) := by
  unfold parseKey at h
  split at h
  · cases h
  next hlength =>
    refine ⟨by omega, ?_⟩
    split at h
    next rest hrest => exact .inl ⟨rest, after_eq_some hrest, h⟩
    · split at h
      next rest hrest => exact .inr (.inl ⟨rest, after_eq_some hrest, h⟩)
      · obtain ⟨rest, hrest, h⟩ := Option.bind_eq_some_iff.mp h
        exact .inr (.inr ⟨rest, after_eq_some hrest, h⟩)

theorem parseKey_path (hlength : units (Kind.path.start ++ rest) ≤ 400) :
    parseKey casing (Kind.path.start ++ rest) = parsePath casing rest := by
  rw [parseKey, if_neg (by omega), after_append]

/-- The canonical form of a path key of a canonical repository is read back, unless it is too
long. -/
theorem parseKey_pathKey (hcolon : ':' ∉ repo) (hrepo : normalizeRepo casing repo = some repo)
    (hglob : normalizePathExpr glob = some glob) :
    parseKey casing (pathKey repo glob) =
      if units (pathKey repo glob) ≤ 400 then some ⟨.path, [repo, glob], pathKey repo glob⟩ else none := by
  by_cases hlength : units (pathKey repo glob) ≤ 400
  · rw [if_pos hlength, pathKey, List.append_assoc] at *
    rw [parseKey_path hlength, parsePath_canonical hcolon hrepo hglob]
    simp [pathKey]
  · rw [if_neg hlength, parseKey, if_pos (by omega)]

/-- A key is canonical exactly when it is parsed to itself. -/
theorem key_eq_iff_canonical (h : parseKey casing key = some parsed) :
    parsed.key = key ↔ Canonical casing key := by
  obtain ⟨hlength, hform⟩ := parseKey_eq_some h
  constructor
  · intro hkey
    rcases hform with ⟨rest, rfl, hrest⟩ | ⟨rest, rfl, hrest⟩ | ⟨rest, rfl, hrest⟩
    · obtain ⟨remote, expr, repo, glob, rfl, hcolon, hrepo, hglob, rfl⟩ := parsePath_eq_some hrest
      have hsame : repo ++ ':' :: glob = remote ++ ':' :: expr := by
        simpa [pathKey] using hkey
      have hcuts := congrArg (cut ':') hsame
      rw [cut_append hcolon, cut_append (colon_normalizeRepo hcolon hrepo).1] at hcuts
      obtain ⟨rfl, hexpr⟩ := Prod.mk.inj hcuts
      obtain rfl := Option.some.inj hexpr
      have := Canonical.path hcolon hrepo hglob
      simpa [pathKey] using this
    · obtain ⟨named, value, version, rfl, hseparator, hversion, rfl⟩ := parseVersion_eq_some hrest
      have hsame : casing.toLowerCase named ++ '@' :: version = named ++ '@' :: value := by
        simpa [versionKey] using hkey
      have hcuts := congrArg (cutLast '@') hsame
      rw [cutLast_append hseparator,
        cutLast_append fun hmem => hseparator (canonicalVersion_subset hversion hmem)] at hcuts
      obtain ⟨hnamed, rfl⟩ := Prod.mk.inj (Option.some.inj hcuts)
      have := Canonical.version hseparator hnamed hversion
      simpa [versionKey] using this
    · obtain rfl := parseName_eq_some hrest
      have hsame : casing.toLowerCase rest = rest := by simpa [nameKey] using hkey
      exact Canonical.name hsame
  · intro hcanonical
    cases hcanonical with
    | path hcolon hrepo hglob =>
        rw [parseKey_pathKey hcolon hrepo hglob, if_pos hlength] at h
        rw [← Option.some.inj h]
    | version hseparator hpackage hrelease =>
        rcases hform with ⟨rest, hkey, -⟩ | ⟨rest, hkey, hrest⟩ | ⟨rest, hkey, -⟩
        · simp [versionKey, Kind.start] at hkey
        · obtain ⟨named, value, version, rfl, hvalue, hversion, rfl⟩ := parseVersion_eq_some hrest
          have hcuts := congrArg (cutLast '@') (show _ = named ++ '@' :: value by
            simpa [versionKey] using hkey)
          rw [cutLast_append hseparator, cutLast_append hvalue] at hcuts
          obtain ⟨rfl, rfl⟩ := Prod.mk.inj (Option.some.inj hcuts)
          obtain rfl := Option.some.inj (hversion.symm.trans hrelease)
          rw [hpackage]
        · simp [versionKey, Kind.start] at hkey
    | name hpackage =>
        rcases hform with ⟨rest, hkey, -⟩ | ⟨rest, hkey, -⟩ | ⟨rest, hkey, hrest⟩
        · simp [nameKey, Kind.start] at hkey
        · simp [nameKey, Kind.start] at hkey
        · obtain rfl := List.append_cancel_left hkey
          rw [parseName_eq_some hrest, hpackage]

end Hseos.Coordination
