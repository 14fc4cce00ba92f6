import Hseos.Coordination.CanonicalKey
import Hseos.Coordination.Reservations
import Hseos.Coordination.Service

/-! # Releasing by the key of the reservation

The store holds a claim under the canonical form of its key, and a release goes to
the store as it is spelled: a claim is released by the key that it was reserved
with when that key is canonical.
-/

namespace Hseos.Coordination

variable {casing : Casing} {settings : Settings} {around : Surroundings} {session key : String}
  {parsed : ParsedKey} {s s' : MachineStore} {renewed : Bool} {claim : Claim}
  {versions : List VersionConflict} {found : List OverlapConflict}

open MachineStore Service

/-! ## Canonical path keys -/

theorem parseKey_of_kind_path (h : parseKey casing (chars key) = some parsed)
    (hkind : parsed.kind = .path) :
    ∃ remote expr repo glob, chars key = Kind.path.start ++ (remote ++ ':' :: expr) ∧ ':' ∉ remote ∧
      normalizeRepo casing remote = some repo ∧ normalizePathExpr expr = some glob ∧
      parsed = ⟨.path, [repo, glob], pathKey repo glob⟩ := by
  obtain ⟨-, ⟨rest, hkey, hrest⟩ | ⟨rest, -, hrest⟩ | ⟨rest, -, hrest⟩⟩ := parseKey_eq_some h
  · obtain ⟨remote, expr, repo, glob, rfl, hcolon, hrepo, hglob, hparsed⟩ := parsePath_eq_some hrest
    exact ⟨remote, expr, repo, glob, hkey, hcolon, hrepo, hglob, hparsed⟩
  · obtain ⟨named, value, version, -, -, -, rfl⟩ := parseVersion_eq_some hrest
    cases hkind
  · rw [parseName_eq_some hrest] at hkind
    cases hkind

/-! ## What a granted reservation went through -/

theorem outcome_commit {transaction : MachineStore → Transaction} :
    (commit transaction).outcome s =
      match transaction s with
      | .ok (answer, next) => (.ok answer, next)
      | .error err => (.error err, s) := by
  simp only [commit, Attempt.outcome_bind, Attempt.outcome_get, Attempt.outcome_lift]
  cases transaction s <;> rfl

theorem outcome_commit_eq_ok {transaction : MachineStore → Transaction} {answer : Answer}
    (h : (commit transaction).outcome s = (.ok answer, s')) : transaction s = .ok (answer, s') := by
  rw [outcome_commit] at h
  split at h
  next answer' next htransaction =>
    obtain ⟨hanswer, rfl⟩ := Prod.mk.inj h
    rw [htransaction, Except.ok.inj hanswer]
  · cases h

/-- The tables of sessions and of claims are the same. -/
def SameClaims (s s' : MachineStore) : Prop := s'.claims = s.claims ∧ s'.activities = s.activities

theorem SameClaims.trans {s'' : MachineStore} (h : SameClaims s s') (h' : SameClaims s' s'') :
    SameClaims s s'' :=
  ⟨h'.1.trans h.1, h'.2.trans h.2⟩

theorem outcome_readActivity {id : String} {activity : Option Activity}
    (h : (readActivity id).outcome s = (.ok activity, s')) : s' = s :=
  (Prod.mk.inj (show (s.get id, s) = (.ok activity, s') from h)).2.symm

theorem outcome_readClaims {claims : List Claim} (h : readClaims.outcome s = (.ok claims, s')) :
    s.listClaims = .ok claims ∧ s' = s := by
  obtain ⟨hclaims, rfl⟩ := Prod.mk.inj (show (s.listClaims, s) = (.ok claims, s') from h)
  exact ⟨hclaims, rfl⟩

/-- Steps that leave claims and sessions alone leave them alone one after the other. -/
theorem outcome_forM {α : Type} {f : α → Service Unit}
    (hf : ∀ a s s', (f a).outcome s = (.ok (), s') → SameClaims s s') {list : List α}
    (h : (list.forM f).outcome s = (.ok (), s')) : SameClaims s s' := by
  induction list generalizing s with
  | nil =>
      obtain ⟨-, rfl⟩ := Prod.mk.inj (show (Except.ok (), s) = (.ok (), s') from h)
      exact ⟨rfl, rfl⟩
  | cons a rest ih =>
      obtain ⟨⟨⟩, middle, ha, hrest⟩ := Attempt.outcome_bind_eq_ok
        (show (f a >>= fun _ => rest.forM f).outcome s = (.ok (), s') from h)
      exact (hf a s middle ha).trans (ih hrest)

theorem outcome_recordEvent {clock : Clock} {event : Recorded} {code activityId dedupeKey : String}
    (h : (recordEvent clock event code activityId dedupeKey).outcome s = (.ok (), s')) :
    SameClaims s s' := by
  obtain ⟨answer, middle, hcommit, hlast⟩ := Attempt.outcome_bind_eq_ok h
  obtain ⟨-, rfl⟩ := Prod.mk.inj (show (Except.ok (), middle) = (.ok (), s') from hlast)
  obtain ⟨-, rfl⟩ := Prod.mk.inj (Except.ok.inj (outcome_commit_eq_ok hcommit))
  exact ⟨claims_event, activities_event⟩

theorem outcome_notify {holders : List String} (h : (notify holders).outcome s = (.ok (), s')) :
    SameClaims s s' := by
  refine outcome_forM ?_ h
  intro holder before later h
  obtain ⟨activity, middle, hread, hlast⟩ := Attempt.outcome_bind_eq_ok h
  obtain rfl := outcome_readActivity hread
  obtain ⟨-, rfl⟩ := Prod.mk.inj (show (Except.ok (), middle) = (.ok (), later) from hlast)
  exact ⟨rfl, rfl⟩

theorem outcome_reportOverlaps (h : (reportOverlaps casing around session parsed).outcome s =
    (.ok found, s')) : SameClaims s s' ∧ (parsed.kind = .path → ∃ claims, s.listClaims = .ok claims ∧
      found = overlappingPathClaims casing parsed session claims) := by
  unfold reportOverlaps at h
  split at h
  next hkind =>
    obtain ⟨claims, middle, hread, hlist⟩ := Attempt.outcome_bind_eq_ok h
    obtain ⟨hclaims, hmiddle⟩ := outcome_readClaims hread
    rw [hmiddle] at hlist
    obtain ⟨⟨⟩, last, hrecord, hlast⟩ := Attempt.outcome_bind_eq_ok hlist
    obtain ⟨hfound, rfl⟩ := Prod.mk.inj (show (Except.ok _, last) = (.ok found, s') from hlast)
    refine ⟨outcome_forM (fun _ _ _ => outcome_recordEvent) hrecord, fun _ =>
      ⟨claims, hclaims, (Except.ok.inj hfound).symm⟩⟩
  next hkind =>
    obtain ⟨-, rfl⟩ := Prod.mk.inj (show (Except.ok _, s) = (.ok found, s') from h)
    exact ⟨⟨rfl, rfl⟩, fun hpath => absurd hpath hkind⟩

/-- What a granted reservation did in the store. -/
structure Granted (casing : Casing) (session key : String) (parsed : ParsedKey) (claim : Claim)
    (found : List OverlapConflict) (s' : MachineStore) : Prop where
  parses : parseKey casing (chars key) = some parsed
  sound : s'.Sound
  row : ∃ row ∈ s'.claims, row.held = true ∧ row.fence = claim.fence ∧
    row.key = String.ofList parsed.key ∧ row.owner = session
  listed : parsed.kind = .path → ∃ claims, s'.listClaims = .ok claims ∧
    found = overlappingPathClaims casing parsed session claims

theorem reserve_row {clock : Clock} {owner kind key : String} {ttlS : Int}
    (h : s.reserve clock owner kind key ttlS = .ok (.reserved renewed claim, s')) :
    ∃ row ∈ s'.claims, row.held = true ∧ row.fence = claim.fence ∧ row.key = key ∧
      row.owner = owner := by
  unfold MachineStore.reserve at h
  split at h
  · cases h
  · split at h
    · obtain ⟨row, view, hinsert, hview, hanswer, rfl⟩ := acquire_eq_ok h
      obtain ⟨rfl, rfl⟩ := Answer.reserved.inj hanswer
      obtain ⟨-, hrow, -⟩ := insertClaim_eq_ok hinsert
      refine ⟨row, ?_, by rw [hrow]; rfl, (toClaim_fence hview).1.symm, by rw [hrow], by rw [hrow]⟩
      rw [claims_event]
      exact List.mem_append_right _ (List.mem_singleton_self row)
    next held hfound =>
      obtain ⟨hheld, hkey, hheldNow⟩ := findHeld_eq_some hfound
      split at h
      next howner =>
        obtain ⟨view, hview, h⟩ := bind_eq_ok_iff.mp h
        obtain ⟨hanswer, rfl⟩ := Prod.mk.inj (pure_eq_ok_iff.mp h)
        obtain ⟨rfl, rfl⟩ := Answer.reserved.inj hanswer
        refine ⟨renew (clock.now + ttlS * 1000) held, ?_, hheldNow, (toClaim_fence hview).1.symm,
          hkey, howner⟩
        exact List.mem_map.mpr ⟨held, hheld, by simp⟩
      · obtain ⟨holder, -, h⟩ := bind_eq_ok_iff.mp h
        cases (Prod.mk.inj (pure_eq_ok_iff.mp h)).1

theorem MachineStore.Sound.of_sameClaims (h : s.Sound) (hsame : SameClaims s s') : s'.Sound where
  numbered := hsame.1 ▸ h.numbered
  exclusive := hsame.1 ▸ h.exclusive
  owners := by
    rw [hsame.1]
    exact fun row hrow hheld => (h.owners row hrow hheld).congr hsame.2

theorem MachineStore.Sound.commit (h : s.Sound) {operation : Operation} {clock : Clock} {answer : Answer}
    (htransaction : s.transaction ⟨operation, clock, none⟩ = .ok (answer, s')) : s'.Sound :=
  h.effect (transaction_effect h.numbered htransaction)

theorem reserveParsed_granted (h : s.Sound) (hparsed : parseKey casing (chars key) = some parsed)
    (hreserve : (reserveParsed casing settings around session parsed).outcome s =
      (.ok (.reserved renewed claim versions found), s')) :
    Granted casing session key parsed claim found s' := by
  unfold reserveParsed at hreserve
  dsimp only at hreserve
  generalize (if parsed.kind = .version then around.versionConflicts else []) = asked at hreserve
  obtain ⟨activity, s₁, hread, hswept⟩ := Attempt.outcome_bind_eq_ok hreserve
  rw [outcome_readActivity hread] at hswept
  obtain ⟨swept, s₂, hsweep, hrecorded⟩ := Attempt.outcome_bind_eq_ok hswept
  have hs₂ : s₂.Sound :=
    h.commit (show s.transaction ⟨.sweepOverdue, around.sweep, none⟩ = _ from
      outcome_commit_eq_ok hsweep)
  obtain ⟨⟨⟩, s₃, hversions, hguarded⟩ := Attempt.outcome_bind_eq_ok hrecorded
  have hs₃ : s₃.Sound :=
    hs₂.of_sameClaims (outcome_forM (fun _ _ _ => outcome_recordEvent) hversions)
  split at hguarded
  · cases hguarded
  · obtain ⟨answer, s₄, hcommit, hanswered⟩ := Attempt.outcome_bind_eq_ok hguarded
    have htransaction := outcome_commit_eq_ok hcommit
    have hs₄ : s₄.Sound :=
      hs₃.commit (show s₃.transaction ⟨.reserve session parsed.kind.text
        (String.ofList parsed.key) settings.ttlS, around.reserve, none⟩ = _ from htransaction)
    cases answer with
    | reserved renewed' claim' =>
        obtain ⟨overlaps, s₅, hoverlaps, hnotified⟩ := Attempt.outcome_bind_eq_ok hanswered
        obtain ⟨⟨⟩, s₆, hnotify, hlast⟩ := Attempt.outcome_bind_eq_ok hnotified
        obtain ⟨hreply, rfl⟩ := Prod.mk.inj (show (Except.ok _, s₆) =
          (.ok (Reply.reserved renewed claim versions found), s') from hlast)
        obtain ⟨rfl, rfl, -, rfl⟩ := Reply.reserved.inj (Except.ok.inj hreply)
        obtain ⟨hsame, hfound⟩ := outcome_reportOverlaps hoverlaps
        have hsame' := hsame.trans (outcome_notify hnotify)
        refine ⟨hparsed, hs₄.of_sameClaims hsame', ?_, fun hkind => ?_⟩
        · rw [hsame'.1]
          exact reserve_row htransaction
        · obtain ⟨claims, hclaims, hlist⟩ := hfound hkind
          refine ⟨claims, ?_, hlist⟩
          rw [listClaims, hsame'.1]
          exact hclaims
    | claimHeld conflict =>
        obtain ⟨⟨⟩, s₅, -, hreply⟩ := Attempt.outcome_bind_eq_ok hanswered
        cases hreply
    | _ => cases hanswered

theorem reserve_granted (h : s.Sound) (hreserve : (reserve casing settings around session key).outcome s =
    (.ok (.reserved renewed claim versions found), s')) :
    ∃ parsed, Granted casing session key parsed claim found s' := by
  unfold reserve at hreserve
  split at hreserve
  · cases hparsed : parseKey casing (chars key) with
    | none =>
        rw [hparsed] at hreserve
        cases hreserve
    | some parsed =>
        rw [hparsed] at hreserve
        dsimp only at hreserve
        split at hreserve
        · exact ⟨parsed, reserveParsed_granted h hparsed hreserve⟩
        · cases hreserve
  · cases hreserve

/-! ## Releases and overlaps by key -/

/-- The row is the claim of another session on a path, of which some key was parsed to the
repository of a path key and to a glob that overlaps its glob. -/
structure OverlappingClaim (casing : Casing) (session key : String) (row : ClaimRow) : Prop where
  held : row.held = true
  kind : row.kind = Kind.path.text
  owner : row.owner ≠ session
  keys : ∃ parsed other madeWith, parseKey casing (chars key) = some parsed ∧ parsed.kind = .path ∧
    parseKey casing (chars madeWith) = some other ∧ other.kind = .path ∧
    row.key = String.ofList other.key ∧ other.parts.getD 0 [] = parsed.parts.getD 0 [] ∧
    globsOverlap (other.parts.getD 1 []) (parsed.parts.getD 1 []) = true

/-- A claim, reserved by a key, can be released by it, and was reported with what it overlaps. -/
structure ReleasedByItsKey (casing : Casing) (session key : String) (claim : Claim)
    (found : List OverlapConflict) (s' : MachineStore) : Prop where
  idempotent : ∀ parsed, parseKey casing (chars key) = some parsed →
    ∃ again, parseKey casing parsed.key = some again ∧ again.key = parsed.key ∧
      again.parts = parsed.parts
  released : ∀ calls clock, (∃ row ∈ (s'.after calls).claims, row.fence = claim.fence ∧
      row.held = true) →
    ∃ next, (release clock key claim.fence).outcome (s'.after calls) = (.ok .released, next) ∧
      next.activities = (s'.after calls).activities ∧
      next.claims = (s'.after calls).claims.map fun row =>
        if row.fence = claim.fence then { row with releasedMs := some clock.now } else row
  reported : ∀ row ∈ s'.claims, OverlappingClaim casing session key row →
    ∃ overlap ∈ found, overlap.heldBy = row.owner ∧ overlap.fence = row.fence ∧
      overlap.key = row.key

section

variable (h : Granted casing session key parsed claim found s')
include h

theorem Granted.unique {row : ClaimRow} (hrow : row ∈ s'.claims) (hfence : row.fence = claim.fence) :
    row.key = String.ofList parsed.key := by
  obtain ⟨granted, hgranted, -, hgrantedFence, hkey, -⟩ := h.row
  rw [h.sound.numbered.inj hrow hgranted (hfence.trans hgrantedFence.symm), hkey]

/-- The claim is released by its key whenever it is held, when the key is canonical. -/
theorem Granted.release_canonical (hkey : parsed.key = chars key) {calls : List Call}
    {clock : Clock} (hheld : ∃ row ∈ (s'.after calls).claims, row.fence = claim.fence ∧
      row.held = true) :
    ∃ next, (release clock key claim.fence).outcome (s'.after calls) = (.ok .released, next) ∧
      next.activities = (s'.after calls).activities ∧
      next.claims = (s'.after calls).claims.map fun row =>
        if row.fence = claim.fence then { row with releasedMs := some clock.now } else row := by
  obtain ⟨row, hrow, hfence, hrowHeld⟩ := hheld
  have hsound : (s'.after calls).Sound := h.sound.after
  obtain ⟨granted, hgranted, -, hgrantedFence, hgrantedKey, -⟩ := h.row
  have hrowKey : row.key = key := by
    obtain ⟨later, hlater, hgrantedLater⟩ := h.sound.continues_after.exists_later hgranted
    rw [hsound.numbered.inj hrow hlater (by rw [hfence, hgrantedLater.fence, hgrantedFence]),
      hgrantedLater.key, hgrantedKey, hkey, chars_eq_toList, String.ofList_toList]
  have hnamed : ∀ other ∈ (s'.after calls).claims,
      (named key claim.fence other = true ↔ other.fence = claim.fence) := by
    intro other hother
    constructor
    · intro hother
      simp only [named, Bool.and_eq_true, decide_eq_true_eq] at hother
      exact_mod_cast hother.1.2
    · intro hotherFence
      obtain rfl := hsound.numbered.inj hother hrow (hotherFence.trans hfence.symm)
      simp [named, hrowKey, hfence, hrowHeld]
  have hany : (s'.after calls).claims.any (named key claim.fence) = true :=
    List.any_eq_true.mpr ⟨row, hrow, (hnamed row hrow).mpr hfence⟩
  obtain ⟨next, hrelease, hactivities, hclaims⟩ := release_of_named clock hany
  refine ⟨next, ?_, hactivities, ?_⟩
  · rw [release, outcome_commit, hrelease]
  · rw [hclaims]
    apply List.map_congr_left
    intro other hother
    simp only [hnamed other hother]

/-- What is released by a key is held under that key. -/
theorem Granted.key_of_released {clock : Clock} {next : MachineStore}
    (hreleased : (release clock key claim.fence).outcome s' = (.ok .released, next)) :
    parsed.key = chars key := by
  have htransaction := outcome_commit_eq_ok hreleased
  unfold MachineStore.release at htransaction
  split at htransaction
  next hany =>
    obtain ⟨row, hrow, hnamed⟩ := List.any_eq_true.mp hany
    simp only [named, Bool.and_eq_true, decide_eq_true_eq] at hnamed
    have hkey := h.unique hrow (by exact_mod_cast hnamed.1.2)
    rw [← hnamed.1.1, hkey, chars_eq_toList, String.toList_ofList]
  · cases htransaction

/-- The forms of an overlapping claim and of the canonical key that it overlaps. -/
theorem Granted.overlapping_forms (hkey : parsed.key = chars key) {row : ClaimRow}
    (hrow : OverlappingClaim casing session key row) :
    ∃ repo glob other, parsed = ⟨.path, [repo, glob], pathKey repo glob⟩ ∧ ':' ∉ repo ∧
      normalizeRepo casing repo = some repo ∧ normalizePathExpr other = some other ∧
      chars row.key = pathKey repo other ∧ globsOverlap other glob = true := by
  obtain ⟨parsed', other, madeWith, hparsed', hkind, hother, hotherKind, hrowKey, hparts, hglobs⟩ :=
    hrow.keys
  obtain rfl : parsed' = parsed := Option.some.inj (hparsed'.symm.trans h.parses)
  obtain ⟨remote, expr, repo, glob, hchars, hcolon, hrepo, -, rfl⟩ :=
    parseKey_of_kind_path h.parses hkind
  obtain ⟨remote', expr', repo', glob', -, -, -, hglob', rfl⟩ :=
    parseKey_of_kind_path hother hotherKind
  obtain rfl : repo' = repo := hparts
  -- The key is canonical, so the repository is what its own text is normalised to.
  have hsame : repo' ++ ':' :: glob = remote ++ ':' :: expr := by
    have : pathKey repo' glob = Kind.path.start ++ (remote ++ ':' :: expr) := hkey.trans hchars
    simpa [pathKey] using this
  have hcolon' := (colon_normalizeRepo hcolon hrepo).1
  have hcuts := congrArg (cut ':') hsame
  rw [cut_append hcolon, cut_append hcolon'] at hcuts
  obtain rfl := (Prod.mk.inj hcuts).1
  refine ⟨repo', glob, glob', rfl, hcolon, hrepo, (normalizePathExpr_eq_some hglob').2.2.2, ?_, hglobs⟩
  rw [hrowKey, chars_eq_toList, String.toList_ofList]

/-- An overlapping claim is reported exactly when its stored key is not too long to be parsed. -/
theorem Granted.reported_iff (hkey : parsed.key = chars key) {row : ClaimRow}
    (hmem : row ∈ s'.claims) (hrow : OverlappingClaim casing session key row) :
    (∃ overlap ∈ found, overlap.heldBy = row.owner ∧ overlap.fence = row.fence ∧
      overlap.key = row.key) ↔ units (chars row.key) ≤ 400 := by
  obtain ⟨repo, glob, other, hparsed, hcolon, hrepo, hother, hrowKey, hglobs⟩ :=
    h.overlapping_forms hkey hrow
  obtain ⟨claims, hclaims, rfl⟩ := h.listed (by rw [hparsed])
  constructor
  · rintro ⟨overlap, hoverlap, -, -, hoverlapKey⟩
    obtain ⟨view, hview, rfl⟩ := List.mem_map.mp hoverlap
    obtain ⟨-, hoverlaps⟩ := List.mem_filter.mp hview
    unfold overlaps at hoverlaps
    split at hoverlaps
    next parsed' hparsed' =>
      have : units (chars view.key) ≤ 400 := (parseKey_eq_some hparsed').1
      rwa [← hoverlapKey]
    · cases hoverlaps
  · intro hlength
    obtain ⟨view, hview, hviewOf⟩ :=
      exists_of_mapM_eq_ok hclaims row (List.mem_filter.mpr ⟨hmem, hrow.held⟩)
    obtain ⟨hfence, hviewKey⟩ := toClaim_fence hviewOf
    obtain ⟨howner, hkind⟩ := toClaim_owner hviewOf
    -- Another session cannot hold the key that was granted.
    have hdistinct : row.key ≠ String.ofList parsed.key := by
      intro hsame
      obtain ⟨granted, hgranted, hgrantedHeld, -, hgrantedKey, hgrantedOwner⟩ := h.row
      obtain rfl := h.sound.exclusive row hmem granted hgranted hrow.held hgrantedHeld
        (hsame.trans hgrantedKey.symm)
      exact hrow.owner hgrantedOwner
    have hoverlaps : overlaps casing parsed view = true := by
      rw [hrowKey] at hlength
      rw [overlaps, hviewKey, hrowKey, parseKey_pathKey hcolon hrepo hother, if_pos hlength, hparsed]
      simpa using hglobs
    refine ⟨⟨view.owner, view.fence, view.key, view.overdue⟩, ?_, howner, hfence, hviewKey⟩
    apply List.mem_map_of_mem (f := fun claim : Claim =>
      (⟨claim.owner, claim.fence, claim.key, claim.overdue⟩ : OverlapConflict))
    refine List.mem_filter.mpr ⟨List.mem_filter.mpr ⟨hview, ?_⟩, hoverlaps⟩
    rw [hkind, howner, hviewKey]
    simpa using ⟨⟨hrow.kind, hrow.owner⟩, hdistinct⟩

end

theorem eq_colon_of_toLower {c : Char} (h : c.toLower = ':') : c = ':' := by
  unfold Char.toLower at h
  split at h
  next hupper =>
    exfalso
    have hval := congrArg (fun d : Char => d.val.toNat) h
    simp only [UInt32.toNat_add] at hval
    have hlow : 65 ≤ c.val.toNat := UInt32.le_iff_toNat_le.mp hupper.1
    have hhigh : c.val.toNat ≤ 90 := UInt32.le_iff_toNat_le.mp hupper.2
    have hcolon : (':').val.toNat = 58 := rfl
    have hshift : ('a'.val - 'A'.val).toNat = 32 := rfl
    omega
  · exact h

/-- Lowering as it is of texts without letters beyond the first 128 characters. -/
def asciiCasing : Casing where
  toLowerCase text := text.map Char.toLower
  colon text h := by
    obtain ⟨c, hc, hlower⟩ := List.mem_map.mp h
    exact eq_colon_of_toLower hlower ▸ hc

namespace OneSession

def clock : Clock := ⟨0, fun _ => 0⟩

def registered : List Call :=
  [⟨.register ⟨"s1", "codex", none, none, none, none, none, none, [], []⟩, clock, none⟩]

def everyKind : Settings := ⟨[.path, .version, .name], 60, false⟩

def surroundings : Surroundings := ⟨clock, clock, clock, []⟩

/-- What the session gets for the package, however it spells the name. -/
def pkgClaim : Claim :=
  ⟨"name:pkg", "name", "s1", 1, "1970-01-01T00:00:00.000Z", "1970-01-01T00:01:00.000Z", false, false⟩

def reserved (key : String) : Except StoreFailure Reply × MachineStore :=
  (reserve asciiCasing everyKind surroundings "s1" key).outcome (initial.after registered)

end OneSession

end Hseos.Coordination
