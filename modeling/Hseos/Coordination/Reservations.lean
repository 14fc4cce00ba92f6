import Hseos.Coordination.Effects

/-! # Reservations

What holds of the claims over every run of calls, whoever makes them.
-/

namespace Hseos.Coordination

/-- A later row of a claim: it is the same claim, and it is not held again once released. -/
structure ClaimRow.Later (row later : ClaimRow) : Prop where
  fence : later.fence = row.fence
  key : later.key = row.key
  owner : later.owner = row.owner
  held : later.held = true → row.held = true

theorem ClaimRow.Later.refl (row : ClaimRow) : row.Later row := ⟨rfl, rfl, rfl, id⟩

theorem ClaimRow.Later.trans {first second third : ClaimRow} (h : first.Later second)
    (h' : second.Later third) : first.Later third :=
  ⟨h'.fence.trans h.fence, h'.key.trans h.key, h'.owner.trans h.owner, h.held ∘ h'.held⟩

namespace MachineStore

variable {s s' : MachineStore} {call : Call} {calls : List Call} {fence : Nat}

/-! ## Later claims -/

/-- The claims of the tables went on to claims of later ones, which may have more. -/
def Continues (s s' : MachineStore) : Prop :=
  ∃ change fresh, (∀ row : ClaimRow, row.Later (change row)) ∧
    s'.claims = s.claims.map change ++ fresh

theorem Continues.refl (s : MachineStore) : s.Continues s :=
  ⟨id, [], ClaimRow.Later.refl, by simp⟩

theorem Continues.trans {s'' : MachineStore} (h : s.Continues s') (h' : s'.Continues s'') :
    s.Continues s'' := by
  obtain ⟨change, fresh, hchange, hclaims⟩ := h
  obtain ⟨change', fresh', hchange', hclaims'⟩ := h'
  refine ⟨change' ∘ change, fresh.map change' ++ fresh', fun row =>
    (hchange row).trans (hchange' _), ?_⟩
  rw [hclaims', hclaims, List.map_append, List.map_map, List.append_assoc]

theorem Continues.length_le (h : s.Continues s') : s.claims.length ≤ s'.claims.length := by
  obtain ⟨change, fresh, -, hclaims⟩ := h
  simp [hclaims]

theorem Continues.exists_later (h : s.Continues s') {row : ClaimRow} (hrow : row ∈ s.claims) :
    ∃ later ∈ s'.claims, row.Later later := by
  obtain ⟨change, fresh, hchange, hclaims⟩ := h
  refine ⟨change row, ?_, hchange row⟩
  rw [hclaims]
  exact List.mem_append_left _ (List.mem_map_of_mem hrow)

theorem later_ite {which : ClaimRow → Bool} {change : ClaimRow → ClaimRow}
    (h : ∀ row : ClaimRow, row.Later (change row)) (row : ClaimRow) :
    row.Later (if which row then change row else row) := by
  split
  · exact h row
  · exact .refl row

theorem later_renew (expiresMs : Int) (row : ClaimRow) : row.Later (renew expiresMs row) :=
  ⟨rfl, rfl, rfl, id⟩

theorem later_release (releasedMs : Int) (row : ClaimRow) :
    row.Later { row with releasedMs := some releasedMs } :=
  ⟨rfl, rfl, rfl, fun hheld => by cases hheld⟩

theorem later_flag (overdueMs : Int) (row : ClaimRow) :
    row.Later { row with overdueMs := some overdueMs } :=
  ⟨rfl, rfl, rfl, id⟩

theorem Effect.continues (h : s.Effect call s') : s.Continues s' := by
  cases h with
  | sessions hclaims => exact ⟨id, [], ClaimRow.Later.refl, by simp [hclaims]⟩
  | renewed which expiresMs _ hclaims =>
      exact ⟨_, [], later_ite (later_renew expiresMs), by rw [hclaims, List.append_nil]⟩
  | released which releasedMs hclaims =>
      exact ⟨_, [], later_ite (later_release releasedMs), by rw [hclaims, List.append_nil]⟩
  | acquired row hclaims => exact ⟨id, [row], ClaimRow.Later.refl, by simp [hclaims]⟩
  | flagged _ hclaims =>
      exact ⟨_, [], later_ite (later_flag call.clock.now), by rw [hclaims, List.append_nil]⟩

/-! ## The invariant -/

structure Sound (s : MachineStore) : Prop where
  numbered : Numbered ClaimRow.fence s.claims
  exclusive : ∀ row ∈ s.claims, ∀ other ∈ s.claims, row.held = true → other.held = true →
    row.key = other.key → row = other
  owners : ∀ row ∈ s.claims, row.held = true → s.IsActive row.owner

theorem sound_initial : initial.Sound := ⟨.nil, nofun, nofun⟩

/-- Rows that continue the rows of sound tables are numbered and exclusive as these are. -/
theorem Sound.map (h : s.Sound) {change : ClaimRow → ClaimRow}
    (hchange : ∀ row : ClaimRow, row.Later (change row)) (hclaims : s'.claims = s.claims.map change)
    (hactive : ∀ row ∈ s.claims, (change row).held = true → s.IsActive row.owner →
      s'.IsActive row.owner) : s'.Sound where
  numbered := by
    have hfence : ClaimRow.fence ∘ change = ClaimRow.fence := funext fun row => (hchange row).fence
    rw [hclaims, Numbered, List.map_map, List.length_map, hfence]
    exact h.numbered
  exclusive := by
    rw [hclaims]
    rintro _ hfirst _ hsecond hheld hheld' hkey
    obtain ⟨row, hrow, rfl⟩ := List.mem_map.mp hfirst
    obtain ⟨other, hother, rfl⟩ := List.mem_map.mp hsecond
    rw [(hchange row).key, (hchange other).key] at hkey
    rw [h.exclusive row hrow other hother ((hchange row).held hheld) ((hchange other).held hheld')
      hkey]
  owners := by
    rw [hclaims]
    rintro _ hlater hheld
    obtain ⟨row, hrow, rfl⟩ := List.mem_map.mp hlater
    rw [(hchange row).owner]
    exact hactive row hrow hheld (h.owners row hrow ((hchange row).held hheld))

theorem Sound.effect (h : s.Sound) (heffect : s.Effect call s') : s'.Sound := by
  cases heffect with
  | sessions hclaims hactive =>
      exact h.map ClaimRow.Later.refl (by simp [hclaims]) fun row _ _ => hactive row.owner
  | renewed which expiresMs _ hclaims hactive =>
      exact h.map (later_ite (later_renew expiresMs)) hclaims fun row _ _ => hactive row.owner
  | released which releasedMs hclaims hactive =>
      refine h.map (later_ite (later_release releasedMs)) hclaims fun row hrow hheld howner => ?_
      rcases hactive row.owner howner with hstill | hreleased
      · exact hstill
      · -- A row that is still held was not among the released ones.
        exfalso
        by_cases hwhich : which row = true
        · rw [if_pos hwhich] at hheld
          cases hheld
        · rw [if_neg hwhich] at hheld
          exact hwhich (hreleased row hrow (by simp [heldBy, hheld]))
  | acquired row hclaims hfence _ hfree howner hactivities =>
      refine ⟨?_, ?_, ?_⟩
      · rw [hclaims]
        exact h.numbered.append (by simp [hfence])
      · rw [hclaims]
        intro first hfirst second hsecond hheld hheld' hkey
        rcases List.mem_append.mp hfirst with hold | hnew <;>
          rcases List.mem_append.mp hsecond with hold' | hnew'
        · exact h.exclusive first hold second hold' hheld hheld' hkey
        · obtain rfl := List.mem_singleton.mp hnew'
          exact absurd hkey (hfree first hold hheld)
        · obtain rfl := List.mem_singleton.mp hnew
          exact absurd hkey.symm (hfree second hold' hheld')
        · rw [List.mem_singleton.mp hnew, List.mem_singleton.mp hnew']
      · rw [hclaims]
        intro other hother hheld
        refine IsActive.congr ?_ hactivities
        rcases List.mem_append.mp hother with hold | hnew
        · exact h.owners other hold hheld
        · rwa [List.mem_singleton.mp hnew]
  | flagged _ hclaims hactivities =>
      exact h.map (later_ite (later_flag call.clock.now)) hclaims fun row _ _ howner =>
        howner.congr hactivities

theorem Sound.step (h : s.Sound) : (s.step call).Sound := by
  rcases step_effect h.numbered with hsame | heffect
  · rwa [hsame]
  · exact h.effect heffect

theorem Sound.continues_step (h : s.Sound) : s.Continues (s.step call) := by
  rcases step_effect h.numbered with hsame | heffect
  · rw [hsame]
    exact .refl s
  · exact heffect.continues

/-! ## Runs -/

theorem after_append {more : List Call} : s.after (calls ++ more) = (s.after calls).after more :=
  List.foldl_append

theorem Sound.after (h : s.Sound) : (s.after calls).Sound := by
  induction calls generalizing s with
  | nil => exact h
  | cons call rest ih => exact ih h.step

theorem Sound.continues_after (h : s.Sound) : s.Continues (s.after calls) := by
  induction calls generalizing s with
  | nil => exact .refl s
  | cons call rest ih => exact h.continues_step.trans (ih h.step)

/-! ## Grants -/

/-- The claim that a call answers, and whether it was renewed. -/
def granted (s : MachineStore) (call : Call) : Option (Bool × Claim) :=
  match s.transaction call with
  | .ok (.reserved renewed claim, _) => some (renewed, claim)
  | _ => none

/-- A claim of later tables goes on from one of the earlier tables, or has a higher number. -/
theorem Continues.origin (h : s.Continues s') (hsound : s'.Sound) {row : ClaimRow}
    (hrow : row ∈ s'.claims) :
    (∃ old ∈ s.claims, old.Later row) ∨ s.claims.length < row.fence := by
  obtain ⟨change, fresh, hchange, hclaims⟩ := h
  obtain ⟨i, hi, rfl⟩ := List.getElem_of_mem hrow
  by_cases hold : i < s.claims.length
  · left
    refine ⟨s.claims[i], List.getElem_mem hold, ?_⟩
    simp only [hclaims]
    rw [List.getElem_append_left (by simpa using hold), List.getElem_map]
    exact hchange _
  · right
    rw [hsound.numbered.getElem hi]
    omega

/-- What a reservation answers: a fresh claim has the next number, and a renewed one is the
claim of the key that is held. -/
theorem reserve_grants {owner kind key : String} {ttlS : Int} {clock : Clock} {renewed : Bool}
    {claim : Claim} (h : s.reserve clock owner kind key ttlS = .ok (.reserved renewed claim, s')) :
    (renewed = false ∧ claim.fence = s.claims.length + 1 ∧
        ∃ row ∈ s'.claims, row.held = true ∧ row.fence = claim.fence ∧ row.key = claim.key) ∨
      (renewed = true ∧ (∃ row ∈ s.claims, row.held = true ∧ row.fence = claim.fence ∧
          row.key = claim.key) ∧
        ∃ row ∈ s'.claims, row.held = true ∧ row.fence = claim.fence ∧ row.key = claim.key) := by
  unfold reserve at h
  split at h
  · cases h
  · split at h
    · obtain ⟨row, view, hinsert, hview, hanswer, rfl⟩ := acquire_eq_ok h
      obtain ⟨rfl, rfl⟩ := Answer.reserved.inj hanswer
      obtain ⟨-, hrow, -⟩ := insertClaim_eq_ok hinsert
      obtain ⟨hfence, hkey⟩ := toClaim_fence hview
      refine .inl ⟨rfl, by rw [hfence, hrow], row, ?_, by rw [hrow]; rfl, hfence.symm, hkey.symm⟩
      rw [claims_event]
      exact List.mem_append_right _ (List.mem_singleton_self row)
    next held hfound =>
      obtain ⟨hheld, hkey, hheldNow⟩ := findHeld_eq_some hfound
      split at h
      · obtain ⟨view, hview, h⟩ := bind_eq_ok_iff.mp h
        obtain ⟨hanswer, rfl⟩ := Prod.mk.inj (pure_eq_ok_iff.mp h)
        obtain ⟨rfl, rfl⟩ := Answer.reserved.inj hanswer
        obtain ⟨hfence, hviewKey⟩ := toClaim_fence hview
        refine .inr ⟨rfl, ⟨held, hheld, hheldNow, hfence.symm, hviewKey.symm⟩, ?_⟩
        refine ⟨renew (clock.now + ttlS * 1000) held, ?_, hheldNow, hfence.symm, hviewKey.symm⟩
        exact List.mem_map.mpr ⟨held, hheld, by simp⟩
      · obtain ⟨holder, -, h⟩ := bind_eq_ok_iff.mp h
        cases (Prod.mk.inj (pure_eq_ok_iff.mp h)).1

theorem granted_cases {renewed : Bool} {claim : Claim} (h : s.granted call = some (renewed, claim)) :
    (renewed = false ∧ claim.fence = s.claims.length + 1 ∨
      renewed = true ∧ ∃ row ∈ s.claims, row.held = true ∧ row.fence = claim.fence ∧
        row.key = claim.key) ∧
      ∃ row ∈ (s.step call).claims, row.held = true ∧ row.fence = claim.fence ∧
        row.key = claim.key := by
  unfold granted at h
  split at h
  next renewed' claim' next htransaction =>
    obtain ⟨rfl, rfl⟩ := Prod.mk.inj (Option.some.inj h)
    have hstep : s.step call = next := by simp [step, htransaction]
    rw [hstep]
    unfold transaction at htransaction
    split at htransaction
    · obtain ⟨view, -, h⟩ := bind_eq_ok_iff.mp htransaction
      cases (Prod.mk.inj (pure_eq_ok_iff.mp h)).1
    · unfold heartbeat at htransaction
      split at htransaction <;> cases htransaction
    · unfold declare at htransaction
      split at htransaction
      · cases htransaction
      · obtain ⟨view, -, h⟩ := bind_eq_ok_iff.mp htransaction
        cases (Prod.mk.inj (pure_eq_ok_iff.mp h)).1
    · unfold endActivity at htransaction
      split at htransaction <;> cases htransaction
    · rcases reserve_grants htransaction with ⟨rfl, hfence, hrow⟩ | ⟨rfl, hheld, hrow⟩
      · exact ⟨.inl ⟨rfl, hfence⟩, hrow⟩
      · exact ⟨.inr ⟨rfl, hheld⟩, hrow⟩
    · unfold release at htransaction
      split at htransaction <;> cases htransaction
    · obtain ⟨flagged, -, h⟩ := bind_eq_ok_iff.mp htransaction
      obtain ⟨views, -, h⟩ := bind_eq_ok_iff.mp h
      cases (Prod.mk.inj (pure_eq_ok_iff.mp h)).1
    · cases htransaction
  · cases h

/-- A later grant of a key has a higher fence, or renews the claim of the earlier one. -/
theorem granted_fences (h : s.Sound) {later : Call} {renewed renewed' : Bool} {claim claim' : Claim}
    (hfirst : s.granted call = some (renewed, claim))
    (hsecond : ((s.step call).after calls).granted later = some (renewed', claim'))
    (hkey : claim.key = claim'.key) :
    if renewed' then claim.fence ≤ claim'.fence else claim.fence < claim'.fence := by
  obtain ⟨row, hrow, hheld, hfence, hrowKey⟩ := (granted_cases hfirst).2
  have hsound : (s.step call).Sound := h.step
  have hcontinues : (s.step call).Continues ((s.step call).after calls) := hsound.continues_after
  have hle : claim.fence ≤ (s.step call).claims.length := hfence ▸ hsound.numbered.le_of_mem hrow
  rcases (granted_cases hsecond).1 with ⟨rfl, hnext⟩ | ⟨rfl, row', hrow', hheld', hfence', hkey'⟩
  · have hlength := hcontinues.length_le
    simp only [Bool.false_eq_true, if_false]
    omega
  · rw [if_pos rfl]
    rcases hcontinues.origin hsound.after hrow' with ⟨old, hold, hlater⟩ | hnew
    · -- The key was held by one claim when it was granted, so that claim is the renewed one.
      have hsame : old = row := by
        apply hsound.exclusive old hold row hrow (hlater.held hheld') hheld
        rw [← hlater.key, hkey', hrowKey, hkey]
      rw [← hfence, ← hfence', hlater.fence, hsame]
    · omega

/-! ## Overdue events -/

/-- The claim with the fence is flagged as overdue. -/
def isFlagged (s : MachineStore) (fence : Nat) : Bool :=
  s.claims.any fun row => row.fence = fence && row.overdueMs.isSome

/-- What may still be told about a claim before it is renewed. -/
def untold (s : MachineStore) (fence : Nat) : Nat := if s.isFlagged fence then 0 else 1

theorem isFlagged_iff :
    s.isFlagged fence = true ↔ ∃ row ∈ s.claims, row.fence = fence ∧ row.overdueMs.isSome = true := by
  simp [isFlagged]

/-- Rows with the fence that keep their flag leave the claim flagged or not as it was. -/
theorem isFlagged_map {change : ClaimRow → ClaimRow} (hclaims : s'.claims = s.claims.map change)
    (hfence : ∀ row, (change row).fence = row.fence)
    (hsame : ∀ row ∈ s.claims, row.fence = fence → (change row).overdueMs = row.overdueMs) :
    s'.isFlagged fence = s.isFlagged fence := by
  rw [Bool.eq_iff_iff, isFlagged_iff, isFlagged_iff, hclaims]
  constructor
  · rintro ⟨_, hlater, hrowFence, hflagged⟩
    obtain ⟨row, hrow, rfl⟩ := List.mem_map.mp hlater
    rw [hfence] at hrowFence
    exact ⟨row, hrow, hrowFence, hsame row hrow hrowFence ▸ hflagged⟩
  · rintro ⟨row, hrow, hrowFence, hflagged⟩
    exact ⟨change row, List.mem_map_of_mem hrow, (hfence row).trans hrowFence,
      (hsame row hrow hrowFence).symm ▸ hflagged⟩

/-- At most one row has a fence. -/
theorem Sound.countP_fence_le_one (h : s.Sound) (which : ClaimRow → Bool) :
    (s.claims.countP fun row => which row && row.fence = fence) ≤ 1 := by
  have hnodup : (s.claims.map (·.fence)).Nodup := by
    rw [show s.claims.map (·.fence) = _ from h.numbered]
    exact List.nodup_range'
  calc s.claims.countP (fun row => which row && row.fence = fence)
      ≤ s.claims.countP (fun row => row.fence = fence) :=
        List.countP_mono_left fun row _ hrow => (Bool.and_eq_true_iff.mp hrow).2
    _ = (s.claims.map (·.fence)).count fence := by
        rw [List.count_eq_countP, List.countP_map]
        congr 1
    _ ≤ 1 := List.nodup_iff_count_le_one.mp hnodup fence

theorem untold_flagged (h : s.Sound) {clock : Clock}
    (hclaims : s'.claims = s.claims.map fun row =>
      if lapsed clock row then { row with overdueMs := some clock.now } else row) :
    (s.claims.countP fun row => lapsed clock row && row.fence = fence) + s'.untold fence ≤
      s.untold fence := by
  by_cases hlapsed : ∃ row ∈ s.claims, lapsed clock row = true ∧ row.fence = fence
  · obtain ⟨row, hrow, hrowLapsed, hfence⟩ := hlapsed
    -- The lapsed row is the only one with its fence: it was not flagged, and now it is.
    have hafter : s'.isFlagged fence = true := by
      rw [isFlagged_iff, hclaims]
      refine ⟨_, List.mem_map_of_mem hrow, ?_⟩
      rw [if_pos hrowLapsed]
      exact ⟨hfence, rfl⟩
    have hbefore : s.isFlagged fence = false := by
      rw [Bool.eq_false_iff, Ne, isFlagged_iff]
      rintro ⟨other, hother, hotherFence, hflagged⟩
      obtain rfl := h.numbered.inj hother hrow (hotherFence.trans hfence.symm)
      simp only [lapsed, Bool.and_eq_true, Option.isNone_iff_eq_none] at hrowLapsed
      simp [hrowLapsed.1.2] at hflagged
    rw [untold, untold, hafter, hbefore, if_pos rfl, if_neg Bool.false_ne_true]
    exact h.countP_fence_le_one _
  · push Not at hlapsed
    have hcount : (s.claims.countP fun row => lapsed clock row && row.fence = fence) = 0 := by
      rw [List.countP_eq_zero]
      intro row hrow hboth
      obtain ⟨hrowLapsed, hfence⟩ := Bool.and_eq_true_iff.mp hboth
      exact hlapsed row hrow hrowLapsed (by simpa using hfence)
    have hsame : s'.isFlagged fence = s.isFlagged fence := by
      apply isFlagged_map hclaims
      · intro row
        split <;> rfl
      · intro row hrow hfence
        rw [if_neg fun hrowLapsed => hlapsed row hrow hrowLapsed hfence]
    rw [hcount, untold, untold, hsame, Nat.zero_add]

/-- A call that does not renew a claim tells at most what was untold about it. -/
theorem Sound.told (h : s.Sound) (hquiet : s.renews call fence = false) :
    (s.step call).overdueCount fence + (s.step call).untold fence ≤
      s.overdueCount fence + s.untold fence := by
  rcases step_effect h.numbered with hsame | heffect
  · rw [hsame]
  · cases heffect with
    | sessions hclaims _ hcount => simp [hcount, untold, isFlagged, hclaims]
    | renewed which expiresMs hrenews hclaims _ hcount =>
        have hsame : (s.step call).isFlagged fence = s.isFlagged fence := by
          apply isFlagged_map hclaims
          · exact fun row => (later_ite (later_renew expiresMs) row).fence
          · intro row hrow hfence
            have hnot : ¬ which row = true := by
              intro hwhich
              have := (hrenews row hrow hwhich).2
              rw [hfence, hquiet] at this
              cases this
            rw [if_neg hnot]
        rw [hcount, untold, untold, hsame]
    | released which releasedMs hclaims _ hcount =>
        have hsame : (s.step call).isFlagged fence = s.isFlagged fence := by
          apply isFlagged_map hclaims
          · exact fun row => (later_ite (later_release releasedMs) row).fence
          · intro row _ _
            split <;> rfl
        rw [hcount, untold, untold, hsame]
    | acquired row hclaims _ hcurrent _ _ _ hcount =>
        simp [hcount, untold, isFlagged, hclaims, hcurrent]
    | flagged _ hclaims _ htold =>
        have hle : _ + (s.step call).untold fence ≤ s.untold fence := untold_flagged h hclaims
        rw [htold, Nat.add_assoc]
        exact Nat.add_le_add_left hle _

/-- While a claim is not renewed, at most one event says that it is overdue. -/
theorem Sound.told_once (h : s.Sound)
    (hquiet : Throughout (fun past call => (s.after past).renews call fence = false) calls) :
    (s.after calls).overdueCount fence + (s.after calls).untold fence ≤
      s.overdueCount fence + s.untold fence := by
  induction calls using List.reverseRecOn with
  | nil => exact le_rfl
  | append_singleton past call ih =>
      rw [after_append]
      exact (h.after.told hquiet.last).trans (ih (hquiet.of_isPrefix (List.prefix_append past _)))

/-- A claim is told to be overdue by a sweep after its expiry, and it stays held. -/
theorem Sound.told_after_expiry (h : s.Sound)
    (htold : (s.step call).overdueCount fence ≠ s.overdueCount fence) :
    call.operation = .sweepOverdue ∧ ∃ row ∈ s.claims, row.fence = fence ∧ row.held = true ∧
      row.expiresMs < call.clock.now ∧
      { row with overdueMs := some call.clock.now } ∈ (s.step call).claims := by
  rcases step_effect h.numbered with hsame | heffect
  · exact absurd (by rw [hsame]) htold
  · cases heffect with
    | sessions _ _ hcount => exact absurd (hcount fence) htold
    | renewed _ _ _ _ _ hcount => exact absurd (hcount fence) htold
    | released _ _ _ _ hcount => exact absurd (hcount fence) htold
    | acquired _ _ _ _ _ _ _ hcount => exact absurd (hcount fence) htold
    | flagged hoperation hclaims _ hcount =>
        have hpos : 0 < s.claims.countP fun row => lapsed call.clock row && row.fence = fence := by
          have := hcount fence
          omega
        obtain ⟨row, hrow, hboth⟩ := List.countP_pos_iff.mp hpos
        obtain ⟨hlapsed, hfence⟩ := Bool.and_eq_true_iff.mp hboth
        refine ⟨hoperation, row, hrow, by simpa using hfence, ?_⟩
        have hmem := List.mem_map_of_mem (f := fun row =>
          if lapsed call.clock row then { row with overdueMs := some call.clock.now } else row) hrow
        rw [if_pos hlapsed, ← hclaims] at hmem
        simp only [lapsed, Bool.and_eq_true, decide_eq_true_eq] at hlapsed
        exact ⟨hlapsed.1.1, hlapsed.2, hmem⟩

/-! ## Exclusion and fencing -/

theorem release_stale {key : String} {stale : Int} {clock : Clock} {staleMs : Option Int}
    (h : ∀ row ∈ s.claims, row.held = true → row.key = key → (row.fence : Int) ≠ stale) :
    s.step ⟨.release key stale, clock, staleMs⟩ = s := by
  have hnone : s.claims.any (named key stale) = false := by
    rw [List.any_eq_false]
    intro row hrow hnamed
    simp only [named, Bool.and_eq_true, decide_eq_true_eq] at hnamed
    exact h row hrow hnamed.2 hnamed.1.1 hnamed.1.2
  simp [step, transaction, release, hnone]

theorem Sound.countP_held_le_one (h : s.Sound) (key : String) :
    (s.claims.countP fun row => row.key = key && row.held) ≤ 1 := by
  have hnodup : s.claims.Nodup := by
    apply List.Nodup.of_map ClaimRow.fence
    rw [show s.claims.map ClaimRow.fence = _ from h.numbered]
    exact List.nodup_range'
  have hfilter := hnodup.filter fun row => row.key = key && row.held
  have hof : ∀ row ∈ s.claims.filter fun row => row.key = key && row.held,
      row ∈ s.claims ∧ row.key = key ∧ row.held = true := fun row hrow => by simpa using hrow
  rw [List.countP_eq_length_filter]
  generalize s.claims.filter _ = found at hfilter hof
  match found with
  | [] => exact Nat.zero_le 1
  | [_] => exact le_rfl
  | row :: other :: rest =>
      exfalso
      obtain ⟨hrow, hkey, hheld⟩ := hof row (by simp)
      obtain ⟨hother, hkey', hheld'⟩ := hof other (by simp)
      obtain rfl := h.exclusive row hrow other hother hheld hheld' (hkey.trans hkey'.symm)
      simp at hfilter

/-- The law of the reservations, at every moment of every run of calls. A heartbeat or a
reservation that renews a claim answers its old fence; a fresh claim has a higher one. -/
theorem reservations_exclude_and_fence (calls : List Call) :
    let s := initial.after calls
    (∀ key, (s.claims.countP fun row => row.key = key && row.held) ≤ 1) ∧
      (∀ more, ∀ row ∈ s.claims, (∃ later ∈ (s.after more).claims, row.Later later) ∧
        ∀ later ∈ (s.after more).claims, later.fence = row.fence → later.owner = row.owner) ∧
      (∀ call between later renewed renewed' claim claim',
        s.granted call = some (renewed, claim) →
        ((s.step call).after between).granted later = some (renewed', claim') →
        claim.key = claim'.key →
        if renewed' then claim.fence ≤ claim'.fence else claim.fence < claim'.fence) ∧
      (∀ key stale clock staleMs,
        (∀ row ∈ s.claims, row.held = true → row.key = key → (row.fence : Int) ≠ stale) →
        s.step ⟨.release key stale, clock, staleMs⟩ = s) ∧
      (∀ row ∈ s.claims, row.held = true →
        ∃ activity ∈ s.activities, activity.id = row.owner ∧ activity.active = true) ∧
      (∀ fence more, Throughout (fun past call => (s.after past).renews call fence = false) more →
        (s.after more).overdueCount fence ≤ s.overdueCount fence + 1) ∧
      (∀ call fence, (s.step call).overdueCount fence ≠ s.overdueCount fence →
        call.operation = .sweepOverdue ∧ ∃ row ∈ s.claims, row.fence = fence ∧ row.held = true ∧
          row.expiresMs < call.clock.now ∧
          { row with overdueMs := some call.clock.now } ∈ (s.step call).claims) := by
  intro s
  have hsound : s.Sound := sound_initial.after
  refine ⟨hsound.countP_held_le_one, ?_, ?_, ?_, hsound.owners, ?_, ?_⟩
  · intro more row hrow
    obtain ⟨later, hlater, hrowLater⟩ := hsound.continues_after.exists_later hrow
    refine ⟨⟨later, hlater, hrowLater⟩, fun other hother hfence => ?_⟩
    rw [hsound.after.numbered.inj hother hlater (hfence.trans hrowLater.fence.symm), hrowLater.owner]
  · intro call between later renewed renewed' claim claim' hfirst hsecond hkey
    exact granted_fences hsound hfirst hsecond hkey
  · intro key stale clock staleMs h
    exact release_stale h
  · intro fence more hquiet
    have htold := hsound.told_once hquiet
    have : s.untold fence ≤ 1 := by
      unfold untold
      split <;> omega
    omega
  · intro call fence htold
    exact hsound.told_after_expiry htold

end MachineStore

end Hseos.Coordination
