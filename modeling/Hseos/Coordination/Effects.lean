import Hseos.Coordination.Store
import Hseos.Foundation.Numbered

/-! # What a call does to the tables

Each call changes the claims in one of a few ways: it leaves them, renews some,
releases some, adds one or flags the lapsed ones.
-/

namespace Hseos.Coordination

namespace EventPayload

/-- The event says that the claim with the fence is overdue. -/
def tellsOverdue (fence : Nat) : EventPayload → Bool
  | claimOverdue _ told _ => told = fence
  | _ => false

end EventPayload

namespace MachineStore

variable {s s' next : MachineStore} {clock : Clock} {call : Call} {answer : Answer}
  {payload : EventPayload} {reasonCode : ReasonCode} {activityId dedupeKey : Option String}
  {which : ClaimRow → Bool} {change : ClaimRow → ClaimRow} {id owner kind key : String}

/-- The activity exists and has not ended. -/
def IsActive (s : MachineStore) (id : String) : Prop :=
  ∃ row ∈ s.activities, row.id = id ∧ row.active = true

/-- The number of events that say that the claim with the fence is overdue. -/
def overdueCount (s : MachineStore) (fence : Nat) : Nat :=
  s.events.countP fun row => row.payload.tellsOverdue fence

/-! ## The pieces of a transaction -/

@[simp] theorem activities_event :
    (s.event clock payload reasonCode activityId dedupeKey).activities = s.activities := by
  unfold event
  split <;> rfl

@[simp] theorem claims_event :
    (s.event clock payload reasonCode activityId dedupeKey).claims = s.claims := by
  unfold event
  split <;> rfl

theorem overdueCount_event (hquiet : ∀ fence, payload.tellsOverdue fence = false) (fence : Nat) :
    (s.event clock payload reasonCode activityId dedupeKey).overdueCount fence =
      s.overdueCount fence := by
  unfold event
  split
  · rfl
  · simp [overdueCount, List.countP_append, hquiet]

@[simp] theorem activities_updateClaims :
    (s.updateClaims which change).activities = s.activities := rfl

@[simp] theorem claims_updateActivity {change : ActivityRow → ActivityRow} :
    (s.updateActivity id change).claims = s.claims := rfl

@[simp] theorem overdueCount_updateClaims (fence : Nat) :
    (s.updateClaims which change).overdueCount fence = s.overdueCount fence := rfl

@[simp] theorem overdueCount_updateActivity {change : ActivityRow → ActivityRow} (fence : Nat) :
    (s.updateActivity id change).overdueCount fence = s.overdueCount fence := rfl

theorem IsActive.congr (h : s.IsActive id) (hsame : s'.activities = s.activities) :
    s'.IsActive id := by
  rw [IsActive, hsame]
  exact h

/-- An update that leaves the ids and ends nothing leaves the sessions active. -/
theorem IsActive.updateActivity {other : String} {change : ActivityRow → ActivityRow}
    (h : s.IsActive other) (hid : ∀ row, (change row).id = row.id)
    (hactive : ∀ row, row.active = true → (change row).active = true) :
    (s.updateActivity id change).IsActive other := by
  obtain ⟨row, hrow, rfl, hrowActive⟩ := h
  refine ⟨_, List.mem_map_of_mem hrow, ?_⟩
  by_cases hchanged : row.id = id
  · rw [if_pos hchanged]
    exact ⟨hid row, hactive row hrowActive⟩
  · rw [if_neg hchanged]
    exact ⟨rfl, hrowActive⟩

theorem isActive_of_findActive {row : ActivityRow} (h : s.findActive id = some row) :
    s.IsActive id := by
  have hrow := List.find?_some h
  simp only [Bool.and_eq_true, decide_eq_true_eq] at hrow
  exact ⟨row, List.mem_of_find?_eq_some h, hrow⟩

/-! ## Effects -/

/-- The call renews the claim with the fence: a heartbeat of its owner, or a reservation that
finds its owner holding it. -/
def renews (s : MachineStore) (call : Call) (fence : Nat) : Bool :=
  match call.operation, s.transaction call with
  | .heartbeat id _, .ok (.renewed _, _) => s.claims.any fun row => row.fence = fence && heldBy id row
  | .reserve .., .ok (.reserved true claim, _) => claim.fence = fence
  | _, _ => false

/-- What a committed call made of the tables. -/
inductive Effect (s : MachineStore) (call : Call) (s' : MachineStore) : Prop where
  /-- No claim was touched, and no session ended. -/
  | sessions (claims : s'.claims = s.claims) (active : ∀ id, s.IsActive id → s'.IsActive id)
      (quiet : ∀ fence, s'.overdueCount fence = s.overdueCount fence)
  | renewed (which : ClaimRow → Bool) (expiresMs : Int)
      (renews : ∀ row ∈ s.claims, which row = true → row.held = true ∧ s.renews call row.fence = true)
      (claims : s'.claims = s.claims.map fun row => if which row then renew expiresMs row else row)
      (active : ∀ id, s.IsActive id → s'.IsActive id)
      (quiet : ∀ fence, s'.overdueCount fence = s.overdueCount fence)
  /-- A session that ended lost every claim that it held. -/
  | released (which : ClaimRow → Bool) (releasedMs : Int)
      (claims : s'.claims = s.claims.map fun row =>
        if which row then { row with releasedMs := some releasedMs } else row)
      (active : ∀ id, s.IsActive id →
        s'.IsActive id ∨ ∀ row ∈ s.claims, heldBy id row = true → which row = true)
      (quiet : ∀ fence, s'.overdueCount fence = s.overdueCount fence)
  | acquired (row : ClaimRow) (claims : s'.claims = s.claims ++ [row])
      (fence : row.fence = s.claims.length + 1) (current : row.overdueMs = none)
      (free : ∀ other ∈ s.claims, other.held = true → other.key ≠ row.key)
      (owner : s.IsActive row.owner) (activities : s'.activities = s.activities)
      (quiet : ∀ fence, s'.overdueCount fence = s.overdueCount fence)
  | flagged (operation : call.operation = .sweepOverdue)
      (claims : s'.claims = s.claims.map fun row =>
        if lapsed call.clock row then { row with overdueMs := some call.clock.now } else row)
      (activities : s'.activities = s.activities)
      (told : ∀ fence, s'.overdueCount fence = s.overdueCount fence +
        s.claims.countP fun row => lapsed call.clock row && row.fence = fence)

/-! ### Sessions -/

theorem register_effect {activity : Registration}
    (h : s.register clock activity = .ok (answer, next)) : s.Effect call next := by
  obtain ⟨view, -, h⟩ := bind_eq_ok_iff.mp h
  obtain ⟨rfl, rfl⟩ := Prod.mk.inj (pure_eq_ok_iff.mp h)
  have hactive : ∀ id, s.IsActive id → (s.upsertActivity clock activity).IsActive id := by
    intro id hid
    unfold upsertActivity
    split
    · exact hid.updateActivity (fun _ => rfl) fun _ _ => rfl
    · obtain ⟨row, hrow, hactive⟩ := hid
      exact ⟨row, List.mem_append_left _ hrow, hactive⟩
  have hclaims : (s.upsertActivity clock activity).claims = s.claims := by
    unfold upsertActivity
    split <;> rfl
  have hquiet : ∀ fence, (s.upsertActivity clock activity).overdueCount fence =
      s.overdueCount fence := by
    intro fence
    unfold upsertActivity
    split <;> rfl
  apply Effect.sessions
  · rw [claims_event, hclaims]
  · exact fun id hid => (hactive id hid).congr activities_event
  · intro fence
    rw [overdueCount_event fun _ => rfl, hquiet]

theorem heartbeat_effect {staleMs : Option Int} {ttlS : Int}
    (hcall : call.operation = .heartbeat id ttlS)
    (htransaction : s.transaction call = .ok (answer, next))
    (h : s.heartbeat clock staleMs id ttlS = .ok (answer, next)) : s.Effect call next := by
  unfold heartbeat at h
  split at h
  · obtain ⟨-, rfl⟩ := Prod.mk.inj (Except.ok.inj h)
    exact .sessions rfl (fun _ hid => hid) fun _ => rfl
  · obtain ⟨rfl, rfl⟩ := Prod.mk.inj (Except.ok.inj h)
    have hactive : ∀ other, s.IsActive other →
        (s.updateActivity id fun row => { row with heartbeatMs := clock.now }).IsActive other :=
      fun other hother => hother.updateActivity (fun _ => rfl) fun _ hrow => hrow
    apply Effect.renewed (heldBy id) (clock.now + ttlS * 1000)
    · intro row hrow hheld
      refine ⟨(Bool.and_eq_true_iff.mp hheld).2, ?_⟩
      simp only [renews, hcall, htransaction, List.any_eq_true]
      exact ⟨row, hrow, by simpa using hheld⟩
    · split
      · rw [claims_event]
        rfl
      · rfl
    · intro other hother
      split
      · exact (hactive other hother).congr activities_event
      · exact hactive other hother
    · intro fence
      split
      · rw [overdueCount_event fun _ => rfl]
        rfl
      · rfl

theorem declare_effect {paths identifiers : List String} {intent : Option String}
    (h : s.declare clock id paths identifiers intent = .ok (answer, next)) : s.Effect call next := by
  unfold declare at h
  split at h
  · obtain ⟨-, rfl⟩ := Prod.mk.inj (Except.ok.inj h)
    exact .sessions rfl (fun _ hid => hid) fun _ => rfl
  · obtain ⟨view, -, h⟩ := bind_eq_ok_iff.mp h
    obtain ⟨-, rfl⟩ := Prod.mk.inj (pure_eq_ok_iff.mp h)
    apply Effect.sessions
    · rw [claims_event]
      rfl
    · intro other hother
      refine IsActive.congr ?_ activities_event
      exact hother.updateActivity (fun _ => rfl) fun _ hrow => hrow
    · intro fence
      rw [overdueCount_event fun _ => rfl]
      rfl

/-- Telling that claims are released changes nothing but the events. -/
theorem foldl_released (clock : Clock) (id : String) (s : MachineStore) (held : List ClaimRow) :
    (held.foldl (fun next row =>
      next.event clock (.claimReleased row.key row.fence) .ownerEnded (some id) none) s).claims =
        s.claims ∧
    (held.foldl (fun next row =>
      next.event clock (.claimReleased row.key row.fence) .ownerEnded (some id) none) s).activities =
        s.activities ∧
    ∀ fence, (held.foldl (fun next row =>
      next.event clock (.claimReleased row.key row.fence) .ownerEnded (some id) none) s).overdueCount
        fence = s.overdueCount fence := by
  induction held generalizing s with
  | nil => exact ⟨rfl, rfl, fun _ => rfl⟩
  | cons row rest ih =>
      obtain ⟨hclaims, hactivities, hquiet⟩ :=
        ih (s.event clock (.claimReleased row.key row.fence) .ownerEnded (some id) none)
      refine ⟨hclaims.trans claims_event, hactivities.trans activities_event, fun fence => ?_⟩
      rw [List.foldl_cons, hquiet, overdueCount_event fun _ => rfl]

theorem endActivity_effect (h : s.endActivity clock id = .ok (answer, next)) :
    s.Effect call next := by
  unfold endActivity at h
  split at h
  · obtain ⟨-, rfl⟩ := Prod.mk.inj (Except.ok.inj h)
    exact .sessions rfl (fun _ hid => hid) fun _ => rfl
  · obtain ⟨-, rfl⟩ := Prod.mk.inj (Except.ok.inj h)
    obtain ⟨hclaims, hactivities, hquiet⟩ := foldl_released clock id
      ((s.updateActivity id fun row =>
        if row.active then { row with endedMs := some clock.now } else row).updateClaims (heldBy id)
          fun row => { row with releasedMs := some clock.now }) (s.claims.filter (heldBy id))
    apply Effect.released (heldBy id) clock.now
    · rw [claims_event, hclaims]
      rfl
    · intro other hother
      by_cases hsame : other = id
      · exact .inr fun row _ hrow => hsame ▸ hrow
      · left
        obtain ⟨row, hrow, rfl, hactive⟩ := hother
        refine IsActive.congr ?_ (activities_event.trans hactivities)
        refine ⟨row, List.mem_map.mpr ⟨row, hrow, if_neg hsame⟩, rfl, hactive⟩
    · intro fence
      rw [overdueCount_event fun _ => rfl, hquiet]
      rfl

/-! ### Claims -/

theorem refuse_effect {held : ClaimRow}
    (h : s.refuse clock owner key held = .ok (answer, next)) : s.Effect call next := by
  obtain ⟨holder, -, h⟩ := bind_eq_ok_iff.mp h
  obtain ⟨-, rfl⟩ := Prod.mk.inj (pure_eq_ok_iff.mp h)
  exact .sessions claims_event (fun _ hid => hid.congr activities_event)
    (overdueCount_event fun _ => rfl)

theorem toClaim_fence {row : ClaimRow} {view : Claim} (h : toClaim row = .ok view) :
    view.fence = row.fence ∧ view.key = row.key := by
  obtain ⟨acquiredAt, -, h⟩ := bind_eq_ok_iff.mp h
  obtain ⟨expiresAt, -, h⟩ := bind_eq_ok_iff.mp h
  obtain rfl := pure_eq_ok_iff.mp h
  exact ⟨rfl, rfl⟩

theorem toClaim_owner {row : ClaimRow} {view : Claim} (h : toClaim row = .ok view) :
    view.owner = row.owner ∧ view.kind = row.kind := by
  obtain ⟨acquiredAt, -, h⟩ := bind_eq_ok_iff.mp h
  obtain ⟨expiresAt, -, h⟩ := bind_eq_ok_iff.mp h
  obtain rfl := pure_eq_ok_iff.mp h
  exact ⟨rfl, rfl⟩

theorem insertClaim_eq_ok {ttlS : Int} {row : ClaimRow}
    (h : s.insertClaim clock owner kind key ttlS = .ok (row, next)) :
    (∀ other ∈ s.claims, other.held = true → other.key ≠ key) ∧
      row = ⟨s.claims.length + 1, key, kind, owner, clock.now, clock.now + ttlS * 1000, none, none⟩ ∧
      next = { s with claims := s.claims ++ [row] } := by
  obtain ⟨hfree, h⟩ := reject_bind_eq_ok_iff.mp h
  obtain ⟨rfl, rfl⟩ := Prod.mk.inj (pure_eq_ok_iff.mp h)
  refine ⟨?_, rfl, rfl⟩
  intro other hother hheld hkey
  have := List.any_eq_false.mp hfree other hother
  simp [hheld, hkey] at this

theorem acquire_eq_ok {ttlS : Int} (h : s.acquire clock owner kind key ttlS = .ok (answer, next)) :
    ∃ row view, s.insertClaim clock owner kind key ttlS =
        .ok (row, { s with claims := s.claims ++ [row] }) ∧ toClaim row = .ok view ∧
      answer = .reserved false view ∧
      next = ({ s with claims := s.claims ++ [row] } : MachineStore).event clock
        (.claimAcquired key kind row.fence) .acquired (some owner) none := by
  obtain ⟨⟨row, inserted⟩, hinsert, h⟩ := bind_eq_ok_iff.mp h
  obtain ⟨view, hview, h⟩ := bind_eq_ok_iff.mp h
  obtain ⟨rfl, rfl⟩ := Prod.mk.inj (pure_eq_ok_iff.mp h)
  obtain rfl := (insertClaim_eq_ok hinsert).2.2
  exact ⟨row, view, hinsert, hview, rfl, rfl⟩

theorem acquire_effect {ttlS : Int} (hactive : s.IsActive owner)
    (h : s.acquire clock owner kind key ttlS = .ok (answer, next)) : s.Effect call next := by
  obtain ⟨row, view, hinsert, -, -, rfl⟩ := acquire_eq_ok h
  obtain ⟨hfree, hrow, -⟩ := insertClaim_eq_ok hinsert
  apply Effect.acquired row
  · exact claims_event
  · rw [hrow]
  · rw [hrow]
  · rw [hrow]
    exact hfree
  · rw [hrow]
    exact hactive
  · exact activities_event
  · intro fence
    rw [overdueCount_event fun _ => rfl]
    rfl

theorem findHeld_eq_some {row : ClaimRow} (h : s.findHeld key = some row) :
    row ∈ s.claims ∧ row.key = key ∧ row.held = true := by
  have hrow := List.find?_some h
  simp only [Bool.and_eq_true, decide_eq_true_eq] at hrow
  exact ⟨List.mem_of_find?_eq_some h, hrow⟩

theorem reserve_effect {ttlS : Int} (hnumbered : Numbered ClaimRow.fence s.claims)
    (hcall : call.operation = .reserve owner kind key ttlS)
    (htransaction : s.transaction call = .ok (answer, next))
    (h : s.reserve clock owner kind key ttlS = .ok (answer, next)) : s.Effect call next := by
  unfold reserve at h
  split at h
  · obtain ⟨-, rfl⟩ := Prod.mk.inj (Except.ok.inj h)
    exact .sessions rfl (fun _ hid => hid) fun _ => rfl
  next activity hactivity =>
    split at h
    · exact acquire_effect (isActive_of_findActive hactivity) h
    next held hfound =>
      split at h
      · obtain ⟨view, hview, h⟩ := bind_eq_ok_iff.mp h
        obtain ⟨rfl, rfl⟩ := Prod.mk.inj (pure_eq_ok_iff.mp h)
        obtain ⟨hheld, -, hheldNow⟩ := findHeld_eq_some hfound
        apply Effect.renewed (·.fence = held.fence) (clock.now + ttlS * 1000)
        · intro row hrow hfence
          have hfence : row.fence = held.fence := by simpa using hfence
          obtain rfl := hnumbered.inj hrow hheld hfence
          refine ⟨hheldNow, ?_⟩
          have hsame : view.fence = row.fence := (toClaim_fence hview).1
          simp only [renews, hcall, htransaction, hsame, decide_true]
        · rfl
        · exact fun _ hid => hid
        · exact fun _ => rfl
      · exact refuse_effect h

theorem release_effect {fence : Int} (h : s.release clock key fence = .ok (answer, next)) :
    s.Effect call next := by
  unfold release at h
  split at h
  · obtain ⟨-, rfl⟩ := Prod.mk.inj (Except.ok.inj h)
    apply Effect.released (named key fence) clock.now
    · rw [claims_event]
      rfl
    · exact fun _ hid => .inl (hid.congr activities_event)
    · intro told
      rw [overdueCount_event fun _ => rfl]
      rfl
  · obtain ⟨-, rfl⟩ := Prod.mk.inj (Except.ok.inj h)
    exact .sessions rfl (fun _ hid => hid) fun _ => rfl

theorem release_of_named (clock : Clock) {fence : Int} (h : s.claims.any (named key fence) = true) :
    ∃ next, s.release clock key fence = .ok (.released, next) ∧ next.activities = s.activities ∧
      next.claims = s.claims.map fun row =>
        if named key fence row then { row with releasedMs := some clock.now } else row := by
  refine ⟨_, if_pos h, activities_event, ?_⟩
  rw [claims_event]
  rfl

/-! ### The sweep -/

theorem flagOverdue_eq_ok {row : ClaimRow} (h : s.flagOverdue clock row = .ok next) :
    next.activities = s.activities ∧
      next.claims = s.claims.map (fun other =>
        if other.fence = row.fence then { other with overdueMs := some clock.now } else other) ∧
      ∀ fence, next.overdueCount fence =
        s.overdueCount fence + if row.fence = fence then 1 else 0 := by
  obtain ⟨expiresAt, -, h⟩ := bind_eq_ok_iff.mp h
  obtain rfl := pure_eq_ok_iff.mp h
  refine ⟨activities_event, ?_, fun fence => ?_⟩
  · simp [updateClaims]
  · simp [event, overdueCount, updateClaims, List.countP_append, EventPayload.tellsOverdue,
      List.countP_singleton]

theorem foldlM_flagOverdue {rows : List ClaimRow}
    (h : rows.foldlM (fun next row => next.flagOverdue clock row) s = .ok next) :
    next.activities = s.activities ∧
      next.claims = s.claims.map (fun other =>
        if other.fence ∈ rows.map (·.fence) then { other with overdueMs := some clock.now }
        else other) ∧
      ∀ fence, next.overdueCount fence = s.overdueCount fence + rows.countP (·.fence = fence) := by
  induction rows generalizing s with
  | nil =>
      obtain rfl := pure_eq_ok_iff.mp h
      simp
  | cons row rest ih =>
      rw [List.foldlM_cons] at h
      obtain ⟨middle, hrow, hrest⟩ := bind_eq_ok_iff.mp h
      obtain ⟨hactivities, hclaims, htold⟩ := flagOverdue_eq_ok hrow
      obtain ⟨hactivities', hclaims', htold'⟩ := ih hrest
      refine ⟨hactivities'.trans hactivities, ?_, fun fence => ?_⟩
      · rw [hclaims', hclaims, List.map_map]
        apply List.map_congr_left
        intro other _
        by_cases hother : other.fence = row.fence
        · simp [hother]
        · simp [hother]
      · rw [htold', htold, List.countP_cons]
        simp only [decide_eq_true_eq]
        omega

theorem sweepOverdue_effect (hnumbered : Numbered ClaimRow.fence s.claims)
    (hcall : call.operation = .sweepOverdue)
    (h : s.sweepOverdue call.clock = .ok (answer, next)) : s.Effect call next := by
  obtain ⟨flagged, hflagged, h⟩ := bind_eq_ok_iff.mp h
  obtain ⟨views, -, h⟩ := bind_eq_ok_iff.mp h
  obtain ⟨-, rfl⟩ := Prod.mk.inj (pure_eq_ok_iff.mp h)
  obtain ⟨hactivities, hclaims, htold⟩ := foldlM_flagOverdue hflagged
  apply Effect.flagged hcall
  · rw [hclaims]
    apply List.map_congr_left
    intro row hrow
    -- A lapsed row is the only one with its fence.
    have hmem : row.fence ∈ (s.claims.filter (lapsed call.clock)).map (·.fence) ↔
        lapsed call.clock row = true := by
      constructor
      · intro hfence
        obtain ⟨other, hother, hsame⟩ := List.mem_map.mp hfence
        obtain ⟨hother, hlapsed⟩ := List.mem_filter.mp hother
        rwa [← hnumbered.inj hother hrow hsame]
      · exact fun hlapsed => List.mem_map_of_mem (List.mem_filter.mpr ⟨hrow, hlapsed⟩)
    simp only [hmem]
  · exact hactivities
  · intro fence
    rw [htold, List.countP_filter]
    congr 2
    funext row
    exact Bool.and_comm _ _

theorem recordEvent_effect {event : Recorded} {code activityId dedupeKey : String}
    (h : s.recordEvent clock event code activityId dedupeKey = .ok (answer, next)) :
    s.Effect call next := by
  obtain ⟨-, rfl⟩ := Prod.mk.inj (Except.ok.inj h)
  exact .sessions claims_event (fun _ hid => hid.congr activities_event)
    (overdueCount_event fun _ => rfl)

/-- Every call that commits has one of the effects. -/
theorem transaction_effect (hnumbered : Numbered ClaimRow.fence s.claims)
    (h : s.transaction call = .ok (answer, next)) : s.Effect call next := by
  have htransaction := h
  unfold transaction at h
  split at h
  next activity _ => exact register_effect h
  next id ttlS hcall => exact heartbeat_effect hcall htransaction h
  next id paths identifiers intent _ => exact declare_effect h
  next id _ => exact endActivity_effect h
  next owner kind key ttlS hcall => exact reserve_effect hnumbered hcall htransaction h
  next key fence _ => exact release_effect h
  next hcall => exact sweepOverdue_effect hnumbered hcall h
  next event code activityId dedupeKey _ => exact recordEvent_effect h

/-- The step of a call leaves the tables or has one of the effects. -/
theorem step_effect (hnumbered : Numbered ClaimRow.fence s.claims) :
    s.step call = s ∨ s.Effect call (s.step call) := by
  unfold step
  split
  next answer next h => exact .inr (transaction_effect hnumbered h)
  · exact .inl rfl

end MachineStore

end Hseos.Coordination
