import Hseos.Coordination.Effects

/-! # What a call does to the sessions

A call leaves the table of sessions alone, or it makes one change that its operation names. The
ids of the sessions are the keys of the table.
-/

namespace Hseos.Coordination.MachineStore

variable {s next : MachineStore} {clock : Clock} {call : Call} {answer : Answer}
  {change : ActivityRow → ActivityRow} {id other owner kind key : String} {staleMs : Option Int}
  {ttlS : Int}

/-! ## Updates -/

theorem ids_updateActivity (h : ∀ row, (change row).id = row.id) :
    (s.updateActivity id change).activities.map (·.id) = s.activities.map (·.id) := by
  rw [updateActivity, List.map_map]
  refine List.map_congr_left fun row _ => ?_
  by_cases hrow : row.id = id
  · simp [hrow, h]
  · simp [hrow]

theorem findActivity_updateActivity (h : ∀ row, (change row).id = row.id) :
    (s.updateActivity id change).findActivity other =
      if other = id then (s.findActivity id).map change else s.findActivity other := by
  have hid : ∀ row : ActivityRow, (if row.id = id then change row else row).id = row.id := by
    intro row
    split
    · exact h row
    · rfl
  rw [findActivity, updateActivity, List.find?_map]
  have htest : ((fun row : ActivityRow => decide (row.id = other)) ∘ fun row : ActivityRow =>
      if row.id = id then change row else row) = fun row => decide (row.id = other) := by
    funext row
    simp only [Function.comp, hid]
  rw [htest]
  split
  next hother =>
    subst hother
    cases hfind : s.activities.find? (fun row => decide (row.id = other)) with
    | none => simp [findActivity, hfind]
    | some row =>
        have hrow : row.id = other := by simpa using List.find?_some hfind
        simp [findActivity, hfind, hrow]
  next hother =>
    cases hfind : s.activities.find? (fun row => decide (row.id = other)) with
    | none => simp [findActivity, hfind]
    | some row =>
        have hrow : row.id = other := by simpa using List.find?_some hfind
        simp [findActivity, hfind, hrow, hother]

theorem findActivity_congr (h : next.activities = s.activities) :
    next.findActivity id = s.findActivity id := by
  rw [findActivity, h, findActivity]

theorem findActivity_upsertActivity {activity : Registration} :
    (s.upsertActivity clock activity).findActivity other =
      if other = activity.id then
        some ((s.findActivity activity.id).elim (newActivity clock activity)
          (reregister clock activity))
      else s.findActivity other := by
  unfold upsertActivity
  split
  next hknown =>
    obtain ⟨row, hrow⟩ := Option.isSome_iff_exists.mp hknown
    have hid : ∀ row, (reregister clock activity row).id = row.id := fun _ => rfl
    rw [findActivity_updateActivity hid, hrow]
    rfl
  next hnew =>
    rw [Bool.not_eq_true, Option.isSome_eq_false_iff, Option.isNone_iff_eq_none] at hnew
    rw [findActivity, List.find?_append, hnew]
    split
    next hother =>
      subst hother
      rw [show s.activities.find? (fun row => decide (row.id = activity.id)) = none from hnew]
      simp [newActivity]
    next hother =>
      have hlast : [newActivity clock activity].find? (fun row => decide (row.id = other)) =
          none := by
        simpa [newActivity] using Ne.symm hother
      rw [hlast, Option.or_none]
      rfl

/-! ## Calls -/

theorem step_eq (s : MachineStore) (call : Call) : s.step call = s ∨
    ∃ answer, s.transaction call = .ok (answer, s.step call) := by
  rw [step]
  cases s.transaction call with
  | error => exact Or.inl rfl
  | ok result => exact Or.inr ⟨result.1, rfl⟩

theorem register_eq_ok {activity : Registration}
    (h : s.register clock activity = .ok (answer, next)) :
    next.activities = (s.upsertActivity clock activity).activities := by
  obtain ⟨view, -, h⟩ := bind_eq_ok_iff.mp h
  obtain ⟨-, rfl⟩ := Prod.mk.inj (pure_eq_ok_iff.mp h)
  exact activities_event

/-- A heartbeat changes the instant of its session only. -/
theorem heartbeat_eq_ok (h : s.heartbeat clock staleMs id ttlS = .ok (answer, next)) :
    next.activities = s.activities ∨ next.activities =
      (s.updateActivity id fun row => { row with heartbeatMs := clock.now }).activities := by
  unfold heartbeat at h
  split at h
  · obtain ⟨-, rfl⟩ := Prod.mk.inj (Except.ok.inj h)
    exact Or.inl rfl
  · obtain ⟨-, rfl⟩ := Prod.mk.inj (Except.ok.inj h)
    right
    split
    · rw [activities_event]
      rfl
    · rfl

theorem declare_eq_ok {paths identifiers : List String} {intent : Option String}
    (h : s.declare clock id paths identifiers intent = .ok (answer, next)) :
    s.findActive id = none ∧ answer = .unknownActivity ∧ next = s ∨
      ∃ row view, s.findActive id = some row ∧ answer = .declared view ∧ next.activities =
        (s.updateActivity id fun old => { old with
          pathsDeclared := merge row.pathsDeclared paths
          identifiersDeclared := merge row.identifiersDeclared identifiers
          intent := intent.or old.intent
          heartbeatMs := clock.now }).activities := by
  unfold declare at h
  split at h
  next hnone =>
    obtain ⟨rfl, rfl⟩ := Prod.mk.inj (Except.ok.inj h)
    exact Or.inl ⟨hnone, rfl, rfl⟩
  next row hrow =>
    obtain ⟨view, -, h⟩ := bind_eq_ok_iff.mp h
    obtain ⟨rfl, rfl⟩ := Prod.mk.inj (pure_eq_ok_iff.mp h)
    exact Or.inr ⟨row, view, hrow, rfl, activities_event⟩

theorem endActivity_eq_ok (h : s.endActivity clock id = .ok (answer, next)) :
    next.activities = s.activities ∨ next.activities = (s.updateActivity id fun row =>
      if row.active then { row with endedMs := some clock.now } else row).activities := by
  unfold endActivity at h
  split at h
  · obtain ⟨-, rfl⟩ := Prod.mk.inj (Except.ok.inj h)
    exact Or.inl rfl
  · obtain ⟨-, rfl⟩ := Prod.mk.inj (Except.ok.inj h)
    right
    rw [activities_event, (foldl_released clock id _ _).2.1]
    rfl

theorem reserve_eq_ok (h : s.reserve clock owner kind key ttlS = .ok (answer, next)) :
    next.activities = s.activities := by
  unfold reserve at h
  split at h
  · obtain ⟨-, rfl⟩ := Prod.mk.inj (Except.ok.inj h)
    rfl
  · split at h
    · obtain ⟨row, view, -, -, -, rfl⟩ := acquire_eq_ok h
      exact activities_event
    · split at h
      · obtain ⟨view, -, h⟩ := bind_eq_ok_iff.mp h
        obtain ⟨-, rfl⟩ := Prod.mk.inj (pure_eq_ok_iff.mp h)
        rfl
      · obtain ⟨holder, -, h⟩ := bind_eq_ok_iff.mp h
        obtain ⟨-, rfl⟩ := Prod.mk.inj (pure_eq_ok_iff.mp h)
        exact activities_event

theorem release_eq_ok {fence : Int} (h : s.release clock key fence = .ok (answer, next)) :
    next.activities = s.activities := by
  unfold release at h
  split at h
  · obtain ⟨-, rfl⟩ := Prod.mk.inj (Except.ok.inj h)
    exact activities_event
  · obtain ⟨-, rfl⟩ := Prod.mk.inj (Except.ok.inj h)
    rfl

theorem sweepOverdue_eq_ok (h : s.sweepOverdue clock = .ok (answer, next)) :
    next.activities = s.activities := by
  obtain ⟨flagged, hflagged, h⟩ := bind_eq_ok_iff.mp h
  obtain ⟨views, -, h⟩ := bind_eq_ok_iff.mp h
  obtain ⟨-, rfl⟩ := Prod.mk.inj (pure_eq_ok_iff.mp h)
  exact (foldlM_flagOverdue hflagged).1

theorem recordEvent_eq_ok {event : Recorded} {code activityId dedupeKey : String}
    (h : s.recordEvent clock event code activityId dedupeKey = .ok (answer, next)) :
    next.activities = s.activities := by
  obtain ⟨-, rfl⟩ := Prod.mk.inj (Except.ok.inj h)
  exact activities_event

/-! ## Keys -/

/-- Each session has one row. -/
def Keyed (s : MachineStore) : Prop := (s.activities.map (·.id)).Nodup

theorem Keyed.updateActivity (h : s.Keyed) (hid : ∀ row, (change row).id = row.id) :
    (s.updateActivity id change).Keyed := by
  rw [Keyed, ids_updateActivity hid]
  exact h

theorem Keyed.upsertActivity {activity : Registration} (h : s.Keyed) :
    (s.upsertActivity clock activity).Keyed := by
  unfold MachineStore.upsertActivity
  split
  · exact h.updateActivity fun _ => rfl
  next hnew =>
    rw [Bool.not_eq_true, Option.isSome_eq_false_iff, Option.isNone_iff_eq_none, findActivity,
      List.find?_eq_none] at hnew
    rw [Keyed, List.map_append, List.nodup_append']
    refine ⟨h, List.nodup_singleton _, fun name hname hlast => ?_⟩
    obtain ⟨row, hrow, rfl⟩ := List.mem_map.mp hname
    refine hnew row hrow (decide_eq_true ?_)
    simpa [newActivity] using hlast

theorem Keyed.congr (h : s.Keyed) (hsame : next.activities = s.activities) : next.Keyed := by
  rw [Keyed, hsame]
  exact h

theorem Keyed.transaction (h : s.Keyed) (hcall : s.transaction call = .ok (answer, next)) :
    next.Keyed := by
  unfold MachineStore.transaction at hcall
  split at hcall
  · exact h.upsertActivity.congr (register_eq_ok hcall)
  · rcases heartbeat_eq_ok hcall with hsame | hsame
    · exact h.congr hsame
    · refine Keyed.congr (h.updateActivity ?_) hsame
      exact fun _ => rfl
  · rcases declare_eq_ok hcall with ⟨-, -, rfl⟩ | ⟨row, view, -, -, hsame⟩
    · exact h
    · refine Keyed.congr (h.updateActivity ?_) hsame
      exact fun _ => rfl
  · rcases endActivity_eq_ok hcall with hsame | hsame
    · exact h.congr hsame
    · refine Keyed.congr (h.updateActivity fun row => ?_) hsame
      split <;> rfl
  · exact h.congr (reserve_eq_ok hcall)
  · exact h.congr (release_eq_ok hcall)
  · exact h.congr (sweepOverdue_eq_ok hcall)
  · exact h.congr (recordEvent_eq_ok hcall)

theorem Keyed.step (h : s.Keyed) : (s.step call).Keyed := by
  rcases step_eq s call with hsame | ⟨answer, hcall⟩
  · rwa [hsame]
  · exact h.transaction hcall

theorem Keyed.after (h : s.Keyed) (calls : List Call) : (s.after calls).Keyed := by
  induction calls generalizing s with
  | nil => exact h
  | cons call rest ih => exact ih h.step

theorem keyed_initial : initial.Keyed := List.nodup_nil

end Hseos.Coordination.MachineStore
