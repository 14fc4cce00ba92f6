import Hseos.Scheduler.Invariant

/-! # Exclusion, order and settlement

Which items of the scheduler run side by side, in which order they start, and that
nothing starts while a cancellation is being persisted.
-/

namespace Hseos.Scheduler

variable {ρ : Type} {limits : SchedulerLimits} {s t next : Scheduler ρ} {item : Item ρ}

/-! ## No start behind a barrier -/

/-- Nothing was started since, or no cancellation is being persisted. -/
def StartsUnbarred (s t : Scheduler ρ) : Prop :=
  t.started = s.started ∨ t.cancellationBarriers = 0

theorem StartsUnbarred.pump (h : StartsUnbarred s t) : StartsUnbarred s (t.pump limits) :=
  pump_induction (P := StartsUnbarred s) (fun _ _ _ _ hstart => .inr hstart.unbarred) h

theorem startsUnbarred_cancelQueued : StartsUnbarred s (s.cancelQueued limits item) := by
  unfold cancelQueued
  split
  · exact StartsUnbarred.pump (.inl rfl)
  · exact .inl rfl

theorem startsUnbarred_cancelFromSignal : StartsUnbarred s (s.cancelFromSignal limits item) := by
  unfold cancelFromSignal
  split
  · exact startsUnbarred_cancelQueued
  · exact .inl rfl

theorem started_foldl_beginCancellation (queue : List (Item ρ)) :
    (queue.foldl (fun s item =>
      if (s.status item.id).cancelled || !item.cancellable || !s.isQueued item then s
      else s.beginCancellation item) s).started = s.started := by
  induction queue generalizing s with
  | nil => rfl
  | cons item rest ih =>
      rw [List.foldl_cons, ih]
      split <;> rfl

theorem startsUnbarred_close (cancelQueued cancelRunning : Bool) :
    StartsUnbarred s (s.close limits cancelQueued cancelRunning) := by
  have hemptied : StartsUnbarred s (if cancelQueued then
      ({ s with accepting := false } : Scheduler ρ).closeQueued limits
      else { s with accepting := false }) := by
    split
    · exact StartsUnbarred.pump (.inl (started_foldl_beginCancellation s.queue))
    · exact .inl rfl
  unfold close
  dsimp only
  split
  · exact hemptied
  · exact hemptied

theorem startsUnbarred_enqueue (submission : Submission ρ) :
    StartsUnbarred s (s.enqueue limits submission) := by
  unfold enqueue
  split
  next => exact .inl rfl
  next =>
    have hsignalled : StartsUnbarred s (if submission.signal = .aborted then
        (s.push (s.itemOf submission)).cancelFromSignal limits (s.itemOf submission)
        else s.push (s.itemOf submission)) := by
      split
      · exact startsUnbarred_cancelFromSignal (s := s.push (s.itemOf submission))
      · exact .inl rfl
    dsimp only
    generalize (if submission.signal = .aborted then
        (s.push (s.itemOf submission)).cancelFromSignal limits (s.itemOf submission)
        else s.push (s.itemOf submission)) = signalled at hsignalled ⊢
    split
    · exact hsignalled.pump
    · exact hsignalled

theorem Performs.startsUnbarred {action : SchedulerAction ρ} (h : Performs limits s action next) :
    StartsUnbarred s next := by
  cases h with
  | enqueue => exact startsUnbarred_enqueue _
  | cancel =>
      unfold Scheduler.cancel
      dsimp only
      split
      next => exact .inl rfl
      next =>
        split
        next => exact startsUnbarred_cancelQueued
        next => exact .inl rfl
  | abort => exact startsUnbarred_cancelFromSignal
  | close => exact startsUnbarred_close _ _
  | executed => exact .inl rfl
  | finished => exact StartsUnbarred.pump (.inl rfl)
  | persisted => exact .inl rfl
  | refused => exact .inl rfl
  | released =>
      unfold Scheduler.release
      dsimp only
      split
      · exact StartsUnbarred.pump (.inl rfl)
      · exact .inl rfl

/-! ## The guarantees -/

/-- The items in state running. -/
def running (s : Scheduler ρ) : List (Item ρ) :=
  s.accepted.filter fun item => s.stateOf item = .running

theorem Sound.mem_running_iff (h : s.Sound limits) :
    item ∈ s.running ↔ item ∈ s.activeIn .running := by
  rw [running, List.mem_filter, decide_eq_true_eq, mem_activeIn]
  constructor
  · rintro ⟨hitem, hstate⟩
    exact ⟨h.busy item hitem (.inl hstate), hstate⟩
  · rintro ⟨hitem, hstate⟩
    exact ⟨h.active_accepted item hitem, hstate⟩

theorem Sound.length_running_le (h : s.Sound limits) :
    s.running.length ≤ limits.maxConcurrency := by
  have hnodup : s.running.Nodup := by
    apply List.Nodup.filter
    apply List.Nodup.of_map Item.id
    rw [h.ids]
    exact List.nodup_range
  have hsubset : s.running ⊆ s.activeIn .running := fun item hitem => h.mem_running_iff.mp hitem
  exact (List.subperm_of_subset hnodup hsubset).length_le.trans h.width

/-- Whatever the interleaving, running items are within the limit, an exclusive item
runs alone, items start in the order of their acceptance, the queue keeps its
capacity, every promise is resolved at most once, and nothing starts while a
cancellation is being persisted. -/
theorem exclusion_and_order {actions : List (SchedulerAction ρ)}
    (h : run (Scheduler.step limits) .initial actions = .ok s) :
    s.running.length ≤ limits.maxConcurrency ∧
      (∀ item ∈ s.running, item.exclusive = true → ∀ other ∈ s.running, other = item) ∧
      s.started.Pairwise (· < ·) ∧
      s.queue.length ≤ limits.maxQueue ∧
      (s.resolutions.map Prod.fst).Nodup ∧
      ∀ action next, s.step limits action = .ok next → next.started ≠ s.started →
        ∀ item ∈ next.accepted, next.stateOf item ≠ .cancelling := by
  have hsound := run_sound h
  refine ⟨hsound.length_running_le, ?_, (List.pairwise_append.mp hsound.order).1,
    hsound.capacity, hsound.once, ?_⟩
  · intro item hitem hexclusive other hother
    rw [hsound.mem_running_iff] at hitem hother
    rw [hsound.alone item hitem hexclusive] at hother
    exact List.mem_singleton.mp hother
  · intro action next hstep hstarted item hitem hcancelling
    have hperforms := step_performs hstep
    have hnext := hsound.performs hperforms
    have hbarriers := hperforms.startsUnbarred.resolve_left hstarted
    rw [hnext.barriers, List.length_eq_zero_iff] at hbarriers
    have hmem := mem_activeIn.mpr ⟨hnext.busy item hitem (.inr hcancelling), hcancelling⟩
    rw [hbarriers] at hmem
    cases hmem

/-! ## A run -/

namespace Sample

def bounds : SchedulerLimits := ⟨2, 3, by decide, by decide⟩

def submit (request : String) (exclusive cancellable : Bool) : SchedulerAction String :=
  .enqueue ⟨request, true, .absent, some (exclusive, cancellable)⟩

/-- Two requests run, an exclusive one waits, and the one behind it is cancelled. -/
def sharedActions : List (SchedulerAction String) :=
  [submit "a" false true, submit "b" false true, submit "c" true true, submit "d" false true,
    .cancel 3, .executed 0, .finished 0, .persisted 3, .released 3, .executed 1]

end Sample

theorem shared_exclusion : ∃ s,
    run (Scheduler.step Sample.bounds) .initial Sample.sharedActions = .ok s ∧
      s.running.length ≤ Sample.bounds.maxConcurrency ∧ s.started = [0, 1] ∧
      ∀ next, s.step Sample.bounds (.finished 1) = .ok next → next.started ≠ s.started →
        ∀ item ∈ next.accepted, next.stateOf item ≠ .cancelling := by
  obtain ⟨s, hrun, hcheck⟩ := runsTo_iff.mp
    (show runsTo (Scheduler.step Sample.bounds) .initial Sample.sharedActions
      (fun s => s.started = [0, 1]) = true by decide)
  have hguarantees := exclusion_and_order hrun
  exact ⟨s, hrun, hguarantees.1, of_decide_eq_true hcheck, hguarantees.2.2.2.2.2 _⟩

end Hseos.Scheduler
