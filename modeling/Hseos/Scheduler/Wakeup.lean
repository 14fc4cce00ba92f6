import Hseos.Scheduler.Invariant

/-! # Wake-ups

Items in the queue wait for the end of an active item, which pumps the queue. The
one end that does not is that of a queued cancellation after the scheduler was
closed.
-/

namespace Hseos.Scheduler

variable {ρ : Type} {limits : SchedulerLimits} {s t next : Scheduler ρ} {item : Item ρ}

/-- If items wait, then an item is active. -/
def Awake (s : Scheduler ρ) : Prop := s.queue ≠ [] → s.activeItems ≠ []

/-- The action is not the end of the last active item, a queued cancellation, on a
closed scheduler whose queue is not empty. -/
def Wakes (s : Scheduler ρ) (action : SchedulerAction ρ) : Prop :=
  ∀ id, action = .released id →
    s.accepting = true ∨ s.queue = [] ∨ ∃ item ∈ s.activeItems, item.id ≠ id

/-! ## Pumping -/

/-- What blocks the queue is active. -/
theorem Guarded.active_of_blocked (h : s.Guarded limits) (hblocked : s.blocked = true) :
    s.activeItems ≠ [] := by
  intro hnone
  have hbarriers := h.barriers
  have hexclusive := h.exclusive
  rw [activeIn, hnone] at hbarriers hexclusive
  rw [blocked, hexclusive, hbarriers] at hblocked
  cases hblocked

theorem awake_pumpLoop (queue : List (Item ρ)) (hqueue : s.queue = queue) :
    (pumpLoop limits queue s).Awake := by
  induction queue generalizing s with
  | nil => exact fun hne => absurd hqueue hne
  | cons next rest ih =>
      have hstarted : (s.start next).activeItems ≠ [] := by simp [start]
      rw [pumpLoop]
      split
      next =>
        split
        next hactive => exact fun _ => hactive
        next => exact fun _ => hstarted
      next =>
        split
        next hwidth =>
          intro _ hnone
          have hpos := limits.maxConcurrency_pos
          rw [hnone, List.length_nil] at hwidth
          omega
        next =>
          apply ih
          rw [start, hqueue, List.tail_cons]

theorem Guarded.awake_pump (h : s.Guarded limits) : (s.pump limits).Awake := by
  unfold pump
  split
  next hblocked => exact fun _ => h.active_of_blocked hblocked
  next => exact awake_pumpLoop s.queue rfl

/-! ## Actions -/

theorem Sound.awake_cancelQueued (h : s.Sound limits) (hitem : item ∈ s.accepted)
    (hawake : s.Awake) : (s.cancelQueued limits item).Awake := by
  unfold Scheduler.cancelQueued
  split
  next hqueued =>
    exact (h.beginCancellation ((h.toListed.isQueued_iff hitem).mp hqueued)).toGuarded.awake_pump
  next => exact hawake

theorem Sound.awake_cancelFromSignal (h : s.Sound limits) (hitem : item ∈ s.accepted)
    (hawake : s.Awake) : (s.cancelFromSignal limits item).Awake := by
  unfold Scheduler.cancelFromSignal
  split
  next => exact h.awake_cancelQueued hitem hawake
  next => exact hawake

/-- A new item is started, or waits for an active one. -/
theorem Sound.awake_enqueue (h : s.Sound limits) (submission : Submission ρ) (hawake : s.Awake) :
    (s.enqueue limits submission).Awake := by
  unfold Scheduler.enqueue
  split
  next => exact hawake
  next hrejects =>
    have hpushed := h.push submission (lt_of_not_rejects hrejects)
    have hitem : s.itemOf submission ∈ (s.push (s.itemOf submission)).accepted :=
      List.mem_append_right _ List.mem_cons_self
    -- Either the item is still queued, and the queue is pumped, or its cancellation pumped it.
    have hsignalled : ∀ signalled, signalled = (if submission.signal = .aborted then
        (s.push (s.itemOf submission)).cancelFromSignal limits (s.itemOf submission)
        else s.push (s.itemOf submission)) → signalled.Sound limits ∧
          (signalled.stateOf (s.itemOf submission) = .queued ∨ signalled.Awake) := by
      rintro signalled rfl
      have hqueued := hpushed.queued (s.itemOf submission)
        (List.mem_append_right _ List.mem_cons_self)
      split
      · refine ⟨hpushed.cancelFromSignal hitem, ?_⟩
        unfold Scheduler.cancelFromSignal Scheduler.cancelQueued
        split
        · split
          next hisQueued =>
            exact .inr (hpushed.beginCancellation
              ((hpushed.toListed.isQueued_iff hitem).mp hisQueued)).toGuarded.awake_pump
          next => exact .inl hqueued
        · exact .inl hqueued
      · exact ⟨hpushed, .inl hqueued⟩
    dsimp only
    generalize hsame : (if submission.signal = .aborted then
        (s.push (s.itemOf submission)).cancelFromSignal limits (s.itemOf submission)
        else s.push (s.itemOf submission)) = signalled
    obtain ⟨hsound, hcase⟩ := hsignalled signalled hsame.symm
    split
    next => exact hsound.toGuarded.awake_pump
    next hstate => exact hcase.resolve_left hstate

theorem Sound.awake_close (h : s.Sound limits) (cancelQueued cancelRunning : Bool)
    (hawake : s.Awake) : (s.close limits cancelQueued cancelRunning).Awake := by
  have hclosed : ({ s with accepting := false } : Scheduler ρ).Sound limits :=
    h.of_sameLists ⟨rfl, rfl, rfl, rfl, rfl, rfl, rfl, fun _ => rfl, fun _ _ => rfl⟩
  have hemptied : (if cancelQueued then ({ s with accepting := false } : Scheduler ρ).closeQueued limits
      else { s with accepting := false }).Awake := by
    split
    · exact hclosed.cancelAll.toGuarded.awake_pump
    · exact hawake
  unfold Scheduler.close
  dsimp only
  split
  · exact hemptied
  · exact hemptied

/-- Every action that wakes the queue leaves it awake. -/
theorem Sound.awake_performs {action : SchedulerAction ρ} (h : s.Sound limits)
    (hperforms : Performs limits s action next) (hwakes : s.Wakes action) (hawake : s.Awake) :
    next.Awake := by
  cases hperforms with
  | enqueue => exact h.awake_enqueue _ hawake
  | cancel hitem =>
      unfold Scheduler.cancel
      dsimp only
      split
      next => exact hawake
      next =>
        split
        next => exact h.awake_cancelQueued hitem hawake
        next => exact hawake
  | abort hitem => exact h.awake_cancelFromSignal hitem hawake
  | close => exact h.awake_close _ _ hawake
  | executed => exact hawake
  | finished hitem => exact (h.settleRunning hitem.mem hitem.state).toGuarded.awake_pump
  | persisted => exact hawake
  | refused => exact fun hne => absurd rfl hne
  | @released item hitem =>
      have hsettled := h.settleCancelling hitem.mem hitem.state
      unfold Scheduler.release
      dsimp only
      split
      next => exact hsettled.toGuarded.awake_pump
      next hclosed =>
        rcases hwakes item.id rfl with haccepting | hempty | ⟨other, hother, hid⟩
        · exact absurd haccepting hclosed
        · exact fun hne => absurd hempty hne
        · intro _ hnone
          have hmem : other ∈ s.activeItems.filter fun active => active.id ≠ item.id :=
            List.mem_filter.mpr ⟨hother, by simpa using hid⟩
          have hnone' : (s.activeItems.filter fun active => active.id ≠ item.id) = [] := hnone
          rw [hnone'] at hmem
          cases hmem

/-- An action that does not wake the queue strands it. -/
theorem stranded_of_not_wakes {action : SchedulerAction ρ} (hperforms : Performs limits s action next)
    (hwakes : ¬s.Wakes action) : ¬next.Awake := by
  simp only [Wakes, not_forall, not_or] at hwakes
  obtain ⟨id, rfl, hclosed, hqueue, hothers⟩ := hwakes
  generalize haction : SchedulerAction.released id = action at hperforms
  cases hperforms with
  | @released item hitem =>
      obtain rfl := SchedulerAction.released.inj haction
      intro hawake
      unfold Scheduler.release at hawake
      dsimp only at hawake
      rw [if_neg (show ¬(s.settle item).accepting = true from hclosed)] at hawake
      apply hawake hqueue
      apply List.filter_eq_nil_iff.mpr
      intro other hother
      simpa using fun hid => hothers ⟨other, hother, hid⟩
  | _ => cases haction

/-! ## Runs -/

/-- In every state of a run an item is active whenever items wait, if and only if no
queued cancellation ends, on a closed scheduler, as the last active item while items
wait. -/
theorem awake_iff {actions : List (SchedulerAction ρ)}
    (h : run (Scheduler.step limits) .initial actions = .ok s) :
    (∀ past, past <+: actions → ∀ middle, run (Scheduler.step limits) .initial past = .ok middle →
      middle.Awake) ↔
    ∀ past action, past ++ [action] <+: actions →
      ∀ middle, run (Scheduler.step limits) .initial past = .ok middle → middle.Wakes action := by
  constructor
  · intro hawake past action hbegins middle hmiddle
    obtain ⟨next, hnext⟩ := run_of_isPrefix hbegins h
    obtain ⟨middle', hmiddle', hstep⟩ := run_snoc_eq_ok_iff.mp hnext
    obtain rfl := Except.ok.inj (hmiddle.symm.trans hmiddle')
    by_contra hwakes
    exact stranded_of_not_wakes (step_performs hstep) hwakes (hawake _ hbegins next hnext)
  · intro hwakes past hbegins
    induction past using List.reverseRecOn with
    | nil =>
        intro middle hmiddle
        obtain rfl := Except.ok.inj hmiddle
        exact fun hne => absurd rfl hne
    | append_singleton past action ih =>
        intro next hnext
        obtain ⟨middle, hmiddle, hstep⟩ := run_snoc_eq_ok_iff.mp hnext
        have hpast : past <+: actions := (List.prefix_append past [action]).trans hbegins
        exact (run_sound hmiddle).awake_performs (step_performs hstep)
          (hwakes past action hbegins middle hmiddle) (ih hpast middle hmiddle)

/-! ## A stranded item -/

namespace Sample

theorem queue_room : 1 ≤ 3 := by decide

def one : SchedulerLimits := ⟨1, 3, Nat.le_refl 1, queue_room⟩

/-- A request runs, the next one is cancelled while it waits, and the scheduler is
closed; both end, and the third request waits forever. -/
def strandedActions : List (SchedulerAction String) :=
  [.enqueue ⟨"a", true, .absent, some (false, true)⟩,
    .enqueue ⟨"b", true, .absent, some (false, true)⟩,
    .enqueue ⟨"c", true, .absent, some (false, true)⟩, .cancel 1, .close false false, .executed 0,
    .finished 0, .persisted 1, .released 1]

end Sample

theorem stranded : ∃ s, run (Scheduler.step Sample.one) .initial Sample.strandedActions = .ok s ∧
    s.queue ≠ [] ∧ s.activeItems = [] ∧ s.cancellationBarriers = 0 := by
  obtain ⟨s, hrun, hcheck⟩ := runsTo_iff.mp
    (show runsTo (Scheduler.step Sample.one) .initial Sample.strandedActions (fun s =>
      s.queue ≠ [] ∧ s.activeItems = [] ∧ s.cancellationBarriers = 0) = true by decide)
  exact ⟨s, hrun, of_decide_eq_true hcheck⟩

theorem awake_before_release :
    (∃ s, run (Scheduler.step Sample.one) .initial Sample.strandedActions.dropLast = .ok s) ∧
    ∀ past, past <+: Sample.strandedActions.dropLast →
      ∀ middle, run (Scheduler.step Sample.one) .initial past = .ok middle → middle.Awake := by
  obtain ⟨s, hrun, -⟩ := runsTo_iff.mp
    (show runsTo (Scheduler.step Sample.one) .initial Sample.strandedActions.dropLast
      (fun _ => true) = true by decide)
  refine ⟨⟨s, hrun⟩, (awake_iff hrun).mpr ?_⟩
  rintro past action hbegins middle - id rfl
  have hmem : SchedulerAction.released id ∈ Sample.strandedActions.dropLast :=
    hbegins.subset (by simp)
  simp [Sample.strandedActions] at hmem

end Hseos.Scheduler
