import Hseos.Scheduler.Machine
import Mathlib.Data.List.Nodup
import Mathlib.Data.List.Perm.Subperm

/-! # The scheduler's invariant

How the lists of the scheduler, the states of its items, its flags and its bounds
fit together, and that every action keeps them so.
-/

namespace Hseos.Scheduler

variable {ρ : Type} {limits : SchedulerLimits} {s t next : Scheduler ρ} {item other : Item ρ}

/-! ## Soundness -/

/-- The active items in a state. -/
def activeIn (s : Scheduler ρ) (state : ItemState) : List (Item ρ) :=
  s.activeItems.filter fun item => s.stateOf item = state

/-- The promises that were resolved. -/
def resolvedIds (s : Scheduler ρ) : List Nat := s.resolutions.map Prod.fst

/-- The items of the lists are accepted, each in the state that its list says, and the
items that started come before those that wait. -/
structure Listed (s : Scheduler ρ) : Prop where
  ids : s.accepted.map Item.id = List.range s.accepted.length
  fresh : ∀ id, s.accepted.length ≤ id → s.status id = .initial
  queue_accepted : ∀ item ∈ s.queue, item ∈ s.accepted
  active_accepted : ∀ item ∈ s.activeItems, item ∈ s.accepted
  started_lt : ∀ id ∈ s.started, id < s.accepted.length
  order : (s.started ++ s.queue.map Item.id).Pairwise (· < ·)
  queued : ∀ item ∈ s.queue, s.stateOf item = .queued
  active : ∀ item ∈ s.activeItems, s.stateOf item = .running ∨ s.stateOf item = .cancelling
  busy : ∀ item ∈ s.accepted, s.stateOf item = .running ∨ s.stateOf item = .cancelling →
    item ∈ s.activeItems
  distinct : (s.activeItems.map Item.id).Nodup
  resolved_lt : ∀ id ∈ s.resolvedIds, id < s.accepted.length
  unresolved : ∀ item ∈ s.queue, item.id ∉ s.resolvedIds
  once : s.resolvedIds.Nodup

/-- The flags and the bounds agree with what is active. -/
structure Guarded (limits : SchedulerLimits) (s : Scheduler ρ) : Prop where
  barriers : s.cancellationBarriers = (s.activeIn .cancelling).length
  exclusive : s.exclusiveRunning = (s.activeIn .running).any Item.exclusive
  alone : ∀ item ∈ s.activeIn .running, item.exclusive = true → s.activeIn .running = [item]
  width : (s.activeIn .running).length ≤ limits.maxConcurrency
  capacity : s.queue.length ≤ limits.maxQueue

structure Sound (limits : SchedulerLimits) (s : Scheduler ρ) : Prop extends
    Listed s, Guarded limits s

theorem sound_initial : (initial : Scheduler ρ).Sound limits := by
  constructor <;> constructor <;> simp [initial, activeIn, resolvedIds]

@[simp] theorem mem_activeIn {state : ItemState} :
    item ∈ s.activeIn state ↔ item ∈ s.activeItems ∧ s.stateOf item = state := by
  simp [activeIn]

namespace Listed

/-- Accepted items are told apart by their ids. -/
theorem eq_of_id (h : s.Listed) (hitem : item ∈ s.accepted) (hother : other ∈ s.accepted)
    (hid : item.id = other.id) : item = other := by
  apply List.inj_on_of_nodup_map ?_ hitem hother hid
  rw [h.ids]
  exact List.nodup_range

theorem id_lt (h : s.Listed) (hitem : item ∈ s.accepted) : item.id < s.accepted.length := by
  have hmem : item.id ∈ s.accepted.map Item.id := List.mem_map_of_mem hitem
  rw [h.ids, List.mem_range] at hmem
  exact hmem

/-- A queued item is not active. -/
theorem id_ne_of_queue (h : s.Listed) (hitem : item ∈ s.queue) (hother : other ∈ s.activeItems) :
    other.id ≠ item.id := by
  intro hid
  obtain rfl := h.eq_of_id (h.active_accepted other hother) (h.queue_accepted item hitem) hid
  have hqueued := h.queued other hitem
  rcases h.active other hother with hrunning | hcancelling
  · rw [hqueued] at hrunning
    cases hrunning
  · rw [hqueued] at hcancelling
    cases hcancelling

theorem queue_order (h : s.Listed) : (s.queue.map Item.id).Pairwise (· < ·) :=
  (List.pairwise_append.mp h.order).2.1

theorem queue_nodup (h : s.Listed) : (s.queue.map Item.id).Nodup :=
  h.queue_order.imp Nat.ne_of_lt

/-- Queued items are told apart by their ids. -/
theorem id_injOn_queue (h : s.Listed) (hitem : item ∈ s.queue) (hother : other ∈ s.queue)
    (hid : item.id = other.id) : item = other :=
  h.eq_of_id (h.queue_accepted item hitem) (h.queue_accepted other hother) hid

end Listed

/-! ## Frames -/

/-- Nothing changes but flags of accepted items and whether the scheduler accepts. -/
structure SameLists (s t : Scheduler ρ) : Prop where
  accepted : t.accepted = s.accepted
  queue : t.queue = s.queue
  activeItems : t.activeItems = s.activeItems
  barriers : t.cancellationBarriers = s.cancellationBarriers
  exclusiveRunning : t.exclusiveRunning = s.exclusiveRunning
  resolutions : t.resolutions = s.resolutions
  started : t.started = s.started
  state : ∀ id, (t.status id).state = (s.status id).state
  fresh : ∀ id, s.accepted.length ≤ id → t.status id = s.status id

theorem SameLists.stateOf (h : SameLists s t) : t.stateOf = s.stateOf := by
  funext item
  exact h.state item.id

theorem SameLists.activeIn (h : SameLists s t) (state : ItemState) :
    t.activeIn state = s.activeIn state := by
  rw [Scheduler.activeIn, Scheduler.activeIn, h.activeItems, h.stateOf]

theorem Sound.of_sameLists (h : s.Sound limits) (hsame : SameLists s t) : t.Sound limits := by
  have hresolved : t.resolvedIds = s.resolvedIds := by
    rw [resolvedIds, resolvedIds, hsame.resolutions]
  constructor
  · constructor
    case fresh =>
      intro id hid
      rw [hsame.accepted] at hid
      rw [hsame.fresh id hid, h.fresh id hid]
    all_goals
      simp only [hsame.accepted, hsame.queue, hsame.activeItems, hsame.started, hsame.stateOf,
        hresolved]
    · exact h.ids
    · exact h.queue_accepted
    · exact h.active_accepted
    · exact h.started_lt
    · exact h.order
    · exact h.queued
    · exact h.active
    · exact h.busy
    · exact h.distinct
    · exact h.resolved_lt
    · exact h.unresolved
    · exact h.once
  · constructor
    all_goals
      simp only [hsame.queue, hsame.barriers, hsame.exclusiveRunning, hsame.activeIn]
    · exact h.barriers
    · exact h.exclusive
    · exact h.alone
    · exact h.width
    · exact h.capacity

/-! ## From the queue to the active items -/

/-- An item leaves the queue and is active in a state. -/
structure Moves (s t : Scheduler ρ) (item : Item ρ) (state : ItemState) : Prop where
  accepted : t.accepted = s.accepted
  queue_sub : t.queue.Sublist s.queue
  queue_ne : ∀ queued ∈ t.queue, queued.id ≠ item.id
  activeItems : t.activeItems = s.activeItems ++ [item]
  resolutions : t.resolutions = s.resolutions
  state : t.stateOf item = state
  others : ∀ id, id ≠ item.id → t.status id = s.status id

theorem Moves.stateOf_other {state : ItemState} (h : Moves s t item state) (hid : other.id ≠ item.id) :
    t.stateOf other = s.stateOf other := by
  rw [stateOf, stateOf, h.others other.id hid]

theorem Listed.moves {state : ItemState} (h : s.Listed) (hitem : item ∈ s.queue)
    (hmoves : Moves s t item state) (hbusy : state = .running ∨ state = .cancelling)
    (hstarted : ∀ id ∈ t.started, id < s.accepted.length)
    (horder : (t.started ++ t.queue.map Item.id).Pairwise (· < ·)) : t.Listed := by
  have hresolved : t.resolvedIds = s.resolvedIds := by
    rw [resolvedIds, resolvedIds, hmoves.resolutions]
  have hitem' := h.queue_accepted item hitem
  constructor
  case ids =>
    rw [hmoves.accepted]
    exact h.ids
  case fresh =>
    intro id hid
    rw [hmoves.accepted] at hid
    rw [hmoves.others id (Nat.ne_of_gt (Nat.lt_of_lt_of_le (h.id_lt hitem') hid)), h.fresh id hid]
  case queue_accepted =>
    intro queued hqueued
    rw [hmoves.accepted]
    exact h.queue_accepted queued (hmoves.queue_sub.mem hqueued)
  case active_accepted =>
    intro active hactive
    rw [hmoves.accepted]
    rw [hmoves.activeItems, List.mem_append, List.mem_singleton] at hactive
    rcases hactive with hactive | rfl
    · exact h.active_accepted active hactive
    · exact hitem'
  case started_lt =>
    rw [hmoves.accepted]
    exact hstarted
  case order => exact horder
  case queued =>
    intro queued hqueued
    rw [hmoves.stateOf_other (hmoves.queue_ne queued hqueued)]
    exact h.queued queued (hmoves.queue_sub.mem hqueued)
  case active =>
    intro active hactive
    rw [hmoves.activeItems, List.mem_append, List.mem_singleton] at hactive
    rcases hactive with hactive | rfl
    · rw [hmoves.stateOf_other (h.id_ne_of_queue hitem hactive)]
      exact h.active active hactive
    · rw [hmoves.state]
      exact hbusy
  case busy =>
    intro found hfound hstate
    rw [hmoves.accepted] at hfound
    rw [hmoves.activeItems, List.mem_append, List.mem_singleton]
    by_cases hid : found.id = item.id
    · exact .inr (h.eq_of_id hfound hitem' hid)
    · rw [hmoves.stateOf_other hid] at hstate
      exact .inl (h.busy found hfound hstate)
  case distinct =>
    rw [hmoves.activeItems, List.map_append, List.map_singleton, List.nodup_append]
    refine ⟨h.distinct, List.nodup_singleton _, ?_⟩
    intro id hid last hlast heq
    obtain ⟨active, hactive, rfl⟩ := List.mem_map.mp hid
    rw [List.mem_singleton] at hlast
    exact h.id_ne_of_queue hitem hactive (heq.trans hlast)
  case resolved_lt =>
    rw [hresolved, hmoves.accepted]
    exact h.resolved_lt
  case unresolved =>
    intro queued hqueued
    rw [hresolved]
    exact h.unresolved queued (hmoves.queue_sub.mem hqueued)
  case once =>
    rw [hresolved]
    exact h.once

theorem Moves.activeIn {state : ItemState} (hmoves : Moves s t item state) (h : s.Listed)
    (hitem : item ∈ s.queue) (state' : ItemState) :
    t.activeIn state' = s.activeIn state' ++ if state = state' then [item] else [] := by
  rw [Scheduler.activeIn, hmoves.activeItems, List.filter_append]
  congr 1
  · apply List.filter_congr
    intro active hactive
    rw [hmoves.stateOf_other (h.id_ne_of_queue hitem hactive)]
  · by_cases hstate : state = state' <;> simp [hmoves.state, hstate]

/-! ## Starting -/

/-- The head of the queue may start. -/
structure Startable (limits : SchedulerLimits) (s : Scheduler ρ) (item : Item ρ)
    (rest : List (Item ρ)) : Prop where
  head : s.queue = item :: rest
  idle : s.exclusiveRunning = false
  unbarred : s.cancellationBarriers = 0
  alone : item.exclusive = true → s.activeItems = []
  narrow : item.exclusive = false → s.activeItems.length < limits.maxConcurrency

theorem moves_start {rest : List (Item ρ)} (h : s.Listed) (hhead : s.queue = item :: rest) :
    Moves s (s.start item) item .running where
  accepted := rfl
  queue_sub := List.tail_sublist s.queue
  queue_ne := by
    intro queued hqueued hid
    have hnodup := h.queue_nodup
    rw [hhead, List.map_cons, List.nodup_cons] at hnodup
    apply hnodup.1
    rw [← hid]
    have hrest : queued ∈ rest := by rwa [start, hhead] at hqueued
    exact List.mem_map_of_mem hrest
  activeItems := rfl
  resolutions := rfl
  state := by simp [start, setStatus, stateOf]
  others := by
    intro id hid
    simp [start, setStatus, hid]

theorem Sound.start {rest : List (Item ρ)} (h : s.Sound limits)
    (hstart : Startable limits s item rest) : (s.start item).Sound limits := by
  have hitem : item ∈ s.queue := by rw [hstart.head]; exact List.mem_cons_self
  have hmoves := moves_start h.toListed hstart.head
  have hrunning : (s.start item).activeIn .running = s.activeIn .running ++ [item] :=
    hmoves.activeIn h.toListed hitem .running
  have hcancelling : (s.start item).activeIn .cancelling = s.activeIn .cancelling := by
    rw [hmoves.activeIn h.toListed hitem .cancelling, if_neg (by decide), List.append_nil]
  have hnone : ∀ active ∈ s.activeIn .running, active.exclusive = false := by
    have hany := h.exclusive
    rw [hstart.idle] at hany
    simpa using hany.symm
  constructor
  · apply h.toListed.moves hitem hmoves (.inl rfl)
    · intro id hid
      rcases List.mem_append.mp hid with hid | hid
      · exact h.started_lt id hid
      · rw [List.mem_singleton] at hid
        exact hid ▸ h.id_lt (h.queue_accepted item hitem)
    · have horder := h.order
      rw [hstart.head] at horder
      rw [Scheduler.start, hstart.head]
      simpa using horder
  · constructor
    case barriers =>
      rw [hcancelling]
      exact h.barriers
    case exclusive =>
      rw [hrunning, List.any_append, ← h.exclusive, Bool.or_comm]
      simp [Scheduler.start]
    case alone =>
      intro active hactive hexclusive
      rw [hrunning, List.mem_append, List.mem_singleton] at hactive
      rcases hactive with hactive | rfl
      · rw [hnone active hactive] at hexclusive
        cases hexclusive
      · rw [hrunning, activeIn, hstart.alone hexclusive]
        rfl
    case width =>
      rw [hrunning, List.length_append, List.length_singleton]
      cases hexclusive : item.exclusive with
      | true =>
          rw [activeIn, hstart.alone hexclusive]
          exact limits.maxConcurrency_pos
      | false =>
          have hnarrow := hstart.narrow hexclusive
          have hle : (s.activeIn .running).length ≤ s.activeItems.length := List.length_filter_le _ _
          omega
    case capacity =>
      have hlength := hmoves.queue_sub.length_le
      have hcapacity := h.capacity
      omega

/-- What the start of a startable head keeps is kept by pumping. -/
theorem pump_induction {P : Scheduler ρ → Prop}
    (hstart : ∀ (s : Scheduler ρ) (item : Item ρ) (rest : List (Item ρ)), P s →
      Startable limits s item rest → P (s.start item))
    (h : P s) : P (s.pump limits) := by
  unfold pump
  cases hblocked : s.blocked with
  | true => exact h
  | false =>
      rw [if_neg Bool.false_ne_true]
      have hidle : s.exclusiveRunning = false ∧ s.cancellationBarriers = 0 := by
        simpa [blocked] using hblocked
      generalize hqueue : s.queue = queue
      clear hblocked
      induction queue generalizing s with
      | nil => exact h
      | cons next rest ih =>
          rw [pumpLoop]
          split
          next hexclusive =>
            split
            next => exact h
            next hactive =>
              rw [not_not] at hactive
              refine hstart s next rest h ⟨hqueue, hidle.1, hidle.2, fun _ => hactive, ?_⟩
              intro hnot
              rw [hexclusive] at hnot
              cases hnot
          next hexclusive =>
            split
            next => exact h
            next hwidth =>
              have hnot := eq_false_of_ne_true hexclusive
              apply ih
              · refine hstart s next rest h ⟨hqueue, hidle.1, hidle.2, ?_, fun _ => by omega⟩
                intro htrue
                rw [hnot] at htrue
                cases htrue
              · exact ⟨by simp [Scheduler.start, hnot, hidle.1], hidle.2⟩
              · simp [Scheduler.start, hqueue]

theorem Sound.pump (h : s.Sound limits) : (s.pump limits).Sound limits :=
  pump_induction (fun _ _ _ hsound hstart => hsound.start hstart) h

/-! ## Cancellation of queued items -/

theorem Listed.isQueued_iff (h : s.Listed) (hitem : item ∈ s.accepted) :
    s.isQueued item = true ↔ item ∈ s.queue := by
  rw [isQueued, Bool.and_eq_true, List.any_eq_true, decide_eq_true_eq]
  constructor
  · rintro ⟨⟨queued, hqueued, hid⟩, -⟩
    rw [decide_eq_true_eq] at hid
    rwa [← h.eq_of_id (h.queue_accepted queued hqueued) hitem hid]
  · intro hqueue
    exact ⟨⟨item, hqueue, by simp⟩, h.queued item hqueue⟩

theorem moves_beginCancellation (h : s.Listed) (hitem : item ∈ s.queue) :
    Moves s (s.beginCancellation item) item .cancelling where
  accepted := rfl
  queue_sub := List.eraseP_sublist
  queue_ne := by
    intro queued hqueued hid
    obtain ⟨found, before, after, hbefore, hfound, hqueue, herase⟩ := List.exists_of_eraseP
      (p := fun queued => queued.id = item.id) hitem (by simp)
    have hmem : queued ∈ before ++ after := herase ▸ hqueued
    rcases List.mem_append.mp hmem with hmem | hmem
    · exact hbefore queued hmem (by simpa using hid)
    · have hnodup := h.queue_nodup
      rw [hqueue, List.map_append, List.map_cons] at hnodup
      apply (List.nodup_cons.mp (List.nodup_append.mp hnodup).2.1).1
      rw [show found.id = queued.id by simpa [hid] using hfound]
      exact List.mem_map_of_mem hmem
  activeItems := rfl
  resolutions := rfl
  state := by simp [beginCancellation, setStatus, stateOf]
  others := by
    intro id hid
    simp [beginCancellation, setStatus, hid]

theorem Sound.beginCancellation (h : s.Sound limits) (hitem : item ∈ s.queue) :
    (s.beginCancellation item).Sound limits := by
  have hmoves := moves_beginCancellation h.toListed hitem
  have hrunning : (s.beginCancellation item).activeIn .running = s.activeIn .running := by
    rw [hmoves.activeIn h.toListed hitem .running, if_neg (by decide), List.append_nil]
  have hcancelling : (s.beginCancellation item).activeIn .cancelling =
      s.activeIn .cancelling ++ [item] := hmoves.activeIn h.toListed hitem .cancelling
  constructor
  · apply h.toListed.moves hitem hmoves (.inr rfl) h.started_lt
    exact h.order.sublist ((hmoves.queue_sub.map Item.id).append_left s.started)
  · constructor
    case barriers =>
      rw [hcancelling, List.length_append, ← h.barriers]
      rfl
    case exclusive =>
      rw [hrunning]
      exact h.exclusive
    case alone =>
      rw [hrunning]
      exact h.alone
    case width =>
      rw [hrunning]
      exact h.width
    case capacity => exact hmoves.queue_sub.length_le.trans h.capacity

theorem Sound.cancelQueued (h : s.Sound limits) (hitem : item ∈ s.accepted) :
    (s.cancelQueued limits item).Sound limits := by
  unfold Scheduler.cancelQueued
  split
  next hqueued => exact (h.beginCancellation ((h.toListed.isQueued_iff hitem).mp hqueued)).pump
  next => exact h

theorem Sound.cancelFromSignal (h : s.Sound limits) (hitem : item ∈ s.accepted) :
    (s.cancelFromSignal limits item).Sound limits := by
  unfold Scheduler.cancelFromSignal
  split
  next => exact h.cancelQueued hitem
  next => exact h

/-! ## Operations -/

theorem Sound.push (h : s.Sound limits) (submission : Submission ρ)
    (hcapacity : s.queue.length < limits.maxQueue) :
    (s.push (s.itemOf submission)).Sound limits := by
  have hid : (s.itemOf submission).id = s.accepted.length := rfl
  have hinitial : (s.push (s.itemOf submission)).stateOf (s.itemOf submission) = .queued := by
    rw [stateOf, hid]
    exact congrArg ItemStatus.state (h.fresh s.accepted.length le_rfl)
  constructor
  · constructor
    case ids =>
      rw [Scheduler.push, List.map_append, h.ids, List.length_append, List.length_singleton,
        List.range_succ]
      rfl
    case fresh =>
      intro id hlength
      apply h.fresh
      rw [Scheduler.push, List.length_append] at hlength
      exact (Nat.le_add_right _ _).trans hlength
    case queue_accepted =>
      intro queued hqueued
      rw [Scheduler.push, List.mem_append] at hqueued ⊢
      exact hqueued.imp_left (h.queue_accepted queued)
    case active_accepted =>
      intro active hactive
      exact List.mem_append_left _ (h.active_accepted active hactive)
    case started_lt =>
      intro id hstarted
      rw [Scheduler.push, List.length_append]
      exact (h.started_lt id hstarted).trans_le (Nat.le_add_right _ _)
    case order =>
      rw [Scheduler.push, List.map_append, ← List.append_assoc, List.pairwise_append]
      refine ⟨h.order, List.pairwise_singleton _ _, ?_⟩
      intro id hmem last hlast
      rw [List.map_singleton, List.mem_singleton, hid] at hlast
      rw [hlast]
      rcases List.mem_append.mp hmem with hstarted | hwaiting
      · exact h.started_lt id hstarted
      · obtain ⟨queued, hqueued, rfl⟩ := List.mem_map.mp hwaiting
        exact h.id_lt (h.queue_accepted queued hqueued)
    case queued =>
      intro queued hqueued
      rw [Scheduler.push, List.mem_append, List.mem_singleton] at hqueued
      rcases hqueued with hqueued | rfl
      · exact h.queued queued hqueued
      · exact hinitial
    case active => exact h.active
    case busy =>
      intro found hfound hstate
      rw [Scheduler.push, List.mem_append, List.mem_singleton] at hfound
      rcases hfound with hfound | rfl
      · exact h.busy found hfound hstate
      · rw [hinitial] at hstate
        rcases hstate with hstate | hstate <;> cases hstate
    case distinct => exact h.distinct
    case resolved_lt =>
      intro id hresolved
      rw [Scheduler.push, List.length_append]
      exact (h.resolved_lt id hresolved).trans_le (Nat.le_add_right _ _)
    case unresolved =>
      intro queued hqueued hresolved
      rw [Scheduler.push, List.mem_append, List.mem_singleton] at hqueued
      rcases hqueued with hqueued | rfl
      · exact h.unresolved queued hqueued hresolved
      · exact Nat.lt_irrefl _ (h.resolved_lt _ hresolved)
    case once => exact h.once
  · refine ⟨h.barriers, h.exclusive, h.alone, h.width, ?_⟩
    rw [Scheduler.push, List.length_append, List.length_singleton]
    exact hcapacity

theorem lt_of_not_rejects {submission : Submission ρ}
    (h : ¬s.rejects limits submission = true) : s.queue.length < limits.maxQueue := by
  simp only [rejects, Bool.or_eq_true, not_or, decide_eq_true_eq] at h
  omega

theorem Sound.enqueue (h : s.Sound limits) (submission : Submission ρ) :
    (s.enqueue limits submission).Sound limits := by
  unfold Scheduler.enqueue
  split
  next => exact h
  next hrejects =>
    have hpushed := h.push submission (lt_of_not_rejects hrejects)
    have hsignalled : (if submission.signal = .aborted then
        (s.push (s.itemOf submission)).cancelFromSignal limits (s.itemOf submission)
        else s.push (s.itemOf submission)).Sound limits := by
      split
      · apply hpushed.cancelFromSignal
        rw [Scheduler.push, List.mem_append]
        exact .inr List.mem_cons_self
      · exact hpushed
    dsimp only
    generalize (if submission.signal = .aborted then
        (s.push (s.itemOf submission)).cancelFromSignal limits (s.itemOf submission)
        else s.push (s.itemOf submission)) = signalled at hsignalled ⊢
    split
    · exact hsignalled.pump
    · exact hsignalled

theorem Sound.cancel (h : s.Sound limits) (hitem : item ∈ s.accepted) :
    (s.cancel limits item).Sound limits := by
  unfold Scheduler.cancel
  dsimp only
  split
  next => exact h
  next =>
    split
    next => exact h.cancelQueued hitem
    next =>
      refine h.of_sameLists ⟨rfl, rfl, rfl, rfl, rfl, rfl, rfl, ?_, ?_⟩
      · intro id
        by_cases hid : id = item.id
        · subst hid
          simp [setStatus]
        · simp [setStatus, hid]
      · intro id hid
        have hne : id ≠ item.id := Nat.ne_of_gt ((h.id_lt hitem).trans_le hid)
        simp [setStatus, hne]

/-- The queued items that `close` cancels. -/
theorem Sound.cancelAll (h : s.Sound limits) : (s.queue.foldl (fun s item =>
    if (s.status item.id).cancelled || !item.cancellable || !s.isQueued item then s
    else s.beginCancellation item) s).Sound limits := by
  have hfold : ∀ (queue : List (Item ρ)) (t : Scheduler ρ), t.Sound limits →
      (∀ item ∈ queue, item ∈ t.accepted) → (queue.foldl (fun s item =>
        if (s.status item.id).cancelled || !item.cancellable || !s.isQueued item then s
        else s.beginCancellation item) t).Sound limits := by
    intro queue
    induction queue with
    | nil =>
        intro t ht _
        exact ht
    | cons item rest ih =>
        intro t ht hqueue
        rw [List.foldl_cons]
        split
        next => exact ih t ht fun queued hqueued => hqueue queued (List.mem_cons_of_mem _ hqueued)
        next hcancel =>
          simp only [Bool.or_eq_true, not_or, Bool.not_eq_true', Bool.not_eq_false] at hcancel
          have hitem := (ht.toListed.isQueued_iff (hqueue item List.mem_cons_self)).mp hcancel.2
          exact ih _ (ht.beginCancellation hitem)
            fun queued hqueued => hqueue queued (List.mem_cons_of_mem _ hqueued)
  exact hfold s.queue s h h.queue_accepted

theorem Sound.closeQueued (h : s.Sound limits) : (s.closeQueued limits).Sound limits :=
  h.cancelAll.pump

theorem Sound.closeRunning (h : s.Sound limits) : s.closeRunning.Sound limits := by
  refine h.of_sameLists ⟨rfl, rfl, rfl, rfl, rfl, rfl, rfl, ?_, ?_⟩
  · intro id
    simp only [Scheduler.closeRunning]
    split <;> rfl
  · intro id hid
    simp only [Scheduler.closeRunning]
    rw [if_neg]
    intro hany
    obtain ⟨active, hactive, hmatch⟩ := List.any_eq_true.mp hany
    have hlt := h.id_lt (h.active_accepted active hactive)
    simp only [Bool.and_eq_true, decide_eq_true_eq] at hmatch
    omega

theorem Sound.close (h : s.Sound limits) (cancelQueued cancelRunning : Bool) :
    (s.close limits cancelQueued cancelRunning).Sound limits := by
  have hclosed : ({ s with accepting := false } : Scheduler ρ).Sound limits :=
    h.of_sameLists ⟨rfl, rfl, rfl, rfl, rfl, rfl, rfl, fun _ => rfl, fun _ _ => rfl⟩
  have hemptied : (if cancelQueued then ({ s with accepting := false } : Scheduler ρ).closeQueued limits
      else { s with accepting := false }).Sound limits := by
    split
    · exact hclosed.closeQueued
    · exact hclosed
  unfold Scheduler.close
  dsimp only
  split
  · exact hemptied.closeRunning
  · exact hemptied

/-! ## Callbacks -/

theorem Sound.resolve (h : s.Sound limits) (hitem : item ∈ s.activeItems)
    (hresolved : s.isResolved item.id = false) (resolver : Resolver) :
    (s.resolve item.id resolver).Sound limits := by
  have hids : (s.resolve item.id resolver).resolvedIds = s.resolvedIds ++ [item.id] := by
    simp [Scheduler.resolve, resolvedIds]
  constructor
  · refine { h.toListed with resolved_lt := ?_, unresolved := ?_, once := ?_ }
    · intro id hid
      rw [hids, List.mem_append, List.mem_singleton] at hid
      rcases hid with hid | rfl
      · exact h.resolved_lt id hid
      · exact h.id_lt (h.active_accepted item hitem)
    · intro queued hqueued hid
      rw [hids, List.mem_append, List.mem_singleton] at hid
      rcases hid with hid | hid
      · exact h.unresolved queued hqueued hid
      · exact h.toListed.id_ne_of_queue hqueued hitem hid.symm
    · rw [hids, List.nodup_append]
      refine ⟨h.once, List.nodup_singleton _, ?_⟩
      intro id hid last hlast heq
      rw [List.mem_singleton] at hlast
      obtain ⟨resolution, hresolution, rfl⟩ := List.mem_map.mp hid
      have hnot := List.any_eq_false.mp hresolved resolution hresolution
      exact hnot (by simp [heq, hlast])
  · exact { h.toGuarded with }

theorem stateOf_settle (hid : other.id ≠ item.id) : (s.settle item).stateOf other = s.stateOf other := by
  simp [settle, setStatus, stateOf, hid]

/-- The settled item leaves the active items. -/
theorem activeIn_settle {state : ItemState} : (s.settle item).activeIn state =
    (s.activeIn state).filter fun active => active.id ≠ item.id := by
  have hactive : (s.settle item).activeItems =
      s.activeItems.filter fun active => active.id ≠ item.id := rfl
  rw [activeIn, activeIn, hactive, List.filter_filter, List.filter_filter]
  apply List.filter_congr
  intro active _
  by_cases hid : active.id = item.id
  · simp [hid]
  · simp [hid, stateOf_settle hid]

theorem Listed.settle (h : s.Listed) (hitem : item ∈ s.activeItems) (barriers : Nat)
    (exclusiveRunning : Bool) :
    Listed { s.settle item with
      cancellationBarriers := barriers, exclusiveRunning := exclusiveRunning } := by
  have hitem' := h.active_accepted item hitem
  have hsettled : (s.settle item).stateOf item = .settled := by
    simp [Scheduler.settle, setStatus, stateOf]
  refine { h with fresh := ?_, active_accepted := ?_, queued := ?_, active := ?_, busy := ?_, distinct := ?_ }
  · intro id hid
    have hne : id ≠ item.id := Nat.ne_of_gt ((h.id_lt hitem').trans_le hid)
    simp [Scheduler.settle, setStatus, hne, h.fresh id hid]
  · intro active hactive
    exact h.active_accepted active (List.mem_filter.mp hactive).1
  · intro queued hqueued
    exact (stateOf_settle (h.id_ne_of_queue hqueued hitem).symm).trans (h.queued queued hqueued)
  · intro active hactive
    obtain ⟨hactive, hid⟩ := List.mem_filter.mp hactive
    rw [decide_eq_true_eq] at hid
    have hstate := h.active active hactive
    rwa [← stateOf_settle hid] at hstate
  · intro found hfound hstate
    by_cases hid : found.id = item.id
    · obtain rfl := h.eq_of_id hfound hitem' hid
      have hstate' : (s.settle found).stateOf found = .running ∨
          (s.settle found).stateOf found = .cancelling := hstate
      rw [hsettled] at hstate'
      rcases hstate' with hstate' | hstate' <;> cases hstate'
    · have hstate' : (s.settle item).stateOf found = .running ∨
          (s.settle item).stateOf found = .cancelling := hstate
      rw [stateOf_settle hid] at hstate'
      exact List.mem_filter.mpr ⟨h.busy found hfound hstate', by simpa using hid⟩
  · exact h.distinct.sublist (List.filter_sublist.map Item.id)

/-- An active item is not among the active items of another state. -/
theorem filter_activeIn (h : s.Listed) (hitem : item ∈ s.activeItems) {state : ItemState}
    (hstate : s.stateOf item ≠ state) :
    (s.activeIn state).filter (fun active => active.id ≠ item.id) = s.activeIn state := by
  apply List.filter_eq_self.mpr
  intro active hactive
  rw [mem_activeIn] at hactive
  rw [decide_eq_true_eq]
  intro hid
  obtain rfl := h.eq_of_id (h.active_accepted active hactive.1) (h.active_accepted item hitem) hid
  exact hstate hactive.2

/-- Removing one item of a list makes it shorter by one. -/
theorem length_filter_id_ne {items : List (Item ρ)} (hdistinct : (items.map Item.id).Nodup)
    (hitem : item ∈ items) :
    (items.filter fun active => active.id ≠ item.id).length = items.length - 1 := by
  induction items with
  | nil => cases hitem
  | cons first rest ih =>
      rw [List.map_cons, List.nodup_cons] at hdistinct
      by_cases hid : first.id = item.id
      · have hrest : rest.filter (fun active => active.id ≠ item.id) = rest := by
          apply List.filter_eq_self.mpr
          intro active hactive
          rw [decide_eq_true_eq]
          intro hsame
          exact hdistinct.1 (hid.trans hsame.symm ▸ List.mem_map_of_mem hactive)
        rw [List.filter_cons_of_neg (by simpa using hid), hrest]
        rfl
      · have hmem : item ∈ rest := by
          rcases List.mem_cons.mp hitem with rfl | hmem
          · exact absurd rfl hid
          · exact hmem
        have hpos := List.length_pos_of_mem hmem
        rw [List.filter_cons_of_pos (by simpa using hid), List.length_cons, List.length_cons,
          ih hdistinct.2 hmem]
        omega

/-- An execution is settled. -/
theorem Sound.settleRunning (h : s.Sound limits) (hitem : item ∈ s.activeItems)
    (hstate : s.stateOf item = .running) : ({ s.settle item with
      exclusiveRunning := !item.exclusive && (s.settle item).exclusiveRunning } :
        Scheduler ρ).Sound limits := by
  have hrunning := mem_activeIn.mpr ⟨hitem, hstate⟩
  have hcancelling : (s.activeIn .cancelling).filter (fun active => active.id ≠ item.id) =
      s.activeIn .cancelling := filter_activeIn h.toListed hitem (by rw [hstate]; decide)
  constructor
  · exact h.toListed.settle hitem _ _
  · constructor
    case barriers =>
      show s.cancellationBarriers = ((s.settle item).activeIn .cancelling).length
      rw [activeIn_settle, hcancelling]
      exact h.barriers
    case exclusive =>
      show (!item.exclusive && s.exclusiveRunning) = ((s.settle item).activeIn .running).any _
      rw [activeIn_settle, h.exclusive]
      cases hexclusive : item.exclusive with
      | true => simp [h.alone item hrunning hexclusive]
      | false =>
          rw [Bool.not_false, Bool.true_and, Bool.eq_iff_iff, List.any_eq_true, List.any_eq_true]
          constructor
          · rintro ⟨active, hactive, htrue⟩
            refine ⟨active, List.mem_filter.mpr ⟨hactive, ?_⟩, htrue⟩
            rw [decide_eq_true_eq]
            intro hid
            obtain rfl := h.eq_of_id (h.active_accepted active (mem_activeIn.mp hactive).1)
              (h.active_accepted item hitem) hid
            rw [hexclusive] at htrue
            cases htrue
          · rintro ⟨active, hactive, htrue⟩
            exact ⟨active, (List.mem_filter.mp hactive).1, htrue⟩
    case alone =>
      intro active hactive hexclusive
      have hactive' : active ∈ (s.settle item).activeIn .running := hactive
      show (s.settle item).activeIn .running = [active]
      rw [activeIn_settle] at hactive' ⊢
      obtain ⟨hmem, hid⟩ := List.mem_filter.mp hactive'
      rw [h.alone active hmem hexclusive]
      exact List.filter_eq_self.mpr (by simpa using hid)
    case width =>
      show ((s.settle item).activeIn .running).length ≤ limits.maxConcurrency
      rw [activeIn_settle]
      exact (List.length_filter_le _ _).trans h.width
    case capacity => exact h.capacity

/-- A cancellation is settled. -/
theorem Sound.settleCancelling (h : s.Sound limits) (hitem : item ∈ s.activeItems)
    (hstate : s.stateOf item = .cancelling) : ({ s.settle item with
      cancellationBarriers := (s.settle item).cancellationBarriers - 1 } :
        Scheduler ρ).Sound limits := by
  have hcancelling := mem_activeIn.mpr ⟨hitem, hstate⟩
  have hrunning : (s.activeIn .running).filter (fun active => active.id ≠ item.id) =
      s.activeIn .running := filter_activeIn h.toListed hitem (by rw [hstate]; decide)
  constructor
  · exact h.toListed.settle hitem _ _
  · constructor
    case barriers =>
      show s.cancellationBarriers - 1 = ((s.settle item).activeIn .cancelling).length
      rw [activeIn_settle, h.barriers]
      have hdistinct : ((s.activeIn .cancelling).map Item.id).Nodup :=
        h.distinct.sublist (List.filter_sublist.map Item.id)
      exact (length_filter_id_ne hdistinct hcancelling).symm
    case exclusive =>
      show s.exclusiveRunning = ((s.settle item).activeIn .running).any _
      rw [activeIn_settle, hrunning]
      exact h.exclusive
    case alone =>
      show ∀ active ∈ (s.settle item).activeIn .running, active.exclusive = true →
        (s.settle item).activeIn .running = [active]
      rw [activeIn_settle, hrunning]
      exact h.alone
    case width =>
      show ((s.settle item).activeIn .running).length ≤ limits.maxConcurrency
      rw [activeIn_settle, hrunning]
      exact h.width
    case capacity => exact h.capacity

theorem Sound.finish (h : s.Sound limits) (hitem : item ∈ s.activeItems)
    (hstate : s.stateOf item = .running) : (s.finish limits item).Sound limits :=
  (h.settleRunning hitem hstate).pump

theorem Sound.release (h : s.Sound limits) (hitem : item ∈ s.activeItems)
    (hstate : s.stateOf item = .cancelling) : (s.release limits item).Sound limits := by
  unfold Scheduler.release
  dsimp only
  split
  · exact (h.settleCancelling hitem hstate).pump
  · exact h.settleCancelling hitem hstate

/-- Halting changes nothing of an item that is not queued. -/
theorem status_halt {nullishCause : Bool} {id : Nat} (hid : id ∉ s.queue.map Item.id) :
    (s.halt nullishCause).status id = s.status id := by
  simp only [Scheduler.halt]
  rw [if_neg]
  intro hany
  obtain ⟨queued, hqueued, hsame⟩ := List.any_eq_true.mp hany
  rw [decide_eq_true_eq] at hsame
  apply hid
  rw [← hsame]
  apply List.mem_map_of_mem
  split at hqueued
  · exact List.mem_of_mem_take hqueued
  · exact hqueued

/-- No item is running or cancelling that was not so before. -/
theorem state_halt {nullishCause : Bool} {state : ItemState}
    (hstate : (s.halt nullishCause).stateOf item = state) (hne : state ≠ .settled) :
    s.stateOf item = state := by
  simp only [stateOf, Scheduler.halt] at hstate ⊢
  by_cases hsettled : ((if nullishCause = true then s.queue.take 1 else s.queue).any
      fun queued => queued.id = item.id) = true
  · rw [if_pos hsettled] at hstate
    exact absurd hstate.symm hne
  · rw [if_neg hsettled] at hstate
    exact hstate

theorem Sound.halt (h : s.Sound limits) (nullishCause : Bool) : (s.halt nullishCause).Sound limits := by
  have hactive : ∀ item ∈ s.activeItems, item.id ∉ s.queue.map Item.id := by
    intro item hitem hmem
    obtain ⟨queued, hqueued, hid⟩ := List.mem_map.mp hmem
    exact h.toListed.id_ne_of_queue hqueued hitem hid.symm
  have hactiveIn : ∀ state, (s.halt nullishCause).activeIn state = s.activeIn state := by
    intro state
    apply List.filter_congr
    intro item hitem
    rw [stateOf, stateOf, status_halt (hactive item hitem)]
  have hresolved : (s.halt nullishCause).resolvedIds =
      s.resolvedIds ++ if nullishCause then [] else s.queue.map Item.id := by
    cases nullishCause <;> simp [Scheduler.halt, resolvedIds]
  have hqueue : ∀ id ∈ (if nullishCause then [] else s.queue.map Item.id : List Nat),
      id ∈ s.queue.map Item.id := by
    intro id hid
    split at hid
    · cases hid
    · exact hid
  constructor
  · refine { h with
      fresh := ?_, queue_accepted := ?_, order := ?_, queued := ?_, active := ?_, busy := ?_
      resolved_lt := ?_, unresolved := ?_, once := ?_ }
    · intro id hid
      rw [status_halt, h.fresh id hid]
      intro hmem
      obtain ⟨queued, hqueued, rfl⟩ := List.mem_map.mp hmem
      exact Nat.not_lt_of_le hid (h.id_lt (h.queue_accepted queued hqueued))
    · intro item hitem
      cases hitem
    · rw [Scheduler.halt, List.map_nil, List.append_nil]
      exact (List.pairwise_append.mp h.order).1
    · intro item hitem
      cases hitem
    · intro item hitem
      rw [stateOf, status_halt (hactive item hitem)]
      exact h.active item hitem
    · intro item hitem hstate
      apply h.busy item hitem
      exact hstate.imp (fun hrunning => state_halt hrunning (by decide))
        (fun hcancelling => state_halt hcancelling (by decide))
    · intro id hid
      rw [hresolved, List.mem_append] at hid
      rcases hid with hid | hid
      · exact h.resolved_lt id hid
      · obtain ⟨queued, hqueued, rfl⟩ := List.mem_map.mp (hqueue id hid)
        exact h.id_lt (h.queue_accepted queued hqueued)
    · intro item hitem
      cases hitem
    · rw [hresolved, List.nodup_append]
      refine ⟨h.once, ?_, ?_⟩
      · split
        · exact List.nodup_nil
        · exact h.toListed.queue_nodup
      · intro id hid last hlast heq
        obtain ⟨queued, hqueued, hsame⟩ := List.mem_map.mp (hqueue last hlast)
        exact h.unresolved queued hqueued (hsame.trans heq.symm ▸ hid)
  · constructor
    all_goals try simp only [hactiveIn]
    · exact h.barriers
    · exact h.exclusive
    · exact h.alone
    · exact h.width
    · exact Nat.zero_le _

/-! ## Runs -/

theorem accepted?_eq_ok {id : Nat} (h : s.accepted? id = .ok item) :
    item ∈ s.accepted ∧ item.id = id := by
  unfold accepted? at h
  split at h
  next hfound =>
    obtain rfl := Except.ok.inj h
    exact ⟨List.mem_of_find?_eq_some hfound, by simpa using List.find?_some hfound⟩
  next => cases h

/-- An active item that an action names. -/
structure Awaits (s : Scheduler ρ) (item : Item ρ) (state : ItemState) (resolved : Bool) : Prop where
  mem : item ∈ s.activeItems
  state : s.stateOf item = state
  resolved : s.isResolved item.id = resolved

theorem active?_eq_ok {id : Nat} {state : ItemState} {resolved : Bool}
    (h : s.active? id state resolved = .ok item) : s.Awaits item state resolved ∧ item.id = id := by
  unfold active? at h
  split at h
  next found hfound =>
    split at h
    next hstate =>
      obtain rfl := Except.ok.inj h
      have hid : found.id = id := by simpa using List.find?_some hfound
      rw [Bool.and_eq_true, decide_eq_true_eq, decide_eq_true_eq] at hstate
      exact ⟨⟨List.mem_of_find?_eq_some hfound, hstate.1, hid ▸ hstate.2⟩, hid⟩
    next => cases h
  next => cases h

/-- The operation that an action performs. -/
inductive Performs (limits : SchedulerLimits) (s : Scheduler ρ) :
    SchedulerAction ρ → Scheduler ρ → Prop where
  | enqueue {submission : Submission ρ} :
      Performs limits s (.enqueue submission) (s.enqueue limits submission)
  | cancel {item : Item ρ} (hitem : item ∈ s.accepted) :
      Performs limits s (.cancel item.id) (s.cancel limits item)
  | abort {item : Item ρ} (hitem : item ∈ s.accepted) :
      Performs limits s (.abort item.id) (s.cancelFromSignal limits item)
  | close {cancelQueued cancelRunning : Bool} :
      Performs limits s (.close cancelQueued cancelRunning) (s.close limits cancelQueued cancelRunning)
  | executed {item : Item ρ} (hitem : s.Awaits item .running false) :
      Performs limits s (.executed item.id) (s.resolve item.id .execution)
  | finished {item : Item ρ} (hitem : s.Awaits item .running true) :
      Performs limits s (.finished item.id) (s.finish limits item)
  | persisted {item : Item ρ} (hitem : s.Awaits item .cancelling false) :
      Performs limits s (.persisted item.id) (s.resolve item.id .cancellation)
  | refused {item : Item ρ} {nullishCause : Bool} (hitem : s.Awaits item .cancelling false) :
      Performs limits s (.refused item.id nullishCause)
        ((s.resolve item.id .cancellation).halt nullishCause)
  | released {item : Item ρ} (hitem : s.Awaits item .cancelling true) :
      Performs limits s (.released item.id) (s.release limits item)

theorem step_performs {action : SchedulerAction ρ} (h : s.step limits action = .ok next) :
    Performs limits s action next := by
  cases action with
  | enqueue submission =>
      obtain rfl := pure_eq_ok_iff.mp h
      exact .enqueue
  | close cancelQueued cancelRunning =>
      obtain rfl := pure_eq_ok_iff.mp h
      exact .close
  | cancel id =>
      obtain ⟨item, hitem, h⟩ := bind_eq_ok_iff.mp h
      obtain rfl := pure_eq_ok_iff.mp h
      obtain ⟨hmem, rfl⟩ := accepted?_eq_ok hitem
      exact .cancel hmem
  | abort id =>
      obtain ⟨item, hitem, h⟩ := bind_eq_ok_iff.mp h
      obtain rfl := pure_eq_ok_iff.mp h
      obtain ⟨hmem, rfl⟩ := accepted?_eq_ok hitem
      exact .abort hmem
  | executed id =>
      obtain ⟨item, hitem, h⟩ := bind_eq_ok_iff.mp h
      obtain rfl := pure_eq_ok_iff.mp h
      obtain ⟨hawaits, rfl⟩ := active?_eq_ok hitem
      exact .executed hawaits
  | finished id =>
      obtain ⟨item, hitem, h⟩ := bind_eq_ok_iff.mp h
      obtain rfl := pure_eq_ok_iff.mp h
      obtain ⟨hawaits, rfl⟩ := active?_eq_ok hitem
      exact .finished hawaits
  | persisted id =>
      obtain ⟨item, hitem, h⟩ := bind_eq_ok_iff.mp h
      obtain rfl := pure_eq_ok_iff.mp h
      obtain ⟨hawaits, rfl⟩ := active?_eq_ok hitem
      exact .persisted hawaits
  | refused id nullishCause =>
      obtain ⟨item, hitem, h⟩ := bind_eq_ok_iff.mp h
      obtain rfl := pure_eq_ok_iff.mp h
      obtain ⟨hawaits, rfl⟩ := active?_eq_ok hitem
      exact .refused hawaits
  | released id =>
      obtain ⟨item, hitem, h⟩ := bind_eq_ok_iff.mp h
      obtain rfl := pure_eq_ok_iff.mp h
      obtain ⟨hawaits, rfl⟩ := active?_eq_ok hitem
      exact .released hawaits

theorem Sound.performs {action : SchedulerAction ρ} (h : s.Sound limits)
    (hperforms : Performs limits s action next) : next.Sound limits := by
  cases hperforms with
  | enqueue => exact h.enqueue _
  | cancel hitem => exact h.cancel hitem
  | abort hitem => exact h.cancelFromSignal hitem
  | close => exact h.close _ _
  | executed hitem => exact h.resolve hitem.mem hitem.resolved _
  | finished hitem => exact h.finish hitem.mem hitem.state
  | persisted hitem => exact h.resolve hitem.mem hitem.resolved _
  | refused hitem => exact (h.resolve hitem.mem hitem.resolved _).halt _
  | released hitem => exact h.release hitem.mem hitem.state

theorem run_sound {actions : List (SchedulerAction ρ)}
    (h : run (Scheduler.step limits) .initial actions = .ok s) : s.Sound limits := by
  apply run_invariant sound_initial ?_ h
  intro middle action next hmiddle hstep
  exact hmiddle.performs (step_performs hstep)

end Hseos.Scheduler
