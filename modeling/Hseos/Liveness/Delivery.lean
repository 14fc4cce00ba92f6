import Hseos.Liveness.Outbox

/-! # The deliveries of the escalation outbox

What every run of the watchers keeps, and when the lines are written once. A watcher
writes on the strength of what it read before; other watchers may have written since.
-/

namespace Hseos.Liveness

namespace Progress

/-- The row in hand was written to the file, and then notified, as far as the step says. -/
def Reached (lines : List EscalationLine) (notified : List Nat) : Progress → Prop
  | .notifying _ row _ => row.id ∈ lines.map (·.outboxId)
  | .marking _ row _ => row.id ∈ lines.map (·.outboxId) ∧ row.id ∈ notified
  | _ => True

theorem Reached.mono {progress : Progress} {lines lines' : List EscalationLine}
    {notified notified' : List Nat} (h : progress.Reached lines notified) (hlines : lines <+: lines')
    (hnotified : notified <+: notified') : progress.Reached lines' notified' := by
  have hmap : ∀ id ∈ lines.map (·.outboxId), id ∈ lines'.map (·.outboxId) :=
    fun id hid => (hlines.map _).subset hid
  cases progress with
  | notifying => exact hmap _ h
  | marking => exact ⟨hmap _ h.1, hnotified.subset h.2⟩
  | _ => trivial

end Progress

namespace Outbox

variable {ι : Type} {maxAttempts : Nat} {s s' : Outbox ι} {a : OutboxAction ι}

theorem hasLine_iff {id : Nat} : s.hasLine id = true ↔ id ∈ s.lines.map (·.outboxId) := by
  simp [hasLine]

/-! ## What a step does -/

section

variable [DecidableEq ι]

/-- A step: it goes on in the code of one watcher, or it writes. -/
inductive Effect (maxAttempts : Nat) (s : Outbox ι) : OutboxAction ι → Outbox ι → Prop where
  | enqueued (item : OutboxItem) (now : Int) :
      Effect maxAttempts s (.enqueue item now)
        { s with
          rows := s.rows ++ [⟨s.lastId + 1, item, now, none, 0, none, none, none⟩]
          lastId := s.lastId + 1 }
  | walked (a : OutboxAction ι) (watcher : ι) (progress : Progress)
      (hrows : progress.rows.Sublist (s.progress watcher).rows)
      (hreached : progress.Reached s.lines s.notified)
      (hprogress : ∀ now row rest, progress ≠ .appending now row rest) :
      Effect maxAttempts s a (s.goTo watcher progress)
  | checked (watcher : ι) (readable : Bool) (now : Int) (row : PendingRow)
      (rest : List PendingRow) (hprogress : s.progress watcher = .checking now row rest) :
      Effect maxAttempts s (.check watcher readable)
        (s.goTo watcher (if readable && s.hasLine row.id then .notifying now row rest
          else .appending now row rest))
  | pruned (watcher : ι) (now : Int) :
      Effect maxAttempts s (.prune watcher none)
        ({ s with rows := s.rows.filter fun row => !row.expired (now - outboxRetentionMs) }.goTo
          watcher (.selecting now))
  | selected (watcher : ι) (now : Int) (hprogress : s.progress watcher = .selecting now) :
      Effect maxAttempts s (.select watcher none) (s.goTo watcher (.turning now (s.batch now)))
  | appended (watcher : ι) (now : Int) (row : PendingRow) (rest : List PendingRow)
      (hprogress : s.progress watcher = .appending now row rest) :
      Effect maxAttempts s (.append watcher none)
        ({ s with lines := s.lines ++ [row.line] }.goTo watcher (.notifying now row rest))
  | notified (watcher : ι) (now : Int) (row : PendingRow) (rest : List PendingRow)
      (hprogress : s.progress watcher = .notifying now row rest) :
      Effect maxAttempts s (.notify watcher none)
        ({ s with notified := s.notified ++ [row.id] }.goTo watcher (.marking now row rest))
  | marked (watcher : ι) (now : Int) (row : PendingRow) (rest : List PendingRow)
      (hprogress : s.progress watcher = .marking now row rest) :
      Effect maxAttempts s (.mark watcher none)
        ((s.updateRow row.id (·.afterDelivery now)).goTo watcher (.turning now rest))
  | counted (watcher : ι) (now : Int) (row : PendingRow) (rest : List PendingRow)
      (message : String) (hprogress : s.progress watcher = .failing now row rest message) :
      Effect maxAttempts s (.giveUpOrRetry watcher none)
        ((s.updateRow row.id
          (·.afterFailure maxAttempts now (row.attempts + 1) message)).goTo watcher
            (.turning now rest))

theorem effect_of_step (h : s.step maxAttempts a = .ok s') : s.Effect maxAttempts a s' := by
  cases a with
  | enqueue item now =>
      cases h
      exact .enqueued item now
  | start watcher now =>
      simp only [step] at h
      split at h <;> cases h
      exact .walked _ watcher _ (List.nil_sublist _) trivial nofun
  | prune watcher error =>
      simp only [step] at h
      split at h <;> cases h
      · exact .pruned watcher _
      · exact .walked _ watcher _ (List.nil_sublist _) trivial nofun
  | select watcher error =>
      simp only [step] at h
      split at h <;> cases h
      · exact .selected watcher _ ‹_›
      · exact .walked _ watcher _ (List.nil_sublist _) trivial nofun
  | turn watcher inBudget =>
      simp only [step] at h
      split at h <;> cases h
      next now row rest hprogress =>
        refine .walked _ watcher _ ?_ ?_ ?_
        · rw [hprogress]
          cases inBudget
          · exact List.nil_sublist _
          · exact List.Sublist.refl _
        · cases inBudget <;> trivial
        · cases inBudget <;> exact nofun
      · exact .walked _ watcher _ (List.nil_sublist _) trivial nofun
  | check watcher readable =>
      simp only [step] at h
      split at h <;> cases h
      next now row rest hprogress => exact .checked watcher readable now row rest hprogress
  | append watcher error =>
      simp only [step] at h
      split at h <;> cases h
      next hprogress => exact .appended watcher _ _ _ hprogress
      next hprogress =>
        exact .walked _ watcher _ (by rw [hprogress]; exact List.Sublist.refl _) trivial nofun
  | notify watcher error =>
      simp only [step] at h
      split at h <;> cases h
      next hprogress => exact .notified watcher _ _ _ hprogress
      next hprogress =>
        exact .walked _ watcher _ (by rw [hprogress]; exact List.Sublist.refl _) trivial nofun
  | mark watcher error =>
      simp only [step] at h
      split at h <;> cases h
      next hprogress => exact .marked watcher _ _ _ hprogress
      next hprogress =>
        exact .walked _ watcher _ (by rw [hprogress]; exact List.Sublist.refl _) trivial nofun
  | giveUpOrRetry watcher error =>
      simp only [step] at h
      split at h <;> cases h
      next hprogress => exact .counted watcher _ _ _ _ hprogress
      next => exact .walked _ watcher _ (List.nil_sublist _) trivial nofun
  | crash watcher =>
      cases h
      exact .walked _ watcher _ (List.nil_sublist _) trivial nofun

end

/-! ## What every run keeps -/

/-- What holds whatever the watchers do. -/
structure Sound (maxAttempts : Nat) (s : Outbox ι) : Prop where
  ids : (s.rows.map (·.id)).Nodup
  numbered : ∀ row ∈ s.rows, row.id ≤ s.lastId
  delivered : ∀ row ∈ s.rows, row.deliveredAt ≠ none →
    row.id ∈ s.lines.map (·.outboxId) ∧ row.id ∈ s.notified
  bounded : ∀ row ∈ s.rows, row.attempts ≤ maxAttempts
  tried : ∀ row ∈ s.rows, row.gaveUpAt = none → row.attempts < maxAttempts
  held : ∀ watcher, ∀ row ∈ (s.progress watcher).rows, row.attempts < maxAttempts
  reached : ∀ watcher, (s.progress watcher).Reached s.lines s.notified

/-- Later tables: no new row has an old id, and no row has fewer attempts. -/
structure Leads (s s' : Outbox ι) : Prop where
  lastId : s.lastId ≤ s'.lastId
  rows : ∀ later ∈ s'.rows, later.id ≤ s.lastId →
    ∃ row ∈ s.rows, row.id = later.id ∧ row.attempts ≤ later.attempts

theorem Leads.refl (s : Outbox ι) : s.Leads s :=
  ⟨le_rfl, fun later hlater _ => ⟨later, hlater, rfl, le_rfl⟩⟩

theorem Leads.trans {s'' : Outbox ι} (h : s.Leads s') (h' : s'.Leads s'') : s.Leads s'' := by
  refine ⟨h.lastId.trans h'.lastId, fun later hlater hid => ?_⟩
  obtain ⟨mid, hmid, hmidId, hattempts⟩ := h'.rows later hlater (hid.trans h.lastId)
  obtain ⟨row, hrow, hrowId, hrowAttempts⟩ := h.rows mid hmid (hmidId.trans_le hid)
  exact ⟨row, hrow, hrowId.trans hmidId, hrowAttempts.trans hattempts⟩

/-- Each row of the later tables that the earlier ones have has at least its attempts. -/
def KeepsAttempts (s s' : Outbox ι) : Prop :=
  ∀ row ∈ s.rows, ∀ later ∈ s'.rows, later.id = row.id → row.attempts ≤ later.attempts

theorem Sound.keepsAttempts (h : s.Sound maxAttempts) (hleads : s.Leads s') :
    s.KeepsAttempts s' := by
  intro row hrow later hlater hid
  obtain ⟨old, hold, holdId, hattempts⟩ :=
    hleads.rows later hlater (hid.trans_le (h.numbered row hrow))
  obtain rfl := List.inj_on_of_nodup_map h.ids hold hrow (holdId.trans hid)
  exact hattempts

theorem sound_initial : (initial : Outbox ι).Sound maxAttempts where
  ids := .nil
  numbered := fun _ hrow => absurd hrow List.not_mem_nil
  delivered := fun _ hrow => absurd hrow List.not_mem_nil
  bounded := fun _ hrow => absurd hrow List.not_mem_nil
  tried := fun _ hrow => absurd hrow List.not_mem_nil
  held := fun _ _ hrow => absurd hrow List.not_mem_nil
  reached := fun _ => trivial

/-! ### Rows -/

theorem Sound.ids_updateRow (h : s.Sound maxAttempts) {id : Nat} {change : OutboxRow → OutboxRow}
    (hchange : ∀ row, (change row).id = row.id) :
    ((s.updateRow id change).rows.map (·.id)).Nodup := by
  have hsame : (s.updateRow id change).rows.map (·.id) = s.rows.map (·.id) := by
    rw [updateRow, List.map_map]
    apply List.map_congr_left
    intro row _
    rw [Function.comp_apply]
    split
    · exact hchange row
    · rfl
  rw [hsame]
  exact h.ids

/-- What holds of the changed row and of every other one. -/
theorem forall_updateRow {id : Nat} {change : OutboxRow → OutboxRow} {P : OutboxRow → Prop}
    (hchanged : ∀ row ∈ s.rows, row.id = id → P (change row)) (hother : ∀ row ∈ s.rows, P row) :
    ∀ row ∈ (s.updateRow id change).rows, P row := by
  intro later hlater
  obtain ⟨row, hrow, rfl⟩ := List.mem_map.mp hlater
  split
  next hid => exact hchanged row hrow hid
  next => exact hother row hrow

theorem mem_updateRow {id : Nat} (change : OutboxRow → OutboxRow) {row : OutboxRow}
    (hrow : row ∈ s.rows) (hid : row.id = id) : change row ∈ (s.updateRow id change).rows :=
  List.mem_map.mpr ⟨row, hrow, if_pos hid⟩

theorem id_afterFailure {now : Int} {attempts : Nat} {message : String} (row : OutboxRow) :
    (row.afterFailure maxAttempts now attempts message).id = row.id := by
  unfold OutboxRow.afterFailure
  split <;> rfl

theorem attempts_afterFailure {now : Int} {attempts : Nat} {message : String} (row : OutboxRow) :
    (row.afterFailure maxAttempts now attempts message).attempts = attempts := by
  unfold OutboxRow.afterFailure
  split <;> rfl

theorem deliveredAt_afterFailure {now : Int} {attempts : Nat} {message : String}
    (row : OutboxRow) :
    (row.afterFailure maxAttempts now attempts message).deliveredAt = row.deliveredAt := by
  unfold OutboxRow.afterFailure
  split <;> rfl

/-- The last attempt is the one that gives the row up. -/
theorem lt_of_afterFailure {now : Int} {attempts : Nat} {message : String} {row : OutboxRow}
    (h : (row.afterFailure maxAttempts now attempts message).gaveUpAt = none) :
    attempts < maxAttempts := by
  unfold OutboxRow.afterFailure at h
  split at h
  · cases h
  next hlt => exact Nat.lt_of_not_le hlt

theorem mem_batch {now : Int} {row : PendingRow} (h : row ∈ s.batch now) :
    ∃ stored ∈ s.rows, stored.pending now = true ∧ stored.toPending = row := by
  obtain ⟨stored, hstored, rfl⟩ := List.mem_map.mp h
  obtain ⟨hrow, hpending⟩ := List.mem_filter.mp (List.mem_of_mem_take hstored)
  exact ⟨stored, hrow, hpending, rfl⟩

theorem gaveUpAt_of_pending {now : Int} {row : OutboxRow} (h : row.pending now = true) :
    row.gaveUpAt = none := by
  simp only [OutboxRow.pending, Bool.and_eq_true, Option.isNone_iff_eq_none] at h
  exact h.1.2

/-! ### Steps -/

section

variable [DecidableEq ι] {watcher : ι} {progress : Progress}

/-- Tables whose rows are no worse and which have more lines and more notifications, when one
watcher goes on. -/
theorem Sound.goTo (h : s.Sound maxAttempts) {rows : List OutboxRow} {lastId : Nat}
    {lines : List EscalationLine} {notified : List Nat}
    (hids : (rows.map (·.id)).Nodup) (hnumbered : ∀ row ∈ rows, row.id ≤ lastId)
    (hdelivered : ∀ row ∈ rows, row.deliveredAt ≠ none →
      row.id ∈ lines.map (·.outboxId) ∧ row.id ∈ notified)
    (htried : ∀ row ∈ rows, row.attempts ≤ maxAttempts ∧
      (row.gaveUpAt = none → row.attempts < maxAttempts))
    (hlines : s.lines <+: lines) (hnotified : s.notified <+: notified)
    (hheld : ∀ row ∈ progress.rows, row.attempts < maxAttempts)
    (hreached : progress.Reached lines notified) :
    (Outbox.goTo ⟨rows, lastId, lines, notified, s.progress⟩ watcher progress).Sound
      maxAttempts where
  ids := hids
  numbered := hnumbered
  delivered := hdelivered
  bounded := fun row hrow => (htried row hrow).1
  tried := fun row hrow => (htried row hrow).2
  held := by
    intro other
    by_cases hother : other = watcher
    · subst hother
      simpa [Outbox.goTo] using hheld
    · simpa [Outbox.goTo, Function.update_of_ne hother] using h.held other
  reached := by
    intro other
    by_cases hother : other = watcher
    · subst hother
      simpa [Outbox.goTo] using hreached
    · simpa [Outbox.goTo, Function.update_of_ne hother] using
        (h.reached other).mono hlines hnotified

/-- One step keeps what holds whatever the watchers do. -/
theorem Sound.effect (h : s.Sound maxAttempts) (hmax : 1 ≤ maxAttempts)
    (heffect : s.Effect maxAttempts a s') : s'.Sound maxAttempts := by
  have hbounded : ∀ row ∈ s.rows, row.attempts ≤ maxAttempts ∧
      (row.gaveUpAt = none → row.attempts < maxAttempts) :=
    fun row hrow => ⟨h.bounded row hrow, h.tried row hrow⟩
  -- The rows after the one in hand were read before it was done.
  have hrest : ∀ {watcher row rest}, (s.progress watcher).rows = row :: rest →
      row.attempts < maxAttempts ∧ ∀ other ∈ rest, other.attempts < maxAttempts := by
    intro watcher row rest hrows
    have hheld := h.held watcher
    rw [hrows] at hheld
    exact ⟨hheld row List.mem_cons_self, fun other hother =>
      hheld other (List.mem_cons_of_mem _ hother)⟩
  cases heffect with
  | enqueued item now =>
      have hfresh : ∀ row ∈ s.rows, row.id ≠ s.lastId + 1 := fun row hrow hid => by
        have := h.numbered row hrow
        omega
      constructor
      · rw [List.map_append]
        refine h.ids.append (List.nodup_singleton _) ?_
        intro id hid hnew
        obtain ⟨row, hrow, rfl⟩ := List.mem_map.mp hid
        exact hfresh row hrow (List.mem_singleton.mp hnew)
      · intro row hrow
        rcases List.mem_append.mp hrow with hold | hnew
        · exact (h.numbered row hold).trans (Nat.le_succ _)
        · rw [List.mem_singleton.mp hnew]
      · intro row hrow hdelivered
        rcases List.mem_append.mp hrow with hold | hnew
        · exact h.delivered row hold hdelivered
        · rw [List.mem_singleton.mp hnew] at hdelivered
          exact absurd rfl hdelivered
      · intro row hrow
        rcases List.mem_append.mp hrow with hold | hnew
        · exact h.bounded row hold
        · rw [List.mem_singleton.mp hnew]
          exact Nat.zero_le _
      · intro row hrow hgaveUp
        rcases List.mem_append.mp hrow with hold | hnew
        · exact h.tried row hold hgaveUp
        · rw [List.mem_singleton.mp hnew]
          exact hmax
      · exact h.held
      · exact h.reached
  | walked _ watcher progress hrows hreached =>
      exact h.goTo h.ids h.numbered h.delivered hbounded List.prefix_rfl List.prefix_rfl
        (fun row hrow => h.held watcher row (hrows.subset hrow)) hreached
  | checked watcher readable now row rest hprogress =>
      have hheld := h.held watcher
      rw [hprogress] at hheld
      refine h.goTo h.ids h.numbered h.delivered hbounded List.prefix_rfl List.prefix_rfl ?_ ?_
      · split <;> exact hheld
      · split
        next hline =>
          rw [Bool.and_eq_true, hasLine_iff] at hline
          exact hline.2
        next => trivial
  | pruned watcher now =>
      have hkept : ∀ row ∈ s.rows.filter fun row => !row.expired (now - outboxRetentionMs),
          row ∈ s.rows := fun row hrow => (List.mem_filter.mp hrow).1
      exact h.goTo (h.ids.sublist (List.filter_sublist.map _)) (fun row hrow =>
        h.numbered row (hkept row hrow)) (fun row hrow => h.delivered row (hkept row hrow))
        (fun row hrow => hbounded row (hkept row hrow)) List.prefix_rfl List.prefix_rfl nofun
        trivial
  | selected watcher now hprogress =>
      refine h.goTo h.ids h.numbered h.delivered hbounded List.prefix_rfl List.prefix_rfl ?_ trivial
      intro row hrow
      obtain ⟨stored, hstored, hpending, rfl⟩ := mem_batch hrow
      exact h.tried stored hstored (gaveUpAt_of_pending hpending)
  | appended watcher now row rest hprogress =>
      refine h.goTo h.ids h.numbered ?_ hbounded (List.prefix_append _ _) List.prefix_rfl ?_ ?_
      · intro stored hstored hdelivered
        rw [List.map_append]
        exact (h.delivered stored hstored hdelivered).imp_left (List.mem_append_left _)
      · have hheld := h.held watcher
        rw [hprogress] at hheld
        exact hheld
      · rw [Progress.Reached, List.map_append]
        exact List.mem_append_right _ (List.mem_singleton.mpr rfl)
  | notified watcher now row rest hprogress =>
      refine h.goTo h.ids h.numbered ?_ hbounded List.prefix_rfl (List.prefix_append _ _) ?_ ?_
      · intro stored hstored hdelivered
        exact (h.delivered stored hstored hdelivered).imp_right (List.mem_append_left _)
      · have hheld := h.held watcher
        rw [hprogress] at hheld
        exact hheld
      · have hreached := h.reached watcher
        rw [hprogress] at hreached
        exact ⟨hreached, List.mem_append_right _ (List.mem_singleton.mpr rfl)⟩
  | marked watcher now row rest hprogress =>
      have hreached := h.reached watcher
      rw [hprogress] at hreached
      refine h.goTo ?_ ?_ ?_ ?_ List.prefix_rfl List.prefix_rfl
        (hrest (congrArg Progress.rows hprogress)).2 trivial
      · exact h.ids_updateRow fun _ => rfl
      · exact forall_updateRow (fun stored hstored _ => h.numbered stored hstored) h.numbered
      · exact forall_updateRow (fun stored _ hid _ => hid.symm ▸ hreached) h.delivered
      · exact forall_updateRow (fun stored hstored _ => hbounded stored hstored) hbounded
  | counted watcher now row rest message hprogress =>
      obtain ⟨hattempts, hheld⟩ := hrest (congrArg Progress.rows hprogress)
      refine h.goTo ?_ ?_ ?_ ?_ List.prefix_rfl List.prefix_rfl hheld trivial
      · exact h.ids_updateRow id_afterFailure
      · refine forall_updateRow (fun stored hstored _ => ?_) h.numbered
        rw [id_afterFailure]
        exact h.numbered stored hstored
      · refine forall_updateRow (fun stored hstored _ => ?_) h.delivered
        rw [deliveredAt_afterFailure, id_afterFailure]
        exact h.delivered stored hstored
      · refine forall_updateRow (fun stored _ _ => ⟨?_, fun hgaveUp => ?_⟩) hbounded
        · rw [attempts_afterFailure]
          exact hattempts
        · rw [attempts_afterFailure]
          exact lt_of_afterFailure hgaveUp

/-- Whatever the watchers do, these invariants hold. -/
theorem sound_run {actions : List (OutboxAction ι)} (hmax : 1 ≤ maxAttempts)
    (h : run (step maxAttempts) initial actions = .ok s) : s.Sound maxAttempts :=
  run_invariant sound_initial (fun _ _ _ hmid ha => hmid.effect hmax (effect_of_step ha)) h

/-! ## When the lines are written once -/

/-- What a watcher goes by when it writes is still so: the file has no line of the row, the row
was not given up or delivered meanwhile, and it has no more attempts than the watcher counts. -/
def Current (maxAttempts : Nat) (s : Outbox ι) : OutboxAction ι → Prop
  | .append watcher none =>
      ∀ now row rest, s.progress watcher = .appending now row rest → s.hasLine row.id = false
  | .mark watcher none =>
      ∀ now row rest, s.progress watcher = .marking now row rest →
        ∀ stored ∈ s.rows, stored.id = row.id → stored.gaveUpAt = none
  | .giveUpOrRetry watcher none =>
      ∀ now row rest message, s.progress watcher = .failing now row rest message →
        ∀ stored ∈ s.rows, stored.id = row.id → stored.attempts ≤ row.attempts + 1 ∧
          (maxAttempts ≤ row.attempts + 1 → stored.deliveredAt = none)
  | _ => True

/-- No line is written twice, and no row is both delivered and given up. -/
structure Single (s : Outbox ι) : Prop where
  lines : (s.lines.map (·.outboxId)).Nodup
  settled : ∀ row ∈ s.rows, row.deliveredAt = none ∨ row.gaveUpAt = none

omit [DecidableEq ι] in
theorem single_initial : (initial : Outbox ι).Single :=
  ⟨.nil, fun _ hrow => absurd hrow List.not_mem_nil⟩

theorem Single.effect (h : s.Single) (hcurrent : s.Current maxAttempts a)
    (heffect : s.Effect maxAttempts a s') : s'.Single := by
  cases heffect with
  | enqueued item now =>
      refine ⟨h.lines, fun row hrow => ?_⟩
      rcases List.mem_append.mp hrow with hold | hnew
      · exact h.settled row hold
      · rw [List.mem_singleton.mp hnew]
        exact .inl rfl
  | walked | checked | selected | notified => exact ⟨h.lines, h.settled⟩
  | pruned => exact ⟨h.lines, fun row hrow => h.settled row (List.mem_filter.mp hrow).1⟩
  | appended watcher now row rest hprogress =>
      refine ⟨?_, h.settled⟩
      have hfresh : row.id ∉ s.lines.map (·.outboxId) := by
        rw [← hasLine_iff, hcurrent now row rest hprogress]
        exact Bool.false_ne_true
      simp only [goTo, List.map_append, List.map_cons, List.map_nil]
      exact h.lines.append (List.nodup_singleton _)
        (List.disjoint_singleton.mpr hfresh)
  | marked watcher now row rest hprogress =>
      refine ⟨h.lines, forall_updateRow (fun stored hstored hid => .inr ?_) h.settled⟩
      exact hcurrent now row rest hprogress stored hstored hid
  | counted watcher now row rest message hprogress =>
      refine ⟨h.lines, forall_updateRow (fun stored hstored hid => ?_) h.settled⟩
      obtain ⟨-, hdelivered⟩ := hcurrent now row rest message hprogress stored hstored hid
      rw [deliveredAt_afterFailure]
      by_cases hlast : maxAttempts ≤ row.attempts + 1
      · exact .inl (hdelivered hlast)
      · simp only [OutboxRow.afterFailure, if_neg hlast]
        exact h.settled stored hstored

omit [DecidableEq ι] in
theorem leads_of_rows {rows : List OutboxRow} {lines : List EscalationLine} {notified : List Nat}
    {progress : ι → Progress}
    (hrows : ∀ later ∈ rows, ∃ row ∈ s.rows, row.id = later.id ∧ row.attempts ≤ later.attempts) :
    s.Leads ⟨rows, s.lastId, lines, notified, progress⟩ :=
  ⟨le_rfl, fun later hlater _ => hrows later hlater⟩

theorem Leads.effect (hcurrent : s.Current maxAttempts a) (heffect : s.Effect maxAttempts a s') :
    s.Leads s' := by
  have hsame : ∀ row ∈ s.rows, ∃ old ∈ s.rows, old.id = row.id ∧ old.attempts ≤ row.attempts :=
    fun row hrow => ⟨row, hrow, rfl, le_rfl⟩
  cases heffect with
  | enqueued item now =>
      refine ⟨Nat.le_succ _, fun later hlater hid => ?_⟩
      rcases List.mem_append.mp hlater with hold | hnew
      · exact hsame later hold
      · rw [List.mem_singleton.mp hnew] at hid
        exact absurd hid (Nat.not_succ_le_self _)
  | walked | checked | selected | appended | notified => exact leads_of_rows hsame
  | pruned => exact leads_of_rows fun later hlater => hsame later (List.mem_filter.mp hlater).1
  | marked watcher now row rest hprogress =>
      exact leads_of_rows (forall_updateRow (fun stored hstored _ => hsame stored hstored) hsame)
  | counted watcher now row rest message hprogress =>
      refine leads_of_rows (forall_updateRow (fun stored hstored hid => ?_) hsame)
      refine ⟨stored, hstored, (id_afterFailure stored).symm, ?_⟩
      rw [attempts_afterFailure]
      exact (hcurrent now row rest message hprogress stored hstored hid).1

/-- What the escalations of a run keep. -/
structure Kept (maxAttempts : Nat) (s : Outbox ι) : Prop where
  lines : (s.lines.map (·.outboxId)).Nodup
  delivered : ∀ row ∈ s.rows, row.deliveredAt ≠ none →
    row.id ∈ s.lines.map (·.outboxId) ∧ row.id ∈ s.notified
  settled : ∀ row ∈ s.rows, row.deliveredAt = none ∨ row.gaveUpAt = none
  bounded : ∀ row ∈ s.rows, row.attempts ≤ maxAttempts

/-- The escalations are kept in every state of the run, and no row ever has fewer attempts. -/
def WritesOnce (maxAttempts : Nat) (actions : List (OutboxAction ι)) : Prop :=
  ∀ first second third, actions = first ++ second ++ third → ∀ s s',
    run (step maxAttempts) initial first = .ok s → run (step maxAttempts) s second = .ok s' →
      s'.Kept maxAttempts ∧ s.KeepsAttempts s'

theorem kept_of_current {actions : List (OutboxAction ι)} (hmax : 1 ≤ maxAttempts)
    (hcurrent : Throughout (fun past a => ∀ s, run (step maxAttempts) initial past = .ok s →
      s.Current maxAttempts a) actions) : WritesOnce maxAttempts actions := by
  rintro first second third rfl s s' hfirst hsecond
  have hrun : run (step maxAttempts) initial (first ++ second) = .ok s' := by
    rw [run_append, hfirst]
    exact hsecond
  have hall : s'.Single ∧ ∀ early, early <+: first ++ second →
      ∀ s, run (step maxAttempts) initial early = .ok s → s.Leads s' := by
    refine run_throughout
      (P := fun past mid => mid.Single ∧ ∀ early, early <+: past →
        ∀ s, run (step maxAttempts) initial early = .ok s → s.Leads mid)
      ⟨single_initial, ?_⟩ ?_ (hcurrent.of_isPrefix (List.prefix_append _ _)) hrun
    · intro early hearly s hs
      rw [List.prefix_nil.mp hearly, run_nil, Except.ok.injEq] at hs
      exact hs ▸ Leads.refl _
    · rintro past mid a next hpast ⟨hsingle, hleads⟩ ha hnext
      have heffect := effect_of_step hnext
      refine ⟨hsingle.effect (ha mid hpast) heffect, fun early hearly s hs => ?_⟩
      rcases List.prefix_concat_iff.mp hearly with rfl | hbefore
      · obtain ⟨mid', hpast', ha'⟩ := run_snoc_eq_ok_iff.mp hs
        rw [hpast, Except.ok.injEq] at hpast'
        rw [← hpast', hnext, Except.ok.injEq] at ha'
        exact ha' ▸ Leads.refl _
      · exact (hleads early hbefore s hs).trans (.effect (ha mid hpast) heffect)
  have hsound := sound_run hmax hrun
  exact ⟨⟨hall.1.lines, hsound.delivered, hall.1.settled, hsound.bounded⟩,
    (sound_run hmax hfirst).keepsAttempts (hall.2 first (List.prefix_append _ _) s hfirst)⟩

theorem current_of_kept {actions : List (OutboxAction ι)} (h : WritesOnce maxAttempts actions) :
    Throughout (fun past a => ∀ s, run (step maxAttempts) initial past = .ok s →
      s.Current maxAttempts a) actions := by
  rintro past a future rfl s hpast
  have hstep : ∀ s', s.step maxAttempts a = .ok s' → s'.Kept maxAttempts ∧ s.KeepsAttempts s' :=
    fun s' hs' => h past [a] future (by simp) s s' hpast (by rw [run_cons, hs']; rfl)
  cases a with
  | append watcher error =>
      cases error with
      | some => trivial
      | none =>
          intro now row rest hprogress
          obtain ⟨hkept, -⟩ := hstep _ (by simp only [step, hprogress]; rfl)
          have hlines := hkept.lines
          simp only [goTo, List.map_append, List.map_cons, List.map_nil] at hlines
          rw [Bool.eq_false_iff, ne_eq, hasLine_iff]
          exact List.disjoint_singleton.mp (List.disjoint_of_nodup_append hlines)
  | mark watcher error =>
      cases error with
      | some => trivial
      | none =>
          intro now row rest hprogress stored hstored hid
          obtain ⟨hkept, -⟩ := hstep _ (by simp only [step, hprogress]; rfl)
          rcases hkept.settled _ (mem_updateRow (·.afterDelivery now) hstored hid) with
            hdelivered | hgaveUp
          · cases hdelivered
          · exact hgaveUp
  | giveUpOrRetry watcher error =>
      cases error with
      | some => trivial
      | none =>
          intro now row rest message hprogress stored hstored hid
          obtain ⟨hkept, hattempts⟩ := hstep _ (by simp only [step, hprogress]; rfl)
          have hlater := mem_updateRow
            (·.afterFailure maxAttempts now (row.attempts + 1) message) hstored hid
          constructor
          · have := hattempts stored hstored _ hlater (id_afterFailure stored)
            rwa [attempts_afterFailure] at this
          · intro hlast
            rcases hkept.settled _ hlater with hdelivered | hgaveUp
            · rwa [deliveredAt_afterFailure] at hdelivered
            · simp [OutboxRow.afterFailure, hlast] at hgaveUp
  | _ => trivial

end

end Outbox

end Hseos.Liveness
