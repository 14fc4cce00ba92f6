import Hseos.Liveness.Delivery
import Mathlib.Tactic.IntervalCases

/-! # Deliveries that do not overlap

As long as no watcher reads a row that another one has in hand, and the file can be read
where it has the row's line, what a watcher goes by when it writes is still so.
-/

namespace Hseos.Liveness

namespace Outbox

variable {ι : Type} {maxAttempts : Nat} {s s' : Outbox ι} {a : OutboxAction ι}

/-- No row that the step reads is in another watcher's hands, and the step can read the line of
its row if there is one. -/
def NoOverlap (s : Outbox ι) : OutboxAction ι → Prop
  | .select watcher none =>
      ∀ now, s.progress watcher = .selecting now → ∀ other, other ≠ watcher →
        ∀ row ∈ s.batch now, ∀ held ∈ (s.progress other).rows, held.id ≠ row.id
  | .check watcher false =>
      ∀ now row rest, s.progress watcher = .checking now row rest → s.hasLine row.id = false
  | _ => True

/-- The stored row is as it was read. -/
def Unchanged (rows : List OutboxRow) (row : PendingRow) : Prop :=
  ∃ stored ∈ rows, stored.id = row.id ∧ stored.attempts = row.attempts ∧
    stored.deliveredAt = none ∧ stored.gaveUpAt = none

/-- Each row is in the hands of one watcher at most, as it was read. -/
structure Alone (s : Outbox ι) : Prop where
  unchanged : ∀ watcher, ∀ row ∈ (s.progress watcher).rows, Unchanged s.rows row
  once : ∀ watcher, ((s.progress watcher).rows.map (·.id)).Nodup
  apart : ∀ watcher other, watcher ≠ other → ∀ row ∈ (s.progress watcher).rows,
    ∀ held ∈ (s.progress other).rows, row.id ≠ held.id
  absent : ∀ watcher now row rest, s.progress watcher = .appending now row rest →
    row.id ∉ s.lines.map (·.outboxId)

theorem alone_initial : (initial : Outbox ι).Alone where
  unchanged := fun _ => nofun
  once := fun _ => .nil
  apart := fun _ _ _ => nofun
  absent := fun _ _ _ _ => nofun

theorem Unchanged.updateRow {id : Nat} {change : OutboxRow → OutboxRow} {row : PendingRow}
    (h : Unchanged s.rows row) (hid : row.id ≠ id) :
    Unchanged (s.updateRow id change).rows row := by
  obtain ⟨stored, hstored, hsame, hrest⟩ := h
  refine ⟨stored, List.mem_map.mpr ⟨stored, hstored, if_neg ?_⟩, hsame, hrest⟩
  exact fun h => hid (hsame.symm.trans h)

theorem unchanged_of_mem_batch {now : Int} {row : PendingRow} (h : row ∈ s.batch now) :
    Unchanged s.rows row := by
  obtain ⟨stored, hstored, hpending, rfl⟩ := mem_batch h
  simp only [OutboxRow.pending, Bool.and_eq_true, Option.isNone_iff_eq_none] at hpending
  exact ⟨stored, hstored, rfl, rfl, hpending.1.1, hpending.1.2⟩

theorem Sound.nodup_batch (h : s.Sound maxAttempts) (now : Int) :
    ((s.batch now).map (·.id)).Nodup := by
  rw [batch, List.map_map]
  exact h.ids.sublist (((List.take_sublist _ _).trans List.filter_sublist).map _)

/-- A row that was read and is not settled is still as it was read. -/
theorem Sound.eq_of_unchanged (h : s.Sound maxAttempts) {row : PendingRow} {stored : OutboxRow}
    (hrow : Unchanged s.rows row) (hstored : stored ∈ s.rows) (hid : stored.id = row.id) :
    stored.attempts = row.attempts ∧ stored.deliveredAt = none ∧ stored.gaveUpAt = none := by
  obtain ⟨same, hsame, hsameId, hrest⟩ := hrow
  obtain rfl := List.inj_on_of_nodup_map h.ids hsame hstored (hsameId.trans hid.symm)
  exact hrest

theorem Alone.current (h : s.Alone) (hsound : s.Sound maxAttempts) :
    s.Current maxAttempts a := by
  have hhand : ∀ {watcher row rest}, (s.progress watcher).rows = row :: rest →
      Unchanged s.rows row := by
    intro watcher row rest hrows
    exact h.unchanged watcher row (hrows ▸ List.mem_cons_self)
  cases a with
  | append watcher error =>
      cases error with
      | some => trivial
      | none =>
          intro now row rest hprogress
          rw [Bool.eq_false_iff, ne_eq, hasLine_iff]
          exact h.absent watcher now row rest hprogress
  | mark watcher error =>
      cases error with
      | some => trivial
      | none =>
          intro now row rest hprogress stored hstored hid
          exact (hsound.eq_of_unchanged (hhand (congrArg Progress.rows hprogress)) hstored hid).2.2
  | giveUpOrRetry watcher error =>
      cases error with
      | some => trivial
      | none =>
          intro now row rest message hprogress stored hstored hid
          obtain ⟨hattempts, hdelivered, -⟩ :=
            hsound.eq_of_unchanged (hhand (congrArg Progress.rows hprogress)) hstored hid
          exact ⟨hattempts.trans_le (Nat.le_succ _), fun _ => hdelivered⟩
  | _ => trivial

section

variable [DecidableEq ι] {watcher : ι} {progress : Progress}

/-- One watcher goes on with some rows, and the others' rows are still as they were read. -/
theorem Alone.goTo (h : s.Alone) {rows : List OutboxRow} {lastId : Nat}
    {lines : List EscalationLine} {notified : List Nat}
    (hunchanged : ∀ other, other ≠ watcher → ∀ row ∈ (s.progress other).rows,
      Unchanged rows row)
    (hrows : ∀ row ∈ progress.rows, Unchanged rows row)
    (honce : (progress.rows.map (·.id)).Nodup)
    (hapart : ∀ other, other ≠ watcher → ∀ row ∈ progress.rows,
      ∀ held ∈ (s.progress other).rows, held.id ≠ row.id)
    (hlines : ∀ other, other ≠ watcher → ∀ now row rest,
      s.progress other = .appending now row rest → row.id ∉ lines.map (·.outboxId))
    (habsent : ∀ now row rest, progress = .appending now row rest →
      row.id ∉ lines.map (·.outboxId)) :
    (Outbox.goTo ⟨rows, lastId, lines, notified, s.progress⟩ watcher progress).Alone := by
  have hsame : Function.update s.progress watcher progress watcher = progress :=
    Function.update_self ..
  have hother : ∀ other, other ≠ watcher →
      Function.update s.progress watcher progress other = s.progress other :=
    fun other hne => Function.update_of_ne hne ..
  constructor
  · intro other
    by_cases hwatcher : other = watcher
    · subst hwatcher
      simpa only [Outbox.goTo, hsame] using hrows
    · simpa only [Outbox.goTo, hother other hwatcher] using hunchanged other hwatcher
  · intro other
    by_cases hwatcher : other = watcher
    · subst hwatcher
      simpa only [Outbox.goTo, hsame] using honce
    · simpa only [Outbox.goTo, hother other hwatcher] using h.once other
  · intro first second hne
    by_cases hfirst : first = watcher
    · subst hfirst
      simp only [Outbox.goTo, hsame, hother second hne.symm]
      exact fun row hrow held hheld => (hapart second hne.symm row hrow held hheld).symm
    · by_cases hsecond : second = watcher
      · subst hsecond
        simp only [Outbox.goTo, hsame, hother first hne]
        exact fun row hrow held hheld => hapart first hne held hheld row hrow
      · simp only [Outbox.goTo, hother first hfirst, hother second hsecond]
        exact h.apart first second hne
  · intro other now row rest
    by_cases hwatcher : other = watcher
    · subst hwatcher
      simpa only [Outbox.goTo, hsame] using habsent now row rest
    · simpa only [Outbox.goTo, hother other hwatcher] using hlines other hwatcher now row rest

/-- One step without overlap. -/
theorem Alone.effect (h : s.Alone) (hsound : s.Sound maxAttempts) (hfree : s.NoOverlap a)
    (heffect : s.Effect maxAttempts a s') : s'.Alone := by
  -- A watcher that works on rows it already had keeps apart from the others.
  have hapart : ∀ {watcher} {rows : List PendingRow}, rows.Sublist (s.progress watcher).rows →
      ∀ other, other ≠ watcher → ∀ row ∈ rows, ∀ held ∈ (s.progress other).rows,
        held.id ≠ row.id :=
    fun hrows other hne row hrow held hheld => h.apart other _ hne held hheld row (hrows.subset hrow)
  have honce : ∀ {watcher} {rows : List PendingRow}, rows.Sublist (s.progress watcher).rows →
      (rows.map (·.id)).Nodup :=
    fun hrows => (h.once _).sublist (hrows.map _)
  -- What is said of a row in hand and of the rows after it.
  have hhand : ∀ {watcher row rest}, (s.progress watcher).rows = row :: rest →
      ∀ other ∈ rest, other.id ≠ row.id := by
    intro watcher row rest hrows other hother hid
    have hnodup := h.once watcher
    rw [hrows, List.map_cons, List.nodup_cons] at hnodup
    exact hnodup.1 (hid ▸ List.mem_map_of_mem hother)
  cases heffect with
  | enqueued item now =>
      refine ⟨fun watcher row hrow => ?_, h.once, h.apart, h.absent⟩
      obtain ⟨stored, hstored, hrest⟩ := h.unchanged watcher row hrow
      exact ⟨stored, List.mem_append_left _ hstored, hrest⟩
  | walked _ watcher progress hrows hreached hprogress =>
      exact h.goTo (fun other _ => h.unchanged other)
        (fun row hrow => h.unchanged watcher row (hrows.subset hrow)) (honce hrows) (hapart hrows)
        (fun other _ => h.absent other) fun now row rest hne => absurd hne (hprogress now row rest)
  | checked watcher readable now row rest hprogress =>
      have hrows : (if readable && s.hasLine row.id then Progress.notifying now row rest
          else .appending now row rest).rows.Sublist (s.progress watcher).rows := by
        rw [hprogress]
        split <;> exact List.Sublist.refl _
      refine h.goTo (fun other _ => h.unchanged other)
        (fun row hrow => h.unchanged watcher row (hrows.subset hrow)) (honce hrows) (hapart hrows)
        (fun other _ => h.absent other) ?_
      intro now' row' rest' happending
      split at happending
      · cases happending
      next hline =>
        cases happending
        rw [← hasLine_iff]
        cases readable with
        | true => simpa using hline
        | false => simp [hfree now row rest hprogress]
  | pruned watcher now =>
      refine h.goTo (fun other _ row hrow => ?_) nofun .nil (fun _ _ => nofun)
        (fun other _ => h.absent other) nofun
      obtain ⟨stored, hstored, hid, hattempts, hdelivered, hgaveUp⟩ := h.unchanged other row hrow
      refine ⟨stored, List.mem_filter.mpr ⟨hstored, ?_⟩, hid, hattempts, hdelivered, hgaveUp⟩
      simp [OutboxRow.expired, hdelivered, hgaveUp]
  | selected watcher now hprogress =>
      exact h.goTo (fun other _ => h.unchanged other) (fun row => unchanged_of_mem_batch)
        (hsound.nodup_batch now) (fun other hne => hfree now hprogress other hne)
        (fun other _ => h.absent other) nofun
  | appended watcher now row rest hprogress =>
      have hrows : (row :: rest).Sublist (s.progress watcher).rows := by
        rw [hprogress]
        exact List.Sublist.refl _
      refine h.goTo (fun other _ => h.unchanged other)
        (fun row hrow => h.unchanged watcher row (hrows.subset hrow)) (honce hrows) (hapart hrows)
        ?_ nofun
      intro other hne now' row' rest' happending
      rw [List.map_append, List.mem_append, not_or]
      refine ⟨h.absent other now' row' rest' happending, fun hid => ?_⟩
      apply hapart hrows other hne row List.mem_cons_self row' ?_ (List.mem_singleton.mp hid)
      rw [happending]
      exact List.mem_cons_self
  | notified watcher now row rest hprogress =>
      have hrows : (row :: rest).Sublist (s.progress watcher).rows := by
        rw [hprogress]
        exact List.Sublist.refl _
      exact h.goTo (fun other _ => h.unchanged other)
        (fun row hrow => h.unchanged watcher row (hrows.subset hrow)) (honce hrows) (hapart hrows)
        (fun other _ => h.absent other) nofun
  | marked watcher now row rest hprogress =>
      have hrows : (s.progress watcher).rows = row :: rest := congrArg Progress.rows hprogress
      have hrest : rest.Sublist (s.progress watcher).rows := hrows ▸ List.sublist_cons_self row rest
      refine h.goTo (fun other hne held hheld => (h.unchanged other held hheld).updateRow ?_)
        (fun held hheld => (h.unchanged watcher held (hrest.subset hheld)).updateRow
          (hhand hrows held hheld)) (honce hrest) (hapart hrest) (fun other _ => h.absent other)
        nofun
      exact h.apart other watcher hne held hheld row (hrows ▸ List.mem_cons_self)
  | counted watcher now row rest message hprogress =>
      have hrows : (s.progress watcher).rows = row :: rest := congrArg Progress.rows hprogress
      have hrest : rest.Sublist (s.progress watcher).rows := hrows ▸ List.sublist_cons_self row rest
      refine h.goTo (fun other hne held hheld => (h.unchanged other held hheld).updateRow ?_)
        (fun held hheld => (h.unchanged watcher held (hrest.subset hheld)).updateRow
          (hhand hrows held hheld)) (honce hrest) (hapart hrest) (fun other _ => h.absent other)
        nofun
      exact h.apart other watcher hne held hheld row (hrows ▸ List.mem_cons_self)

theorem current_of_noOverlap {actions : List (OutboxAction ι)} (hmax : 1 ≤ maxAttempts)
    (hfree : Throughout (fun past a => ∀ s, run (step maxAttempts) initial past = .ok s →
      s.NoOverlap a) actions) :
    Throughout (fun past a => ∀ s, run (step maxAttempts) initial past = .ok s →
      s.Current maxAttempts a) actions := by
  rintro past a future rfl s hpast
  have halone : s.Alone := by
    refine run_throughout (P := fun _ mid => mid.Alone) alone_initial ?_
      (hfree.of_isPrefix (List.prefix_append _ _)) hpast
    intro before mid b next hbefore hmid hb hnext
    exact hmid.effect (sound_run hmax hbefore) (hb mid hbefore) (effect_of_step hnext)
  exact halone.current (sound_run hmax hpast)

/-- The escalations are kept in a run exactly if, at each write of a watcher, what it read of
the row before is still so; and it is if no two watchers have a row in hand at once. -/
theorem writesOnce_iff_current {actions : List (OutboxAction ι)} (hmax : 1 ≤ maxAttempts) :
    (WritesOnce maxAttempts actions ↔
      Throughout (fun past a => ∀ s, run (step maxAttempts) initial past = .ok s →
        s.Current maxAttempts a) actions) ∧
    (Throughout (fun past a => ∀ s, run (step maxAttempts) initial past = .ok s →
        s.NoOverlap a) actions →
      WritesOnce maxAttempts actions) :=
  ⟨⟨current_of_kept, kept_of_current hmax⟩,
    fun hfree => kept_of_current hmax (current_of_noOverlap hmax hfree)⟩

end

/-! ## Two watchers -/

/-- An escalation that waits for a person. -/
def silentItem : OutboxItem :=
  ⟨"escalation", ⟨"s1", "a1", "IDLE", "wake_exhausted", "human", "no heartbeat", none, 0⟩,
    "agent a1 is silent"⟩

/-- The steps of one watcher up to the file. -/
def toAppend {ι : Type} (watcher : ι) : List (OutboxAction ι) :=
  [.start watcher 0, .prune watcher none, .select watcher none, .turn watcher true,
    .check watcher true]

theorem writesOnce_one_watcher :
    1 ≤ 10 ∧ WritesOnce 10
      (.enqueue silentItem 0 :: toAppend () ++ [.append () none, .notify () none, .mark () none]) :=
  ⟨by decide, (writesOnce_iff_current (by decide)).2 (by
    rw [throughout_iff_getElem]
    intro i hi s _
    have hlength : i < 9 := hi
    interval_cases i <;> first | trivial | exact fun _ _ other hne => absurd rfl hne)⟩

/-- Both watchers read the file before either writes to it. -/
theorem racing_watchers_write_twice :
    ¬ WritesOnce 10 (.enqueue silentItem 0 :: toAppend false ++ toAppend true ++
      [.append false none, .append true none]) := by
  intro h
  have htwice : runsTo (step 10) initial (.enqueue silentItem 0 :: toAppend false ++ toAppend true ++
      [.append false none, .append true none])
      (fun s => !decide (s.lines.map (·.outboxId)).Nodup) = true := by decide
  obtain ⟨s, hrun, hlines⟩ := runsTo_iff.mp htwice
  have hkept := (h _ [] [] (by simp) s s hrun rfl).1.lines
  simp [hkept] at hlines

end Outbox

end Hseos.Liveness
