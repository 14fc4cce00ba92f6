import Hseos.SessionStore.Connections
import Hseos.SessionStore.Forks

/-! # What every run of the stores keeps

Committed rows are only added to. An open transaction sees a beginning of them, or goes on
from them if it has written. Every cache describes rows that its connection sees.
-/

namespace Hseos.SessionStore

variable {view : View} {request : AppendRequest} {storeActor : Json}

/-! ## The realm stays written -/

/-- The memory of a process whose realm was written. -/
def Memory.Written (memory : Memory) : Prop := memory.realm = ⟨true⟩

/-- A call that leaves the realm written. -/
def KeepsWritten {α : Type} (call : Call α) : Prop :=
  Attempt.Leads Memory.Written call (fun _ => Memory.Written) Memory.Written

theorem KeepsWritten.check {α β : Type} {e : Except Failure α} {f : α → Call β}
    (h : ∀ a, KeepsWritten (f a)) : KeepsWritten (liftM e >>= f) :=
  Attempt.Leads.check (fun _ hm => hm) fun a _ => h a

theorem KeepsWritten.bind {α β : Type} {x : Call α} {f : α → Call β} (hx : KeepsWritten x)
    (hf : ∀ a, KeepsWritten (f a)) : KeepsWritten (x >>= f) :=
  Attempt.Leads.bind hx hf

theorem KeepsWritten.pure {α : Type} {a : α} : KeepsWritten (Pure.pure a) :=
  Attempt.Leads.pure fun _ hm => hm

theorem keepsWritten_replayEvents {start : SessionState} {events : List SessionEvent} :
    KeepsWritten (replayEvents start events) := by
  intro memory hm
  have hrealm : (replaySessionEvents memory.realm start events).1 = ⟨true⟩ := by
    rw [show memory.realm = ⟨true⟩ from hm, replaySessionEvents_written]
  rw [outcome_replayEvents]
  cases (replaySessionEvents memory.realm start events).2 <;> exact hrealm

theorem keepsWritten_replay {id : Identifier} {toVersion : Option Nat} {full : Bool} :
    KeepsWritten (replay view id toVersion full) := by
  have hrest : ∀ entry, KeepsWritten (replayRest view id entry) := by
    intro entry
    refine .check fun found => ?_
    by_cases hfound : found = []
    · rw [if_pos hfound]
      exact .pure
    · rw [if_neg hfound]
      refine .check fun rows => .check fun correlation => .check fun _ => .check fun _ => ?_
      refine .bind keepsWritten_replayEvents fun state => ?_
      exact fun _ hm => hm
  have hall : KeepsWritten (replayAll view id toVersion) := by
    refine .check fun rows => .bind keepsWritten_replayEvents fun state => ?_
    intro m hm
    cases toVersion <;> cases view.revision <;> exact hm
  intro memory hm
  rw [outcome_replay]
  cases reusable view full toVersion ((memory.without view id).cache.get? id) with
  | none => exact hall (memory.without view id) hm
  | some entry => exact hrest entry (memory.without view id) hm

theorem keepsWritten_prepareAppend {pending : Option PreparedAppend} :
    KeepsWritten (prepareAppend view storeActor request pending) := by
  refine .check fun _ => .check fun actor => .check fun _ => .check fun current => ?_
  refine .check fun durable => .check fun _ => .check fun correlation => .bind ?_ fun _ => ?_
  · unfold assertContinues
    split
    · exact .bind keepsWritten_replay fun state => .bind keepsWritten_replayEvents fun _ => .pure
    · exact Attempt.Leads.lift (fun _ _ _ hm => hm) fun _ hm => hm
  · exact .check fun _ => .pure

theorem keepsWritten_append : KeepsWritten (append view storeActor request) :=
  .bind keepsWritten_prepareAppend fun _ => .check fun _ => .pure

theorem keepsWritten_forkSession {request : ForkRequest} :
    KeepsWritten (forkSession view storeActor request) := by
  refine .check fun _ => .bind keepsWritten_replayEvents fun _ => .check fun _ => .check fun _ => ?_
  refine .bind keepsWritten_replayEvents fun _ => .check fun _ => .check fun _ => .check fun _ => ?_
  refine .check fun _ => .bind keepsWritten_prepareAppend fun _ => .check fun _ => ?_
  exact .bind keepsWritten_prepareAppend fun _ => .check fun _ => .pure

namespace World

variable {κ σ α : Type} {deployment : Deployment κ σ} {world next : World κ σ}
  {connection : κ} {store : σ} {table : Table} {memory : Memory}

/-! ## The invariant -/

/-- The table that a connection has in its open transaction. -/
def transaction? (world : World κ σ) (connection : κ) : Option Table :=
  (world.connections connection).transaction

/-- A table that some connection can see. -/
def Visible (world : World κ σ) (table : Table) : Prop :=
  table = world.committed ∨ ∃ connection, world.transaction? connection = some table

/-- The entries of a cache describe rows of some table that is a beginning of what is
committed and of what the connection of the store sees. -/
def CacheHolds (deployment : Deployment κ σ) (world : World κ σ) (store : σ) : Prop :=
  ∃ base : Table, base.Sound ∧ base <+: world.committed ∧
    base <+: (world.view (deployment.connection store)).table ∧
      ∀ item ∈ world.caches store, item.2.Sound base item.1

structure Holds (deployment : Deployment κ σ) (world : World κ σ) : Prop where
  sound : ∀ table, world.Visible table → table.Sound
  /-- A transaction that has not written sees rows that were committed. -/
  behind : ∀ connection table, world.transaction? connection = some table →
    world.writer ≠ some connection → table <+: world.committed
  /-- The one that has written goes on from what is committed. -/
  ahead : ∀ connection, world.writer = some connection →
    ∃ table, world.transaction? connection = some table ∧ world.committed <+: table
  caches : ∀ store, world.CacheHolds deployment store
  realm : ∀ table, world.Visible table → ¬ RealmFree (table.map (·.event)) →
    world.realm = ⟨true⟩

theorem view_eq (world : World κ σ) (connection : κ) : world.view connection =
    match world.transaction? connection with
    | some table => ⟨table, none⟩
    | none => ⟨world.committed, some (world.connections connection).dataVersion⟩ := rfl

theorem visible_view (world : World κ σ) (connection : κ) :
    world.Visible (world.view connection).table := by
  rw [view_eq]
  cases htransaction : world.transaction? connection with
  | none => exact .inl rfl
  | some table => exact .inr ⟨connection, htransaction⟩

theorem holds_initial (deployment : Deployment κ σ) : (World.initial κ σ).Holds deployment where
  sound := by
    rintro table (rfl | ⟨connection, htransaction⟩)
    · exact Table.sound_empty
    · cases htransaction
  behind connection table htransaction := by cases htransaction
  ahead connection hwriter := by cases hwriter
  caches store := ⟨[], Table.sound_empty, List.nil_prefix, List.nil_prefix, by simp [World.initial]⟩
  realm := by
    rintro table (rfl | ⟨connection, htransaction⟩) hnot
    · exact absurd (List.forall_mem_nil _) hnot
    · cases htransaction

/-- What a call of a store finds. -/
theorem Holds.seen (h : world.Holds deployment) (store : σ) :
    ∃ base, Seen base (world.view (deployment.connection store)) ∧ base <+: world.committed ∧
      (world.memory store).Sound base (world.view (deployment.connection store)) := by
  obtain ⟨base, hbase, hcommitted, hview, hentries⟩ := h.caches store
  have hvisible := world.visible_view (deployment.connection store)
  have hrealm := h.realm _ hvisible
  rw [view_eq] at hview hrealm ⊢
  cases htransaction : world.transaction? (deployment.connection store) with
  | some table =>
      rw [htransaction] at hview hrealm
      have hsound := h.sound table (.inr ⟨_, htransaction⟩)
      exact ⟨base, ⟨hbase, hsound, hview, nofun⟩, hcommitted, ⟨hentries, hrealm⟩⟩
  | none =>
      rw [htransaction] at hrealm
      have hsound := h.sound world.committed (.inl rfl)
      refine ⟨world.committed, ⟨hsound, hsound, List.prefix_refl _, fun _ => rfl⟩,
        List.prefix_refl _, ⟨fun item hitem => ?_, hrealm⟩⟩
      exact (hentries item hitem).mono hbase hsound hcommitted

/-! ## What a call leaves -/

section

variable [DecidableEq σ]

@[simp] theorem caches_remember_self : (world.remember store memory).caches store = memory.cache :=
  Function.update_self ..

theorem caches_remember_of_ne {other : σ} (h : other ≠ store) :
    (world.remember store memory).caches other = world.caches other :=
  Function.update_of_ne h ..

@[simp] theorem view_remember : (world.remember store memory).view = world.view := rfl

theorem visible_remember : (world.remember store memory).Visible table ↔ world.Visible table :=
  Iff.rfl

/-- The realm and the cache that a call leaves. -/
theorem Holds.remember (h : world.Holds deployment) {base : Table} (hbase : base.Sound)
    (hcommitted : base <+: world.committed)
    (hview : base <+: (world.view (deployment.connection store)).table)
    (hmemory : memory.Sound base (world.view (deployment.connection store)))
    (hwritten : world.realm = ⟨true⟩ → memory.realm = ⟨true⟩) :
    (world.remember store memory).Holds deployment where
  sound := h.sound
  behind := h.behind
  ahead := h.ahead
  caches other := by
    by_cases hother : other = store
    · subst hother
      refine ⟨base, hbase, hcommitted, hview, ?_⟩
      rw [caches_remember_self]
      exact hmemory.entries
    · obtain ⟨base', hsound, hbegins, hseen, hentries⟩ := h.caches other
      refine ⟨base', hsound, hbegins, hseen, ?_⟩
      rw [caches_remember_of_ne hother]
      exact hentries
  realm table hvisible hnot := hwritten (h.realm table hvisible hnot)

end

/-! ## Steps of the database -/

theorem table_view (world : World κ σ) (connection : κ) :
    (world.view connection).table = (world.transaction? connection).getD world.committed := by
  rw [view_eq]
  cases world.transaction? connection <;> rfl

/-- Rows are only added, to what is committed and to what a transaction sees. -/
structure Grows (world next : World κ σ) : Prop where
  caches : next.caches = world.caches
  realm : next.realm = world.realm
  committed : world.committed <+: next.committed
  transactions : ∀ connection table, next.transaction? connection = some table →
    (world.view connection).table <+: table

theorem Holds.cacheHolds (h : world.Holds deployment) (hgrows : world.Grows next) (store : σ) :
    next.CacheHolds deployment store := by
  obtain ⟨base, hbase, hcommitted, hview, hentries⟩ := h.caches store
  have hnext := hcommitted.trans hgrows.committed
  refine ⟨base, hbase, hnext, ?_, hgrows.caches ▸ hentries⟩
  rw [table_view]
  cases htransaction : next.transaction? (deployment.connection store) with
  | none => exact hnext
  | some table => exact hview.trans (hgrows.transactions _ table htransaction)

section

variable [DecidableEq κ]

theorem transaction?_setTransaction (world : World κ σ) (connection other : κ)
    (transaction : Option Table) :
    (world.setTransaction connection transaction).transaction? other =
      if other = connection then transaction else world.transaction? other := by
  by_cases h : other = connection
  · subst h
    simp [transaction?, setTransaction]
  · simp [transaction?, setTransaction, h]

@[simp] theorem transaction?_publish (world : World κ σ) (connection : κ) (table : Table) :
    (world.publish connection table).transaction? = world.transaction? := by
  funext other
  unfold publish transaction?
  split
  · rfl
  · by_cases h : other = connection <;> simp [h]

@[simp] theorem committed_publish (world : World κ σ) (connection : κ) (table : Table) :
    (world.publish connection table).committed = table := by
  unfold publish
  split
  next h => exact h.symm
  next => rfl

@[simp] theorem writer_publish (world : World κ σ) (connection : κ) (table : Table) :
    (world.publish connection table).writer = world.writer := by
  unfold publish
  split <;> rfl

@[simp] theorem caches_publish (world : World κ σ) (connection : κ) (table : Table) :
    (world.publish connection table).caches = world.caches := by
  unfold publish
  split <;> rfl

@[simp] theorem realm_publish (world : World κ σ) (connection : κ) (table : Table) :
    (world.publish connection table).realm = world.realm := by
  unfold publish
  split <;> rfl

/-- A table that a call makes of the one it sees. -/
structure Extends (world : World κ σ) (connection : κ) (table : Table) : Prop where
  sound : table.Sound
  isPrefix : (world.view connection).table <+: table
  realm : ¬ RealmFree (table.map (·.event)) → world.realm = ⟨true⟩

/-- Rows that are committed at once. -/
theorem Holds.publish (h : world.Holds deployment) (hnone : world.transaction? connection = none)
    (hwriter : world.writer = none) (hextends : world.Extends connection table) :
    (world.publish connection table).Holds deployment ∧
      world.Grows (world.publish connection table) := by
  have hcommitted : world.committed <+: table := by
    simpa [table_view, hnone] using hextends.isPrefix
  have hgrows : world.Grows (world.publish connection table) := by
    refine ⟨caches_publish .., realm_publish .., by rwa [committed_publish], fun other seen hseen => ?_⟩
    rw [transaction?_publish] at hseen
    rw [table_view, hseen, Option.getD_some]
  have hvisible : ∀ seen, (world.publish connection table).Visible seen →
      seen = table ∨ world.Visible seen := by
    rintro seen (rfl | ⟨other, hother⟩)
    · exact .inl (committed_publish ..)
    · exact .inr (.inr ⟨other, by rwa [transaction?_publish] at hother⟩)
  refine ⟨⟨fun seen hseen => ?_, fun other seen hother _ => ?_, fun other hother => ?_,
    h.cacheHolds hgrows, fun seen hseen hnot => ?_⟩, hgrows⟩
  · rcases hvisible seen hseen with rfl | hseen
    · exact hextends.sound
    · exact h.sound seen hseen
  · rw [transaction?_publish] at hother
    rw [committed_publish]
    exact (h.behind other seen hother (by simp [hwriter])).trans hcommitted
  · rw [writer_publish, hwriter] at hother
    cases hother
  · rw [realm_publish]
    rcases hvisible seen hseen with rfl | hseen
    · exact hextends.realm hnot
    · exact h.realm seen hseen hnot

/-- Rows that are written in an open transaction over the newest rows. -/
theorem Holds.writes {seen : Table} (h : world.Holds deployment)
    (hseen : world.transaction? connection = some seen)
    (hturn : world.writer = some connection ∨ (world.writer = none ∧ seen = world.committed))
    (hextends : world.Extends connection table) :
    World.Holds deployment { world.setTransaction connection (some table) with
        writer := some connection } ∧
      world.Grows { world.setTransaction connection (some table) with
        writer := some connection } := by
  have hview : seen <+: table := by simpa [table_view, hseen] using hextends.isPrefix
  have htransaction : ∀ other, World.transaction? { world.setTransaction connection (some table) with
      writer := some connection } other =
        if other = connection then some table else world.transaction? other :=
    fun other => transaction?_setTransaction world connection other (some table)
  have hgrows : world.Grows { world.setTransaction connection (some table) with
      writer := some connection } := by
    refine ⟨rfl, rfl, List.prefix_refl _, fun other found hfound => ?_⟩
    rw [htransaction] at hfound
    split at hfound
    next hother =>
      obtain rfl := Option.some.inj hfound
      exact hother ▸ hextends.isPrefix
    next => rw [table_view, hfound, Option.getD_some]
  have hahead : world.committed <+: table := by
    rcases hturn with hwriter | ⟨-, rfl⟩
    · obtain ⟨found, hfound, hcommitted⟩ := h.ahead connection hwriter
      obtain rfl := Option.some.inj (hseen.symm.trans hfound)
      exact hcommitted.trans hview
    · exact hview
  have hvisible : ∀ found, World.Visible { world.setTransaction connection (some table) with
      writer := some connection } found → found = table ∨ world.Visible found := by
    rintro found (rfl | ⟨other, hother⟩)
    · exact .inr (.inl rfl)
    · rw [htransaction] at hother
      split at hother
      next => exact .inl (Option.some.inj hother).symm
      next => exact .inr (.inr ⟨other, hother⟩)
  refine ⟨⟨fun found hfound => ?_, fun other found hother hnot => ?_, fun other hother => ?_,
    h.cacheHolds hgrows, fun found hfound hnot => ?_⟩, hgrows⟩
  · rcases hvisible found hfound with rfl | hfound
    · exact hextends.sound
    · exact h.sound found hfound
  · have hne : other ≠ connection := fun hsame => hnot (by rw [hsame])
    rw [htransaction, if_neg hne] at hother
    refine h.behind other found hother fun hwriter => ?_
    rcases hturn with hturn | ⟨hturn, -⟩
    · exact hne (Option.some.inj (hwriter.symm.trans hturn))
    · rw [hturn] at hwriter
      cases hwriter
  · obtain rfl := Option.some.inj hother
    exact ⟨table, by rw [htransaction, if_pos rfl], hahead⟩
  · rcases hvisible found hfound with rfl | hfound
    · exact hextends.realm hnot
    · exact h.realm found hfound hnot

theorem Grows.refl (world : World κ σ) : world.Grows world := by
  refine ⟨rfl, rfl, List.prefix_refl _, fun connection table htransaction => ?_⟩
  rw [table_view, htransaction, Option.getD_some]

/-- A transaction of the ledger that the database accepts. -/
theorem Holds.write (h : world.Holds deployment) (hextends : world.Extends connection table)
    (hwrite : world.write connection table = .ok next) :
    next.Holds deployment ∧ world.Grows next := by
  unfold World.write at hwrite
  cases htransaction : (world.connections connection).transaction with
  | none =>
      simp only [htransaction] at hwrite
      split at hwrite
      next => cases hwrite
      next hwriter =>
        obtain rfl := Except.ok.inj hwrite
        exact h.publish htransaction (by simpa using hwriter) hextends
  | some seen =>
      simp only [htransaction] at hwrite
      split at hwrite
      next =>
        obtain rfl := Except.ok.inj hwrite
        exact ⟨h, .refl _⟩
      next =>
        split at hwrite
        next hturn =>
          obtain rfl := Except.ok.inj hwrite
          exact h.writes htransaction hturn hextends
        next => cases hwrite

/-- A transaction that ends, or that has seen nothing but what is committed, leaves the others
alone. -/
theorem Holds.setTransaction {transaction : Option Table} (h : world.Holds deployment)
    (hwriter : world.writer ≠ some connection)
    (htransaction : ∀ table ∈ transaction, table = world.committed ∧
      (world.view connection).table = world.committed) :
    (world.setTransaction connection transaction).Holds deployment ∧
      world.Grows (world.setTransaction connection transaction) := by
  have hgrows : world.Grows (world.setTransaction connection transaction) := by
    refine ⟨rfl, rfl, List.prefix_refl _, fun other found hfound => ?_⟩
    rw [transaction?_setTransaction] at hfound
    split at hfound
    next hother =>
      obtain ⟨rfl, hview⟩ := htransaction found hfound
      rw [hother, hview]
    next => rw [table_view, hfound, Option.getD_some]
  have hvisible : ∀ found, (world.setTransaction connection transaction).Visible found →
      world.Visible found := by
    rintro found (rfl | ⟨other, hother⟩)
    · exact .inl rfl
    · rw [transaction?_setTransaction] at hother
      split at hother
      next => exact .inl (htransaction found hother).1
      next => exact .inr ⟨other, hother⟩
  refine ⟨⟨fun found hfound => h.sound found (hvisible found hfound), fun other found hother hnot => ?_,
    fun other hother => ?_, h.cacheHolds hgrows,
    fun found hfound hnot => h.realm found (hvisible found hfound) hnot⟩, hgrows⟩
  · rw [transaction?_setTransaction] at hother
    split at hother
    next => rw [(htransaction found hother).1]; exact List.prefix_refl _
    next => exact h.behind other found hother hnot
  · have hne : other ≠ connection := fun hsame => hwriter (hsame ▸ hother)
    obtain ⟨found, hfound, hcommitted⟩ := h.ahead other hother
    exact ⟨found, by rw [transaction?_setTransaction, if_neg hne]; exact hfound, hcommitted⟩

theorem Holds.begin (h : world.Holds deployment) (connection : κ) :
    (world.begin connection).Holds deployment ∧ world.Grows (world.begin connection) := by
  unfold World.begin
  cases htransaction : (world.connections connection).transaction with
  | some table => exact ⟨h, .refl _⟩
  | none =>
      refine h.setTransaction (fun hwriter => ?_) ?_
      · obtain ⟨table, hseen, -⟩ := h.ahead connection hwriter
        rw [transaction?, htransaction] at hseen
        cases hseen
      · rintro table hsome
        obtain rfl := Option.some.inj hsome
        refine ⟨rfl, ?_⟩
        rw [table_view, transaction?, htransaction, Option.getD_none]

end

end World

end Hseos.SessionStore
