import Hseos.SessionStore.Lineage

/-! # Cached replay

An entry of a replay cache describes the first rows of a stream. A replay keeps that
of every entry, and over a stream that does not use the realm it returns the state of
the whole stream whether it goes on from an entry or not.
-/

namespace Hseos.SessionStore

variable {base later : Table} {view : View} {id : Identifier} {rows : List SessionRow}
  {entry : CacheEntry} {memory : Memory} {start state : SessionState}

/-! ## Entries -/

theorem run_currentSequence {reducer reducer' : Reducer} {events : List SessionEvent}
    (h : run replayStep reducer events = .ok reducer') :
    reducer'.state.currentSequence = reducer.state.currentSequence + events.length := by
  induction events generalizing reducer with
  | nil =>
      obtain rfl := Except.ok.inj h
      rfl
  | cons event rest ih =>
      obtain ⟨middle, hstep, hrest⟩ := bind_eq_ok_iff.mp h
      obtain ⟨hadmission, next, htransition, hstate⟩ := replayStep_eq_ok hstep
      have hmiddle : middle.state.currentSequence = event.sequence := by
        rw [hstate]
        generalize middle.realm = realm at htransition
        cases htransition <;> rfl
      rw [ih hrest, hmiddle, (checkAdmission_eq_ok hadmission).1, List.length_cons]
      omega

theorem run_unreserved {reducer reducer' : Reducer} {events : List SessionEvent}
    (hstart : reducer.state.Unreserved) (h : run replayStep reducer events = .ok reducer') :
    reducer'.state.Unreserved :=
  run_invariant (P := fun reducer : Reducer => reducer.state.Unreserved) hstart
    (fun _ _ _ hmid hstep => hmid.replayStep hstep) h

namespace CacheEntry

/-- The entry says what a replay of the given rows found. -/
structure Describes (entry : CacheEntry) (table : Table) (rows : List SessionRow) : Prop where
  lastId : entry.lastId = lastEventId none rows
  eventIds : entry.eventIds = SessionStore.eventIds rows
  correlation : entry.correlation = rows.head?.map (·.correlationId)
  readable : assertSessionCausation table rows = .ok ()
  unreserved : entry.state.Unreserved
  sequence : entry.state.currentSequence = rows.length
  accepted : RealmFree (rows.map (·.event)) → Accepted ⟨false⟩ (rows.map (·.event)) entry.state

/-- The entry describes the first rows of the stream. -/
def Sound (entry : CacheEntry) (table : Table) (id : Identifier) : Prop :=
  ∃ rows, rows <+: table.stream id ∧ entry.Describes table rows

theorem Sound.mono (h : entry.Sound base id) (hbase : base.Sound) (hsound : later.Sound)
    (hlater : base <+: later) : entry.Sound later id := by
  obtain ⟨rows, hbegins, hdescribes⟩ := h
  refine ⟨rows, hbegins.trans (Table.stream_isPrefix hlater), { hdescribes with readable := ?_ }⟩
  exact assertSessionCausation_mono hbase hsound hlater hdescribes.readable

end CacheEntry

namespace Cache

variable {cache : Cache} {item : Identifier × CacheEntry}

theorem mem_of_get? (h : cache.get? id = some entry) : (id, entry) ∈ cache := by
  obtain ⟨⟨found, value⟩, hfind, rfl⟩ := Option.map_eq_some_iff.mp h
  have hkey : found = id := by simpa using List.find?_some hfind
  exact hkey ▸ List.mem_of_find?_eq_some hfind

theorem mem_set (h : item ∈ cache.set id entry) : item = (id, entry) ∨ item ∈ cache := by
  unfold Cache.set at h
  split at h
  · obtain ⟨old, hold, rfl⟩ := List.mem_map.mp h
    by_cases hid : old.1 = id
    · exact .inl (if_pos hid)
    · exact .inr ((if_neg hid).symm ▸ hold)
  · exact (List.mem_append.mp h).symm.imp_left List.mem_singleton.mp

theorem evict_subset : cache.evict id ⊆ cache := by
  unfold Cache.evict
  split
  · exact List.drop_subset _ _
  · exact List.Subset.refl _

end Cache

/-! ## What a call finds -/

/-- The table that a call sees holds the one that the cache of its store describes, and outside
a transaction that is all of it. -/
structure Seen (base : Table) (view : View) : Prop where
  baseSound : base.Sound
  tableSound : view.table.Sound
  isPrefix : base <+: view.table
  outside : view.revision.isSome = true → base = view.table

/-- Every entry describes a stream, and a table with an event that uses the realm is known to
the realm. -/
structure Memory.Sound (base : Table) (view : View) (memory : Memory) : Prop where
  entries : ∀ item ∈ memory.cache, item.2.Sound base item.1
  realm : ¬ RealmFree (view.table.map (·.event)) → memory.realm = ⟨true⟩

theorem Memory.Sound.of_subset {cache : Cache} (h : memory.Sound base view)
    (hcache : cache ⊆ memory.cache) : Memory.Sound base view { memory with cache } where
  entries item hitem := h.entries item (hcache hitem)
  realm := h.realm

theorem Memory.Sound.set (h : memory.Sound base view) (hentry : entry.Sound base id) :
    Memory.Sound base view { memory with cache := memory.cache.set id entry } where
  entries item hitem := by
    rcases Cache.mem_set hitem with rfl | hold
    · exact hentry
    · exact h.entries item hold
  realm := h.realm

theorem Memory.Sound.evict (h : memory.Sound base view) :
    Memory.Sound base view { memory with cache := memory.cache.evict id } :=
  h.of_subset Cache.evict_subset

/-! ## The reducer in the realm of the process -/

theorem outcome_replayEvents {events : List SessionEvent} :
    (replayEvents start events).outcome memory =
      ((replaySessionEvents memory.realm start events).2.mapError Failure.replay,
        { memory with realm := (replaySessionEvents memory.realm start events).1 }) := rfl

theorem Memory.Sound.replayed (h : memory.Sound base view) (start : SessionState)
    (events : List SessionEvent) :
    Memory.Sound base view
      { memory with realm := (replaySessionEvents memory.realm start events).1 } where
  entries := h.entries
  realm huse := by
    have hrealm := h.realm huse
    change (replaySessionEvents memory.realm start events).1 = ⟨true⟩
    rw [hrealm, replaySessionEvents_written]

theorem replayEvents_leads (base : Table) (view : View) (start : SessionState)
    (events : List SessionEvent) :
    Attempt.Leads (Memory.Sound base view) (replayEvents start events)
      (fun state m => m.Sound base view ∧
        ∃ realm, run replayStep ⟨realm, start⟩ events = .ok ⟨m.realm, state⟩)
      (Memory.Sound base view) := by
  intro memory hm
  have hkept := hm.replayed start events
  rw [outcome_replayEvents]
  simp only [replaySessionEvents] at hkept ⊢
  cases hrun : run replayStep ⟨memory.realm, start⟩ events with
  | error err => exact hkept
  | ok reducer =>
      refine ⟨hkept, memory.realm, ?_⟩
      rw [hrun, lastGood_of_run_eq_ok hrun]

/-! ## Replays -/

/-- What a replay of a whole stream returns. -/
structure Replayed (table : Table) (id : Identifier) (state : SessionState) : Prop where
  readable : assertSessionCausation table (table.stream id) = .ok ()
  unreserved : state.Unreserved
  accepted : RealmFree (table.events id) → Accepted ⟨false⟩ (table.events id) state

theorem accepted_of_run {realm realm' : Realm} {events : List SessionEvent}
    (h : run replayStep ⟨realm, .initial⟩ events = .ok ⟨realm', state⟩)
    (hfree : RealmFree events) : Accepted ⟨false⟩ events state :=
  (accepted_iff_run.mpr ⟨realm', h⟩).inRealm hfree

/-- A state reached over the first rows of a stream is gone on from. -/
theorem accepted_append {events more : List SessionEvent} {realm realm' : Realm}
    (h : Accepted ⟨false⟩ events start)
    (hrun : run replayStep ⟨realm, start⟩ more = .ok ⟨realm', state⟩) (hfree : RealmFree more) :
    Accepted ⟨false⟩ (events ++ more) state := by
  obtain ⟨realm₁, hstart⟩ := accepted_iff_run.mp h
  have hrest : run replayStep ⟨realm₁, start⟩ more = _ := run_realm realm hfree
  rw [hrun] at hrest
  exact accepted_iff_run.mpr ⟨realm₁, by rw [run_append, hstart]; exact hrest⟩

theorem CacheEntry.sound_ofStream {table : Table} {realm realm' : Realm} {revision : Nat}
    (h : table.Sound) (hreadable : assertSessionCausation table (table.stream id) = .ok ())
    (hrun : run replayStep ⟨realm, .initial⟩ (table.events id) = .ok ⟨realm', state⟩) :
    (CacheEntry.ofStream table id state revision (table.stream id)).Sound table id := by
  refine ⟨table.stream id, List.prefix_refl _, ?_⟩
  exact
    { lastId := (Option.or_none ..).symm
      eventIds := rfl
      correlation := by
        change ((table.stream id).find? _).map _ = _
        congr 1
        rw [← List.head?_filter, (h.sequences id).filter_le 1]
        cases table.stream id <;> rfl
      readable := hreadable
      unreserved := run_unreserved unreserved_initial hrun
      sequence := by
        have hlength := run_currentSequence hrun
        rw [Table.events, List.length_map] at hlength
        change state.currentSequence = _
        simpa [SessionState.initial] using hlength
      accepted := accepted_of_run hrun }

theorem replayAll_leads (hseen : Seen base view) {toVersion : Option Nat} :
    Attempt.Leads (Memory.Sound base view) (replayAll view id toVersion)
      (fun state m => m.Sound base view ∧ (toVersion = none → Replayed view.table id state))
      (Memory.Sound base view) := by
  unfold replayAll
  refine Attempt.Leads.bind (Attempt.Leads.lift
    (Q := fun rows m => m.Sound base view ∧ readSession view.table id toVersion = .ok rows)
    (fun rows m hread hm => ⟨hm, hread⟩) fun m hm => hm) fun rows => ?_
  intro memory hmemory
  obtain ⟨hmemory, hread⟩ := hmemory
  refine (Attempt.Leads.bind (replayEvents_leads base view _ _)
    fun state => ?_) memory hmemory
  rintro m ⟨hm, realm, hrun⟩
  cases toVersion with
  | some n => exact ⟨hm, nofun⟩
  | none =>
      obtain ⟨rfl, hreadable⟩ := hseen.tableSound.readSession_eq_ok.mp hread
      have hreplayed : Replayed view.table id state :=
        ⟨hreadable, run_unreserved unreserved_initial hrun, accepted_of_run hrun⟩
      cases hrevision : view.revision with
      | none => exact ⟨hm, fun _ => hreplayed⟩
      | some revision =>
          have hbase : base = view.table := hseen.outside (by simp [hrevision])
          have hentry : (CacheEntry.ofStream view.table id state revision
              (view.table.stream id)).Sound base id := by
            rw [hbase]
            exact CacheEntry.sound_ofStream hseen.tableSound hreadable hrun
          exact ⟨hm.evict.set hentry, fun _ => hreplayed⟩

/-! ### Going on from an entry -/

theorem lastEventId_append {lastId : Option Identifier} {more : List SessionRow} :
    lastEventId lastId (rows ++ more) = lastEventId (lastEventId lastId rows) more := by
  unfold lastEventId
  cases hmore : more.getLast? with
  | none =>
      obtain rfl := List.getLast?_eq_none_iff.mp hmore
      simp
  | some last => simp [List.getLast?_append, hmore]

namespace CacheEntry

variable {table : Table} {more : List SessionRow} {realm realm' : Realm}

/-- The entry after the rows that follow the ones it describes. -/
theorem Describes.advance (h : entry.Describes table rows) (hsound : table.Sound) (hne : rows ≠ [])
    (hlineage : continuesLineage entry.lastId entry.eventIds more = true)
    (hrun : run replayStep ⟨realm, entry.state⟩ (more.map (·.event)) = .ok ⟨realm', state⟩) :
    (entry.advance state more).Describes table (rows ++ more) where
  lastId := by rw [lastEventId_append, ← h.lastId]; rfl
  eventIds := by
    change entry.eventIds ++ more.map (·.event.eventId) = _
    rw [h.eventIds]
    exact List.map_append.symm
  correlation := by
    obtain ⟨first, rest, rfl⟩ := List.exists_cons_of_ne_nil hne
    exact h.correlation
  readable := by
    rw [h.lastId, h.eventIds] at hlineage
    exact (assertSessionCausation_append hsound hne h.readable).mpr hlineage
  unreserved := @run_unreserved ⟨realm, entry.state⟩ _ _ h.unreserved hrun
  sequence := by
    have hlength := run_currentSequence hrun
    change state.currentSequence = _
    rw [List.length_append, ← h.sequence]
    simpa using hlength
  accepted hfree := by
    rw [List.map_append] at hfree ⊢
    obtain ⟨hrows, hmore⟩ := realmFree_append.mp hfree
    exact accepted_append (h.accepted hrows) hrun hmore

end CacheEntry

/-- What the replay of the rows after an entry does. -/
theorem outcome_replayRest (memory : Memory) {more : List SessionRow} (hsound : view.table.Sound) (hne : rows ≠ [])
    (hentry : entry.Describes view.table rows) (hsplit : view.table.stream id = rows ++ more) :
    (replayRest view id entry).outcome memory =
      if more = [] then (.ok entry.state, memory)
      else if continuesLineage entry.lastId entry.eventIds more then
        match (replayEvents entry.state (more.map (·.event))).outcome memory with
        | (.ok state, m) =>
            (.ok state, { m with cache := m.cache.set id (entry.advance state more) })
        | (.error err, m) => (.error err, m)
      else (.error (causationError "incremental session causation changed"), memory) := by
  have hfound : view.table.readStream id (entry.state.currentSequence + 1) none = .ok more := by
    rw [hsound.readStream_from, hsplit, hentry.sequence, List.drop_left]
  have hmem : ∀ row ∈ more, row ∈ view.table.stream id := by
    intro row hrow
    rw [hsplit]
    exact List.mem_append_right _ hrow
  have hhydrated : hydrateAll more = .ok more :=
    hydrateAll_eq_ok fun row hrow => hsound.stream_hydrated row (hmem row hrow)
  simp only [replayRest, hfound, Attempt.outcome_bind, Attempt.outcome_lift]
  by_cases hmore : more = []
  · rw [if_pos hmore, if_pos hmore]
    rfl
  · have htrace : assertUniformSessionTrace more = .ok entry.correlation := by
      obtain ⟨first, rest, rfl⟩ := List.exists_cons_of_ne_nil hne
      obtain ⟨next, others, rfl⟩ := List.exists_cons_of_ne_nil hmore
      rw [hsound.uniformTrace fun row hrow => hmem row hrow, hentry.correlation]
      have hfirst : first ∈ view.table.stream id := by rw [hsplit]; simp
      have hnext := hmem next List.mem_cons_self
      have hsame := hsound.uniform next (Table.mem_stream.mp hnext).1 first (Table.mem_stream.mp hfirst).1
        ((Table.mem_stream.mp hnext).2.trans (Table.mem_stream.mp hfirst).2.symm)
      simp [hsame]
    rw [if_neg hmore, if_neg hmore]
    simp only [hhydrated, htrace, Attempt.outcome_bind, Attempt.outcome_lift, reject]
    cases hlineage : continuesLineage entry.lastId entry.eventIds more with
    | false => simp
    | true =>
        simp only [ne_eq, not_true_eq_false, decide_false, Bool.false_eq_true, if_false,
          Bool.not_true, if_true]
        generalize Attempt.outcome (replayEvents entry.state _) memory = replayed
        rcases replayed with ⟨_ | _, m⟩ <;> rfl

/-- Only an entry that describes rows of the stream is gone on from. -/
theorem describes_of_reusable {full : Bool} {toVersion : Option Nat} (hseen : Seen base view)
    (hmemory : ∀ item ∈ memory.cache, item.2.Sound base item.1)
    (h : reusable view full toVersion (memory.cache.get? id) = some entry) :
    base = view.table ∧ toVersion = none ∧ ∃ rows more, rows ≠ [] ∧
      entry.Describes view.table rows ∧ view.table.stream id = rows ++ more := by
  obtain ⟨hget, hcheck⟩ := Option.filter_eq_some_iff.mp h
  simp only [Bool.and_eq_true, decide_eq_true_eq, Option.isNone_iff_eq_none] at hcheck
  obtain ⟨⟨⟨-, hversion⟩, hrevision⟩, hpositive⟩ := hcheck
  have hbase : base = view.table := hseen.outside (by simp [hrevision])
  obtain ⟨rows, ⟨more, hsplit⟩, hdescribes⟩ := hmemory _ (Cache.mem_of_get? hget)
  rw [hbase] at hsplit hdescribes
  refine ⟨hbase, hversion, rows, more, ?_, hdescribes, hsplit.symm⟩
  rintro rfl
  rw [hdescribes.sequence] at hpositive
  exact Nat.lt_irrefl 0 hpositive

theorem replayRest_leads (hseen : Seen base view) (hbase : base = view.table)
    {more : List SessionRow} (hne : rows ≠ []) (hentry : entry.Describes view.table rows)
    (hsplit : view.table.stream id = rows ++ more) :
    Attempt.Leads (Memory.Sound base view) (replayRest view id entry)
      (fun state m => m.Sound base view ∧ Replayed view.table id state)
      (Memory.Sound base view) := by
  intro memory hm
  have hout := outcome_replayRest memory hseen.tableSound hne hentry hsplit
  by_cases hmore : more = []
  · rw [if_pos hmore] at hout
    rw [hmore, List.append_nil] at hsplit
    rw [hout]
    refine ⟨hm, ⟨hsplit ▸ hentry.readable, hentry.unreserved, ?_⟩⟩
    rw [Table.events, hsplit]
    exact hentry.accepted
  rw [if_neg hmore] at hout
  cases hlineage : continuesLineage entry.lastId entry.eventIds more with
  | false =>
      rw [hlineage, if_neg Bool.false_ne_true] at hout
      rw [hout]
      exact hm
  | true =>
      rw [hlineage, if_pos rfl] at hout
      have hreplay := replayEvents_leads base view entry.state (more.map (·.event))
        memory hm
      rw [hout]
      generalize Attempt.outcome (replayEvents entry.state _) memory = replayed at hreplay ⊢
      rcases replayed with ⟨_ | state, m⟩
      · exact hreplay
      · obtain ⟨hm', realm, hrun⟩ := hreplay
        have hnext := hentry.advance hseen.tableSound hne hlineage hrun
        have hsound : (entry.advance state more).Sound base id := by
          rw [hbase]
          exact ⟨rows ++ more, by rw [hsplit], hnext⟩
        refine ⟨hm'.set hsound, ⟨hsplit ▸ hnext.readable, hnext.unreserved, ?_⟩⟩
        rw [Table.events, hsplit]
        exact hnext.accepted

/-- Within a transaction the entry of the session is dropped first. -/
def Memory.without (memory : Memory) (view : View) (id : Identifier) : Memory :=
  { memory with cache := if view.revision.isNone then memory.cache.delete id else memory.cache }

theorem Memory.Sound.without (h : memory.Sound base view) :
    (memory.without view id).Sound base view := by
  apply h.of_subset
  split
  · exact fun item hitem => (List.mem_filter.mp hitem).1
  · exact List.Subset.refl _

theorem outcome_replay {toVersion : Option Nat} {full : Bool} :
    (replay view id toVersion full).outcome memory =
      match reusable view full toVersion ((memory.without view id).cache.get? id) with
      | some previous => (replayRest view id previous).outcome (memory.without view id)
      | none => (replayAll view id toVersion).outcome (memory.without view id) := by
  simp only [replay, Attempt.outcome_bind, Attempt.outcome_get, Attempt.outcome_set]
  change Attempt.outcome (match reusable view full toVersion ((memory.without view id).cache.get? id) with
    | some previous => replayRest view id previous
    | none => replayAll view id toVersion) (memory.without view id) = _
  cases reusable view full toVersion ((memory.without view id).cache.get? id) <;> rfl

/-- A replay keeps what every entry says, and returns the state of the stream. -/
theorem replay_leads (hseen : Seen base view) {toVersion : Option Nat} {full : Bool} :
    Attempt.Leads (Memory.Sound base view) (replay view id toVersion full)
      (fun state m => m.Sound base view ∧ (toVersion = none → Replayed view.table id state))
      (Memory.Sound base view) := by
  intro memory hm
  have hm' : (memory.without view id).Sound base view := hm.without
  rw [outcome_replay]
  cases hreusable : reusable view full toVersion ((memory.without view id).cache.get? id) with
  | none => exact replayAll_leads hseen _ hm'
  | some previous =>
      obtain ⟨hbase, -, rows, more, hne, hdescribes, hsplit⟩ :=
        describes_of_reusable hseen hm'.entries hreusable
      exact (replayRest_leads hseen hbase hne hdescribes hsplit).imp (fun _ h => h)
        (fun _ _ h => ⟨h.1, fun _ => h.2⟩) _ hm'

/-! ### Replays that succeed -/

theorem run_more {events more : List SessionEvent} {final : SessionState} {realm : Realm}
    (hall : Accepted ⟨false⟩ (events ++ more) final) (hevents : Accepted ⟨false⟩ events start)
    (hfree : RealmFree more) : ∃ realm', run replayStep ⟨realm, start⟩ more = .ok ⟨realm', final⟩ := by
  obtain ⟨realm₁, hrun⟩ := accepted_iff_run.mp hall
  obtain ⟨⟨realm₂, middle⟩, hfirst, hrest⟩ := bind_eq_ok_iff.mp (run_append ▸ hrun)
  obtain rfl := hevents.unique (accepted_iff_run.mpr ⟨realm₂, hfirst⟩)
  have hsame : run replayStep ⟨realm, start⟩ more = _ := run_realm realm₂ hfree
  rw [hrest] at hsame
  exact ⟨realm, hsame⟩

theorem outcome_replayEvents_ok (memory : Memory) {events : List SessionEvent} {realm : Realm}
    (h : run replayStep ⟨memory.realm, start⟩ events = .ok ⟨realm, state⟩) :
    ∃ m, (replayEvents start events).outcome memory = (.ok state, m) := by
  rw [outcome_replayEvents]
  simp only [replaySessionEvents, h]
  exact ⟨_, rfl⟩

theorem replayAll_ok (hseen : Seen base view) (hfree : RealmFree (view.table.events id))
    (hreadable : assertSessionCausation view.table (view.table.stream id) = .ok ()) :
    ∃ state m, (replayAll view id none).outcome memory = (.ok state, m) := by
  obtain ⟨final, hfinal⟩ := hseen.tableSound.accepted id hfree
  have hhere : Accepted memory.realm (view.table.events id) final := hfinal.inRealm hfree
  obtain ⟨realm, hrun⟩ := accepted_iff_run.mp hhere
  have hread := hseen.tableSound.readSession_eq_ok.mpr ⟨rfl, hreadable⟩
  obtain ⟨m, hout⟩ := outcome_replayEvents_ok memory hrun
  simp only [replayAll, hread, Attempt.outcome_bind, Attempt.outcome_lift]
  rw [Table.events] at hout
  rw [hout]
  cases view.revision <;> exact ⟨_, _, rfl⟩

/-- A readable stream that does not use the realm is replayed. -/
theorem replay_ok (hseen : Seen base view) (hmemory : memory.Sound base view) {full : Bool}
    (hfree : RealmFree (view.table.events id))
    (hreadable : assertSessionCausation view.table (view.table.stream id) = .ok ()) :
    ∃ state m, (replay view id none full).outcome memory = (.ok state, m) := by
  rw [outcome_replay]
  cases hreusable : reusable view full none ((memory.without view id).cache.get? id) with
  | none => exact replayAll_ok hseen hfree hreadable
  | some previous =>
      obtain ⟨-, -, rows, more, hne, hdescribes, hsplit⟩ :=
        describes_of_reusable hseen hmemory.without.entries hreusable
      obtain ⟨final, hfinal⟩ := hseen.tableSound.accepted id hfree
      rw [Table.events, hsplit, List.map_append] at hfree hfinal
      obtain ⟨hrows, hmore⟩ := realmFree_append.mp hfree
      dsimp only
      rw [outcome_replayRest _ hseen.tableSound hne hdescribes hsplit]
      by_cases hnil : more = []
      · rw [if_pos hnil]
        exact ⟨_, _, rfl⟩
      · have hlineage : continuesLineage previous.lastId previous.eventIds more = true := by
          rw [hdescribes.lastId, hdescribes.eventIds]
          rw [hsplit] at hreadable
          exact (assertSessionCausation_append hseen.tableSound hne hdescribes.readable).mp hreadable
        obtain ⟨realm, hrun⟩ := run_more hfinal (hdescribes.accepted hrows) hmore
        obtain ⟨m, hout⟩ := outcome_replayEvents_ok (memory.without view id) hrun
        rw [if_neg hnil, hlineage, if_pos rfl, hout]
        exact ⟨_, _, rfl⟩

end Hseos.SessionStore
