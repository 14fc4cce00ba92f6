import Hseos.SessionStore.Streams

/-! # Insertions

What one request of the ledger does to a table: it finds all of its rows there, or
adds all of them. The rows that are added keep the table sound when they go on from
the stream of one session.
-/

namespace Hseos.SessionStore

variable {table table' : Table} {id other : Identifier} {candidates : List Candidate}
  {candidate : Candidate} {request : PreparedAppend} {result : AppendResult} {row : SessionRow}

/-! ## Candidates -/

/-- The row values of a prepared append. -/
def PreparedAppend.rowValues (request : PreparedAppend) : List Candidate :=
  (request.events.zipIdx (request.expectedVersion + 1)).map fun entry =>
    entry.1.candidate request.sessionId entry.2

theorem normalizeEvent_eq_ok {prepared : PreparedEvent} {sequence : Nat}
    (h : normalizeEvent prepared id sequence = .ok candidate) :
    candidate = prepared.candidate id sequence := by
  obtain ⟨-, h⟩ := reject_bind_eq_ok_iff.mp h
  obtain ⟨-, h⟩ := reject_bind_eq_ok_iff.mp h
  obtain ⟨-, h⟩ := reject_bind_eq_ok_iff.mp h
  obtain ⟨-, h⟩ := reject_bind_eq_ok_iff.mp h
  obtain ⟨⟨⟩, -, h⟩ := bind_eq_ok_iff.mp h
  exact (pure_eq_ok_iff.mp h).symm

theorem ledgerPrepare_eq_ok (h : ledgerPrepare request = .ok candidates) :
    candidates = request.rowValues ∧ (candidates.map (·.eventId)).Nodup := by
  obtain ⟨found, hfound, h⟩ := bind_eq_ok_iff.mp h
  obtain ⟨hdistinct, h⟩ := reject_bind_eq_ok_iff.mp h
  obtain rfl := pure_eq_ok_iff.mp h
  refine ⟨?_, by simpa using hdistinct⟩
  have hmap := map_eq_of_mapM_eq_ok (g := fun candidate => candidate) hfound
    fun entry candidate h => normalizeEvent_eq_ok h
  rwa [List.map_id'] at hmap

/-! ## Rows that are there already -/

/-- Every candidate is a row of the table. -/
def Recorded (table : Table) (candidates : List Candidate) : Prop :=
  ∀ candidate ∈ candidates, ∃ row ∈ table, row.toCandidate = candidate

theorem Recorded.mono (h : Recorded table candidates) (hlater : table <+: table') :
    Recorded table' candidates := by
  intro candidate hcandidate
  obtain ⟨row, hrow, heq⟩ := h candidate hcandidate
  exact ⟨row, hlater.subset hrow, heq⟩

/-- No candidate has the identifier of a row. -/
def Fresh (table : Table) (candidates : List Candidate) : Prop :=
  ∀ candidate ∈ candidates, ∀ row ∈ table, row.eventId ≠ candidate.eventId

/-- The rows of a result are rows of the table. -/
theorem rows_of_appendRows (h : appendRows table request candidates = .ok (result, table')) :
    ∀ row ∈ result.rows, row ∈ table' := by
  have hfound : ∀ (rows : Table) (row : SessionRow),
      row ∈ candidates.filterMap (fun candidate => rows.selectById candidate.eventId) → row ∈ rows := by
    intro rows row hrow
    obtain ⟨candidate, -, hselected⟩ := List.mem_filterMap.mp hrow
    exact List.mem_of_find?_eq_some hselected
  unfold appendRows at h
  dsimp only at h
  split at h
  · split at h
    · obtain ⟨rfl, rfl⟩ := Prod.mk.inj (Except.ok.inj h)
      exact hfound _
    · cases h
  · obtain ⟨-, h⟩ := reject_bind_eq_ok_iff.mp h
    obtain ⟨rfl, rfl⟩ := Prod.mk.inj (pure_eq_ok_iff.mp h)
    exact hfound _

/-- A request finds all of its rows in the table or adds all of them. -/
theorem appendRows_eq_ok (h : appendRows table request candidates = .ok (result, table')) :
    (result.idempotent = true ∧ table' = table ∧ Recorded table candidates) ∨
    (result.idempotent = false ∧ table' = table.insert candidates ∧ Fresh table candidates ∧
      table.selectVersion request.sessionId = request.expectedVersion) := by
  unfold appendRows at h
  dsimp only at h
  split at h
  next hsome =>
    split at h
    next hall =>
      obtain ⟨rfl, rfl⟩ := Prod.mk.inj (Except.ok.inj h)
      refine .inl ⟨rfl, rfl, fun candidate hcandidate => ?_⟩
      obtain ⟨row, hrow, hsame⟩ :=
        (Option.any_eq_true ..).mp (List.all_eq_true.mp hall candidate hcandidate)
      exact ⟨row, List.mem_of_find?_eq_some hrow, by simpa using hsame⟩
    next => cases h
  next hnone =>
    obtain ⟨hversion, h⟩ := reject_bind_eq_ok_iff.mp h
    obtain ⟨rfl, rfl⟩ := Prod.mk.inj (pure_eq_ok_iff.mp h)
    refine .inr ⟨rfl, rfl, fun candidate hcandidate row hrow hid => hnone ?_, by simpa using hversion⟩
    rw [List.any_eq_true]
    refine ⟨candidate, hcandidate, ?_⟩
    rw [Table.selectById, List.find?_isSome]
    exact ⟨row, hrow, by simpa using hid⟩

/-- A request whose rows are there changes nothing. -/
theorem appendRows_recorded (h : table.Sound) (hne : candidates ≠ [])
    (hrecorded : Recorded table candidates) :
    ∃ result, appendRows table request candidates = .ok (result, table) ∧
      result.idempotent = true := by
  have hfound : ∀ candidate ∈ candidates, ∃ row, table.selectById candidate.eventId = some row ∧
      row.toCandidate = candidate := by
    intro candidate hcandidate
    obtain ⟨row, hrow, hsame⟩ := hrecorded candidate hcandidate
    exact ⟨row, h.selectById_eq_some_iff.mpr ⟨hrow, congrArg Candidate.eventId hsame⟩, hsame⟩
  have hany : (candidates.any fun candidate =>
      (table.selectById candidate.eventId).isSome) = true := by
    obtain ⟨candidate, rest, rfl⟩ := List.exists_cons_of_ne_nil hne
    obtain ⟨row, hrow, -⟩ := hfound candidate List.mem_cons_self
    simp [hrow]
  have hall : (candidates.all fun candidate => (table.selectById candidate.eventId).any
      fun row => row.toCandidate = candidate) = true := by
    rw [List.all_eq_true]
    intro candidate hcandidate
    obtain ⟨row, hrow, hsame⟩ := hfound candidate hcandidate
    simp [hrow, hsame]
  refine ⟨⟨candidates.filterMap fun candidate => table.selectById candidate.eventId,
    table.selectVersion request.sessionId, true⟩, ?_, rfl⟩
  rw [appendRows]
  simp only [hany, hall, if_true]

/-! ## Rows that are added -/

namespace Table

theorem isPrefix_insert : table <+: table.insert candidates := List.prefix_append _ _

theorem toCandidate_insert :
    (table.insert candidates).map (·.toCandidate) = table.map (·.toCandidate) ++ candidates := by
  rw [Table.insert, List.map_append, List.map_map]
  congr 1
  exact List.zipIdx_map_fst ..

theorem position_insert : (table.insert candidates).map (·.position) =
    table.map (·.position) ++ List.range' (table.length + 1) candidates.length := by
  rw [Table.insert, List.map_append, List.map_map]
  congr 1
  exact List.zipIdx_map_snd ..

theorem length_insert : (table.insert candidates).length = table.length + candidates.length := by
  simp [Table.insert]

theorem mem_insert (h : row ∈ table.insert candidates) :
    row ∈ table ∨ row.toCandidate ∈ candidates ∧ table.length < row.position := by
  rcases List.mem_append.mp h with hold | hnew
  · exact .inl hold
  · obtain ⟨entry, hentry, rfl⟩ := List.mem_map.mp hnew
    exact .inr ⟨List.fst_mem_of_mem_zipIdx hentry, List.le_snd_of_mem_zipIdx hentry⟩

/-- The rows that new candidates become. -/
def placed (start : Nat) (candidates : List Candidate) : List SessionRow :=
  (candidates.zipIdx start).map fun entry => { entry.1 with position := entry.2 }

theorem map_placed {β : Type} (f : Candidate → β) (start : Nat) :
    (placed start candidates).map (fun row => f row.toCandidate) = candidates.map f := by
  rw [placed, List.map_map]
  exact (List.map_map (g := f) (f := Prod.fst)).symm.trans
    (congrArg (List.map f) (List.zipIdx_map_fst ..))

theorem session_of_mem_placed {start : Nat}
    (hsession : ∀ candidate ∈ candidates, candidate.sessionId = id)
    (h : row ∈ placed start candidates) : row.sessionId = id := by
  obtain ⟨entry, hentry, rfl⟩ := List.mem_map.mp h
  exact hsession entry.1 (List.fst_mem_of_mem_zipIdx hentry)

/-- The stream of the session that the rows are added to grows by them. -/
theorem stream_insert (hsession : ∀ candidate ∈ candidates, candidate.sessionId = id) :
    (table.insert candidates).stream id =
      table.stream id ++ placed (table.length + 1) candidates := by
  rw [Table.insert, stream_append]
  congr 1
  exact List.filter_eq_self.mpr fun row hrow => by simpa using session_of_mem_placed hsession hrow

/-- Other streams stay as they are. -/
theorem stream_insert_of_ne (hsession : ∀ candidate ∈ candidates, candidate.sessionId = id)
    (hne : other ≠ id) : (table.insert candidates).stream other = table.stream other := by
  rw [Table.insert, stream_append]
  have hnone : Table.stream (placed (table.length + 1) candidates) other = [] := by
    refine List.filter_eq_nil_iff.mpr fun row hrow => ?_
    rw [session_of_mem_placed hsession hrow]
    simpa using hne.symm
  rw [placed] at hnone
  rw [hnone, List.append_nil]

/-- The candidates go on from the stream of one session. -/
structure Extends (table : Table) (id : Identifier) (candidates : List Candidate) : Prop where
  session : ∀ candidate ∈ candidates, candidate.sessionId = id
  numbers : candidates.map (·.streamSequence) =
    List.range' ((table.stream id).length + 1) candidates.length
  hydrated : ∀ candidate ∈ candidates, ∀ position,
    hydrateSessionEvent { candidate with position } = .ok { candidate with position }
  trace : ∃ correlation, (∀ candidate ∈ candidates, candidate.correlationId = correlation) ∧
    ∀ row ∈ table.stream id, row.correlationId = correlation
  fresh : Fresh table candidates
  distinct : (candidates.map (·.eventId)).Nodup
  accepted : RealmFree (table.events id ++ candidates.map (·.event)) →
    ∃ state, Accepted ⟨false⟩ (table.events id ++ candidates.map (·.event)) state

theorem events_insert (hsession : ∀ candidate ∈ candidates, candidate.sessionId = id) :
    (table.insert candidates).events id = table.events id ++ candidates.map (·.event) := by
  rw [events, stream_insert hsession, List.map_append]
  exact congrArg _ (map_placed (fun candidate => candidate.event) _)

/-- Rows that go on from a stream keep the table sound. -/
theorem Sound.insert (h : table.Sound) (hextends : Extends table id candidates) :
    (table.insert candidates).Sound where
  hydrated row hrow := by
    rcases mem_insert hrow with hold | ⟨hnew, -⟩
    · exact h.hydrated row hold
    · exact hextends.hydrated row.toCandidate hnew row.position
  positions := by
    rw [Numbered, position_insert, h.positions, length_insert, Nat.add_comm table.length 1,
      List.range'_append_1]
  sequences other := by
    by_cases hother : other = id
    · rw [hother, stream_insert hextends.session]
      apply (h.sequences id).append
      rw [map_placed (fun candidate => candidate.streamSequence), hextends.numbers]
      simp [placed]
    · rw [stream_insert_of_ne hextends.session hother]
      exact h.sequences other
  uniform := by
    obtain ⟨correlation, hnew, hold⟩ := hextends.trace
    have htrace : ∀ row ∈ table.insert candidates, row.sessionId = id →
        row.correlationId = correlation := by
      intro row hrow hid
      rcases mem_insert hrow with hrow | ⟨hrow, -⟩
      · exact hold row (mem_stream.mpr ⟨hrow, hid⟩)
      · exact hnew row.toCandidate hrow
    have hother : ∀ row ∈ table.insert candidates, row.sessionId ≠ id → row ∈ table := by
      intro row hrow hid
      rcases mem_insert hrow with hrow | ⟨hrow, -⟩
      · exact hrow
      · exact absurd (hextends.session row.toCandidate hrow) hid
    intro row hrow other hother' hsame
    by_cases hid : row.sessionId = id
    · rw [htrace row hrow hid, htrace other hother' (hsame ▸ hid)]
    · exact h.uniform row (hother row hrow hid) other (hother other hother' (hsame ▸ hid)) hsame
  distinct := by
    have hids : (table.insert candidates).map (·.eventId) =
        table.map (·.eventId) ++ candidates.map (·.eventId) := by
      have hrows : (table.insert candidates).map (·.toCandidate) = _ := toCandidate_insert
      have hmap := congrArg (List.map Candidate.eventId) hrows
      rw [List.map_append, List.map_map, List.map_map] at hmap
      exact hmap
    rw [hids]
    refine h.distinct.append hextends.distinct ?_
    intro eventId hold hnew
    obtain ⟨row, hrow, rfl⟩ := List.mem_map.mp hold
    obtain ⟨candidate, hcandidate, hsame⟩ := List.mem_map.mp hnew
    exact hextends.fresh candidate hcandidate row hrow hsame.symm
  accepted other := by
    by_cases hother : other = id
    · rw [hother, events_insert hextends.session]
      exact hextends.accepted
    · rw [events, stream_insert_of_ne hextends.session hother]
      exact h.accepted other

end Table

end Hseos.SessionStore
