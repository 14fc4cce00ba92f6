import Hseos.Foundation.Numbered
import Hseos.Session.RealmUse
import Hseos.SessionStore.Reading

/-! # Sound tables

What every call of a session store keeps of the table, and what a read finds in a
table that has it.
-/

namespace Hseos.SessionStore

variable {table more : Table} {id : Identifier} {rows : List SessionRow} {row : SessionRow}

namespace Table

theorem stream_append : Table.stream (table ++ more) id = table.stream id ++ more.stream id :=
  List.filter_append _ _

theorem mem_stream : row ∈ table.stream id ↔ row ∈ table ∧ row.sessionId = id := by
  simp [Table.stream]

theorem stream_isPrefix {later : Table} (h : table <+: later) :
    table.stream id <+: later.stream id := by
  obtain ⟨more, rfl⟩ := h
  rw [stream_append]
  exact List.prefix_append _ _

/-- The events of one session. -/
def events (table : Table) (id : Identifier) : List SessionEvent :=
  (table.stream id).map (·.event)

/-- What every call keeps: the rows can be read, they are numbered in the table and in
each stream, a stream has one trace, and a stream that does not use the realm is accepted. -/
structure Sound (table : Table) : Prop where
  hydrated : ∀ row ∈ table, hydrateSessionEvent row = .ok row
  positions : Numbered SessionRow.position table
  sequences : ∀ id, Numbered (fun row : SessionRow => row.streamSequence) (table.stream id)
  uniform : ∀ row ∈ table, ∀ other ∈ table, row.sessionId = other.sessionId →
    row.correlationId = other.correlationId
  distinct : (table.map (·.eventId)).Nodup
  accepted : ∀ id, RealmFree (table.events id) → ∃ state, Accepted ⟨false⟩ (table.events id) state

theorem sound_empty : Sound [] where
  hydrated := by simp
  positions := .nil
  sequences _ := .nil
  uniform := by simp
  distinct := List.nodup_nil
  accepted _ _ := ⟨.initial, accepted_nil⟩

end Table

/-! ## Rows -/

theorem hydrateSessionEvent_eq_ok (h : hydrateSessionEvent row = .ok row) :
    row.event.sessionId = row.sessionId ∧ row.event.sequence = row.streamSequence ∧
      row.eventId = ledgerEventId row.event.sessionId row.event.eventId ∧
      row.operationId = linkedOperation row.event := by
  obtain ⟨⟨⟩, -, h⟩ := bind_eq_ok_iff.mp h
  obtain ⟨hidentity, h⟩ := reject_bind_eq_ok_iff.mp h
  obtain ⟨hoperation, -⟩ := reject_bind_eq_ok_iff.mp h
  simp only [Bool.or_eq_false_iff, decide_eq_false_iff_not, not_not] at hidentity hoperation
  exact ⟨hidentity.1.1, hidentity.1.2, hidentity.2, hoperation⟩

theorem hydrateSessionEvent_eq_self {found : SessionRow}
    (h : hydrateSessionEvent row = .ok found) : found = row := by
  obtain ⟨⟨⟩, -, h⟩ := bind_eq_ok_iff.mp h
  obtain ⟨-, h⟩ := reject_bind_eq_ok_iff.mp h
  obtain ⟨-, h⟩ := reject_bind_eq_ok_iff.mp h
  exact (pure_eq_ok_iff.mp h).symm

theorem hydrateAll_eq_ok (h : ∀ row ∈ rows, hydrateSessionEvent row = .ok row) :
    hydrateAll rows = .ok rows := by
  rw [hydrateAll, mapM_eq_ok_map (g := id) h, List.map_id]

namespace Table.Sound

theorem stream_hydrated (h : table.Sound) :
    ∀ row ∈ table.stream id, hydrateSessionEvent row = .ok row :=
  fun row hrow => h.hydrated row (mem_stream.mp hrow).1

theorem hydratedStream_eq (h : table.Sound) : hydratedStream table id = .ok (table.stream id) :=
  hydrateAll_eq_ok h.stream_hydrated

theorem selectVersion_eq (h : table.Sound) : table.selectVersion id = (table.stream id).length :=
  (h.sequences id).foldl_max

theorem selectById_eq_some_iff (h : table.Sound) {eventId : String} :
    table.selectById eventId = some row ↔ row ∈ table ∧ row.eventId = eventId :=
  find?_key_eq_some_iff h.distinct

theorem readStream_all (h : table.Sound) : table.readStream id 1 none = .ok (table.stream id) := by
  have hall : (table.stream id).filter (fun row => 1 ≤ row.streamSequence) = table.stream id := by
    rw [← Nat.zero_add 1, (h.sequences id).filter_gt 0, List.drop_zero]
  simp only [Table.readStream, Option.any_none, Option.all_none, Bool.and_true, hall]
  rfl

theorem readStream_from (h : table.Sound) (n : Nat) :
    table.readStream id (n + 1) none = .ok ((table.stream id).drop n) := by
  simp only [Table.readStream, Option.any_none, Option.all_none, Bool.and_true,
    (h.sequences id).filter_gt n]
  rfl

theorem readStream_to (h : table.Sound) {n : Nat} (hn : 1 ≤ n) :
    table.readStream id 1 (some n) = .ok ((table.stream id).take n) := by
  have hfilter : (table.stream id).filter (fun row =>
      decide (1 ≤ row.streamSequence) && decide (row.streamSequence ≤ n)) =
      (table.stream id).take n := by
    rw [← (h.sequences id).filter_le n]
    apply List.filter_congr
    intro row hrow
    rw [decide_eq_true ((h.sequences id).pos_of_mem hrow), Bool.true_and]
  have hn' : ¬ n < 1 := by omega
  simp only [Table.readStream, Option.any_some, Option.all_some, hfilter, hn', decide_false]
  rfl

end Table.Sound

/-! ## Traces -/

theorem assertUniformSessionTrace_eq_ok
    (h : ∀ row ∈ rows, ∀ other ∈ rows, row.correlationId = other.correlationId) :
    assertUniformSessionTrace rows = .ok (rows.head?.map (·.correlationId)) := by
  cases rows with
  | nil => rfl
  | cons first rest =>
      have hsame : (first :: rest).any (fun row => decide
          (some row.correlationId ≠ (first :: rest).head?.map (·.correlationId))) = false := by
        rw [List.any_eq_false]
        intro row hrow
        simp [h row hrow first List.mem_cons_self]
      simp only [assertUniformSessionTrace, hsame]
      rfl

theorem uniform_of_assertUniformSessionTrace {correlation : Option String}
    (h : assertUniformSessionTrace rows = .ok correlation) :
    correlation = rows.head?.map (·.correlationId) ∧
      ∀ row ∈ rows, some row.correlationId = correlation := by
  obtain ⟨hsame, h⟩ := reject_bind_eq_ok_iff.mp h
  obtain rfl := pure_eq_ok_iff.mp h
  refine ⟨rfl, fun row hrow => ?_⟩
  simpa using List.any_eq_false.mp hsame row hrow

theorem Table.Sound.uniformTrace (h : table.Sound) (hrows : rows ⊆ table.stream id) :
    assertUniformSessionTrace rows = .ok (rows.head?.map (·.correlationId)) := by
  apply assertUniformSessionTrace_eq_ok
  intro row hrow other hother
  have hrow := mem_stream.mp (hrows hrow)
  have hother := mem_stream.mp (hrows hother)
  exact h.uniform row hrow.1 other hother.1 (hrow.2.trans hother.2.symm)

/-! ## Reads -/

theorem Table.Sound.readSession_eq (h : table.Sound) :
    readSession table id none =
      (assertSessionCausation table (table.stream id)).map fun _ => table.stream id := by
  simp only [readSession, h.readStream_all, h.uniformTrace (List.Subset.refl _),
    hydrateAll_eq_ok h.stream_hydrated, bind, Except.bind]
  cases assertSessionCausation table (table.stream id) <;> rfl

theorem Table.Sound.readSession_to (h : table.Sound) {n : Nat} (hn : 1 ≤ n) :
    readSession table id (some n) =
      (assertSessionCausation table ((table.stream id).take n)).map fun _ =>
        (table.stream id).take n := by
  have hsubset : (table.stream id).take n ⊆ table.stream id := List.take_subset _ _
  simp only [readSession, h.readStream_to hn, h.uniformTrace hsubset,
    hydrateAll_eq_ok fun row hrow => h.stream_hydrated row (hsubset hrow), bind, Except.bind]
  cases assertSessionCausation table ((table.stream id).take n) <;> rfl

theorem Table.Sound.readSession_eq_ok (h : table.Sound) :
    readSession table id none = .ok rows ↔
      rows = table.stream id ∧ assertSessionCausation table (table.stream id) = .ok () := by
  rw [h.readSession_eq, map_eq_ok_iff]
  constructor
  · rintro ⟨⟨⟩, hcausation, rfl⟩
    exact ⟨rfl, hcausation⟩
  · rintro ⟨rfl, hcausation⟩
    exact ⟨(), hcausation, rfl⟩

end Hseos.SessionStore
