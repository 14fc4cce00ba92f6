import Hseos.Messages.Mailbox

/-! # The table of a mailbox

A table holds a mailbox when the rows of each message fold to it. Then every read of
the store succeeds, and a write that the store accepts is a change of the mailbox.
-/

namespace Hseos.Messages

open MessageState

variable {rows : List Row} {messageId : String} {state : Option MessageState}

/-! ## Streams in a table -/

theorem rowsOf_append (first second : List Row) (messageId : String) :
    rowsOf (first ++ second) messageId = rowsOf first messageId ++ rowsOf second messageId :=
  List.filter_append ..

@[simp] theorem rowsOf_nil (messageId : String) : rowsOf [] messageId = [] := rfl

theorem rowsOf_singleton {row : Row} (h : row.messageId = messageId) :
    rowsOf [row] messageId = [row] := by
  simp [rowsOf, h]

theorem rowsOf_singleton_of_ne {row : Row} (h : row.messageId ≠ messageId) :
    rowsOf [row] messageId = [] := by
  simp [rowsOf, h]

/-- An accepted stream was inserted in its order. -/
theorem stream_eq (h : run (step messageId) none (rowsOf rows messageId) = .ok state) :
    stream rows messageId = rowsOf rows messageId := by
  apply List.mergeSort_of_pairwise
  have hsorted : ((rowsOf rows messageId).map Row.sequence).Pairwise (· ≤ ·) := by
    rw [stream_sequences h]
    exact List.pairwise_le_range'
  rw [List.pairwise_map] at hsorted
  exact hsorted.imp fun hle => by simpa using hle

/-- A row with a sequence that is not in an accepted stream can only be accepted at its
end. -/
theorem stream_insert {row : Row} {next : Option MessageState}
    (hrow : row.messageId = messageId)
    (hnew : ∀ other ∈ rowsOf rows messageId, other.sequence ≠ row.sequence)
    (hold : run (step messageId) none (rowsOf rows messageId) = .ok state)
    (h : run (step messageId) none (stream (rows ++ [row]) messageId) = .ok next) :
    run (step messageId) none (rowsOf rows messageId ++ [row]) = .ok next := by
  have hsplit : rowsOf (rows ++ [row]) messageId = rowsOf rows messageId ++ [row] := by
    rw [rowsOf_append, rowsOf_singleton hrow]
  have hperm : (stream (rows ++ [row]) messageId).Perm (rowsOf rows messageId ++ [row]) :=
    hsplit ▸ List.mergeSort_perm _ _
  have hsequences := stream_sequences hold
  have hmem : row.sequence ∈ List.range' 1 ((rowsOf rows messageId).length + 1) := by
    have hlength := hperm.length_eq
    rw [List.length_append, List.length_singleton] at hlength
    rw [← hlength, ← stream_sequences h]
    exact List.mem_map_of_mem (hperm.mem_iff.mpr (by simp))
  have hnotin : row.sequence ∉ List.range' 1 (rowsOf rows messageId).length := by
    rw [← hsequences]
    intro hin
    obtain ⟨other, hother, heq⟩ := List.mem_map.mp hin
    exact hnew other hother heq
  have hlast : row.sequence = (rowsOf rows messageId).length + 1 := by
    simp only [List.mem_range'_1] at hmem hnotin
    omega
  have hsorted : (rowsOf rows messageId ++ [row]).Pairwise fun a b =>
      decide (a.sequence ≤ b.sequence) = true := by
    have hall : ((rowsOf rows messageId ++ [row]).map Row.sequence).Pairwise (· ≤ ·) := by
      have hconcat : List.range' 1 ((rowsOf rows messageId).length + 1) =
          List.range' 1 (rowsOf rows messageId).length ++ [(rowsOf rows messageId).length + 1] := by
        rw [List.range'_concat, Nat.one_mul, Nat.add_comm 1]
      rw [List.map_append, hsequences, List.map_singleton, hlast, ← hconcat]
      exact List.pairwise_le_range'
    rw [List.pairwise_map] at hall
    exact hall.imp fun hle => by simpa using hle
  rwa [stream, hsplit, List.mergeSort_of_pairwise hsorted] at h

/-- The rows of a stream name the parties of its message, and one of them enqueues it. -/
theorem stream_parties {list : List Row} (h : run (step messageId) none list = .ok state) :
    ∀ s ∈ state, (∃ row ∈ list, row.eventType = .enqueued) ∧
      ∀ row ∈ list, row.senderId = s.message.senderId ∧
        row.idempotencyKey = s.message.idempotencyKey := by
  refine run_history (P := fun past state => ∀ s ∈ state, (∃ row ∈ past, row.eventType = .enqueued) ∧
    ∀ row ∈ past, row.senderId = s.message.senderId ∧
      row.idempotencyKey = s.message.idempotencyKey) (by simp) ?_ h
  intro past state row next hpast hstate hstep s hs
  obtain ⟨s', happly, hnext⟩ := bind_eq_ok_iff.mp hstep
  obtain rfl := Except.ok.inj hnext
  obtain rfl := Option.mem_some_iff.mp hs
  simp only [List.mem_append, List.mem_singleton]
  cases state with
  | none =>
      have hnil : past = [] := List.length_eq_zero_iff.mp (stream_state hpast).1.symm
      obtain ⟨htype, message, expiresAt, -, -, hsender, hkey, -, -, rfl⟩ := applyEvent_none happly
      refine ⟨⟨row, .inr rfl, htype⟩, ?_⟩
      rintro other (hother | rfl)
      · simp [hnil] at hother
      · exact ⟨hsender, hkey⟩
  | some before =>
      obtain ⟨to_, -, -, hsender, hkey, rfl⟩ := applyEvent_some happly
      obtain ⟨⟨first, hfirst, htype⟩, hall⟩ := hstate before rfl
      refine ⟨⟨first, .inl hfirst, htype⟩, ?_⟩
      rintro other (hother | rfl)
      · exact hall other hother
      · exact ⟨hsender, hkey⟩

/-! ## The mailbox of a table -/

/-- The rows of each message of the mailbox fold to it, and there are no others. -/
structure Stores (rows : List Row) (box : List MessageState) : Prop where
  ids : messageIds rows = box.map (·.message.messageId)
  streams : ∀ s ∈ box,
    run (step s.message.messageId) none (rowsOf rows s.message.messageId) = .ok (some s)
  length : rows.length = (box.map MessageState.version).sum

variable {box : List MessageState} {s : MessageState}

theorem Stores.nil : Stores [] [] :=
  ⟨rfl, by simp, rfl⟩

namespace Stores

theorem exists_of_row (h : Stores rows box) {row : Row} (hrow : row ∈ rows) :
    ∃ s ∈ box, s.message.messageId = row.messageId := by
  have hid : row.messageId ∈ messageIds rows := mem_unique.mpr (List.mem_map_of_mem hrow)
  rw [h.ids] at hid
  exact List.mem_map.mp hid

theorem rowsOf_eq_nil (h : Stores rows box) (hid : ∀ s ∈ box, s.message.messageId ≠ messageId) :
    rowsOf rows messageId = [] := by
  apply List.filter_eq_nil_iff.mpr
  intro row hrow
  obtain ⟨s, hs, heq⟩ := h.exists_of_row hrow
  simpa using heq ▸ hid s hs

theorem consistent (h : Stores rows box) (hs : s ∈ box) : s.Consistent :=
  ((stream_state (h.streams s hs)).2 s rfl).1

theorem version_eq (h : Stores rows box) (hs : s ∈ box) :
    s.version = (rowsOf rows s.message.messageId).length :=
  (stream_state (h.streams s hs)).1

/-- Reading a stored message. -/
theorem read (h : Stores rows box) (hs : s ∈ box) :
    readUnsafe rows s.message.messageId = .ok (some s) := by
  have hid := (h.consistent hs).message.messageId
  rw [readUnsafe, identifier, if_pos hid]
  change run _ none (stream rows _) = _
  rw [stream_eq (h.streams s hs)]
  exact h.streams s hs

/-- Reading a message that is not stored. -/
theorem read_absent (h : Stores rows box) (hid : ∀ s ∈ box, s.message.messageId ≠ messageId)
    (hidentifier : isIdentifierText messageId = true) : readUnsafe rows messageId = .ok none := by
  rw [readUnsafe, identifier, if_pos hidentifier]
  change run _ none (stream rows _) = _
  rw [stream, h.rowsOf_eq_nil hid, List.mergeSort_nil, run_nil]

theorem states (h : Stores rows box) (hsize : box.length ≤ maxMessages) :
    statesUnsafe rows = .ok box := by
  have hmapM : (box.map (·.message.messageId)).mapM (readUnsafe rows) = .ok (box.map some) := by
    rw [List.mapM_map]
    exact mapM_eq_ok_map fun s hs => h.read hs
  have hbound : decide (maxMessages < (box.map (·.message.messageId)).length) = false := by
    simpa using hsize
  simp only [statesUnsafe, h.ids, hmapM, hbound]
  change Except.ok ((box.map some).filterMap id) = _
  rw [List.filterMap_map, Function.id_comp, List.filterMap_some]

end Stores

end Hseos.Messages
