import Hseos.Messages.Table
import Mathlib.Algebra.Order.BigOperators.Group.List

/-! # Writing to a table

What each write of the store does to the mailbox that the table holds: a transition
moves one message, the start of a transaction expires the messages that are due, and
the end of a send adds one message within the bounds.
-/

namespace Hseos.Messages

open MessageState

variable {limits : Limits} {rows next : List Row} {box before after : List MessageState}
  {s state : MessageState} {to_ : Transition} {now : Moment}

/-! ## Inserting rows -/

theorem insert_eq_ok_iff {row : Row} :
    insert rows row = .ok next ↔
      (∀ other ∈ rows, other.messageId = row.messageId → other.sequence ≠ row.sequence) ∧
      (row.eventType = .enqueued → ∀ other ∈ rows, other.eventType = .enqueued →
        other.senderId = row.senderId → other.idempotencyKey ≠ row.idempotencyKey) ∧
      next = rows ++ [{ row with position := rows.length + 1 }] := by
  unfold insert
  simp only [bind_eq_ok_iff, reject_eq_ok_iff, Except.ok.injEq, Bool.and_eq_false_iff,
    List.any_eq_false, Bool.and_eq_true, decide_eq_true_eq, decide_eq_false_iff_not]
  constructor
  · rintro ⟨-, hsequence, -, hkey, rfl⟩
    refine ⟨fun other hother hid heq => hsequence other hother ⟨hid, heq⟩, ?_, rfl⟩
    intro htype other hother hother' hsender heq
    rcases hkey with hkey | hkey
    · exact hkey htype
    · exact hkey other hother ⟨⟨hother', hsender⟩, heq⟩
  · rintro ⟨hsequence, hkey, rfl⟩
    refine ⟨(), fun other hother h => hsequence other hother h.1 h.2, (), ?_, rfl⟩
    by_cases htype : row.eventType = .enqueued
    · exact .inr fun other hother h => hkey htype other hother h.1.1 h.1.2 h.2
    · exact .inl htype

namespace Stores

theorem find_eq (h : Stores rows box) (hkept : Kept limits box) (hs : s ∈ box) :
    findByIdempotencyUnsafe rows s.message.senderId s.message.idempotencyKey = .ok (some s) := by
  obtain ⟨⟨row, hrow, htype⟩, hall⟩ := stream_parties (h.streams s hs) s rfl
  obtain ⟨hsender, hkey⟩ := hall row hrow
  unfold findByIdempotencyUnsafe
  split
  next found hfound =>
    have hcheck := List.find?_some hfound
    simp only [Bool.and_eq_true, decide_eq_true_eq] at hcheck
    obtain ⟨other, hother, hid⟩ := h.exists_of_row (List.mem_of_find?_eq_some hfound)
    have hparties := (stream_parties (h.streams other hother) other rfl).2 found
      (List.mem_filter.mpr ⟨List.mem_of_find?_eq_some hfound, by simp [hid]⟩)
    -- Two messages with one sender and key are one message.
    have hsame : other = s := by
      apply List.inj_on_of_nodup_map hkept.keys hother hs
      simp only [← hparties.1, ← hparties.2, hcheck.1.2, hcheck.2]
    rw [← hid, hsame]
    exact h.read hs
  next hnone =>
    have hmem := (List.mem_filter.mp hrow).1
    have := List.find?_eq_none.mp hnone row hmem
    simp [htype, hsender, hkey] at this

/-- A row that moves one message leaves the others as they are. -/
theorem append_moved {row : Row} (h : Stores rows (before ++ s :: after))
    (hkept : Kept limits (before ++ s :: after)) (hrow : row.messageId = s.message.messageId)
    (hstep : applyEvent s.message.messageId (some s) row = .ok (s.moved to_ now)) :
    Stores (rows ++ [row]) (before ++ s.moved to_ now :: after) := by
  have hmem : s ∈ before ++ s :: after := by simp
  have hold : row.messageId ∈ rows.map Row.messageId := by
    rw [← mem_unique]
    change _ ∈ messageIds rows
    rw [h.ids, hrow]
    exact List.mem_map_of_mem hmem
  refine ⟨?_, ?_, ?_⟩
  · rw [messageIds, List.map_append, unique_append_of_subset (by simpa using hold)]
    change messageIds rows = _
    rw [h.ids]
    simp
  · intro other hother
    by_cases hid : other.message.messageId = s.message.messageId
    · have hother' : other = s.moved to_ now := by
        have hids : ((before ++ s.moved to_ now :: after).map (·.message.messageId)).Nodup := by
          simpa using hkept.ids
        exact List.inj_on_of_nodup_map hids hother (by simp) (by simpa using hid)
      rw [hid, rowsOf_append, rowsOf_singleton hrow, run_snoc_eq_ok_iff]
      refine ⟨some s, h.streams s hmem, ?_⟩
      rw [step, hstep, hother']
      rfl
    · have hold : other ∈ before ++ s :: after := by
        simp only [List.mem_append, List.mem_cons] at hother ⊢
        rcases hother with hother | rfl | hother
        · exact .inl hother
        · exact absurd rfl hid
        · exact .inr (.inr hother)
      rw [rowsOf_append, rowsOf_singleton_of_ne (hrow ▸ Ne.symm hid), List.append_nil]
      exact h.streams other hold
  · have hlength := h.length
    simp only [List.map_append, List.map_cons, List.sum_append, List.sum_cons, List.length_append,
      List.length_singleton, moved_version] at hlength ⊢
    omega

end Stores

/-! ## Transitions -/

theorem boundedReason_expectedReason (to_ : Transition) :
    boundedReason to_.expectedReason = .ok to_.expectedReason := by
  cases to_ <;> decide +kernel

/-- The row of a move is accepted. -/
theorem applyEvent_of_moves {position : Nat} (hs : s.Consistent) (h : s.Moves to_ now)
    (hposition : 1 ≤ position ∧ position ≤ maxSafeInteger) :
    applyEvent s.message.messageId (some s)
        { transitionRow s to_ to_.expectedReason now with position := position } =
      .ok (s.moved to_ now) := by
  have hversion : s.version + 1 ≤ maxSafeInteger := by
    have := hs.version_le
    simp only [maxSafeInteger]
    omega
  have hside : (if to_ = .expired then !decide (s.expiresAt.ms ≤ now.ms)
      else decide (s.expiresAt.ms ≤ now.ms)) = false := by
    by_cases hto : to_ = .expired
    · simpa [hto] using h.side.mp hto
    · simpa [hto] using mt h.side.mpr hto
  have hordered : decide (now.ms < s.lastOccurredAt.ms) = false := by simpa using h.ordered
  have hsequence : decide (s.version + 1 < 1) = false := by simp
  have hsafe : decide (maxSafeInteger < s.version + 1) = false := by simpa using hversion
  unfold applyEvent applyTransition applyStatus
  simp only [transitionRow, bind_eq_ok_iff, reject_eq_ok_iff, identifier_eq_ok_iff,
    boundedReason_expectedReason, Except.ok.injEq, Bool.or_eq_false_iff, decide_eq_false_iff_not,
    versionOf, Option.map_some, Option.getD_some, Option.any_some, not_lt, ne_eq, not_not,
    Bool.not_eq_false', h.unacknowledged, h.allowed]
  refine ⟨(), ⟨⟨hposition, hsequence⟩, hsafe⟩, _, ⟨hs.message.messageId, rfl⟩, _,
    ⟨hs.message.senderId, rfl⟩, _, ⟨hs.message.recipientId, rfl⟩, _, ⟨hs.message.idempotencyKey, rfl⟩,
    (), ⟨⟨trivial, trivial⟩, hordered⟩, _, rfl, (), ⟨⟨⟨trivial, trivial⟩, trivial⟩, trivial⟩, (),
    ⟨rfl, hside⟩, (), trivial, ?_⟩
  simp [MessageState.moved, h.unacknowledged]

/-- A transition that the store accepts is a move of the message that it names. -/
theorem transitionUnsafe_eq_ok {reason : String} {found : Option MessageState}
    (h : Stores rows (before ++ s :: after)) (hkept : Kept limits (before ++ s :: after))
    (hid : s.message.messageId = state.message.messageId)
    (hout : transitionUnsafe rows state to_ reason now = .ok (found, next)) :
    s.Moves to_ now ∧ found = some (s.moved to_ now) ∧
      Stores next (before ++ s.moved to_ now :: after) := by
  have hmem : s ∈ before ++ s :: after := by simp
  simp only [transitionUnsafe, bind_eq_ok_iff, Except.ok.injEq, Prod.mk.injEq] at hout
  obtain ⟨text, -, mid, hinsert, found', hread, rfl, rfl⟩ := hout
  obtain ⟨hnew, -, rfl⟩ := insert_eq_ok_iff.mp hinsert
  set row : Row := { transitionRow state to_ text now with position := rows.length + 1 } with hrow
  have hrowId : row.messageId = s.message.messageId := hid.symm
  obtain ⟨_, -, hrun⟩ := bind_eq_ok_iff.mp hread
  simp only [readUnsafe, bind_eq_ok_iff, identifier_eq_ok_iff] at hread
  obtain ⟨_, ⟨-, rfl⟩, hrun⟩ := hread
  rw [← hid] at hrun
  have hold := h.streams s hmem
  have haccepted := stream_insert hrowId ?_ hold hrun
  · obtain ⟨mid, hmid, hstep⟩ := run_snoc_eq_ok_iff.mp haccepted
    obtain rfl : mid = some s := Except.ok.inj (hmid.symm.trans hold)
    obtain ⟨s', happly, hfound⟩ := bind_eq_ok_iff.mp hstep
    obtain ⟨to', htype, hmoves, -, -, rfl⟩ := applyEvent_some happly
    obtain rfl : to_ = to' := by simpa [hrow, transitionRow] using htype
    exact ⟨hmoves, (Except.ok.inj hfound).symm, h.append_moved hkept hrowId happly⟩
  · intro other hother
    obtain ⟨hother, hotherId⟩ := List.mem_filter.mp hother
    exact hnew other hother ((of_decide_eq_true hotherId).trans hid)

/-- A table is too small for its positions to leave the safe integers. -/
theorem Stores.length_le (h : Stores rows box) (hkept : Kept limits box) : rows.length ≤ 40000 := by
  have hversions : ∀ version ∈ box.map MessageState.version, version ≤ 4 := by
    intro version hversion
    obtain ⟨s, hs, rfl⟩ := List.mem_map.mp hversion
    exact (h.consistent hs).version_le
  calc rows.length = (box.map MessageState.version).sum := h.length
    _ ≤ (box.map MessageState.version).length • 4 := List.sum_le_card_nsmul _ _ hversions
    _ = box.length * 4 := by rw [List.length_map]; rfl
    _ ≤ 40000 := Nat.mul_le_mul_right 4 hkept.size

/-- A message makes every move that it may make. -/
theorem transitionUnsafe_of_moves (h : Stores rows (before ++ s :: after))
    (hkept : Kept limits (before ++ s :: after)) (hmoves : s.Moves to_ now) :
    ∃ next, transitionUnsafe rows s to_ to_.expectedReason now = .ok (some (s.moved to_ now), next) ∧
      Stores next (before ++ s.moved to_ now :: after) := by
  have hmem : s ∈ before ++ s :: after := by simp
  have hs := h.consistent hmem
  have hposition : 1 ≤ rows.length + 1 ∧ rows.length + 1 ≤ maxSafeInteger := by
    have := h.length_le hkept
    simp only [maxSafeInteger]
    omega
  set row : Row := { transitionRow s to_ to_.expectedReason now with position := rows.length + 1 }
    with hrow
  have hrowId : row.messageId = s.message.messageId := rfl
  have happly := applyEvent_of_moves hs hmoves hposition
  have hstores := h.append_moved hkept hrowId happly
  have hread := hstores.read (s := s.moved to_ now) (by simp)
  have hinsert : insert rows (transitionRow s to_ to_.expectedReason now) = .ok (rows ++ [row]) := by
    refine insert_eq_ok_iff.mpr ⟨?_, nofun, rfl⟩
    intro other hother hid
    have hin : other.sequence ∈ (rowsOf rows s.message.messageId).map Row.sequence :=
      List.mem_map_of_mem (List.mem_filter.mpr ⟨hother, decide_eq_true hid⟩)
    rw [stream_sequences (h.streams s hmem), List.mem_range'_1, ← h.version_eq hmem] at hin
    simp only [transitionRow]
    omega
  rw [moved_message] at hread
  refine ⟨rows ++ [row], ?_, hstores⟩
  simp only [transitionUnsafe, boundedReason_expectedReason, bind, Except.bind, hinsert, hread]

/-! ## Expiry -/

/-- A message after the start of a transaction. -/
def MessageState.expireAt (s : MessageState) (now : Moment) : MessageState :=
  if s.isDue now then s.moved .expired now else s

theorem moves_of_isDue (hs : s.Consistent) (h : s.isDue now = true) : s.Moves .expired now := by
  simp only [isDue, isWaiting, Bool.and_eq_true, Bool.or_eq_true, decide_eq_true_eq,
    Bool.not_eq_true'] at h
  obtain ⟨⟨hstatus, hunacknowledged⟩, hexpired⟩ := h
  -- A message that has not expired was last touched before its expiry.
  have hbefore : s.lastOccurredAt.ms < s.expiresAt.ms := by
    by_contra hlate
    have := hs.side.mpr (not_lt.mp hlate)
    rcases hstatus with hstatus | hstatus <;> simp [hstatus] at this
  refine ⟨hunacknowledged, by omega, by simpa using hexpired, ?_⟩
  rcases hstatus with hstatus | hstatus <;> simp [Transition.allowed, hstatus]

theorem expireAt_message : (s.expireAt now).message = s.message := by
  unfold expireAt
  split <;> rfl

/-- The loop over the messages that are still to be looked at. -/
theorem expire_loop {done todo : List MessageState} (h : Stores rows (done ++ todo))
    (hkept : Kept limits (done ++ todo)) :
    ∃ next, todo.foldlM (expireOne now) rows = .ok next ∧
      Stores next (done ++ todo.map (·.expireAt now)) ∧
      Changes limits (done ++ todo) (done ++ todo.map (·.expireAt now)) := by
  induction todo generalizing done rows with
  | nil => exact ⟨rows, rfl, h, .refl⟩
  | cons s rest ih =>
      obtain ⟨mid, hmid, hstores, hchange⟩ : ∃ mid, expireOne now rows s = .ok mid ∧
          Stores mid (done ++ s.expireAt now :: rest) ∧
          Changes limits (done ++ s :: rest) (done ++ s.expireAt now :: rest) := by
        unfold expireOne MessageState.expireAt
        by_cases hdue : s.isDue now = true
        · have hmoves := moves_of_isDue (h.consistent (by simp)) hdue
          obtain ⟨mid, hmid, hstores⟩ := transitionUnsafe_of_moves h hkept hmoves
          simp only [hdue, if_true]
          exact ⟨mid, map_eq_ok_iff.mpr ⟨_, hmid, rfl⟩, hstores, .single (.moved hmoves)⟩
        · simp only [hdue]
          exact ⟨rows, rfl, h, .refl⟩
      have hsplit : done ++ s.expireAt now :: rest = (done ++ [s.expireAt now]) ++ rest := by simp
      obtain ⟨next, hnext, hout, hrest⟩ := ih (hsplit ▸ hstores) (hsplit ▸ hchange.kept hkept)
      refine ⟨next, ?_, by simpa using hout, hchange.trans ?_⟩
      · rw [List.foldlM_cons, hmid]
        exact hnext
      · simpa using hrest

/-- Expiry never fails, and it leaves no message in an inbox past its time. -/
theorem expireUnsafe_eq (now : Moment) (h : Stores rows box) (hkept : Kept limits box) :
    ∃ next, expireUnsafe rows now = .ok next ∧ Stores next (box.map (·.expireAt now)) ∧
      Changes limits box (box.map (·.expireAt now)) := by
  obtain ⟨next, hnext, hout⟩ : ∃ next, box.foldlM (expireOne now) rows = .ok next ∧
      Stores next ([] ++ box.map (·.expireAt now)) ∧
      Changes limits ([] ++ box) ([] ++ box.map (·.expireAt now)) := expire_loop h hkept
  refine ⟨next, ?_, hout⟩
  simp only [expireUnsafe, h.states hkept.size, bind, Except.bind]
  exact hnext

/-- The start of a transaction expires the messages that are due. -/
theorem enter_eq_ok (h : Stores rows box) (hkept : Kept limits box)
    (hout : enter rows now = .ok next) :
    Stores next (box.map (·.expireAt now)) ∧ Changes limits box (box.map (·.expireAt now)) := by
  obtain ⟨_, -, hexpire⟩ := bind_eq_ok_iff.mp hout
  obtain ⟨next', hnext, hstores⟩ := expireUnsafe_eq now h hkept
  obtain rfl := Except.ok.inj (hnext.symm.trans hexpire)
  exact hstores

/-! ## Sending -/

theorem enforceBounds_eq_ok_iff {message : Message} {u : Unit} (h : Stores rows box)
    (hkept : Kept limits box) :
    enforceBounds limits message now rows = .ok u ↔
      box.length < maxMessages ∧
      box.countP (·.isRecent message.senderId (now.ms - limits.rateWindowMs)) < limits.rateLimit ∧
      box.countP (·.isFor message.recipientId) < limits.maxInbox := by
  unfold enforceBounds
  rw [h.states hkept.size]
  simp only [bind_eq_ok_iff, Except.ok.injEq, reject_eq_ok_iff, decide_eq_false_iff_not, not_le,
    exists_eq_left', List.countP_eq_length_filter, exists_const]

/-- Two accepted rows of a message that is not in the table. -/
theorem Stores.append_sent {messageId : String} {first second : Row} (h : Stores rows box)
    (hid : ∀ other ∈ box, other.message.messageId ≠ messageId) (hfirst : first.messageId = messageId)
    (hsecond : second.messageId = messageId)
    (hrun : run (step messageId) none [first, second] = .ok (some s)) :
    Stores (rows ++ [first, second]) (box ++ [s]) := by
  obtain ⟨hversion, hs⟩ := stream_state hrun
  have hsId := (hs s rfl).2
  have hids : unique [messageId, messageId] = [messageId] := by simp [unique]
  refine ⟨?_, ?_, ?_⟩
  · have hfresh : messageId ∉ rows.map Row.messageId := by
      rw [← mem_unique]
      change _ ∉ messageIds rows
      rw [h.ids]
      simpa using hid
    rw [messageIds, List.map_append, unique_append]
    change messageIds rows ++ _ = _
    rw [h.ids, List.map_cons, List.map_singleton, hfirst, hsecond, hids]
    have hfilter : [messageId].filter (· ∉ rows.map Row.messageId) = [messageId] := by
      rw [List.filter_singleton, decide_eq_true hfresh]
      rfl
    rw [hfilter, List.map_append, List.map_singleton, hsId]
  · intro other hother
    rw [rowsOf_append]
    rcases List.mem_append.mp hother with hother | hother
    · have hnone : rowsOf [first, second] other.message.messageId = [] := by
        simp [rowsOf, hfirst, hsecond, (hid other hother).symm]
      rw [hnone, List.append_nil]
      exact h.streams other hother
    · obtain rfl := List.mem_singleton.mp hother
      have hall : rowsOf [first, second] messageId = [first, second] := by
        simp [rowsOf, hfirst, hsecond]
      rw [hsId, h.rowsOf_eq_nil hid, List.nil_append, hall]
      exact hrun
  · have htwo : s.version = 2 := hversion
    simp [h.length, htwo]

/-- The end of a send that the store accepts adds one message. -/
theorem finishSend_eq_ok {message : Message} {decision : Decision} {found : Option MessageState}
    (h : Stores rows box) (hkept : Kept limits box)
    (hout : finishSend limits message now decision rows = .ok (found, next)) :
    ∃ s, found = some s ∧ s.message = message ∧ Stores next (box ++ [s]) ∧
      Change limits box (box ++ [s]) := by
  simp only [finishSend, bind_eq_ok_iff, reject_eq_ok_iff, Except.ok.injEq, Prod.mk.injEq] at hout
  obtain ⟨replay, hfind, -, hreplay, _, hbounds, expiresAt, -, mid, hfirst, last, hsecond, found',
    hread, rfl, rfl⟩ := hout
  obtain ⟨hsize, hrate, hinbox⟩ := (enforceBounds_eq_ok_iff h hkept).mp hbounds
  obtain ⟨hnew, -, rfl⟩ := insert_eq_ok_iff.mp hfirst
  obtain ⟨-, -, rfl⟩ := insert_eq_ok_iff.mp hsecond
  -- A stored message with this identifier would have a first row.
  have hid : ∀ other ∈ box, other.message.messageId ≠ message.messageId := by
    intro other hother heq
    have hsequences := stream_sequences (h.streams other hother)
    have hone : 1 ∈ (rowsOf rows other.message.messageId).map Row.sequence := by
      have := hkept.version other hother
      rw [hsequences, List.mem_range'_1, ← h.version_eq hother]
      omega
    obtain ⟨row, hrow, hrowOne⟩ := List.mem_map.mp hone
    obtain ⟨hrow, hrowId⟩ := List.mem_filter.mp hrow
    exact hnew row hrow ((of_decide_eq_true hrowId).trans heq) hrowOne
  have hkey : ∀ other ∈ box, other.message.senderId = message.senderId →
      other.message.idempotencyKey ≠ message.idempotencyKey := by
    intro other hother hsender hkey
    have hother' := h.find_eq hkept hother
    rw [hsender, hkey, hfind] at hother'
    simp [Except.ok.inj hother'] at hreplay
  set first : Row := { enqueueRow message now expiresAt with position := rows.length + 1 } with hfirst
  set second : Row := { decisionRow message now decision with
    position := (rows ++ [first]).length + 1 } with hsecond
  rw [List.append_assoc] at hread ⊢
  simp only [readUnsafe, bind_eq_ok_iff, identifier_eq_ok_iff] at hread
  obtain ⟨_, ⟨-, rfl⟩, hrun⟩ := hread
  have hfirstId : first.messageId = message.messageId := rfl
  have hsecondId : second.messageId = message.messageId := rfl
  have hstream : stream (rows ++ ([first] ++ [second])) message.messageId = [first, second] := by
    rw [stream, rowsOf_append, h.rowsOf_eq_nil hid, List.nil_append, rowsOf_append,
      rowsOf_singleton hfirstId, rowsOf_singleton hsecondId]
    apply List.mergeSort_of_pairwise
    simp [hfirst, hsecond, enqueueRow, decisionRow]
  rw [hstream] at hrun
  obtain ⟨s', s, rfl, hopened, happly⟩ : ∃ s' s, found' = some s ∧
      applyEvent message.messageId none first = .ok s' ∧
      applyEvent message.messageId (some s') second = .ok s := by
    simp only [run_cons, run_nil, step, bind_eq_ok_iff, Except.ok.injEq] at hrun
    obtain ⟨_, ⟨s', hopened, rfl⟩, _, ⟨s, happly, rfl⟩, rfl⟩ := hrun
    exact ⟨s', s, rfl, hopened, happly⟩
  obtain ⟨-, message', expiresAt', hwell, -, -, -, hexpires, hpayload, rfl⟩ := applyEvent_none hopened
  obtain ⟨rfl, -⟩ : message = message' ∧ expiresAt = expiresAt' := by
    simpa [hfirst, enqueueRow] using hpayload
  obtain ⟨to_, -, hmoves, -, -, rfl⟩ := applyEvent_some happly
  refine ⟨_, rfl, rfl, h.append_sent hid hfirstId hsecondId hrun, ?_⟩
  exact .sent ⟨(MessageState.Consistent.opened hwell hexpires).moved hmoves, rfl, rfl⟩ hid hkey hsize
    hrate hinbox

/-! ## Sends that are accepted -/

/-- Expiry leaves a mailbox alone in which no message is due. -/
theorem expireUnsafe_of_not_due (h : Stores rows box) (hkept : Kept limits box)
    (hdue : ∀ s ∈ box, s.isDue now = false) : expireUnsafe rows now = .ok rows := by
  have hloop : ∀ todo : List MessageState, (∀ s ∈ todo, s.isDue now = false) →
      todo.foldlM (expireOne now) rows = .ok rows := by
    intro todo htodo
    induction todo with
    | nil => rfl
    | cons s rest ih =>
        rw [List.foldlM_cons, expireOne, htodo s List.mem_cons_self]
        exact ih fun other hother => htodo other (List.mem_cons_of_mem _ hother)
  simp only [expireUnsafe, h.states hkept.size, bind, Except.bind]
  exact hloop box hdue

/-- There is room for a message in a mailbox. -/
structure Room (limits : Limits) (box : List MessageState) (message : Message) (now : Moment) :
    Prop where
  wellFormed : message.WellFormed
  id : ∀ other ∈ box, other.message.messageId ≠ message.messageId
  key : ∀ other ∈ box, other.message.senderId = message.senderId →
    other.message.idempotencyKey ≠ message.idempotencyKey
  size : box.length < maxMessages
  rate : box.countP (·.isRecent message.senderId (now.ms - limits.rateWindowMs)) < limits.rateLimit
  inbox : box.countP (·.isFor message.recipientId) < limits.maxInbox

variable {message : Message} {expiresAt : Moment}

theorem find_eq_none (h : Stores rows box) (hroom : Room limits box message now) :
    findByIdempotencyUnsafe rows message.senderId message.idempotencyKey = .ok none := by
  unfold findByIdempotencyUnsafe
  split
  next row hrow =>
    have hcheck := List.find?_some hrow
    simp only [Bool.and_eq_true, decide_eq_true_eq] at hcheck
    obtain ⟨s, hs, hid⟩ := h.exists_of_row (List.mem_of_find?_eq_some hrow)
    have hparties := (stream_parties (h.streams s hs) s rfl).2 row
      (List.mem_filter.mpr ⟨List.mem_of_find?_eq_some hrow, by simp [hid]⟩)
    exact absurd (hparties.2.symm.trans hcheck.2)
      (hroom.key s hs (hparties.1.symm.trans hcheck.1.2))
  next => rfl

theorem beginSend_of_room (h : Stores rows box) (hkept : Kept limits box)
    (hroom : Room limits box message now) (hdue : ∀ s ∈ box, s.isDue now = false)
    (htime : assertStoreTimeUnsafe rows now = .ok ()) :
    beginSend limits message now rows = .ok (none, rows) := by
  have hbounds : enforceBounds limits message now rows = .ok () :=
    (enforceBounds_eq_ok_iff h hkept).mpr ⟨hroom.size, hroom.rate, hroom.inbox⟩
  simp [beginSend, enter, htime, expireUnsafe_of_not_due h hkept hdue, find_eq_none h hroom, hbounds,
    bind, Except.bind]

theorem applyEvent_enqueueRow {position : Nat} (hwell : message.WellFormed)
    (hexpires : expiresAt.ms = now.ms + message.ttlMs)
    (hposition : 1 ≤ position ∧ position ≤ maxSafeInteger) :
    applyEvent message.messageId none { enqueueRow message now expiresAt with position := position } =
      .ok (opened message now expiresAt) := by
  have hsafe : ¬ maxSafeInteger < 1 := by decide
  unfold applyEvent applyEnqueued
  simp only [enqueueRow, bind_eq_ok_iff, reject_eq_ok_iff, identifier_eq_ok_iff,
    parseSend_eq_ok_iff, Except.ok.injEq]
  refine ⟨(), ?_, _, ⟨hwell.messageId, rfl⟩, _, ⟨hwell.senderId, rfl⟩, _, ⟨hwell.recipientId, rfl⟩,
    _, ⟨hwell.idempotencyKey, rfl⟩, (), ?_, (), rfl, message, ⟨hwell, rfl⟩, (), ?_, rfl⟩
  · simp [hposition.2, hsafe, Nat.ne_of_gt hposition.1]
  · simp [versionOf]
  · simp [hexpires]

/-- A send for which there is room is accepted. -/
theorem finishSend_of_room {decision : Decision} (h : Stores rows box) (hkept : Kept limits box)
    (hroom : Room limits box message now) (hexpires : expiresAt.ms = now.ms + message.ttlMs) :
    ∃ first second, first.occurredAt = now ∧ second.occurredAt = now ∧
      finishSend limits message now decision rows =
        .ok (some ((opened message now expiresAt).moved decision.transition now),
          rows ++ [first, second]) := by
  have hlength := h.length_le hkept
  set first : Row := { enqueueRow message now expiresAt with position := rows.length + 1 } with hfirst
  set second : Row := { decisionRow message now decision with
    position := (rows ++ [first]).length + 1 } with hsecond
  have hnone : ∀ other ∈ rows, other.messageId ≠ message.messageId := by
    intro row hrow hid
    obtain ⟨s, hs, heq⟩ := h.exists_of_row hrow
    exact hroom.id s hs (heq.trans hid)
  have hopened : applyEvent message.messageId none first = .ok (opened message now expiresAt) :=
    applyEvent_enqueueRow hroom.wellFormed hexpires (by simp only [maxSafeInteger]; omega)
  have hmoves : (opened message now expiresAt).Moves decision.transition now := by
    have httl := hroom.wellFormed.ttl
    refine ⟨rfl, le_rfl, ?_, by cases decision <;> rfl⟩
    have hnot : ¬ (opened message now expiresAt).expiresAt.ms ≤ now.ms := by
      simp only [opened]
      omega
    cases decision <;> simp [Decision.transition, hnot]
  have hmoved : applyEvent message.messageId (some (opened message now expiresAt)) second =
      .ok ((opened message now expiresAt).moved decision.transition now) := by
    have hreason : "inbound_" ++ decision.text = decision.transition.expectedReason := by
      cases decision <;> decide +kernel
    have hposition : 1 ≤ (rows ++ [first]).length + 1 ∧ (rows ++ [first]).length + 1 ≤ maxSafeInteger := by
      simp only [List.length_append, List.length_singleton, maxSafeInteger]
      omega
    have := applyEvent_of_moves (.opened hroom.wellFormed hexpires) hmoves hposition
    rwa [← hreason] at this
  have hrun : run (step message.messageId) none [first, second] =
      .ok (some ((opened message now expiresAt).moved decision.transition now)) := by
    simp only [run_cons, run_nil, step, hopened, hmoved, bind, Except.bind]
  have hinsert : insert rows (enqueueRow message now expiresAt) = .ok (rows ++ [first]) := by
    refine insert_eq_ok_iff.mpr ⟨fun other hother hid => absurd hid (hnone other hother), ?_, rfl⟩
    intro _ other hother htype hsender hkey
    obtain ⟨s, hs, hid⟩ := h.exists_of_row hother
    have hparties := (stream_parties (h.streams s hs) s rfl).2 other
      (List.mem_filter.mpr ⟨hother, by simp [hid]⟩)
    exact hroom.key s hs (hparties.1.symm.trans hsender) (hparties.2.symm.trans hkey)
  have hinsert' : insert (rows ++ [first]) (decisionRow message now decision) =
      .ok (rows ++ [first] ++ [second]) := by
    refine insert_eq_ok_iff.mpr ⟨?_, fun hkind => (by cases hkind), rfl⟩
    intro other hother hid
    rcases List.mem_append.mp hother with hother | hother
    · exact absurd hid (hnone other hother)
    · obtain rfl := List.mem_singleton.mp hother
      simp [hfirst, enqueueRow, decisionRow]
  have hfirstId : first.messageId = message.messageId := rfl
  have hsecondId : second.messageId = message.messageId := rfl
  have hstores := h.append_sent hroom.id hfirstId hsecondId hrun
  have hread : readUnsafe (rows ++ [first, second]) message.messageId =
      .ok (some ((opened message now expiresAt).moved decision.transition now)) :=
    hstores.read (s := (opened message now expiresAt).moved decision.transition now) (by simp)
  have hbounds : enforceBounds limits message now rows = .ok () :=
    (enforceBounds_eq_ok_iff h hkept).mpr ⟨hroom.size, hroom.rate, hroom.inbox⟩
  have hadd : addMilliseconds now message.ttlMs = .ok expiresAt := by
    obtain ⟨ms, hdate⟩ := expiresAt
    simp only at hexpires
    subst hexpires
    simp [addMilliseconds, hdate]
  refine ⟨first, second, rfl, rfl, ?_⟩
  simp [finishSend, find_eq_none h hroom, hbounds, hadd, hinsert, hinsert', hread, bind, Except.bind,
    reject]

end Hseos.Messages
