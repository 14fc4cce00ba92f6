import Hseos.Messages.Stream

/-! # The life of a message

What each accepted event does to a message, and what holds of the state of every
accepted stream: the version counts its events, and its times, reason and status
agree with each other.
-/

namespace Hseos.Messages

namespace MessageState

/-- A message that was enqueued. -/
def opened (message : Message) (createdAt expiresAt : Moment) : MessageState where
  message := message
  version := 1
  createdAt := createdAt
  expiresAt := expiresAt
  status := .enqueued
  acknowledged := false
  reason := none
  lastOccurredAt := createdAt

/-- A message after a transition. -/
def moved (s : MessageState) (to_ : Transition) (time : Moment) : MessageState :=
  { s with
    status := to_.next s.status
    acknowledged := s.acknowledged || to_ = .acknowledged
    reason := some to_.expectedReason
    version := s.version + 1
    lastOccurredAt := time }

section

variable (s : MessageState) (to_ : Transition) (time : Moment)

@[simp] theorem moved_message : (s.moved to_ time).message = s.message := rfl

@[simp] theorem moved_version : (s.moved to_ time).version = s.version + 1 := rfl

@[simp] theorem moved_createdAt : (s.moved to_ time).createdAt = s.createdAt := rfl

@[simp] theorem moved_expiresAt : (s.moved to_ time).expiresAt = s.expiresAt := rfl

@[simp] theorem moved_lastOccurredAt : (s.moved to_ time).lastOccurredAt = time := rfl

@[simp] theorem moved_status : (s.moved to_ time).status = to_.next s.status := rfl

@[simp] theorem moved_acknowledged :
    (s.moved to_ time).acknowledged = (s.acknowledged || to_ = .acknowledged) := rfl

end

/-- A transition that a message may make at a time. -/
structure Moves (s : MessageState) (to_ : Transition) (time : Moment) : Prop where
  unacknowledged : s.acknowledged = false
  ordered : s.lastOccurredAt.ms ≤ time.ms
  side : to_ = .expired ↔ s.expiresAt.ms ≤ time.ms
  allowed : to_.allowed s.status = true

end MessageState

open MessageState

/-! ## Accepted events -/

section

variable {messageId : String} {s s' : MessageState} {row : Row}

/-- The place of a row in the stream of its message. -/
theorem place_of_applyEvent {state : Option MessageState}
    (h : applyEvent messageId state row = .ok s') :
    row.messageId = messageId ∧ row.sequence = versionOf state + 1 ∧
      row.position ≤ maxSafeInteger := by
  unfold applyEvent at h
  simp only [bind_eq_ok_iff, reject_eq_ok_iff, Bool.or_eq_false_iff, decide_eq_false_iff_not,
    not_lt, ne_eq, not_not] at h
  obtain ⟨-, ⟨⟨⟨-, hposition⟩, -⟩, -⟩, -, -, -, -, -, -, -, -, -, ⟨⟨hsequence, hid⟩, -⟩, -⟩ := h
  exact ⟨hid, hsequence, hposition⟩

theorem applyEvent_none (h : applyEvent messageId none row = .ok s') :
    row.eventType = .enqueued ∧ ∃ message expiresAt, message.WellFormed ∧
      message.messageId = messageId ∧ row.senderId = message.senderId ∧
      row.idempotencyKey = message.idempotencyKey ∧
      expiresAt.ms = row.occurredAt.ms + message.ttlMs ∧
      row.payload = .enqueue message row.occurredAt expiresAt ∧
      s' = opened message row.occurredAt expiresAt := by
  obtain ⟨hid, hsequence, -⟩ := place_of_applyEvent h
  unfold applyEvent at h
  simp only [bind_eq_ok_iff, reject_eq_ok_iff] at h
  obtain ⟨-, -, -, -, -, -, -, -, -, -, -, -, h⟩ := h
  split at h
  next htype =>
    refine ⟨htype, ?_⟩
    simp only [applyEnqueued] at h
    obtain ⟨-, -, h⟩ := bind_eq_ok_iff.mp h
    split at h
    next => cases h
    next payload createdAt expiresAt hpayload =>
      simp only [bind_eq_ok_iff, reject_eq_ok_iff, parseSend_eq_ok_iff, Bool.or_eq_false_iff,
        decide_eq_false_iff_not, ne_eq, not_not, Except.ok.injEq] at h
      obtain ⟨message, ⟨hwell, rfl⟩, -, ⟨⟨⟨⟨⟨rfl, hexpires⟩, hmessage⟩, hsender⟩, -⟩, hkey⟩, rfl⟩ := h
      refine ⟨message, expiresAt, hwell, hmessage.symm.trans hid, hsender, hkey, hexpires, hpayload, ?_⟩
      simp [opened, hsequence, versionOf]
  next =>
    simp only [applyTransition] at h
    split at h
    · cases h
    · obtain ⟨-, -, h⟩ := bind_eq_ok_iff.mp h
      cases h

theorem applyEvent_some (h : applyEvent messageId (some s) row = .ok s') :
    ∃ to_, row.eventType = .transition to_ ∧ s.Moves to_ row.occurredAt ∧
      row.senderId = s.message.senderId ∧ row.idempotencyKey = s.message.idempotencyKey ∧
      s' = s.moved to_ row.occurredAt := by
  have hsequence := (place_of_applyEvent h).2.1
  unfold applyEvent at h
  simp only [bind_eq_ok_iff, reject_eq_ok_iff, Bool.or_eq_false_iff, Option.any_some,
    decide_eq_false_iff_not, not_lt] at h
  obtain ⟨-, -, -, -, -, -, -, -, -, -, -, ⟨-, hordered⟩, h⟩ := h
  split at h
  next =>
    obtain ⟨_, hnew, _⟩ := bind_eq_ok_iff.mp h
    simp at hnew
  next =>
    simp only [applyTransition] at h
    split at h
    next => cases h
    next text _ =>
      obtain ⟨reason, -, h⟩ := bind_eq_ok_iff.mp h
      simp only [applyStatus] at h
      obtain ⟨_, hidentity, h⟩ := bind_eq_ok_iff.mp h
      split at h
      next to_ htype =>
        simp only [bind_eq_ok_iff, reject_eq_ok_iff, Bool.or_eq_false_iff, decide_eq_false_iff_not,
          ne_eq, not_not, Bool.not_eq_false', Except.ok.injEq] at h hidentity
        obtain ⟨-, ⟨rfl, hside⟩, -, hallowed, rfl⟩ := h
        obtain ⟨⟨⟨hunacknowledged, hsender⟩, -⟩, hkey⟩ := hidentity
        refine ⟨to_, htype, ⟨hunacknowledged, hordered, ?_, hallowed⟩, hsender, hkey, ?_⟩
        · split at hside
          next hto => simpa [hto] using hside
          next hto => simpa [hto] using hside
        · rw [hsequence]
          rfl
      next => cases h

end

/-! ## Accepted streams -/

/-- The reason that a status is reached for. -/
def reasonOf (s : MessageState) : Option String :=
  if s.acknowledged then some Transition.acknowledged.expectedReason
  else
    match s.status with
    | .enqueued => none
    | .delivered => some Transition.delivered.expectedReason
    | .held => some Transition.held.expectedReason
    | .refused => some Transition.refused.expectedReason
    | .expired => some Transition.expired.expectedReason

/-- The versions at which a message has a status. -/
def versionBounds (s : MessageState) : Nat × Nat :=
  match s.status with
  | .enqueued => (1, 1)
  | .held => (2, 2)
  | .delivered => if s.acknowledged then (3, 4) else (2, 3)
  | .refused => (2, 3)
  | .expired => (3, 4)

/-- What holds of the state of every accepted stream. -/
structure MessageState.Consistent (s : MessageState) : Prop where
  message : s.message.WellFormed
  expires : s.expiresAt.ms = s.createdAt.ms + s.message.ttlMs
  side : s.status = .expired ↔ s.expiresAt.ms ≤ s.lastOccurredAt.ms
  acknowledged : s.acknowledged = true → s.status = .delivered
  reason : s.reason = reasonOf s
  version : (versionBounds s).1 ≤ s.version ∧ s.version ≤ (versionBounds s).2

theorem MessageState.Consistent.version_le {s : MessageState} (h : s.Consistent) : s.version ≤ 4 := by
  refine h.version.2.trans ?_
  unfold versionBounds
  cases s.status <;> simp
  split <;> decide

theorem MessageState.Consistent.opened {message : Message} {createdAt expiresAt : Moment}
    (hwell : message.WellFormed) (hexpires : expiresAt.ms = createdAt.ms + message.ttlMs) :
    (MessageState.opened message createdAt expiresAt).Consistent where
  message := hwell
  expires := hexpires
  side := by
    have := hwell.ttl
    simp only [MessageState.opened, reduceCtorEq, false_iff]
    omega
  acknowledged := nofun
  reason := rfl
  version := ⟨le_rfl, le_rfl⟩

/-- A transition of a consistent message leaves it consistent. -/
theorem MessageState.Consistent.moved {s : MessageState} {to_ : Transition} {time : Moment}
    (hs : s.Consistent) (h : s.Moves to_ time) : (s.moved to_ time).Consistent := by
  obtain ⟨hunacknowledged, hordered, hside, hallowed⟩ := h
  have hversion := hs.version
  refine ⟨hs.message, hs.expires, ?_, ?_, ?_, ?_⟩
  · rw [moved_status, moved_expiresAt, moved_lastOccurredAt, ← hside]
    cases to_ with
    | acknowledged =>
        have hdelivered : s.status = .delivered := by simpa [Transition.allowed] using hallowed
        simp [Transition.next, hdelivered]
    | _ => simp [Transition.next]
  all_goals
    cases hstatus : s.status <;> cases to_ <;>
      simp_all [Transition.allowed, Transition.next, versionBounds, reasonOf, MessageState.moved]
  all_goals omega

section

variable {messageId : String} {rows : List Row} {state : Option MessageState}

/-- The states of an accepted stream, the version counting its rows. -/
theorem stream_state (h : run (step messageId) none rows = .ok state) :
    versionOf state = rows.length ∧ ∀ s ∈ state, s.Consistent ∧ s.message.messageId = messageId := by
  refine run_history (P := fun past state => versionOf state = past.length ∧
    ∀ s ∈ state, s.Consistent ∧ s.message.messageId = messageId) (by simp [versionOf]) ?_ h
  intro past state row next _ ⟨hversion, hstate⟩ hstep
  obtain ⟨s', happly, hnext⟩ := bind_eq_ok_iff.mp hstep
  obtain rfl := Except.ok.inj hnext
  simp only [Option.mem_def, Option.some.injEq, forall_eq', List.length_append, List.length_singleton]
  cases state with
  | none =>
      obtain ⟨-, message, expiresAt, hwell, hid, -, -, hexpires, -, rfl⟩ := applyEvent_none happly
      have hpast : past.length = 0 := hversion.symm
      exact ⟨by simp [versionOf, opened, hpast], .opened hwell hexpires, hid⟩
  | some s =>
      obtain ⟨to_, -, hmoves, -, -, rfl⟩ := applyEvent_some happly
      obtain ⟨hs, hid⟩ := hstate s rfl
      exact ⟨by simpa [versionOf] using hversion, hs.moved hmoves, hid⟩

/-- The sequences of an accepted stream count up from one. -/
theorem stream_sequences (h : run (step messageId) none rows = .ok state) :
    rows.map Row.sequence = List.range' 1 rows.length := by
  induction rows using List.reverseRecOn generalizing state with
  | nil => rfl
  | append_singleton past row ih =>
      obtain ⟨before, hpast, hstep⟩ := run_snoc_eq_ok_iff.mp h
      obtain ⟨_, happly, -⟩ := bind_eq_ok_iff.mp hstep
      have hsequence := (place_of_applyEvent happly).2.1
      rw [(stream_state hpast).1] at hsequence
      rw [List.map_append, ih hpast, List.length_append, List.length_singleton, List.range'_concat]
      simp [hsequence, add_comm]

/-- An acknowledgement is the last event of its stream, of a delivered message before its
expiry. -/
theorem acknowledged_last {past rest : List Row} {row : Row}
    (h : run (step messageId) none (past ++ row :: rest) = .ok state)
    (hrow : row.eventType = .transition .acknowledged) :
    rest = [] ∧ ∃ s, run (step messageId) none past = .ok (some s) ∧ s.status = .delivered ∧
      s.acknowledged = false ∧ row.occurredAt.ms < s.expiresAt.ms := by
  obtain ⟨before, after, hpast, hstep, hrest⟩ := run_split h
  obtain ⟨s', happly, hnext⟩ := bind_eq_ok_iff.mp hstep
  obtain rfl := Except.ok.inj hnext
  cases before with
  | none =>
      rw [(applyEvent_none happly).1] at hrow
      cases hrow
  | some s =>
      obtain ⟨to_, htype, hmoves, -, -, rfl⟩ := applyEvent_some happly
      obtain rfl : to_ = .acknowledged := by simpa [htype] using hrow
      refine ⟨?_, s, hpast, by simpa [Transition.allowed] using hmoves.allowed,
        hmoves.unacknowledged, ?_⟩
      · cases rest with
        | nil => rfl
        | cons next others =>
            obtain ⟨_, hstep, -⟩ := bind_eq_ok_iff.mp (run_cons ▸ hrest)
            obtain ⟨_, happly, -⟩ := bind_eq_ok_iff.mp hstep
            obtain ⟨_, -, hmoves, -⟩ := applyEvent_some happly
            simpa using hmoves.unacknowledged
      · have := hmoves.side
        simpa using this

end

end Hseos.Messages
