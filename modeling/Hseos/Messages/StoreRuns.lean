import Hseos.Messages.Deliveries

/-! # What every run of the store keeps

The streams that the store accepts, the one message of a sender and a key, the limits
of inboxes and rates, and acknowledgements.
-/

namespace Hseos.Messages

open MessageState

variable {limits : Limits} {rows : List Row} {box : List MessageState} {s : MessageState}

namespace Stores

/-- The stream of a stored message is accepted. -/
theorem accepted (h : Stores rows box) {row : Row} (hrow : row ∈ rows) :
    ∃ s ∈ box, run (step row.messageId) none (stream rows row.messageId) = .ok (some s) := by
  obtain ⟨s, hs, hid⟩ := h.exists_of_row hrow
  refine ⟨s, hs, ?_⟩
  rw [← hid, stream_eq (h.streams s hs)]
  exact h.streams s hs

theorem read_succeeds (h : Stores rows box) {messageId : String}
    (hidentifier : isIdentifierText messageId = true) : ∃ found, readUnsafe rows messageId = .ok found := by
  by_cases hid : ∀ s ∈ box, s.message.messageId ≠ messageId
  · exact ⟨none, h.read_absent hid hidentifier⟩
  · push Not at hid
    obtain ⟨s, hs, rfl⟩ := hid
    exact ⟨some s, h.read hs⟩

/-- A sender and a key belong to one message. -/
theorem one_message (h : Stores rows box) (hkept : Kept limits box) {first second : Row}
    (hfirst : first ∈ rows) (hsecond : second ∈ rows) (hsender : first.senderId = second.senderId)
    (hkey : first.idempotencyKey = second.idempotencyKey) : first.messageId = second.messageId := by
  have hparties : ∀ row ∈ rows, ∃ s ∈ box, s.message.messageId = row.messageId ∧
      row.senderId = s.message.senderId ∧ row.idempotencyKey = s.message.idempotencyKey := by
    intro row hrow
    obtain ⟨s, hs, hid⟩ := h.exists_of_row hrow
    exact ⟨s, hs, hid, (stream_parties (h.streams s hs) s rfl).2 row
      (List.mem_filter.mpr ⟨hrow, by simp [hid]⟩)⟩
  obtain ⟨s, hs, hid, hs'⟩ := hparties first hfirst
  obtain ⟨other, hother, hotherId, hother'⟩ := hparties second hsecond
  have hsame : s = other := by
    apply List.inj_on_of_nodup_map hkept.keys hs hother
    rw [← hs'.1, ← hs'.2, ← hother'.1, ← hother'.2, hsender, hkey]
  rw [← hid, ← hotherId, hsame]

end Stores

/-- The messages that wait for the recipient and have time left. -/
def inbox (box : List MessageState) (recipientId : String) (now : Moment) : List MessageState :=
  box.filter fun s => s.isFor recipientId && now.ms < s.expiresAt.ms

theorem Kept.inbox_length_le (h : Kept limits box) (recipientId : String) (now : Moment) :
    (Messages.inbox box recipientId now).length ≤ limits.maxInbox := by
  refine le_trans ?_ (h.inbox recipientId)
  rw [Messages.inbox, ← List.countP_eq_length_filter]
  apply List.countP_mono_left
  intro s _ hs
  exact (Bool.and_eq_true_iff.mp hs).1

/-! ## Retries -/

section

variable {ι : Type} [DecidableEq ι] {net : Network ι} {w : World ι} {relay : ι}

/-- The relay may send, and its clock gives a time at which the store may act. -/
structure World.Ready (w : World ι) (relay : ι) (clock : Option Moment) (now : Moment) : Prop where
  sending : w.sending relay = false
  clock : relayNow (w.lastNowMs relay) clock = .ok now
  store : assertStoreTimeUnsafe w.rows now = .ok ()

/-- An identical request finds the message of the first one. -/
theorem beginSend_replay {now : Moment} (h : Stores rows box) (hkept : Kept limits box) (hs : s ∈ box)
    (htime : assertStoreTimeUnsafe rows now = .ok ()) :
    ∃ next, beginSend limits s.message now rows = .ok (some (s.expireAt now), next) ∧
      readUnsafe next s.message.messageId = .ok (some (s.expireAt now)) := by
  obtain ⟨next, hexpire, hnext, hchanges⟩ := expireUnsafe_eq now h hkept
  have hmem : s.expireAt now ∈ box.map (·.expireAt now) := List.mem_map_of_mem hs
  have hfind := hnext.find_eq (hchanges.kept hkept) hmem
  have hread := hnext.read hmem
  rw [expireAt_message] at hfind hread
  have henter : enter rows now = .ok next := by
    rw [enter, htime]
    exact hexpire
  refine ⟨next, ?_, hread⟩
  simp [beginSend, henter, hfind, expireAt_message, reject, bind, Except.bind]

/-- What an identical retry of a stored message returns: the message, or a failure where the
relay may not send or has no time for it. -/
structure Retried (net : Network ι) (w : World ι) (relay : ι) (clock : Option Moment)
    (s : MessageState) : Prop where
  ready : ∀ now, w.Ready relay clock now → ∃ s', s'.message = s.message ∧
    (net.call w relay (.send s.message) clock).1 =
      .answers relay (.send s.message) (.ok (.sent (some s') true)) ∧
    readUnsafe (net.call w relay (.send s.message) clock).2.rows s.message.messageId = .ok (some s')
  refused : (∀ now, ¬ w.Ready relay clock now) → ∃ failure,
    (net.call w relay (.send s.message) clock).1 = .answers relay (.send s.message) (.error failure)

theorem retried {clock : Option Moment} (h : Stores w.rows box) (hkept : Kept net.limits box)
    (hs : s ∈ box) (hprincipal : net.principal relay = s.message.senderId) :
    Retried net w relay clock s := by
  have hadmitted : w.sending relay = false →
      admitted (net.principal relay) (w.sending relay) (.send s.message) = .ok () :=
    fun hsending => admit_send.mpr ⟨hsending, (hkept.consistent s hs).message, hprincipal.symm⟩
  constructor
  · rintro now ⟨hsending, hclock, hstore⟩
    obtain ⟨next, hbegin, hread⟩ := beginSend_replay h hkept hs hstore
    refine ⟨s.expireAt now, expireAt_message, ?_⟩
    simp only [Network.call, hadmitted hsending, hclock, Network.perform, hbegin]
    exact ⟨trivial, hread⟩
  · intro hrefused
    unfold Network.call
    split
    next failure _ => exact ⟨failure, rfl⟩
    next hadmitted =>
      split
      next failure _ => exact ⟨failure, rfl⟩
      next now hclock =>
        -- The relay has a time, so the store refuses it.
        have hstore : assertStoreTimeUnsafe w.rows now ≠ .ok () :=
          fun hstore => hrefused now ⟨(admit_send.mp hadmitted).1, hclock, hstore⟩
        cases htime : assertStoreTimeUnsafe w.rows now with
        | ok u => exact absurd htime hstore
        | error failure =>
            refine ⟨failure, ?_⟩
            simp [Network.perform, beginSend, enter, htime, bind, Except.bind]

end

/-! ## The result -/

/-- What the store keeps. -/
structure Orderly {ι : Type} [DecidableEq ι] (net : Network ι) (w : World ι) : Prop where
  /-- Every stream is accepted. -/
  accepted : ∀ row ∈ w.rows, ∃ s,
    run (step row.messageId) none (stream w.rows row.messageId) = .ok (some s)
  /-- Every read succeeds. -/
  reads : (∀ messageId, isIdentifierText messageId = true →
      ∃ found, readUnsafe w.rows messageId = .ok found) ∧
    ∃ box, statesUnsafe w.rows = .ok box
  /-- A sender and a key yield one message. -/
  once : ∀ first ∈ w.rows, ∀ second ∈ w.rows, first.senderId = second.senderId →
    first.idempotencyKey = second.idempotencyKey → first.messageId = second.messageId
  /-- A retry returns it. -/
  retried : ∀ box, statesUnsafe w.rows = .ok box → ∀ s ∈ box, ∀ relay clock,
    net.principal relay = s.message.senderId → Retried net w relay clock s
  inboxes : ∀ box, statesUnsafe w.rows = .ok box → ∀ recipientId now,
    (inbox box recipientId now).length ≤ net.limits.maxInbox
  rates : ∀ box, statesUnsafe w.rows = .ok box → ∀ senderId start,
    (box.filter (·.isWithin senderId start net.limits.rateWindowMs)).length ≤ net.limits.rateLimit
  /-- An acknowledgement ends the stream of a delivered message, before its expiry. -/
  acknowledged : ∀ messageId past row rest, stream w.rows messageId = past ++ row :: rest →
    row.eventType = .transition .acknowledged → rest = [] ∧ ∃ s,
      run (step messageId) none past = .ok (some s) ∧ s.status = .delivered ∧
        s.acknowledged = false ∧ row.occurredAt.ms < s.expiresAt.ms

end Hseos.Messages
