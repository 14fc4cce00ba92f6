import Hseos.Messages.Lifecycle
import Hseos.Messages.Store

/-! # Mailboxes

The store seen as the list of its messages, in the order in which they were sent. A
change moves one message or sends a new one within the bounds; every change keeps
the inboxes and the rates within their limits.
-/

namespace Hseos.Messages

open MessageState

variable {limits : Limits} {box next : List MessageState}

/-- A message as it is stored by the transaction that sends it. -/
structure MessageState.Sent (s : MessageState) (now : Moment) : Prop where
  consistent : s.Consistent
  created : s.createdAt = now
  version : s.version = 2

/-- One change of a mailbox. -/
inductive Change (limits : Limits) : List MessageState → List MessageState → Prop where
  | moved {before after : List MessageState} {s : MessageState} {to_ : Transition} {time : Moment}
      (h : s.Moves to_ time) :
      Change limits (before ++ s :: after) (before ++ s.moved to_ time :: after)
  | sent {box : List MessageState} {s : MessageState} {now : Moment} (h : s.Sent now)
      (hid : ∀ other ∈ box, other.message.messageId ≠ s.message.messageId)
      (hkey : ∀ other ∈ box, other.message.senderId = s.message.senderId →
        other.message.idempotencyKey ≠ s.message.idempotencyKey)
      (hsize : box.length < maxMessages)
      (hrate : box.countP (·.isRecent s.message.senderId (now.ms - limits.rateWindowMs)) <
        limits.rateLimit)
      (hinbox : box.countP (·.isFor s.message.recipientId) < limits.maxInbox) :
      Change limits box (box ++ [s])

/-- The message was created by the sender in the window that starts at the instant. -/
def MessageState.isWithin (state : MessageState) (senderId : String) (start : Int) (window : Nat) :
    Bool :=
  state.message.senderId = senderId && start ≤ state.createdAt.ms &&
    state.createdAt.ms ≤ start + window

/-- What every mailbox keeps. -/
structure Kept (limits : Limits) (box : List MessageState) : Prop where
  consistent : ∀ s ∈ box, s.Consistent
  version : ∀ s ∈ box, 2 ≤ s.version
  ids : (box.map (·.message.messageId)).Nodup
  keys : (box.map fun s => (s.message.senderId, s.message.idempotencyKey)).Nodup
  size : box.length ≤ maxMessages
  inbox : ∀ recipientId, box.countP (·.isFor recipientId) ≤ limits.maxInbox
  rate : ∀ senderId start,
    box.countP (·.isWithin senderId start limits.rateWindowMs) ≤ limits.rateLimit

theorem Kept.nil : Kept limits [] := by
  refine ⟨?_, ?_, List.nodup_nil, List.nodup_nil, ?_, ?_, ?_⟩ <;> simp

/-- Replacing an element by one that passes a check only if the element does. -/
theorem countP_replace_le {α : Type} {p : α → Bool} {before after : List α} {a b : α}
    (h : p b = true → p a = true) :
    (before ++ b :: after).countP p ≤ (before ++ a :: after).countP p := by
  simp only [List.countP_append, List.countP_cons]
  by_cases hb : p b = true
  · simp [hb, h hb]
  · simp [hb]

/-- A move never puts a message into an inbox. -/
theorem MessageState.Moves.isFor {s : MessageState} {to_ : Transition} {time : Moment}
    (h : s.Moves to_ time) (hstatus : s.status ≠ .enqueued) (recipientId : String)
    (hfor : (s.moved to_ time).isFor recipientId = true) : s.isFor recipientId = true := by
  have hopen := h.unacknowledged
  have hallowed := h.allowed
  simp only [MessageState.isFor, isWaiting, moved_message, moved_status, moved_acknowledged,
    Bool.and_eq_true] at hfor ⊢
  refine ⟨hfor.1, ?_⟩
  cases hs : s.status <;> cases to_ <;> simp_all [Transition.allowed, Transition.next]

theorem Kept.status_ne {s : MessageState} (h : Kept limits box) (hs : s ∈ box) :
    s.status ≠ .enqueued := by
  intro hstatus
  have hupper := (h.consistent s hs).version.2
  have hlower := h.version s hs
  simp only [versionBounds, hstatus] at hupper
  omega

theorem Kept.moved {before after : List MessageState} {s : MessageState} {to_ : Transition}
    {time : Moment} (h : Kept limits (before ++ s :: after)) (hs : s.Moves to_ time) :
    Kept limits (before ++ s.moved to_ time :: after) := by
  have hmem : s ∈ before ++ s :: after := by simp
  have hothers : ∀ other ∈ before ++ s.moved to_ time :: after,
      other ∈ before ++ s :: after ∨ other = s.moved to_ time := by
    simp only [List.mem_append, List.mem_cons]
    tauto
  refine ⟨?_, ?_, by simpa using h.ids, ?_, by simpa using h.size, ?_, ?_⟩
  · intro other hother
    rcases hothers other hother with hother | rfl
    · exact h.consistent other hother
    · exact (h.consistent s hmem).moved hs
  · intro other hother
    rcases hothers other hother with hother | rfl
    · exact h.version other hother
    · exact (h.version s hmem).trans (Nat.le_succ _)
  · simpa using h.keys
  · intro recipientId
    exact (countP_replace_le (hs.isFor (h.status_ne hmem) recipientId)).trans (h.inbox recipientId)
  · intro senderId start
    refine (countP_replace_le ?_).trans (h.rate senderId start)
    simp only [isWithin, moved_message, moved_createdAt]
    exact id

/-- A window that contains the new message ends at or after it, so all of its messages
are recent. -/
theorem Kept.sent {s : MessageState} {now : Moment} (h : Kept limits box) (hs : s.Sent now)
    (hid : ∀ other ∈ box, other.message.messageId ≠ s.message.messageId)
    (hkey : ∀ other ∈ box, other.message.senderId = s.message.senderId →
      other.message.idempotencyKey ≠ s.message.idempotencyKey)
    (hsize : box.length < maxMessages)
    (hrate : box.countP (·.isRecent s.message.senderId (now.ms - limits.rateWindowMs)) <
      limits.rateLimit)
    (hinbox : box.countP (·.isFor s.message.recipientId) < limits.maxInbox) :
    Kept limits (box ++ [s]) := by
  have hcreated := hs.created
  refine ⟨?_, ?_, ?_, ?_, by rwa [List.length_append], ?_, ?_⟩
  · intro other hother
    rcases List.mem_append.mp hother with hother | hother
    · exact h.consistent other hother
    · exact List.mem_singleton.mp hother ▸ hs.consistent
  · intro other hother
    rcases List.mem_append.mp hother with hother | hother
    · exact h.version other hother
    · exact (List.mem_singleton.mp hother ▸ hs.version).ge
  · rw [List.map_append, List.map_singleton, ← List.concat_eq_append, List.nodup_concat]
    refine ⟨?_, h.ids⟩
    simpa using hid
  · rw [List.map_append, List.map_singleton, ← List.concat_eq_append, List.nodup_concat]
    refine ⟨?_, h.keys⟩
    intro hmem
    obtain ⟨other, hother, heq⟩ := List.mem_map.mp hmem
    exact hkey other hother (congrArg Prod.fst heq) (congrArg Prod.snd heq)
  · intro recipientId
    rw [List.countP_append, List.countP_singleton]
    by_cases hfor : s.isFor recipientId = true
    · obtain rfl : s.message.recipientId = recipientId := by
        simp only [MessageState.isFor, Bool.and_eq_true, decide_eq_true_eq] at hfor
        exact hfor.1
      simp only [hfor, if_true]
      exact hinbox
    · simpa [hfor] using h.inbox recipientId
  · intro senderId start
    rw [List.countP_append, List.countP_singleton]
    by_cases hwithin : s.isWithin senderId start limits.rateWindowMs = true
    · have hmono : box.countP (·.isWithin senderId start limits.rateWindowMs) ≤
          box.countP (·.isRecent s.message.senderId (now.ms - limits.rateWindowMs)) := by
        apply List.countP_mono_left
        intro other _ hother
        simp only [isWithin, isRecent, Bool.and_eq_true, decide_eq_true_eq] at hwithin hother ⊢
        rw [hcreated] at hwithin
        exact ⟨hother.1.1.trans hwithin.1.1.symm, by omega⟩
      simp only [hwithin, if_true]
      omega
    · simpa [hwithin] using h.rate senderId start

theorem Change.kept (h : Change limits box next) (hbox : Kept limits box) : Kept limits next := by
  cases h with
  | moved hs => exact hbox.moved hs
  | sent hs hid hkey hsize hrate hinbox => exact hbox.sent hs hid hkey hsize hrate hinbox

/-- A change keeps every message that was sent. -/
theorem Change.message (h : Change limits box next) {s : MessageState} (hs : s ∈ box) :
    ∃ s' ∈ next, s'.message = s.message := by
  cases h with
  | @moved before after s₀ to_ time _ =>
      simp only [List.mem_append, List.mem_cons] at hs
      rcases hs with hs | rfl | hs
      · exact ⟨s, by simp [hs], rfl⟩
      · exact ⟨s.moved to_ time, by simp, rfl⟩
      · exact ⟨s, by simp [hs], rfl⟩
  | sent => exact ⟨s, List.mem_append_left _ hs, rfl⟩

/-! ## Runs of changes -/

/-- Any number of changes. -/
abbrev Changes (limits : Limits) := Relation.ReflTransGen (Change limits)

theorem Changes.kept (h : Changes limits box next) (hbox : Kept limits box) : Kept limits next := by
  induction h with
  | refl => exact hbox
  | tail _ hlast ih => exact hlast.kept ih

theorem Changes.message (h : Changes limits box next) {s : MessageState} (hs : s ∈ box) :
    ∃ s' ∈ next, s'.message = s.message := by
  induction h with
  | refl => exact ⟨s, hs, rfl⟩
  | tail _ hlast ih =>
      obtain ⟨mid, hmid, hmessage⟩ := ih
      obtain ⟨s', hs', hnext⟩ := hlast.message hmid
      exact ⟨s', hs', hnext.trans hmessage⟩

end Hseos.Messages
