import Hseos.Messages.Relay
import Hseos.Messages.Writes

/-! # Runs of the relays

Whatever the relays are asked and however their policies interleave, the table holds
a mailbox that the changes lead to from the empty one. An open transaction knows that
the messages it still has to decide on are stored.
-/

namespace Hseos.Messages

open MessageState

variable {limits : Limits} {rows next : List Row} {box : List MessageState}
  {s state : MessageState} {now : Moment}

/-! ## Tables that extend a table -/

theorem Stores.unique {other : List MessageState} (h : Stores rows box) (hother : Stores rows other)
    (hkept : Kept limits box) : box = other := by
  have hlength : box.length = other.length := by
    have := congrArg List.length (h.ids.symm.trans hother.ids)
    simpa using this
  exact Except.ok.inj ((h.states hkept.size).symm.trans (hother.states (hlength ▸ hkept.size)))

/-- Every mailbox of the first table changes into one of the second. -/
def Extends (limits : Limits) (rows next : List Row) : Prop :=
  ∀ box, Stores rows box → Kept limits box → ∃ box', Stores next box' ∧ Changes limits box box'

theorem Extends.refl (rows : List Row) : Extends limits rows rows :=
  fun box h _ => ⟨box, h, .refl⟩

theorem Extends.trans {last : List Row} (h : Extends limits rows next)
    (hlast : Extends limits next last) : Extends limits rows last := by
  intro box hbox hkept
  obtain ⟨mid, hmid, hchanges⟩ := h box hbox hkept
  obtain ⟨box', hbox', hrest⟩ := hlast mid hmid (hchanges.kept hkept)
  exact ⟨box', hbox', hchanges.trans hrest⟩

/-- The message is stored, in whatever state it is by now. -/
def Known (limits : Limits) (rows : List Row) (message : Message) : Prop :=
  ∃ box, Stores rows box ∧ Kept limits box ∧ ∃ s ∈ box, s.message = message

theorem Known.extends {message : Message} (h : Known limits rows message)
    (hextends : Extends limits rows next) : Known limits next message := by
  obtain ⟨box, hbox, hkept, s, hs, rfl⟩ := h
  obtain ⟨box', hbox', hchanges⟩ := hextends box hbox hkept
  exact ⟨box', hbox', hchanges.kept hkept, hchanges.message hs⟩

/-! ## The operations extend the table -/

theorem Stores.mem_of_read {messageId : String} (h : Stores rows box)
    (hread : readUnsafe rows messageId = .ok (some s)) : s ∈ box := by
  obtain ⟨_, hidentifier, -⟩ := bind_eq_ok_iff.mp hread
  by_cases hid : ∀ other ∈ box, other.message.messageId ≠ messageId
  · have hnone := h.read_absent hid (identifier_eq_ok_iff.mp hidentifier).1
    cases hread.symm.trans hnone
  · push Not at hid
    obtain ⟨other, hother, rfl⟩ := hid
    obtain rfl : s = other := by simpa using Except.ok.inj (hread.symm.trans (h.read hother))
    exact hother

theorem enter_extends (h : enter rows now = .ok next) : Extends limits rows next :=
  fun _ hbox hkept => ⟨_, enter_eq_ok hbox hkept h⟩

theorem transitionUnsafe_extends {to_ : Transition} {reason : String} {found : Option MessageState}
    (hknown : Known limits rows state.message)
    (h : transitionUnsafe rows state to_ reason now = .ok (found, next)) :
    Extends limits rows next ∧ ∃ s : MessageState, s.Consistent ∧ 2 ≤ s.version ∧
      s.message = state.message ∧ s.Moves to_ now ∧ found = some (s.moved to_ now) := by
  obtain ⟨box, hbox, hkept, s, hs, hmessage⟩ := hknown
  obtain ⟨before, after, rfl⟩ := List.append_of_mem hs
  obtain ⟨hmoves, hfound, hnext⟩ :=
    transitionUnsafe_eq_ok hbox hkept (congrArg Message.messageId hmessage) h
  refine ⟨?_, s, hkept.consistent s hs, hkept.version s hs, hmessage, hmoves, hfound⟩
  intro other hother hkept'
  obtain rfl := hbox.unique hother hkept
  exact ⟨_, hnext, .single (.moved hmoves)⟩

theorem beginSend_extends {message : Message} {found : Option MessageState}
    (h : beginSend limits message now rows = .ok (found, next)) : Extends limits rows next := by
  obtain ⟨mid, henter, h⟩ := bind_eq_ok_iff.mp h
  obtain ⟨replay, -, h⟩ := bind_eq_ok_iff.mp h
  cases replay with
  | some state =>
      simp only [bind_eq_ok_iff, Except.ok.injEq, Prod.mk.injEq] at h
      obtain ⟨-, -, -, rfl⟩ := h
      exact enter_extends henter
  | none =>
      simp only [bind_eq_ok_iff, Except.ok.injEq, Prod.mk.injEq] at h
      obtain ⟨-, -, -, rfl⟩ := h
      exact enter_extends henter

theorem finishSend_extends {message : Message} {decision : Decision} {found : Option MessageState}
    (h : finishSend limits message now decision rows = .ok (found, next)) :
    Extends limits rows next := by
  intro box hbox hkept
  obtain ⟨s, -, -, hnext, hchange⟩ := finishSend_eq_ok hbox hkept h
  exact ⟨_, hnext, .single hchange⟩

/-- A message as the store gives it out. -/
structure MessageState.Reported (s : MessageState) : Prop where
  consistent : s.Consistent
  version : 2 ≤ s.version

theorem MessageState.Reported.moved {to_ : Transition} (h : s.Reported) (hmoves : s.Moves to_ now) :
    (s.moved to_ now).Reported :=
  ⟨h.consistent.moved hmoves, h.version.trans (Nat.le_succ _)⟩

theorem Kept.reported (h : Kept limits box) (hs : s ∈ box) : s.Reported :=
  ⟨h.consistent s hs, h.version s hs⟩

theorem acknowledgeUnsafe_extends {messageId recipientId : String} {found : Option MessageState}
    (hknown : ∃ box, Stores rows box ∧ Kept limits box)
    (h : acknowledgeUnsafe messageId recipientId now rows = .ok (found, next)) :
    Extends limits rows next ∧ ∀ s ∈ found, s.Reported ∧ s.message.messageId = messageId ∧
      s.message.recipientId = recipientId ∧ s.acknowledged = true := by
  obtain ⟨mid, henter, h⟩ := bind_eq_ok_iff.mp h
  obtain ⟨read, hread, h⟩ := bind_eq_ok_iff.mp h
  have hextends : Extends limits rows mid := enter_extends henter
  obtain ⟨box, hbox, hkept⟩ := hknown
  obtain ⟨box', hbox', hchanges⟩ := hextends box hbox hkept
  have hkept' := hchanges.kept hkept
  cases read with
  | none =>
      obtain ⟨rfl, rfl⟩ := Prod.mk.inj (Except.ok.inj h)
      exact ⟨hextends, by simp⟩
  | some state =>
      have hstate := hbox'.mem_of_read hread
      dsimp only at h
      split at h
      next =>
        obtain ⟨rfl, rfl⟩ := Prod.mk.inj (Except.ok.inj h)
        exact ⟨hextends, by simp⟩
      next hguard =>
        push Not at hguard
        have hid : state.message.messageId = messageId := by
          obtain ⟨_, hidentifier, hrun⟩ := bind_eq_ok_iff.mp hread
          obtain ⟨-, rfl⟩ := identifier_eq_ok_iff.mp hidentifier
          exact ((stream_state hrun).2 state rfl).2
        obtain ⟨hnext, s, hs, hversion, hmessage, hmoves, rfl⟩ :=
          transitionUnsafe_extends ⟨box', hbox', hkept', state, hstate, rfl⟩ h
        refine ⟨hextends.trans hnext, ?_⟩
        rintro _ ⟨⟩
        refine ⟨.moved ⟨hs, hversion⟩ hmoves, ?_, ?_, by simp⟩
        · rw [moved_message, hmessage, hid]
        · rw [moved_message, hmessage, hguard.1]

/-! ## Flushing -/

/-- The message waits for a decision of the recipient. -/
structure MessageState.Asked (s : MessageState) (recipientId : String) : Prop where
  reported : s.Reported
  recipient : s.message.recipientId = recipientId
  held : s.status = .held

/-- The message is held for the recipient and has time left. -/
def MessageState.isHeldFor (s : MessageState) (recipientId : String) (now : Moment) : Bool :=
  s.message.recipientId = recipientId && s.status = .held && now.ms < s.expiresAt.ms

/-- The number of messages that a flush has to decide on. -/
def heldCount (rows : List Row) (recipientId : String) (now : Moment) : Nat :=
  match statesUnsafe rows with
  | .ok states => states.countP (·.isHeldFor recipientId now)
  | .error _ => 0

/-- A message that is held and not due stays as it is, and no other one is held. -/
theorem expireAt_held {recipientId : String} (hs : s.Reported) :
    ((s.expireAt now).message.recipientId = recipientId ∧ (s.expireAt now).status = .held) ↔
      s.isHeldFor recipientId now = true := by
  have hacknowledged : s.status = .held → s.acknowledged = false := by
    intro hheld
    by_contra hne
    have := hs.consistent.acknowledged (by simpa using hne)
    simp [hheld] at this
  rw [expireAt_message]
  unfold expireAt isHeldFor
  by_cases hdue : s.isDue now = true
  · simp only [hdue, if_true, moved_status, Transition.next, reduceCtorEq, and_false, false_iff]
    simp only [isDue, Bool.and_eq_true, decide_eq_true_eq] at hdue
    simp only [Bool.and_eq_true, decide_eq_true_eq, not_and, not_lt]
    exact fun _ => hdue.2
  · simp only [hdue, Bool.and_eq_true, decide_eq_true_eq]
    simp only [isDue, isWaiting, Bool.and_eq_true, decide_eq_true_eq, Bool.or_eq_true,
      Bool.not_eq_true', not_and, not_le] at hdue
    constructor
    · rintro ⟨hrecipient, hheld⟩
      exact ⟨⟨hrecipient, hheld⟩, hdue ⟨.inl hheld, hacknowledged hheld⟩⟩
    · rintro ⟨h, -⟩
      exact h

theorem beginFlush_extends {recipientId : String} {list : List MessageState}
    (hknown : ∃ box, Stores rows box ∧ Kept limits box)
    (h : beginFlush recipientId now rows = .ok (list, next)) :
    Extends limits rows next ∧
      (∀ s ∈ list, Known limits next s.message ∧ s.Asked recipientId) ∧
      list.length = heldCount rows recipientId now := by
  simp only [beginFlush, bind_eq_ok_iff, Except.ok.injEq, Prod.mk.injEq] at h
  obtain ⟨mid, henter, states, hstates, rfl, rfl⟩ := h
  obtain ⟨box, hbox, hkept⟩ := hknown
  obtain ⟨hnext, hchanges⟩ := enter_eq_ok hbox hkept henter
  have hkept' := hchanges.kept hkept
  obtain rfl := Except.ok.inj ((hnext.states hkept'.size).symm.trans hstates)
  refine ⟨enter_extends henter, ?_, ?_⟩
  · intro s hs
    obtain ⟨hs, hcheck⟩ := List.mem_filter.mp hs
    simp only [Bool.and_eq_true, decide_eq_true_eq] at hcheck
    exact ⟨⟨_, hnext, hkept', s, hs, rfl⟩, hkept'.reported hs, hcheck.1, hcheck.2⟩
  · rw [heldCount, hbox.states hkept.size, ← List.countP_eq_length_filter, List.countP_map]
    apply List.countP_congr
    intro s hs
    simpa using expireAt_held (hkept.reported hs)

/-- A message in the answer to a flush. -/
structure MessageState.Flushed (s : MessageState) (recipientId : String) : Prop where
  reported : s.Reported
  recipient : s.message.recipientId = recipientId
  status : s.status = .held ∨ s.status = .delivered ∨ s.status = .refused

theorem flushOne_extends {recipientId : String} {decision : Decision} {found : Option MessageState}
    (hknown : Known limits rows state.message) (hasked : state.Asked recipientId)
    (h : flushOne now state decision rows = .ok (found, next)) :
    Extends limits rows next ∧ ∃ s, found = some s ∧ s.Flushed recipientId := by
  obtain ⟨hreported, hrecipient, hheld⟩ := hasked
  cases decision with
  | hold =>
      obtain ⟨rfl, rfl⟩ := Prod.mk.inj (Except.ok.inj h)
      exact ⟨.refl _, state, rfl, hreported, hrecipient, .inl hheld⟩
  | accept =>
      obtain ⟨hnext, s, hs, hversion, hmessage, hmoves, rfl⟩ := transitionUnsafe_extends hknown h
      refine ⟨hnext, _, rfl, .moved ⟨hs, hversion⟩ hmoves, ?_, .inr (.inl rfl)⟩
      rw [moved_message, hmessage, hrecipient]
  | refuse =>
      obtain ⟨hnext, s, hs, hversion, hmessage, hmoves, rfl⟩ := transitionUnsafe_extends hknown h
      refine ⟨hnext, _, rfl, .moved ⟨hs, hversion⟩ hmoves, ?_, .inr (.inr rfl)⟩
      rw [moved_message, hmessage, hrecipient]

/-! ## Open transactions -/

section

variable {ι : Type} {net : Network ι}

/-- What an open transaction relies on. -/
def Frame.Pending (net : Network ι) (rows : List Row) : Frame ι → Prop
  | .send .. => True
  | .flush relay savepoint request now state rest outcomes =>
      request.recipientId = net.principal relay ∧
        (∀ s ∈ state :: rest, Known net.limits rows s.message ∧ s.Asked request.recipientId) ∧
        (∀ s ∈ outcomes, s.Flushed request.recipientId) ∧
        outcomes.length + (rest.length + 1) = heldCount savepoint request.recipientId now

/-- The table extends the table that the innermost open transaction started from, that one
the next, and the last one the empty table. -/
def Stack (net : Network ι) : List Row → List (Frame ι) → Prop
  | rows, [] => Extends net.limits [] rows
  | rows, frame :: frames =>
      Extends net.limits frame.savepoint rows ∧ frame.Pending net rows ∧
        Stack net frame.savepoint frames

variable {frames : List (Frame ι)} {frame : Frame ι}

theorem Frame.Pending.extends (h : frame.Pending net rows) (hextends : Extends net.limits rows next) :
    frame.Pending net next := by
  cases frame with
  | send => trivial
  | flush relay savepoint request now state rest outcomes =>
      obtain ⟨hprincipal, hasked, hrest⟩ := h
      exact ⟨hprincipal, fun s hs => ⟨(hasked s hs).1.extends hextends, (hasked s hs).2⟩, hrest⟩

theorem Stack.extends (h : Stack net rows frames) (hextends : Extends net.limits rows next) :
    Stack net next frames := by
  cases frames with
  | nil => exact Extends.trans h hextends
  | cons frame frames => exact ⟨h.1.trans hextends, h.2.1.extends hextends, h.2.2⟩

/-- The table of every stack holds a mailbox that is reached by changes. -/
theorem Stack.changes (h : Stack net rows frames) : ∃ box, Stores rows box ∧ Changes net.limits [] box := by
  have hextends : Extends net.limits [] rows := by
    induction frames generalizing rows with
    | nil => exact h
    | cons frame frames ih => exact (ih h.2.2).trans h.1
  exact hextends [] .nil .nil

theorem Stack.stores (h : Stack net rows frames) : ∃ box, Stores rows box ∧ Kept net.limits box := by
  obtain ⟨box, hbox, hchanges⟩ := h.changes
  exact ⟨box, hbox, hchanges.kept .nil⟩

end

/-! ## Steps -/

theorem admit_send {principal : String} {sending : Bool} {message : Message} {u : Unit} :
    admitted principal sending (.send message) = .ok u ↔
      sending = false ∧ message.WellFormed ∧ message.senderId = principal := by
  unfold admitted
  simp only [bind_eq_ok_iff, reject_eq_ok_iff, parseSend_eq_ok_iff, decide_eq_false_iff_not, ne_eq,
    not_not]
  constructor
  · rintro ⟨-, hsending, _, ⟨hwell, rfl⟩, hsender⟩
    exact ⟨hsending, hwell, hsender⟩
  · rintro ⟨hsending, hwell, hsender⟩
    exact ⟨(), hsending, _, ⟨hwell, rfl⟩, hsender⟩

section

variable {ι : Type} [DecidableEq ι] {net : Network ι} {w : World ι}

theorem claimRecipient_eq_ok {label principal recipientId : String} {schemaVersion : Int} {u : Unit}
    (h : claimRecipient label principal schemaVersion recipientId = .ok u) :
    recipientId = principal := by
  simp only [claimRecipient, bind_eq_ok_iff, reject_eq_ok_iff, identifier_eq_ok_iff, ne_eq,
    decide_eq_false_iff_not, not_not] at h
  obtain ⟨-, -, _, ⟨-, rfl⟩, h⟩ := h
  exact h

/-- The open transactions of a world are in order. -/
def World.Sound (net : Network ι) (w : World ι) : Prop := Stack net w.rows w.frames

theorem perform_sound {relay : ι} {request : Request} {sending : Bool} {u : Unit} (h : w.Sound net)
    (hadmitted : admitted (net.principal relay) sending request = .ok u) :
    (net.perform w relay request now).2.Sound net := by
  unfold Network.perform
  cases request with
  | send message =>
      dsimp only
      split
      next => exact h
      next hbegin => exact Stack.extends h (beginSend_extends hbegin)
      next hbegin => exact ⟨beginSend_extends hbegin, trivial, h⟩
  | receive value =>
      dsimp only
      split
      next => exact h
      next henter => exact Stack.extends h (enter_extends henter)
  | acknowledge value =>
      dsimp only
      split
      next => exact h
      next hack => exact Stack.extends h (acknowledgeUnsafe_extends (Stack.stores h) hack).1
      next hack => exact Stack.extends h (acknowledgeUnsafe_extends (Stack.stores h) hack).1
  | flushHeld value =>
      dsimp only
      split
      next => exact h
      next hflush => exact Stack.extends h (beginFlush_extends (Stack.stores h) hflush).1
      next hflush =>
        obtain ⟨hextends, hasked, hcount⟩ := beginFlush_extends (Stack.stores h) hflush
        exact ⟨hextends, ⟨claimRecipient_eq_ok hadmitted, hasked, by simp, by simpa using hcount⟩, h⟩

theorem call_sound {relay : ι} {request : Request} {clock : Option Moment} (h : w.Sound net) :
    (net.call w relay request clock).2.Sound net := by
  unfold Network.call
  split
  next => exact h
  next hadmitted =>
    split
    · exact h
    · apply perform_sound _ hadmitted
      exact h

omit [DecidableEq ι] in
theorem expire_sound {clock : Option Moment} (h : w.Sound net) : (w.expire clock).2.Sound net := by
  unfold World.expire
  split
  · exact h
  · split
    next => exact h
    next henter => exact Stack.extends h (enter_extends henter)

theorem decide_sound {verdict : Verdict} (h : w.Sound net) : (net.decide w verdict).2.Sound net := by
  unfold World.Sound at h
  unfold Network.decide
  split
  next => rwa [World.Sound]
  next relay savepoint message now frames hframes =>
    rw [hframes] at h
    obtain ⟨hextends, -, hrest⟩ := h
    dsimp only
    split
    next => exact hrest
    next hfinish =>
      obtain ⟨decision, -, hfinish⟩ := bind_eq_ok_iff.mp hfinish
      exact hrest.extends (hextends.trans (finishSend_extends hfinish))
  next relay savepoint request now state rest outcomes frames hframes =>
    rw [hframes] at h
    obtain ⟨hextends, ⟨hprincipal, hasked, houtcomes, hcount⟩, hrest⟩ := h
    unfold World.flushNext
    split
    next => exact hrest
    next found rows hflush =>
      obtain ⟨decision, -, hflush⟩ := bind_eq_ok_iff.mp hflush
      obtain ⟨hknown, hstate⟩ := hasked state List.mem_cons_self
      obtain ⟨hnext, s, rfl, hs⟩ := flushOne_extends hknown hstate hflush
      cases rest with
      | nil => exact hrest.extends (hextends.trans hnext)
      | cons other rest =>
          refine ⟨hextends.trans hnext, ⟨hprincipal, ?_, ?_, ?_⟩, hrest⟩
          · intro s hs
            obtain ⟨hknown, hasked⟩ := hasked s (List.mem_cons_of_mem _ hs)
            exact ⟨hknown.extends hnext, hasked⟩
          · intro s' hs'
            rcases List.mem_append.mp hs' with hs' | hs'
            · exact houtcomes s' hs'
            · obtain rfl : s' = s := by simpa using hs'
              exact hs
          · simp only [List.length_append, Option.toList_some, List.length_singleton] at hcount ⊢
            simp only [List.length_cons] at hcount
            omega

theorem step_sound {event : Event ι} (h : w.Sound net) : (net.step w event).2.Sound net := by
  cases event with
  | call relay request clock => exact call_sound h
  | expire clock => exact expire_sound h
  | decide verdict => exact decide_sound h

theorem after_sound (net : Network ι) (events : List (Event ι)) : (net.after events).Sound net := by
  induction events using List.reverseRecOn with
  | nil => exact Extends.refl []
  | append_singleton past event ih =>
      rw [Network.after, List.foldl_append]
      exact step_sound ih

end

end Hseos.Messages
