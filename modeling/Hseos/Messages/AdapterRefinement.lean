import Hseos.Messages.Adapter

/-! # Relay adapters and the relays that they wrap

An adapter gives out every answer of the local relay, but for a flush that decided on
more than 128 messages.
-/

namespace Hseos.Messages

open MessageState

variable {ι : Type} [DecidableEq ι]

section

variable {limits : Limits} {rows next : List Row} {box : List MessageState} {now : Moment}

theorem beginSend_found {message : Message} {s : MessageState} (h : Stores rows box)
    (hkept : Kept limits box) (hout : beginSend limits message now rows = .ok (some s, next)) :
    s.Reported ∧ s.message = message := by
  obtain ⟨mid, henter, hout⟩ := bind_eq_ok_iff.mp hout
  obtain ⟨replay, hfind, hout⟩ := bind_eq_ok_iff.mp hout
  obtain ⟨hmid, hchanges⟩ := enter_eq_ok h hkept henter
  cases replay with
  | none =>
      obtain ⟨_, -, hout⟩ := bind_eq_ok_iff.mp hout
      cases hout
  | some state =>
      simp only [bind_eq_ok_iff, reject_eq_ok_iff, Except.ok.injEq, Prod.mk.injEq,
        Option.some.injEq, decide_eq_false_iff_not, ne_eq, not_not] at hout
      obtain ⟨-, rfl, rfl, rfl⟩ := hout
      refine ⟨?_, rfl⟩
      unfold findByIdempotencyUnsafe at hfind
      split at hfind
      · exact (hchanges.kept hkept).reported (hmid.mem_of_read hfind)
      · cases hfind

theorem received_answers {request : ReceiveRequest} (hkept : Kept limits box)
    (hlimit : 1 ≤ request.limit) : (received request box).length ≤ request.limit ∧
      ∀ s ∈ received request box, s.Reported ∧ s.message.recipientId = request.recipientId ∧
        s.status = .delivered ∧ s.acknowledged = false := by
  constructor
  · have := List.length_take_le request.limit.toNat (box.filter fun state =>
      state.message.recipientId = request.recipientId && state.status = .delivered &&
        !state.acknowledged)
    simp only [received]
    omega
  · intro s hs
    obtain ⟨hs, hcheck⟩ := List.mem_filter.mp (List.mem_of_mem_take hs)
    simp only [Bool.and_eq_true, decide_eq_true_eq, Bool.not_eq_true'] at hcheck
    exact ⟨hkept.reported hs, hcheck.1.1, hcheck.1.2, hcheck.2⟩

end

variable {net : Network ι} {w : World ι}

/-- A request that is answered at once is answered as it asks, a flush with no message. -/
theorem perform_answers {relay other : ι} {request asked : Request} {answer : Answer} {now : Moment}
    {sending : Bool} {u : Unit} (h : w.Sound net)
    (hadmitted : admitted (net.principal relay) sending request = .ok u)
    (hout : (net.perform w relay request now).1 = .answers other asked (.ok answer)) :
    other = relay ∧ asked = request ∧ Answers (net.principal relay) request answer ∧
      ∀ value, request = .flushHeld value → answer = .states [] := by
  obtain ⟨box, hbox, hkept⟩ := Stack.stores h
  unfold Network.perform at hout
  cases request with
  | send message =>
      dsimp only at hout
      split at hout
      next => cases hout
      next s rows hbegin =>
        cases hout
        obtain ⟨hs, hmessage⟩ := beginSend_found hbox hkept hbegin
        exact ⟨rfl, rfl, ⟨s, rfl, hs, hmessage⟩, fun _ hflush => by cases hflush⟩
      next => cases hout
  | receive request =>
      have hlimit : 1 ≤ request.limit := by
        obtain ⟨_, -, hbound⟩ := bind_eq_ok_iff.mp hadmitted
        simp only [reject_eq_ok_iff, Bool.or_eq_false_iff, decide_eq_false_iff_not, not_lt] at hbound
        exact hbound.1
      have hprincipal : request.recipientId = net.principal relay := by
        obtain ⟨_, hclaim, -⟩ := bind_eq_ok_iff.mp hadmitted
        exact claimRecipient_eq_ok hclaim
      dsimp only at hout
      split at hout
      next => cases hout
      next next henter =>
        obtain ⟨hnext, hchanges⟩ := enter_eq_ok hbox hkept henter
        have hkept' := hchanges.kept hkept
        rw [hnext.states hkept'.size] at hout
        cases hout
        rw [← hprincipal]
        exact ⟨rfl, rfl, received_answers hkept' hlimit, fun _ hflush => by cases hflush⟩
  | acknowledge request =>
      have hprincipal : request.recipientId = net.principal relay := by
        obtain ⟨_, hclaim, -⟩ := bind_eq_ok_iff.mp hadmitted
        exact claimRecipient_eq_ok hclaim
      dsimp only at hout
      split at hout
      next => cases hout
      next s rows hack =>
        cases hout
        obtain ⟨hs, hid, hrecipient, hacknowledged⟩ :=
          (acknowledgeUnsafe_extends ⟨box, hbox, hkept⟩ hack).2 s rfl
        exact ⟨rfl, rfl, ⟨hs, hrecipient.trans hprincipal, hid, hacknowledged⟩,
          fun _ hflush => by cases hflush⟩
      next => cases hout
  | flushHeld request =>
      dsimp only at hout
      split at hout
      next => cases hout
      next =>
        cases hout
        exact ⟨rfl, rfl, by simp [Answers], fun _ _ => rfl⟩
      next => cases hout

/-- A request that a decision answers is answered as it asks, a flush with as many messages as
it had to decide on. -/
theorem decide_answers {verdict : Verdict} {relay : ι} {request : Request} {answer : Answer}
    (h : w.Sound net) (hout : (net.decide w verdict).1 = .answers relay request (.ok answer)) :
    Answers (net.principal relay) request answer ∧
      ((∀ value found, request = .flushHeld value → answer = .states found → found.length ≤ 128) ↔
        w.Fits (.decide verdict : Event ι)) := by
  obtain ⟨box, hbox, hkept⟩ := Stack.stores h
  unfold World.Sound at h
  unfold Network.decide at hout
  split at hout
  next => cases hout
  next sender savepoint message now frames hframes =>
    dsimp only at hout
    split at hout
    next => cases hout
    next found rows hfinish =>
      cases hout
      obtain ⟨decision, -, hfinish⟩ := bind_eq_ok_iff.mp hfinish
      obtain ⟨s, rfl, hmessage, hnext, hchange⟩ := finishSend_eq_ok hbox hkept hfinish
      have hreported := (hchange.kept hkept).reported (s := s) (by simp)
      exact ⟨⟨s, rfl, hreported, hmessage⟩, by simp [World.Fits, hframes]⟩
  next receiver savepoint asked now state rest outcomes frames hframes =>
    rw [hframes] at h
    obtain ⟨hextends, ⟨hprincipal, hasked, houtcomes, hcount⟩, hrest⟩ := h
    unfold World.flushNext at hout
    split at hout
    next => cases hout
    next found rows hflush =>
      obtain ⟨decision, -, hflush⟩ := bind_eq_ok_iff.mp hflush
      obtain ⟨hknown, hstate⟩ := hasked state List.mem_cons_self
      obtain ⟨-, s, rfl, hs⟩ := flushOne_extends hknown hstate hflush
      cases rest with
      | cons other rest => cases hout
      | nil =>
          cases hout
          rw [← hprincipal]
          refine ⟨?_, ?_⟩
          · intro s' hs'
            rcases List.mem_append.mp hs' with hs' | hs'
            · exact houtcomes s' hs'
            · obtain rfl : s' = s := by simpa using hs'
              exact hs
          · simp only [List.length_nil, Nat.zero_add] at hcount
            simp [World.Fits, hframes, ← hcount]

theorem adapterAdmitted_of_admitted {principalId : String} {sending : Bool} {request : Request} {u : Unit}
    (h : admitted principalId sending request = .ok u) : adapterAdmitted principalId request = .ok () := by
  cases request <;>
    simp only [admitted, adapterAdmitted, claimRecipient, claimAdapted, bind_eq_ok_iff, reject_eq_ok_iff,
      identifier_eq_ok_iff, Bool.or_false] at h ⊢
  case send =>
    obtain ⟨-, -, message, hparse, hsender⟩ := h
    exact ⟨message, hparse, hsender⟩
  case receive =>
    obtain ⟨-, ⟨-, hschema, _, ⟨hidentifier, rfl⟩, hprincipal⟩, hlimit⟩ := h
    exact ⟨(), hschema, _, ⟨hidentifier, rfl⟩, by rw [hprincipal, hlimit]; rfl⟩
  case acknowledge =>
    obtain ⟨-, ⟨-, hschema, recipient, hrecipient, hprincipal⟩, id, hid, -⟩ := h
    exact ⟨(), ⟨(), hschema, recipient, hrecipient, hprincipal⟩, id, hid, trivial⟩
  case flushHeld =>
    obtain ⟨-, hschema, recipient, hrecipient, hprincipal⟩ := h
    exact ⟨(), hschema, recipient, hrecipient, hprincipal⟩

/-- A decision that answers nothing is not the last one of a flush. -/
theorem fits_of_not_answered (net : Network ι) {verdict : Verdict}
    (h : ∀ relay request result, (net.decide w verdict).1 ≠ .answers relay request result) :
    w.Fits (.decide verdict : Event ι) := by
  unfold World.Fits
  split
  next relay savepoint request now state outcomes frames hframes =>
    simp only [Network.decide, hframes, World.flushNext] at h
    split at h
    · exact absurd rfl (h _ _ _)
    · exact absurd rfl (h _ _ _)
  next => trivial

/-- Every answer that a relay gives at once passes the adapter. -/
theorem perform_adapted {relay : ι} {request : Request} {now : Moment} {sending : Bool} {u : Unit}
    (h : w.Sound net) (hadmitted : admitted (net.principal relay) sending request = .ok u)
    (hanswered : (net.perform w relay request now).1.failed = false) :
    net.adaptOutcome (net.perform w relay request now).1 = (net.perform w relay request now).1 := by
  cases hout : (net.perform w relay request now).1 with
  | asks inbound => rfl
  | expires result => rfl
  | idle => rfl
  | answers other asked result =>
      cases result with
      | error failure => simp [hout, Outcome.failed] at hanswered
      | ok answer =>
          obtain ⟨rfl, rfl, hanswers, hflush⟩ := perform_answers h hadmitted hout
          have hshort : ∀ value found, asked = .flushHeld value → answer = .states found →
              found.length ≤ 128 := by
            rintro value found rfl rfl
            obtain rfl : found = [] := by simpa using hflush value rfl
            simp
          simp [Network.adaptOutcome, (validateAnswer_eq_iff hanswers).mpr hshort]

/-- The answer to which a decision leads passes the adapter unless it is a long flush. -/
theorem decide_adapted {verdict : Verdict} (h : w.Sound net)
    (hanswered : (net.decide w verdict).1.failed = false) :
    net.adaptOutcome (net.decide w verdict).1 = (net.decide w verdict).1 ↔
      w.Fits (.decide verdict : Event ι) := by
  cases hout : (net.decide w verdict).1 with
  | asks inbound => simpa [Network.adaptOutcome] using fits_of_not_answered net (by simp [hout])
  | expires result => simpa [Network.adaptOutcome] using fits_of_not_answered net (by simp [hout])
  | idle => simpa [Network.adaptOutcome] using fits_of_not_answered net (by simp [hout])
  | answers relay request result =>
      cases result with
      | error failure => simp [hout, Outcome.failed] at hanswered
      | ok answer =>
          obtain ⟨hanswers, hflush⟩ := decide_answers h hout
          simp only [Network.adaptOutcome, Outcome.answers.injEq, true_and]
          rw [validateAnswer_eq_iff hanswers, hflush]

/-- The adapter leaves the world as the relay does, and it gives out what the relay answers
unless a flush had more than 128 messages to decide on. -/
theorem adapter_refines_relay (net : Network ι) (events : List (Event ι)) (event : Event ι) :
    (net.adapted (net.after events) event).2 = (net.step (net.after events) event).2 ∧
      ((net.step (net.after events) event).1.failed = false →
        ((net.adapted (net.after events) event).1 = (net.step (net.after events) event).1 ↔
          (net.after events).Fits event)) := by
  have hsound := after_sound net events
  generalize net.after events = w at hsound
  cases event with
  | call relay request clock =>
      have hfits : w.Fits (.call relay request clock) := trivial
      simp only [Network.adapted, Network.step, hfits, iff_true]
      cases hadmitted : admitted (net.principal relay) (w.sending relay) request with
      | error failure =>
          simp only [Network.call, hadmitted]
          split <;> simp [Outcome.failed]
      | ok u =>
          rw [adapterAdmitted_of_admitted hadmitted]
          refine ⟨rfl, ?_⟩
          simp only [Network.call, hadmitted]
          cases relayNow (w.lastNowMs relay) clock with
          | error failure => simp [Outcome.failed]
          | ok now => exact perform_adapted hsound hadmitted
  | expire clock =>
      have hfits : w.Fits (.expire clock : Event ι) := trivial
      simp only [Network.adapted, Network.step, hfits, iff_true, true_and]
      intro _
      unfold World.expire
      split
      · rfl
      · split <;> rfl
  | decide verdict => exact ⟨rfl, decide_adapted hsound⟩

/-! ## A long flush -/

section

/-- The messages of the sample: each is one character longer than the last. -/
def sampleMessage (n : Nat) : Message where
  schemaVersion := 1
  messageId := String.ofList (List.replicate (n + 1) 'm')
  senderId := "sender"
  recipientId := "recipient"
  idempotencyKey := String.ofList (List.replicate (n + 1) 'm')
  text := "text"
  ttlMs := 1000

def sampleNow : Moment := ⟨0, by decide⟩

def sampleExpiry : Moment := ⟨1000, by decide⟩

/-- A sender and a recipient, with an inbox for more messages than an adapter gives out. -/
def sampleNetwork : Network Bool where
  principal := fun receives => if receives then "recipient" else "sender"
  limits := ⟨200, 200, 60000⟩

def sampleHeld (n : Nat) : MessageState :=
  (opened (sampleMessage n) sampleNow sampleExpiry).moved .held sampleNow

/-- The sender sends some messages, and the policy holds them. -/
def sampleSends : Nat → List (Event Bool)
  | 0 => []
  | n + 1 => sampleSends n ++
      [.call false (.send (sampleMessage n)) (some sampleNow), .decide (.decided .hold)]

theorem sampleMessage_wellFormed {n : Nat} (h : n < 256) : (sampleMessage n).WellFormed := by
  have hid : isIdentifierText (String.ofList (List.replicate (n + 1) 'm')) = true := by
    have hnames : String.ofList (List.replicate (n + 1) 'm') ∉ ["__proto__", "prototype", "constructor"] := by
      intro hmem
      have hhead : ∀ name ∈ ["__proto__", "prototype", "constructor"], name.toList.head? ≠ some 'm' := by
        decide +kernel
      exact hhead _ hmem (by simp [List.replicate_succ])
    have hchar : (!isJsSpace 'm' && 32 ≤ 'm'.toNat && 'm'.toNat ≠ 127) = true := by decide
    simp only [isIdentifierText, chars_ofList, List.length_replicate, Bool.and_eq_true,
      decide_eq_true_eq, List.all_eq_true, List.mem_replicate]
    refine ⟨⟨⟨by omega, by omega⟩, ?_⟩, hnames⟩
    rintro c ⟨-, rfl⟩
    simpa using hchar
  have htext : 1 ≤ byteLength (chars "text") ∧ byteLength (chars "text") ≤ maxTextBytes := by
    decide +kernel
  have hparties : isIdentifierText "sender" = true ∧ isIdentifierText "recipient" = true := by
    decide +kernel
  exact ⟨rfl, htext, ⟨by simp [sampleMessage], by simp [sampleMessage, maxTtlMs]⟩, hid, hparties.1,
    hparties.2, hid⟩

theorem sampleMessage_injective {n m : Nat}
    (h : (sampleMessage n).messageId = (sampleMessage m).messageId) : n = m := by
  have hlength := congrArg (fun id => id.toList.length) h
  simpa [sampleMessage] using hlength

theorem sample_room {n : Nat} (h : n < 200) :
    Room sampleNetwork.limits ((List.range n).map sampleHeld) (sampleMessage n) sampleNow := by
  have hfresh : ∀ other ∈ (List.range n).map sampleHeld,
      other.message.messageId ≠ (sampleMessage n).messageId := by
    intro other hother heq
    obtain ⟨m, hm, rfl⟩ := List.mem_map.mp hother
    have := sampleMessage_injective heq
    have := List.mem_range.mp hm
    omega
  have hlength : ((List.range n).map sampleHeld).length = n := by simp
  refine ⟨sampleMessage_wellFormed (by omega), hfresh, fun other hother _ => ?_, ?_, ?_, ?_⟩
  · obtain ⟨m, hm, rfl⟩ := List.mem_map.mp hother
    exact hfresh _ hother
  · simp only [hlength, maxMessages]
    omega
  · exact List.countP_le_length.trans_lt (hlength.trans_lt h)
  · exact List.countP_le_length.trans_lt (hlength.trans_lt h)

theorem sample_kept {box : List MessageState} {net : Network Bool} {events : List (Event Bool)}
    (h : Stores (net.after events).rows box) : Kept net.limits box := by
  obtain ⟨other, hother, hkept⟩ := Stack.stores (after_sound net events)
  exact hother.unique h hkept ▸ hkept

theorem relayNow_sampleNow {last : Option Int} (h : ∀ ms ∈ last, ms = 0) :
    relayNow last (some sampleNow) = .ok sampleNow := by
  have hany : (last.any fun ms => decide (sampleNow.ms < ms)) = false := by
    cases last with
    | none => rfl
    | some ms => simp [h ms rfl, sampleNow]
  simp [relayNow, hany]

theorem sample_time {rows : List Row} (h : ∀ row ∈ rows, row.occurredAt = sampleNow) :
    assertStoreTimeUnsafe rows sampleNow = .ok () := by
  rw [assertStoreTimeUnsafe, reject_eq_ok_iff, Option.any_eq_false]
  intro row hrow
  simp [h row (List.mem_of_getLast? hrow)]

/-- After its sends the sample holds their messages. -/
theorem sample_holds {n : Nat} (h : n ≤ 200) :
    Stores (sampleNetwork.after (sampleSends n)).rows ((List.range n).map sampleHeld) ∧
      (sampleNetwork.after (sampleSends n)).frames = [] ∧
      (∀ relay, (sampleNetwork.after (sampleSends n)).sending relay = false) ∧
      (∀ relay, ∀ ms ∈ (sampleNetwork.after (sampleSends n)).lastNowMs relay, ms = 0) ∧
      ∀ row ∈ (sampleNetwork.after (sampleSends n)).rows, row.occurredAt = sampleNow := by
  induction n with
  | zero => exact ⟨.nil, rfl, fun _ => rfl, by simp [sampleSends, Network.after, World.initial],
      by simp [sampleSends, Network.after, World.initial]⟩
  | succ n ih =>
      obtain ⟨hstores, hframes, hsending, hclock, htimes⟩ := ih (by omega)
      have hkept := sample_kept hstores
      have hroom := sample_room (n := n) (by omega)
      have hdue : ∀ s ∈ (List.range n).map sampleHeld, s.isDue sampleNow = false := by
        intro s hs
        obtain ⟨m, -, rfl⟩ := List.mem_map.mp hs
        rfl
      have htime := sample_time htimes
      obtain ⟨first, second, hfirst, hsecond, hfinish⟩ : ∃ first second,
          first.occurredAt = sampleNow ∧ second.occurredAt = sampleNow ∧
            finishSend sampleNetwork.limits (sampleMessage n) sampleNow .hold
                (sampleNetwork.after (sampleSends n)).rows =
              .ok (some (sampleHeld n),
                (sampleNetwork.after (sampleSends n)).rows ++ [first, second]) :=
        finishSend_of_room hstores hkept hroom rfl
      have hadmitted : admitted (sampleNetwork.principal false) false (.send (sampleMessage n)) = .ok () :=
        admit_send.mpr ⟨rfl, hroom.wellFormed, rfl⟩
      have hafter : sampleNetwork.after (sampleSends (n + 1)) =
          { sampleNetwork.after (sampleSends n) with
            rows := (sampleNetwork.after (sampleSends n)).rows ++ [first, second]
            lastNowMs := Function.update (sampleNetwork.after (sampleSends n)).lastNowMs false (some 0)
            sending := Function.update (Function.update
              (sampleNetwork.after (sampleSends n)).sending false true) false false } := by
        rw [sampleSends, Network.after, List.foldl_append]
        change (sampleNetwork.step (sampleNetwork.step (sampleNetwork.after (sampleSends n)) _).2 _).2 = _
        simp [Network.step, Network.call, hsending, hadmitted, relayNow_sampleNow (hclock false),
          Network.perform, beginSend_of_room hstores hkept hroom hdue htime, Network.decide,
          Verdict.decision, hfinish, bind, Except.bind]
        rfl
      have hstores' : Stores ((sampleNetwork.after (sampleSends n)).rows ++ [first, second])
          ((List.range (n + 1)).map sampleHeld) := by
        obtain ⟨s, hs, -, hnext, -⟩ := finishSend_eq_ok hstores hkept hfinish
        obtain rfl := Option.some.inj hs
        simpa [List.range_succ] using hnext
      rw [hafter]
      refine ⟨hstores', hframes, fun relay => ?_, fun relay ms hms => ?_, fun row hrow => ?_⟩
      · cases relay <;> simp [hsending]
      · cases relay with
        | false => simpa [eq_comm] using hms
        | true => exact hclock true ms (by simpa using hms)
      · simp only [List.mem_append, List.mem_cons, List.not_mem_nil, or_false] at hrow
        rcases hrow with hrow | rfl | rfl
        · exact htimes row hrow
        · exact hfirst
        · exact hsecond

/-- Holding the messages of a flush one by one leaves the last one to decide on. -/
theorem hold_all (net : Network ι) (relay : ι) (savepoint : List Row) (request : FlushRequest)
    (now : Moment) (frames : List (Frame ι)) (rest : List MessageState) :
    ∀ (w : World ι) (state : MessageState) (outcomes : List MessageState),
      w.frames = .flush relay savepoint request now state rest outcomes :: frames →
      ∃ last held, held.length = outcomes.length + rest.length ∧
        (List.replicate rest.length (Event.decide (.decided .hold))).foldl
            (fun w event => (net.step w event).2) w =
          { w with frames := .flush relay savepoint request now last [] held :: frames } := by
  induction rest with
  | nil =>
      intro w state outcomes hframes
      refine ⟨state, outcomes, rfl, ?_⟩
      rw [← hframes]
      rfl
  | cons next rest ih =>
      intro w state outcomes hframes
      have hstep : (net.step w (.decide (.decided .hold))).2 =
          { w with
            frames :=
              .flush relay savepoint request now next rest (outcomes ++ [state]) :: frames } := by
        simp [Network.step, Network.decide, hframes, World.flushNext, Verdict.decision, flushOne, bind,
          Except.bind]
      obtain ⟨last, held, hlength, hrest⟩ :=
        ih { w with
          frames := .flush relay savepoint request now next rest (outcomes ++ [state]) :: frames }
          next (outcomes ++ [state]) rfl
      refine ⟨last, held, ?_, ?_⟩
      · rw [hlength, List.length_append, List.length_singleton, List.length_cons]
        omega
      · rw [List.length_cons, List.replicate_succ, List.foldl_cons, hstep, hrest]

def sampleFlush : FlushRequest := ⟨1, "recipient"⟩

/-- The recipient flushes 129 held messages, and the policy holds all but the last again. -/
def sampleEvents : List (Event Bool) :=
  sampleSends 129 ++ .call true (.flushHeld sampleFlush) (some sampleNow) ::
    List.replicate 128 (.decide (.decided .hold))

/-- A flush of held messages that are not due asks about all of them. -/
theorem beginFlush_of_held {limits : Limits} {rows : List Row} {box : List MessageState}
    {recipientId : String} {now : Moment} (h : Stores rows box) (hkept : Kept limits box)
    (hheld : ∀ s ∈ box, s.message.recipientId = recipientId ∧ s.status = .held ∧ s.isDue now = false)
    (htime : assertStoreTimeUnsafe rows now = .ok ()) :
    beginFlush recipientId now rows = .ok (box, rows) := by
  have hexpire := expireUnsafe_of_not_due h hkept fun s hs => (hheld s hs).2.2
  have hall : (box.filter fun state => state.message.recipientId = recipientId &&
      state.status = .held) = box := by
    apply List.filter_eq_self.mpr
    intro s hs
    simp [(hheld s hs).1, (hheld s hs).2.1]
  simp [beginFlush, enter, htime, hexpire, h.states hkept.size, hall, bind, Except.bind]

/-- The last decision of the sample answers the flush with 129 messages. -/
theorem sample_answer : ∃ found : List MessageState, found.length = 129 ∧
    (sampleNetwork.step (sampleNetwork.after sampleEvents) (.decide (.decided .hold))).1 =
      .answers true (.flushHeld sampleFlush) (.ok (.states found)) := by
  obtain ⟨hstores, hframes, hsending, hclock, htimes⟩ := sample_holds (n := 129) (by omega)
  have hkept := sample_kept hstores
  have hheld : ∀ s ∈ (List.range 129).map sampleHeld, s.message.recipientId = "recipient" ∧
      s.status = .held ∧ s.isDue sampleNow = false := by
    intro s hs
    obtain ⟨m, -, rfl⟩ := List.mem_map.mp hs
    exact ⟨rfl, rfl, rfl⟩
  have hflush := beginFlush_of_held hstores hkept hheld (sample_time htimes)
  have hsplit : (List.range 129).map sampleHeld =
      sampleHeld 0 :: (List.range' 1 128).map sampleHeld := by
    rw [List.range_eq_range', List.range'_succ, List.map_cons]
  have hadmitted : admitted (sampleNetwork.principal true) false (.flushHeld sampleFlush) = .ok () := by
    decide +kernel
  rw [hsplit] at hflush
  change beginFlush sampleFlush.recipientId _ _ = _ at hflush
  obtain ⟨last, held, hlength, hafter⟩ := hold_all sampleNetwork true
    (sampleNetwork.after (sampleSends 129)).rows sampleFlush sampleNow
    (sampleNetwork.after (sampleSends 129)).frames ((List.range' 1 128).map sampleHeld)
    (sampleNetwork.step (sampleNetwork.after (sampleSends 129))
      (.call true (.flushHeld sampleFlush) (some sampleNow))).2 (sampleHeld 0) []
    (by simp [Network.step, Network.call, hsending, hadmitted, relayNow_sampleNow (hclock true),
      Network.perform, hflush])
  have hrun : sampleNetwork.after sampleEvents =
      (List.replicate 128 (.decide (.decided .hold))).foldl
        (fun w event => (sampleNetwork.step w event).2)
        (sampleNetwork.step (sampleNetwork.after (sampleSends 129))
          (.call true (.flushHeld sampleFlush) (some sampleNow))).2 := by
    rw [sampleEvents, Network.after, List.foldl_append, List.foldl_cons]
    rfl
  rw [List.length_map, List.length_range'] at hafter
  refine ⟨held ++ [last], by simp [hlength], ?_⟩
  rw [hrun, hafter]
  simp [Network.step, Network.decide, World.flushNext, Verdict.decision, flushOne, bind, Except.bind]

/-- An adapter does not give out every answer of the relay that it wraps. -/
theorem long_flush_refused : ¬ ∀ (net : Network Bool) (events : List (Event Bool)) (event : Event Bool),
    (net.step (net.after events) event).1.failed = false →
      (net.adapted (net.after events) event).1 = (net.step (net.after events) event).1 := by
  intro h
  obtain ⟨found, hlength, hanswer⟩ := sample_answer
  have hadapted := h sampleNetwork sampleEvents (.decide (.decided .hold)) (by rw [hanswer]; rfl)
  have hrefused : validateAnswer "recipient" (.flushHeld sampleFlush) (.states found) =
      .error (adapterInvalid "relay flush result is invalid") := by
    simp [validateAnswer, hlength, reject, bind, Except.bind]
  simp only [Network.adapted, hanswer, Network.adaptOutcome, Outcome.answers.injEq, true_and] at hadapted
  cases hrefused.symm.trans hadapted

end

end Hseos.Messages
