import Hseos.Computer.Runs

/-! # Replies and their actions

Every event that the channel has delivered is either the reply that some action took or still in
the queue. An action whose line the host received and that took no reply leaves one too many, and
from then on every action takes the reply to an earlier one.
-/

namespace Hseos.Computer

/-! ## Ended actions -/

def Answer.reply? : Answer → Option Json
  | .reply event => some event
  | _ => none

/-- The reply that an action took. -/
def Ended.reply? (ended : Ended) : Option Json := ended.answer.reply?

/-- The action's line reached the host, and it took no reply. -/
def Ended.unanswered (ended : Ended) : Bool := ended.reached && ended.reply?.isNone

/-- What holds of an action from its end on. -/
structure Ended.Faithful (capturing : Capturing) (ended : Ended) : Prop where
  report : ended.report = World.reportFor capturing ended.seq ended.action ended.answer
  reached : ended.reply?.isSome → ended.reached = true
  heard : ended.replied = true → ended.answer ≠ .timedOut ∧ ended.answer ≠ .closed

/-! ## The invariant -/

/-- The action in flight, if its line reached the host. -/
def World.underway (world : World) : List Nat :=
  match world.session.flight with
  | some flight => if flight.seq ∈ world.received then [flight.seq] else []
  | none => []

/-- The replies that were delivered went to the actions that ended, to the one that is about to
end, and to the queue. -/
structure World.Balanced (host : Host) (world : World) (taken : List Json) : Prop where
  fed : world.fed <+: world.output host
  buffer : world.session.events.buffer = (completeLines world.fed).2
  range : ∀ seq ∈ world.received, 0 < seq ∧ seq ≤ world.session.seq
  quota : world.session.seq ≤ maxActions
  increasing : world.received.Pairwise (· < ·)
  received : world.received =
    (world.log.filter Ended.reached).map Ended.seq ++ world.underway
  flow : world.delivered.map Channel.eventOf =
    world.log.filterMap Ended.reply? ++ taken ++ world.session.events.queue

structure World.Sound (capturing : Capturing) (host : Host) (world : World) : Prop where
  balanced : world.Balanced host []
  entries : ∀ ended ∈ world.log, ended.Faithful capturing
  flight : ∀ flight, world.session.flight = some flight →
    flight.seq = world.session.seq ∧ flight.sent = world.session.events.waiting ∧
      (flight.sent = true → flight.seq ∈ world.received)
  idle : world.session.flight = none → world.session.events.waiting = false
  hungry : world.session.events.waiting = true → world.session.events.queue = []

section

variable {capturing : Capturing} {host : Host} {world : World} {flight : Flight} {answer : Answer}

theorem sound_opened (capturing : Capturing) (host : Host) :
    World.opened.Sound capturing host where
  balanced :=
    { fed := List.nil_prefix
      buffer := rfl
      range := fun _ hseq => nomatch hseq
      quota := Nat.zero_le _
      increasing := .nil
      received := rfl
      flow := rfl }
  entries := fun _ hended => nomatch hended
  flight := fun _ hflight => nomatch hflight
  idle := fun _ => rfl
  hungry := fun hwaiting => nomatch hwaiting

@[simp] theorem finish_events (session : Session) (report : Report) :
    (session.finish report).events = session.events := by
  cases report <;> rfl

@[simp] theorem finish_seq (session : Session) (report : Report) :
    (session.finish report).seq = session.seq := by
  cases report <;> rfl

@[simp] theorem finish_flight (session : Session) (report : Report) :
    (session.finish report).flight = none := by
  cases report <;> rfl

/-- No more replies were taken than lines of ended actions reached the host. -/
theorem replies_le_reached {log : List Ended} (h : ∀ ended ∈ log, ended.Faithful capturing) :
    (log.filterMap Ended.reply?).length ≤ (log.filter Ended.reached).length := by
  induction log with
  | nil => exact Nat.le_refl _
  | cons ended rest ih =>
      have hrest := ih fun other hother => h other (List.mem_cons_of_mem _ hother)
      have hended := (h ended List.mem_cons_self).reached
      cases hreply : ended.reply? with
      | none =>
          rw [List.filterMap_cons_none hreply]
          exact hrest.trans ((List.sublist_cons_self ended rest).filter _).length_le
      | some event =>
          rw [List.filterMap_cons_some hreply, List.filter_cons_of_pos (hended (by simp [hreply]))]
          exact Nat.succ_le_succ hrest

/-- With an empty queue the reply to the action in flight has not been delivered. -/
theorem not_replied_of_empty (hbalanced : world.Balanced host [])
    (hentries : ∀ ended ∈ world.log, ended.Faithful capturing)
    (hflight : world.session.flight = some flight) (hreached : flight.seq ∈ world.received)
    (hqueue : world.session.events.queue = []) :
    flight.seq ∉ world.received.take world.delivered.length := by
  have hunderway : world.underway = [flight.seq] := by
    simp [World.underway, hflight, hreached]
  have hreceived := hbalanced.received
  rw [hunderway] at hreceived
  have hflow := congrArg List.length hbalanced.flow
  rw [hqueue, List.append_nil, List.append_nil, List.length_map] at hflow
  have hle := replies_le_reached hentries
  rw [← hflow] at hle
  have hincreasing := hbalanced.increasing
  rw [hreceived] at hincreasing ⊢
  intro hmem
  rw [List.take_append_of_le_length (by simpa using hle)] at hmem
  have hless := (List.pairwise_append.mp hincreasing).2.2 flight.seq (List.mem_of_mem_take hmem)
    flight.seq List.mem_cons_self
  exact Nat.lt_irrefl _ hless

/-- An action ends. -/
theorem sound_settle (hbalanced : world.Balanced host answer.reply?.toList)
    (hentries : ∀ ended ∈ world.log, ended.Faithful capturing)
    (hflight : world.session.flight = some flight)
    (hwaiting : world.session.events.waiting = false)
    (hreached : answer.reply?.isSome → flight.seq ∈ world.received)
    (hunheard : answer = .timedOut ∨ answer = .closed →
      flight.seq ∉ world.received.take world.delivered.length) :
    (world.settle capturing flight answer).Sound capturing host := by
  obtain ⟨hfed, hbuffer, hrange, hquota, hincreasing, hreceived, hflow⟩ := hbalanced
  constructor
  case balanced =>
    constructor
    case fed => exact hfed
    case buffer => simpa [World.settle] using hbuffer
    case range => simpa [World.settle] using hrange
    case quota => simpa [World.settle] using hquota
    case increasing => exact hincreasing
    case received =>
      have hunderway : world.underway =
          if flight.seq ∈ world.received then [flight.seq] else [] := by
        simp [World.underway, hflight]
      rw [hunderway] at hreceived
      by_cases hmem : flight.seq ∈ world.received
      · rw [if_pos hmem] at hreceived
        simpa [World.settle, World.underway, hmem] using hreceived
      · rw [if_neg hmem] at hreceived
        simpa [World.settle, World.underway, hmem] using hreceived
    case flow =>
      have hreply : Ended.reply? = fun ended : Ended => ended.answer.reply? := rfl
      cases hanswer : answer.reply? with
      | none => simpa [World.settle, World.delivered, hreply, hanswer] using hflow
      | some event => simpa [World.settle, World.delivered, hreply, hanswer] using hflow
  case entries =>
    intro ended hended
    rcases List.mem_append.mp hended with hended | hended
    · exact hentries ended hended
    · rw [List.mem_singleton.mp hended]
      exact ⟨rfl, fun hsome => decide_eq_true (hreached hsome), fun hreplied =>
        ⟨fun hanswer => hunheard (.inl hanswer) (of_decide_eq_true hreplied),
          fun hanswer => hunheard (.inr hanswer) (of_decide_eq_true hreplied)⟩⟩
  case flight => intro other hother; simp [World.settle] at hother
  case idle => intro _; simpa [World.settle] using hwaiting
  case hungry => intro hother; simp [World.settle, hwaiting] at hother

/-! ## Moves -/

theorem perform_eq_ok {session next : Session} {action : Action}
    (h : session.perform action = .ok next) :
    session.flight = none ∧ session.seq < maxActions ∧
      next = { session with
        seq := session.seq + 1, flight := some ⟨session.seq + 1, action, false⟩ } := by
  unfold Session.perform at h
  split at h
  next => cases h
  next hbusy =>
    split at h
    next => cases h
    next hquota =>
      split at h
      next => cases h
      next => exact ⟨by simpa using hbusy, Nat.lt_of_not_le hquota, (Except.ok.inj h).symm⟩

theorem World.Sound.perform {action : Action} {session : Session}
    (hsound : world.Sound capturing host) (h : world.session.perform action = .ok session)
    (reaches : Bool) :
    { world with
      session := session
      received := if reaches then world.received ++ [session.seq] else world.received }.Sound
        capturing host := by
  obtain ⟨hflight, hquota, rfl⟩ := perform_eq_ok h
  obtain ⟨⟨hfed, hbuffer, hrange, -, hincreasing, hreceived, hflow⟩, hentries, -, hidle, hhungry⟩ :=
    hsound
  have hwaiting := hidle hflight
  have hunderway : world.underway = [] := by simp [World.underway, hflight]
  have hfresh : world.session.seq + 1 ∉ world.received := fun hmem =>
    Nat.not_succ_le_self _ (hrange _ hmem).2
  rw [hunderway, List.append_nil] at hreceived
  constructor
  case balanced =>
    constructor
    case fed =>
      refine hfed.trans ?_
      cases reaches with
      | false => exact List.prefix_rfl
      | true => simp [World.output]
    case buffer => exact hbuffer
    case range =>
      intro seq hseq
      have hcases : seq ∈ world.received ∨ seq = world.session.seq + 1 := by
        cases reaches <;> simp_all
      rcases hcases with hold | rfl
      · exact ⟨(hrange seq hold).1, (hrange seq hold).2.trans (Nat.le_succ _)⟩
      · exact ⟨Nat.succ_pos _, Nat.le_refl _⟩
    case quota => exact hquota
    case increasing =>
      cases reaches with
      | false => exact hincreasing
      | true =>
          refine List.pairwise_append.mpr ⟨hincreasing, List.pairwise_singleton _ _, ?_⟩
          intro seq hseq other hother
          rw [List.mem_singleton.mp hother]
          exact Nat.lt_succ_of_le (hrange seq hseq).2
    case received =>
      cases reaches with
      | false => simpa [World.underway, hfresh] using hreceived
      | true => simpa [World.underway] using hreceived
    case flow => exact hflow
  case entries => exact hentries
  case flight =>
    rintro _ ⟨⟩
    exact ⟨rfl, hwaiting.symm, fun hsent => nomatch hsent⟩
  case idle => intro hnone; cases hnone
  case hungry => exact hhungry

/-- The parts of the invariant that a new channel and a new wait leave alone. -/
theorem World.Balanced.withEvents {events : Channel} {taken more : List Json}
    (hbalanced : world.Balanced host taken) (hbuffer : events.buffer = world.session.events.buffer)
    (hflow : more ++ events.queue = taken ++ world.session.events.queue) :
    (world.withEvents events).Balanced host more := by
  obtain ⟨hfed, hold, hrange, hquota, hincreasing, hreceived, hall⟩ := hbalanced
  constructor
  case fed => exact hfed
  case buffer => exact hbuffer.trans hold
  case range => exact hrange
  case quota => exact hquota
  case increasing => exact hincreasing
  case received => exact hreceived
  case flow =>
    rw [List.append_assoc, ← hflow, ← List.append_assoc] at hall
    exact hall

theorem World.Sound.rejected {message : String} (hsound : world.Sound capturing host)
    (hflight : world.session.flight = some flight) (hsent : flight.sent = false) :
    (world.settle capturing flight (.rejected message)).Sound capturing host := by
  have hwaiting := (hsound.flight flight hflight).2.1
  rw [hsent] at hwaiting
  apply sound_settle hsound.balanced hsound.entries hflight hwaiting.symm
  · intro hsome
    cases hsome
  · intro hanswer
    rcases hanswer with h | h <;> cases h

/-- The wait of an action ends without a reply while the queue is empty. -/
theorem World.Sound.unheard {events : Channel} (hsound : world.Sound capturing host)
    (hflight : world.session.flight = some flight) (hreached : flight.seq ∈ world.received)
    (hqueue : world.session.events.queue = []) (hevents : events.queue = [])
    (hbuffer : events.buffer = world.session.events.buffer) (hwaiting : events.waiting = false)
    (hanswer : answer.reply? = none) :
    ((world.withEvents events).settle capturing flight answer).Sound capturing host := by
  have hnot := not_replied_of_empty hsound.balanced hsound.entries hflight hreached hqueue
  have hbalanced : (world.withEvents events).Balanced host answer.reply?.toList := by
    rw [hanswer]
    exact hsound.balanced.withEvents hbuffer (by rw [hevents, hqueue]; rfl)
  apply sound_settle hbalanced hsound.entries hflight hwaiting
  · intro hsome
    rw [hanswer] at hsome
    cases hsome
  · intro _
    exact hnot

theorem World.Sound.waits {action : Action} (hsound : world.Sound capturing host)
    (hflight : world.session.flight = some ⟨world.session.seq, action, false⟩)
    (hreached : world.session.seq ∈ world.received)
    (hqueue : world.session.events.queue = []) :
    { world with
      session := { world.session with
        events := { world.session.events with waiting := true }
        flight := some ⟨world.session.seq, action, true⟩ } }.Sound capturing host := by
  obtain ⟨⟨hfed, hbuffer, hrange, hquota, hincreasing, hreceived, hflow⟩, hentries, -, -, -⟩ := hsound
  have hunderway : world.underway = [world.session.seq] := by
    simp [World.underway, hflight, hreached]
  rw [hunderway] at hreceived
  constructor
  case balanced =>
    refine ⟨hfed, hbuffer, hrange, hquota, hincreasing, ?_, hflow⟩
    simpa [World.underway, hreached] using hreceived
  case entries => exact hentries
  case flight =>
    rintro _ ⟨⟩
    exact ⟨rfl, rfl, fun _ => hreached⟩
  case idle => intro hnone; cases hnone
  case hungry => intro _; exact hqueue

theorem World.Sound.takes {event : Json} {rest : List Json} (hsound : world.Sound capturing host)
    (hflight : world.session.flight = some flight) (hsent : flight.sent = false)
    (hreached : flight.seq ∈ world.received)
    (hqueue : world.session.events.queue = event :: rest) :
    ((world.withEvents { world.session.events with queue := rest }).settle capturing flight
      (.reply event)).Sound capturing host := by
  have hwaiting := (hsound.flight flight hflight).2.1
  rw [hsent] at hwaiting
  have hbalanced : (world.withEvents { world.session.events with queue := rest }).Balanced host
      [event] :=
    hsound.balanced.withEvents rfl (by rw [hqueue]; rfl)
  refine @sound_settle capturing host _ flight (.reply event) hbalanced hsound.entries hflight
    hwaiting.symm ?_ ?_
  · intro _
    exact hreached
  · intro hanswer
    rcases hanswer with h | h <;> cases h

/-- A frame within the limit of the output delivers its complete lines in turn. -/
theorem feed_eq (hbuffer : world.session.events.buffer = (completeLines world.fed).2)
    {text : List Char} (hlimit : byteLength (world.fed ++ text) ≤ World.maxOutputBytes) :
    world.session.events.feed text =
      ({ world.session.events with buffer := (completeLines (world.fed ++ text)).2 }).deliverAll
        ((completeLines (world.session.events.buffer ++ text)).1.map Channel.eventOf) := by
  have hshort : unitLength (world.session.events.buffer ++ text) ≤ maxLineBytes := by
    have hall := unitLength_le_byteLength (world.fed ++ text)
    have hsuffix : world.session.events.buffer <:+ world.fed := by
      rw [hbuffer]
      exact ⟨_, linesText_completeLines world.fed⟩
    obtain ⟨before, hbefore⟩ := hsuffix
    have hmax : World.maxOutputBytes ≤ maxLineBytes := by decide
    have hfed : world.fed ++ text = before ++ (world.session.events.buffer ++ text) := by
      rw [← List.append_assoc, hbefore]
    rw [hfed, unitLength_append] at hall
    rw [hfed] at hlimit
    omega
  have htail : (completeLines (world.fed ++ text)).2 =
      (completeLines (world.session.events.buffer ++ text)).2 := by
    rw [completeLines_append, hbuffer]
  rw [Channel.feed, if_neg (Nat.not_lt_of_le hshort), htail]

/-- A frame that the host writes adds to the replies that were delivered. -/
theorem World.Balanced.frame {text : List Char} {events : Channel} {taken : List Json}
    (hbalanced : world.Balanced host []) (hbegins : world.fed ++ text <+: world.output host)
    (hbuffer : events.buffer = (completeLines (world.fed ++ text)).2)
    (hflow : taken ++ events.queue = world.session.events.queue ++
      (completeLines (world.session.events.buffer ++ text)).1.map Channel.eventOf) :
    ({ world.withEvents events with fed := world.fed ++ text }).Balanced host taken := by
  obtain ⟨-, hold, hrange, hquota, hincreasing, hreceived, hall⟩ := hbalanced
  constructor
  case fed => exact hbegins
  case buffer => exact hbuffer
  case range => exact hrange
  case quota => exact hquota
  case increasing => exact hincreasing
  case received => exact hreceived
  case flow =>
    have hdelivered : (completeLines (world.fed ++ text)).1 =
        world.delivered ++ (completeLines (world.session.events.buffer ++ text)).1 := by
      rw [completeLines_append, hold]
      rfl
    rw [List.append_nil] at hall
    rw [List.append_assoc, World.withEvents, hflow, ← List.append_assoc, ← hall, ← List.map_append,
      ← hdelivered]
    rfl

@[simp] theorem resolved_none (world : World) (answer : Json → Answer) :
    world.resolved capturing none answer = world := by
  unfold World.resolved
  split
  next hgot => cases hgot
  next => rfl

theorem sound_resolved {event : Json} {answer : Json → Answer}
    (hflight : world.session.flight = some flight)
    (h : (world.settle capturing flight (answer event)).Sound capturing host) :
    (world.resolved capturing (some event) answer).Sound capturing host := by
  unfold World.resolved
  rw [hflight]
  exact h

/-- An action waits whenever the channel does. -/
theorem World.Sound.exists_flight (hsound : world.Sound capturing host)
    (hwaiting : world.session.events.waiting = true) :
    ∃ flight, world.session.flight = some flight ∧ flight.seq ∈ world.received := by
  cases hflight : world.session.flight with
  | none =>
      rw [hsound.idle hflight] at hwaiting
      cases hwaiting
  | some flight =>
      obtain ⟨-, hsent, hreached⟩ := hsound.flight flight hflight
      exact ⟨flight, rfl, hreached (hsent.trans hwaiting)⟩

theorem World.Sound.frame {text : List Char} (hsound : world.Sound capturing host)
    (hbegins : world.fed ++ text <+: world.output host)
    (hlimit : byteLength (world.fed ++ text) ≤ World.maxOutputBytes) :
    (({ world.withEvents (world.session.events.feed text).1 with
        fed := world.fed ++ text }).resolved capturing
      (world.session.events.feed text).2 .reply).Sound capturing host := by
  have hfeed := feed_eq hsound.balanced.buffer hlimit
  have hframe := fun events taken =>
    @World.Balanced.frame host world text events taken hsound.balanced hbegins
  generalize hevents : (completeLines (world.session.events.buffer ++ text)).1.map
    Channel.eventOf = events at hfeed hframe
  cases hwaiting : world.session.events.waiting with
  | false =>
      have hidle := @Channel.deliverAll_idle { world.session.events with
        buffer := (completeLines (world.fed ++ text)).2 } hwaiting events
      rw [hfeed, hidle, resolved_none]
      refine ⟨hframe _ [] rfl rfl, hsound.entries, hsound.flight, hsound.idle, fun hnow => ?_⟩
      rw [hwaiting] at hnow
      cases hnow
  | true =>
      have hqueue := hsound.hungry hwaiting
      cases events with
      | nil =>
          rw [hfeed, Channel.deliverAll, resolved_none]
          exact ⟨hframe _ [] rfl (by rw [List.append_nil]; rfl), hsound.entries, hsound.flight,
            hsound.idle, hsound.hungry⟩
      | cons event rest =>
          obtain ⟨flight, hflight, hreached⟩ := hsound.exists_flight hwaiting
          have htaken := @Channel.deliverAll_waiting { world.session.events with
            buffer := (completeLines (world.fed ++ text)).2 } hwaiting event rest
          rw [hfeed, htaken]
          refine sound_resolved hflight ?_
          have hbalanced := hframe { world.session.events with
            buffer := (completeLines (world.fed ++ text)).2
            waiting := false
            queue := world.session.events.queue ++ rest } [event] rfl (by rw [hqueue]; rfl)
          refine @sound_settle capturing host _ flight (.reply event) hbalanced hsound.entries
            hflight rfl ?_ ?_
          · intro _
            exact hreached
          · intro hanswer
            rcases hanswer with h | h <;> cases h

theorem World.Sound.expire (hsound : world.Sound capturing host)
    (hwaiting : world.session.events.waiting = true) :
    ((world.withEvents world.session.events.expire.1).resolved capturing
      world.session.events.expire.2 fun _ => .timedOut).Sound capturing host := by
  obtain ⟨flight, hflight, hreached⟩ := hsound.exists_flight hwaiting
  have hqueue := hsound.hungry hwaiting
  refine sound_resolved hflight ?_
  exact hsound.unheard hflight hreached hqueue hqueue rfl rfl rfl

theorem World.Sound.close (hsound : world.Sound capturing host) :
    ((world.withEvents world.session.events.close.1).resolved capturing
      world.session.events.close.2 fun _ => .closed).Sound capturing host := by
  cases hwaiting : world.session.events.waiting with
  | false =>
      have hclose : world.session.events.close =
          ({ world.session.events with closed := true }, none) := by
        simp [Channel.close, hwaiting]
      rw [hclose, resolved_none]
      exact ⟨hsound.balanced.withEvents rfl rfl, hsound.entries, hsound.flight, hsound.idle,
        hsound.hungry⟩
  | true =>
      obtain ⟨flight, hflight, hreached⟩ := hsound.exists_flight hwaiting
      have hqueue := hsound.hungry hwaiting
      have hclose : world.session.events.close =
          ({ world.session.events with closed := true, waiting := false },
            some Channel.closedEvent) := by
        simp [Channel.close, Channel.deliver, hwaiting]
      rw [hclose]
      refine sound_resolved hflight ?_
      exact hsound.unheard hflight hreached hqueue hqueue rfl rfl rfl

/-- Every move keeps the invariant. -/
theorem World.Sound.step {move : Move} {next : World} (hsound : world.Sound capturing host)
    (h : world.step capturing host move = .ok next) : next.Sound capturing host := by
  cases move with
  | perform action reaches =>
      obtain ⟨-, h⟩ := reject_bind_eq_ok_iff.mp h
      split at h
      next =>
        cases h
        exact hsound
      next session hsession =>
        cases h
        exact hsound.perform hsession reaches
  | accepted =>
      unfold World.step at h
      simp only at h
      split at h
      next seq action hflight =>
        split at h
        next hreached =>
          obtain ⟨rfl, hwaiting, -⟩ := hsound.flight _ hflight
          cases hqueue : world.session.events.queue with
          | cons event rest =>
              simp only [Channel.next, hqueue] at h
              cases h
              exact hsound.takes hflight rfl hreached hqueue
          | nil =>
              cases hclosed : world.session.events.closed with
              | true =>
                  simp only [Channel.next, hqueue, hclosed, reduceIte] at h
                  cases h
                  exact hsound.unheard hflight hreached hqueue hqueue rfl hwaiting.symm rfl
              | false =>
                  have hnext : world.session.events.next =
                      ({ world.session.events with waiting := true }, none) := by
                    simp [Channel.next, hqueue, hclosed]
                  rw [hnext] at h
                  cases h
                  exact hsound.waits hflight hreached hqueue
        next => cases h
      next => cases h
  | rejected message =>
      unfold World.step at h
      simp only at h
      split at h
      next seq action hflight =>
        cases h
        exact hsound.rejected hflight rfl
      next => cases h
  | frame text =>
      unfold World.step at h
      simp only at h
      split at h
      next hframe =>
        cases h
        exact hsound.frame hframe.1 hframe.2
      next => cases h
  | expire =>
      unfold World.step at h
      simp only at h
      split at h
      next hwaiting =>
        cases h
        exact hsound.expire hwaiting
      next => cases h
  | close =>
      cases h
      exact hsound.close

/-! ## Replies and reports -/

theorem World.Sound.of_run {moves : List Move}
    (h : run (World.step capturing host) World.opened moves = .ok world) :
    world.Sound capturing host :=
  run_invariant (sound_opened capturing host) (fun _ _ _ hsound hstep => hsound.step hstep) h

/-- The lines that reached the host are those of the actions that took a reply and of those that
took none. -/
theorem reached_eq_add {log : List Ended} (h : ∀ ended ∈ log, ended.Faithful capturing) :
    (log.filter Ended.reached).length =
      (log.filterMap Ended.reply?).length + (log.filter Ended.unanswered).length := by
  induction log with
  | nil => rfl
  | cons ended rest ih =>
      have hrest := ih fun other hother => h other (List.mem_cons_of_mem _ hother)
      have hended := (h ended List.mem_cons_self).reached
      cases hreply : ended.reply? with
      | some event =>
          have hreached : ended.reached = true := hended (by simp [hreply])
          simp [Ended.unanswered, hreply, hreached, hrest]
          omega
      | none =>
          cases hreached : ended.reached <;>
            simp [Ended.unanswered, hreply, hreached, hrest]
          omega

/-- An action takes the reply to the line whose place is the number of replies taken before. -/
theorem World.Sound.taken {before after : List Ended} {ended : Ended} {event : Json}
    (hsound : world.Sound capturing host) (hlog : world.log = before ++ ended :: after)
    (hreply : ended.reply? = some event) :
    ∃ seq, world.received[(before.filterMap Ended.reply?).length]? = some seq ∧
      event = Channel.eventOf (host.reply seq) := by
  have hlines : world.delivered <+: world.received.map host.reply := by
    apply completeLines_of_prefix ?_ hsound.balanced.fed
    intro line hline
    obtain ⟨seq, -, rfl⟩ := List.mem_map.mp hline
    exact host.oneLine seq
  obtain ⟨rest, hrest⟩ := hlines.map Channel.eventOf
  have hflow := hsound.balanced.flow
  rw [hlog, List.filterMap_append, List.filterMap_cons_some hreply] at hflow
  rw [hflow, List.append_nil, List.map_map] at hrest
  have hevent := congrArg (·[(before.filterMap Ended.reply?).length]?) hrest
  simp only [List.append_assoc, List.getElem?_append_right (Nat.le_refl _), Nat.sub_self,
    List.cons_append, List.getElem?_cons_zero, List.getElem?_map] at hevent
  obtain ⟨seq, hseq, hmap⟩ := Option.map_eq_some_iff.mp hevent.symm
  exact ⟨seq, hseq, hmap.symm⟩

/-- The lines of the actions up to one whose line reached the host. -/
theorem World.Sound.received_split {before after : List Ended} {ended : Ended}
    (hsound : world.Sound capturing host) (hlog : world.log = before ++ ended :: after)
    (hreached : ended.reached = true) :
    ∃ rest, world.received =
      (before.filter Ended.reached).map Ended.seq ++ ended.seq :: rest := by
  refine ⟨(after.filter Ended.reached).map Ended.seq ++ world.underway,
    hsound.balanced.received.trans ?_⟩
  rw [hlog, List.filter_append, List.filter_cons_of_pos hreached, List.map_append,
    List.append_assoc, List.map_cons, List.cons_append]

/-- A reply with another sequence is an invalid output. -/
theorem reportOf_other {seq other : Nat} (action : Action) (hpositive : 0 < other)
    (hquota : other ≤ maxActions) (hne : other ≠ seq) :
    reportOf capturing seq action (Channel.eventOf (host.reply other)) =
      unsuccessful seq action "ENV_COMPUTER_OUTPUT_INVALID" := by
  obtain ⟨hevent, hseq⟩ := host.numbered other hpositive hquota
  have hnull : Channel.eventOf (host.reply other) ≠ .null := by
    intro hnull
    rw [hnull] at hevent
    cases hevent
  have hnumber : Json.ofNat other ≠ Json.ofNat seq := fun h => hne (Json.ofNat_injective h)
  simp [reportOf, hnull, hevent, hseq, hnumber]

/-- An action whose own reply is delivered before its wait ends is reported with the outcome of
that reply exactly if no line of an earlier action was left without a reply that was taken, or if
its own reply is itself reported as an invalid output. -/
theorem reply_reported_iff (capturing : Capturing) (host : Host) {moves : List Move}
    {world : World} (hrun : run (World.step capturing host) World.opened moves = .ok world)
    {before after : List Ended} {ended : Ended} (hlog : world.log = before ++ ended :: after)
    (hsent : ∀ message, ended.answer ≠ .rejected message) (hreplied : ended.replied = true) :
    ended.report = reportOf capturing ended.seq ended.action
        (Channel.eventOf (host.reply ended.seq)) ↔
      (∀ earlier ∈ before, earlier.unanswered = false) ∨
        reportOf capturing ended.seq ended.action (Channel.eventOf (host.reply ended.seq)) =
          unsuccessful ended.seq ended.action "ENV_COMPUTER_OUTPUT_INVALID" := by
  have hsound := World.Sound.of_run hrun
  have hfaithful := hsound.entries ended (by rw [hlog]; simp)
  obtain ⟨event, hanswer⟩ : ∃ event, ended.answer = .reply event := by
    obtain ⟨htimedOut, hclosed⟩ := hfaithful.heard hreplied
    cases hanswer : ended.answer with
    | reply event => exact ⟨event, rfl⟩
    | timedOut => exact absurd hanswer htimedOut
    | closed => exact absurd hanswer hclosed
    | rejected message => exact absurd hanswer (hsent message)
  have hreply : ended.reply? = some event := by rw [Ended.reply?, hanswer]; rfl
  have hreport : ended.report = reportOf capturing ended.seq ended.action event := by
    rw [hfaithful.report, hanswer]
    rfl
  obtain ⟨seq, hplace, rfl⟩ := hsound.taken hlog hreply
  obtain ⟨rest, hreceived⟩ :=
    hsound.received_split hlog (hfaithful.reached (by rw [hreply]; rfl))
  have hbefore : ∀ other ∈ before, other.Faithful capturing := by
    intro other hother
    exact hsound.entries other (by rw [hlog]; exact List.mem_append_left _ hother)
  have hcount := reached_eq_add hbefore
  rw [hreport]
  rw [hreceived] at hplace
  by_cases hanswered : ∀ earlier ∈ before, earlier.unanswered = false
  · -- every earlier line has its reply taken, so the next reply is the action's own
    have hnone : before.filter Ended.unanswered = [] := by
      rw [List.filter_eq_nil_iff]
      exact fun earlier hearlier => Bool.eq_false_iff.mp (hanswered earlier hearlier)
    rw [hnone, List.length_nil, Nat.add_zero] at hcount
    have hlength : ((before.filter Ended.reached).map Ended.seq).length =
        (before.filterMap Ended.reply?).length := by
      rw [List.length_map, hcount]
    rw [List.getElem?_append_right (le_of_eq hlength), hlength, Nat.sub_self,
      List.getElem?_cons_zero] at hplace
    obtain rfl : ended.seq = seq := Option.some.inj hplace
    exact ⟨fun _ => .inl hanswered, fun _ => rfl⟩
  · -- some earlier line is ahead in the count of replies, so the reply is one to such a line
    have hsome : 0 < (before.filter Ended.unanswered).length := by
      rw [List.length_pos_iff_exists_mem]
      push Not at hanswered
      obtain ⟨earlier, hearlier, hunanswered⟩ := hanswered
      exact ⟨earlier, List.mem_filter.mpr ⟨hearlier, by simpa using hunanswered⟩⟩
    have hlength : (before.filterMap Ended.reply?).length <
        ((before.filter Ended.reached).map Ended.seq).length := by
      rw [List.length_map]
      omega
    rw [List.getElem?_append_left hlength] at hplace
    have hmem := List.mem_of_getElem? hplace
    have hincreasing := hsound.balanced.increasing
    rw [hreceived] at hincreasing
    have hless := (List.pairwise_append.mp hincreasing).2.2 seq hmem ended.seq List.mem_cons_self
    have hrange := hsound.balanced.range seq (by rw [hreceived]; exact List.mem_append_left _ hmem)
    rw [reportOf_other ended.action hrange.1 (hrange.2.trans hsound.balanced.quota)
      (Nat.ne_of_lt hless)]
    exact ⟨fun heq => .inr heq.symm, fun hor => (hor.resolve_left hanswered).symm⟩

end

/-! ## A late reply -/

/-- What the host replies to an action that it has executed. -/
def sampleEvent (seq : Nat) : Json :=
  .obj [("event", .str "result"), ("ok", .bool true), ("target_alive", .bool true),
    ("seq", .ofNat seq)]

def sampleReply (seq : Nat) : List Char := (sampleEvent seq).textBy id

def sampleStart : List Char :=
  "\x7b\"event\":\"result\",\"ok\":true,\"target_alive\":true,\"seq\":".toList

theorem sampleReply_eq (seq : Nat) :
    sampleReply seq = sampleStart ++ (Nat.repr seq).toList ++ ['\x7d'] := by
  have hnumber : (Json.ofNat seq).textBy id = (Nat.repr seq).toList := rfl
  rw [sampleReply, sampleEvent, Json.textBy]
  simp only [Json.memberTexts, hnumber]
  rfl

theorem sampleReply_numbers_low : '\n' ∉ sampleStart ∧ ∀ seq ∈ List.range 21,
    (numberOfToken (Nat.repr seq)).map Json.num = some (.ofNat seq) := by
  decide +kernel

theorem sampleReply_numbers_high : ∀ seq ∈ List.range' 21 20,
    (numberOfToken (Nat.repr seq)).map Json.num = some (.ofNat seq) := by
  decide +kernel

theorem sampleReply_number {seq : Nat} (h : seq ≤ maxActions) :
    (numberOfToken (Nat.repr seq)).map Json.num = some (.ofNat seq) := by
  rw [maxActions] at h
  rcases Nat.lt_or_ge seq 21 with hlow | hhigh
  · exact sampleReply_numbers_low.2 seq (List.mem_range.mpr hlow)
  · exact sampleReply_numbers_high seq (List.mem_range'_1.mpr ⟨hhigh, by omega⟩)

theorem sampleReply_oneLine (seq : Nat) : '\n' ∉ sampleReply seq := by
  rw [sampleReply_eq]
  intro hmem
  rcases List.mem_append.mp hmem with hmem | hclose
  · rcases List.mem_append.mp hmem with hopen | hnumber
    · exact sampleReply_numbers_low.1 hopen
    · rw [Nat.toList_repr] at hnumber
      have hdigit := Nat.isDigit_of_mem_toDigits (by omega) (by omega) hnumber
      exact absurd hdigit (by decide)
  · exact absurd hclose (by decide)

theorem eventOf_sampleReply {seq : Nat} (h : seq ≤ maxActions) :
    Channel.eventOf (sampleReply seq) = sampleEvent seq := by
  have hread : parseJson (String.ofList (sampleReply seq)) = some (sampleEvent seq) := by
    apply parseText_text
    have hnumber := sampleReply_number h
    obtain ⟨value, hvalue, hnum⟩ := Option.map_eq_some_iff.mp hnumber
    have hreadable : (Json.ofNat seq).Readable numberOfToken := by
      refine ⟨_, rfl, hvalue.trans ?_⟩
      exact congrArg some (Json.num.inj hnum)
    have hnames : ["event", "ok", "target_alive", "seq"].Nodup := by decide
    exact ⟨hnames, trivial, trivial, trivial, hreadable, trivial⟩
  rw [Channel.eventOf, hread]
  rfl

def sampleHost : Host where
  reply := sampleReply
  oneLine := sampleReply_oneLine
  numbered seq _ hquota := by
    rw [eventOf_sampleReply hquota]
    exact ⟨rfl, rfl⟩

def sampleCapturing : Capturing := ⟨fun _ _ _ => .ok none, fun _ => true⟩

def sampleAction : Action := ⟨"key", .obj [("key", .str "Return")]⟩

/-- An action that hears its reply. -/
def promptMoves : List Move :=
  [.perform sampleAction true, .accepted, .frame (sampleReply 1 ++ ['\n'])]

/-- An action whose reply arrives behind its wait, and one whose reply arrives in time. -/
def lateMoves : List Move :=
  [.perform sampleAction true, .accepted, .expire, .frame (sampleReply 1 ++ ['\n']),
    .perform sampleAction true, .frame (sampleReply 2 ++ ['\n']), .accepted]

theorem sample_runs :
    (runsTo (World.step sampleCapturing sampleHost) World.opened promptMoves
        (fun world => world.log.map (fun ended => (ended.reply?.isSome, ended.replied)) =
          [(true, true)]) = true) ∧
      runsTo (World.step sampleCapturing sampleHost) World.opened lateMoves
        (fun world => world.log.map (fun ended =>
            (ended.reply?.isSome, ended.replied, ended.seq, ended.action, ended.report)) =
          [(false, false, 1, sampleAction, unsuccessful 1 sampleAction "ENV_COMPUTER_TIMEOUT"),
            (true, true, 2, sampleAction,
              unsuccessful 2 sampleAction "ENV_COMPUTER_OUTPUT_INVALID")]) = true ∧
      reportOf sampleCapturing 2 sampleAction (Channel.eventOf (sampleReply 2)) =
        .executed 2 "key" true := by
  decide +kernel

theorem sent_of_reply {ended : Ended} (h : ended.reply?.isSome = true) (message : String) :
    ended.answer ≠ .rejected message := by
  intro hanswer
  rw [Ended.reply?, hanswer] at h
  cases h

/-- Heard in time, and reported so. -/
theorem reply_reported_sample : ∃ world ended,
    run (World.step sampleCapturing sampleHost) World.opened promptMoves = .ok world ∧
      world.log = [ended] ∧ ended.report = reportOf sampleCapturing ended.seq ended.action
        (Channel.eventOf (sampleHost.reply ended.seq)) := by
  obtain ⟨world, hrun, hcheck⟩ := runsTo_iff.mp sample_runs.1
  obtain ⟨ended, hlog, hended⟩ := List.map_eq_singleton_iff.mp (of_decide_eq_true hcheck)
  obtain ⟨hreply, hreplied⟩ := Prod.mk.inj hended
  have hwhole : world.log = [] ++ ended :: [] := hlog
  exact ⟨world, ended, hrun, hlog,
    (reply_reported_iff sampleCapturing sampleHost hrun hwhole (sent_of_reply hreply) hreplied).mpr
      (.inl fun earlier hearlier => nomatch hearlier)⟩

/-- The second action has its reply in time, and is reported with an invalid output, since the late
reply to the first one was still in the queue. -/
theorem late_reply_misreported : ∃ world earlier ended,
    run (World.step sampleCapturing sampleHost) World.opened lateMoves = .ok world ∧
      world.log = [earlier, ended] ∧ (∀ message, ended.answer ≠ .rejected message) ∧
      ended.replied = true ∧ ended.report ≠ reportOf sampleCapturing ended.seq ended.action
        (Channel.eventOf (sampleHost.reply ended.seq)) := by
  obtain ⟨-, hruns, hown⟩ := sample_runs
  obtain ⟨world, hrun, hcheck⟩ := runsTo_iff.mp hruns
  obtain ⟨earlier, rest, hlog, -, hrest⟩ := List.map_eq_cons_iff.mp (of_decide_eq_true hcheck)
  obtain ⟨ended, rfl, hended⟩ := List.map_eq_singleton_iff.mp hrest
  simp only [Prod.mk.injEq] at hended
  obtain ⟨hreply, hreplied, hseq, haction, hreport⟩ := hended
  refine ⟨world, earlier, ended, hrun, hlog, sent_of_reply hreply, hreplied, ?_⟩
  have hreplyOf : sampleHost.reply 2 = sampleReply 2 := rfl
  rw [hseq, haction, hreport, hreplyOf, hown]
  intro hequal
  cases hequal

end Hseos.Computer
