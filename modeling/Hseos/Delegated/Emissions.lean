import Hseos.Delegated.Accepted
import Hseos.Delegated.Host

/-! # What the operations record

Whatever other hosts do meanwhile, each operation only appends facts of its own kind,
each of them to the state that the operation continues. What a turn knows of that state
is what its last read showed.
-/

namespace Hseos.Delegated

/-! ## Facts of an operation -/

/-- The lease names the worker of the session and its epoch. -/
def Lease.holds (lease : Lease) (worker : Worker) : Bool :=
  worker.workerId = lease.workerId && some worker.leaseEpoch = lease.leaseEpoch

/-- What the continuation check establishes. -/
structure Continuable (lease : Lease) (state : State) : Prop where
  live : state.terminal = false
  undispatched : state.dispatchStarted = false
  unassigned : state.worker.status = .unassigned → lease = ⟨none, none⟩
  leased : state.worker.status ≠ .unassigned → lease.holds state.worker = true

/-- The lease that a turn or a cancellation continues under. -/
def Operation.turnLease? : Operation → Option Lease
  | .resumeAndSend input => some input.lease
  | .resumeAndCancel input => some input.lease
  | _ => none

/-- The fact is of a turn, its dispatch or a cancellation. -/
def Fact.isCommand : Fact → Bool
  | .turnRequested _ | .dispatchStarted _ | .cancelRequested _ => true
  | _ => false

section

variable (seen : Reader → State → Prop)

/-- A turn goes on from a state that passed the check, or from the one it read back. -/
def GoesOn (lease : Lease) (state : State) : Prop :=
  Continuable lease state ∧ seen .continuable state ∨ seen .appended state

/-- The facts that an operation appends to a state, where `seen` holds of what it reads. -/
inductive Emits : Operation → State → Fact → Prop where
  | orphaned {operation : Operation} {state : State} (terminal : WorkerTerminal) :
      Emits operation state (.orphaned terminal)
  | attached {input : ClaimInput} {state : State} (lease : WorkerLease) :
      Emits (.claimWorker input) state (.attached lease)
  | heartbeat {input : FencedInput} {state : State} {lease : WorkerLease}
      (hworker : lease.workerId = input.workerId) (hepoch : lease.leaseEpoch = input.leaseEpoch) :
      Emits (.heartbeatWorker input) state (.heartbeat lease)
  | drainRequested {operation : Operation} {input : DrainInput} {state : State} {drain : WorkerDrain}
      (hoperation : operation = .drainWorker input ∨ operation = .drainAndParkWorker input)
      (hworker : drain.workerId = input.workerId) (hepoch : drain.leaseEpoch = input.leaseEpoch) :
      Emits operation state (.drainRequested drain)
  | parked {operation : Operation} {input : FencedInput} {state : State}
      {checkpoint : WorkerCheckpoint}
      (hoperation : (∃ park, operation = .parkWorker park ∧ park.toFencedInput = input) ∨
        ∃ drain, operation = .drainAndParkWorker drain ∧ drain.toFencedInput = input)
      (hworker : checkpoint.workerId = input.workerId)
      (hepoch : checkpoint.leaseEpoch = input.leaseEpoch) :
      Emits operation state (.parked checkpoint)
  | retired {input : ParkInput} {state : State} {terminal : WorkerTerminal}
      (hworker : terminal.workerId = input.workerId)
      (hepoch : terminal.leaseEpoch = input.leaseEpoch) :
      Emits (.retireWorker input) state (.retired terminal)
  | creation {input : CreateInput} {state : State} {fact : Fact} (hfact : fact.isCommand = false) :
      Emits (.create input) state fact
  | turnRequested {input : SendInput} {state : State} (hcontinuable : Continuable input.lease state)
      (hseen : seen .continuable state) :
      Emits (.resumeAndSend input) state (.turnRequested input.turn)
  | dispatchStarted {input : SendInput} {state : State} (hgoesOn : GoesOn seen input.lease state) :
      Emits (.resumeAndSend input) state (.dispatchStarted input.turn.requestId)
  | cancelRequested {input : CancelInput} {state : State}
      (hcontinuable : Continuable input.lease state) :
      Emits (.resumeAndCancel input) state (.cancelRequested input.cancel)
  | eventRecorded {operation : Operation} {lease : Lease} {state : State} {event : RuntimeEvent}
      (hlease : operation.turnLease? = some lease) (hgoesOn : GoesOn seen lease state) :
      Emits operation state (.eventRecorded event)
  | outcomeUncertain {operation : Operation} {lease : Lease} {state : State} {failure : Failure}
      (hlease : operation.turnLease? = some lease) (hseen : seen .failing state)
      (hlive : state.terminal = false) : Emits operation state (.outcomeUncertain failure)

end

/-! ## States of the past -/

/-- The state was read from the stream, or from what was there of it before. -/
def IsPast (sessionId : Identifier) (state : State) (rows : List Row) : Prop :=
  ∃ past, past <+: rows ∧ read sessionId past = .ok state

section

variable {sessionId : Identifier} {state current : State} {rows later : List Row}

theorem IsPast.mono (h : IsPast sessionId state rows) (hlater : rows <+: later) :
    IsPast sessionId state later := by
  obtain ⟨past, hpast, hread⟩ := h
  exact ⟨past, hpast.trans hlater, hread⟩

/-- A state at the version of the stream is the state of the stream. -/
theorem IsPast.read_eq (h : IsPast sessionId state rows) (hversion : rows.length = state.version) :
    read sessionId rows = .ok state := by
  obtain ⟨past, hpast, hread⟩ := h
  rw [read_version hread] at hversion
  exact hpast.eq_of_length hversion.symm ▸ hread

theorem IsPast.eq_of_version_eq (h : IsPast sessionId state rows)
    (hcurrent : IsPast sessionId current rows) (hversion : current.version = state.version) :
    current = state := by
  obtain ⟨past, hpast, hread⟩ := h
  obtain ⟨other, hother, hcurrent⟩ := hcurrent
  have hlength : other.length = past.length := by
    rw [← read_version hread, ← read_version hcurrent, hversion]
  have hsame := (List.prefix_of_prefix_length_le hother hpast hlength.le).eq_of_length hlength
  exact Except.ok.inj (hcurrent.symm.trans (hsame ▸ hread))

end

/-! ## Interference -/

section

variable (sessionId : Identifier) (seen : Reader → State → Prop) (operation : Operation)

/-- What a reply tells of a state that was read. -/
def Observed : (request : Request) → Reply request → Prop
  | .read reader, .ok state => seen reader state
  | _, _ => True

/-- The fact is an event of the runtime session. -/
def Fact.isEvent : Fact → Bool
  | .eventRecorded _ => true
  | _ => false

/-- The key of an event names its sequence. -/
def Fact.Keyed (fact : Fact) (key : String) : Prop :=
  ∀ event, fact = .eventRecorded event →
    ∃ requestId : Identifier, key = s!"{requestId.val}:runtime:{event.sequence}"

theorem Fact.keyed {fact : Fact} {key : String} (h : fact.isEvent = false) : fact.Keyed key := by
  rintro event rfl
  cases h

/-- What every append writes into a row: the key of its fact and the trace of the session. -/
structure Written (state : State) (row : Row) : Prop where
  keyed : row.fact.Keyed row.key
  traced : ∀ traceId, state.traceId = some traceId → row.correlationId = traceId

/-- The stream stays, or grows by an accepted row of the operation. -/
def Records (shared next : Shared) : Prop :=
  next.rows = shared.rows ∨ ∃ state row after, read sessionId shared.rows = .ok state ∧
    applyFact state row = .ok after ∧ next.rows = shared.rows ++ [row] ∧
      Emits seen operation state row.fact ∧ Written state row

/-- The store, and how many sends an operation is entitled to. -/
abbrev View := Shared × Int

/-- A dispatch that is durable entitles to one send. -/
def entitle : (request : Request) → Reply request → Int → Int
  | .append _ row, .ok _, sends => if row.fact.isDispatch then sends + 1 else sends
  | .send, .ok _, sends => sends - 1
  | _, _, sends => sends

/-- The stream has grown, and the operation has done nothing. -/
def Grown (view next : View) : Prop := view.1.rows <+: next.1.rows ∧ next.2 = view.2

/-- Others append to the stream. -/
def setting : Process.Setting Request Reply View where
  answers request view reply next :=
    (∃ input, answer sessionId request input view.1 = some (reply, next.1)) ∧
      next.2 = entitle request reply view.2 ∧ Observed seen request reply
  invariant view := (∃ state, read sessionId view.1.rows = .ok state) ∧ 0 ≤ view.2
  rely := Grown
  guarantee view next := Records sessionId seen operation view.1 next.1 ∧ 0 ≤ next.2

end

/-! ## Requests -/

/-- The request leaves the stream and invokes no send. -/
def Request.isQuiet : Request → Bool
  | .append .. | .send => false
  | _ => true

theorem answer_rows {sessionId : Identifier} {request : Request} {input : Input}
    {shared next : Shared} {reply : Reply request}
    (h : answer sessionId request input shared = some (reply, next))
    (hquiet : request.isQuiet = true) : next.rows = shared.rows := by
  cases request with
  | append | send => cases hquiet
  | _ => cases input <;> simp [answer] at h <;> simp [← h.2]

theorem answer_read {sessionId : Identifier} {reader : Reader} {input : Input}
    {shared next : Shared} {state : State}
    (h : answer sessionId (.read reader) input shared = some (.ok state, next)) :
    read sessionId shared.rows = .ok state := by
  cases input <;> simp [answer] at h
  exact h.1

/-- An append finds the row in the stream, or adds it at the version that it expects. -/
theorem ledgerAppend_eq_ok {rows next : List Row} {expectedVersion : Nat} {row : Row}
    {idempotent : Bool} (h : ledgerAppend rows expectedVersion row = .ok (idempotent, next)) :
    idempotent = true ∧ row ∈ rows ∧ next = rows ∨
      idempotent = false ∧ rows.length = expectedVersion ∧ next = rows ++ [row] := by
  rw [ledgerAppend] at h
  obtain ⟨-, h⟩ := reject_bind_eq_ok_iff.mp h
  split at h
  next other hfind =>
    split at h
    next heq =>
      obtain ⟨rfl, rfl⟩ := Prod.ext_iff.mp (pure_eq_ok_iff.mp h)
      exact .inl ⟨rfl, heq ▸ List.mem_of_find?_eq_some hfind, rfl⟩
    next => cases h
  next =>
    obtain ⟨hlength, h⟩ := reject_bind_eq_ok_iff.mp h
    obtain ⟨rfl, rfl⟩ := Prod.ext_iff.mp (pure_eq_ok_iff.mp h)
    exact .inr ⟨rfl, by simpa using hlength, rfl⟩

theorem answer_append {sessionId : Identifier} {expectedVersion : Nat} {row : Row} {input : Input}
    {shared next : Shared} {reply : Result Bool}
    (h : answer sessionId (.append expectedVersion row) input shared = some (reply, next)) :
    reply ≠ .ok false ∧ (reply = .ok true → row ∈ shared.rows) ∧ next = shared ∨
      reply = .ok false ∧ shared.rows.length = expectedVersion ∧
        next = { shared with rows := shared.rows ++ [row] } := by
  cases input with
  | go =>
      rw [answer] at h
      split at h
      next idempotent rows happend =>
        obtain ⟨rfl, rfl⟩ := Prod.ext_iff.mp (Option.some.inj h)
        rcases ledgerAppend_eq_ok happend with ⟨rfl, hmem, rfl⟩ | ⟨rfl, hlength, rfl⟩
        · exact .inl ⟨by simp, fun _ => hmem, rfl⟩
        · exact .inr ⟨rfl, hlength, rfl⟩
      next error happend =>
        obtain ⟨rfl, rfl⟩ := Prod.ext_iff.mp (Option.some.inj h)
        exact .inl ⟨by simp, by simp, rfl⟩
  | fail error =>
      obtain ⟨rfl, rfl⟩ := Prod.ext_iff.mp (Option.some.inj h)
      exact .inl ⟨by simp, by simp, rfl⟩
  | _ => cases h

theorem entitle_quiet {request : Request} {reply : Reply request} {sends : Int}
    (hquiet : request.isQuiet = true) : entitle request reply sends = sends := by
  cases request with
  | append | send => cases hquiet
  | _ => cases reply <;> rfl

theorem Grown.trans {first second third : View} (h : Grown first second) (h' : Grown second third) :
    Grown first third :=
  ⟨h.1.trans h'.1, h'.2.trans h.2⟩

theorem IsPast.grown {sessionId : Identifier} {state : State} {view next : View}
    (h : IsPast sessionId state view.1.rows) (hgrown : Grown view next) :
    IsPast sessionId state next.1.rows :=
  h.mono hgrown.1

variable {sessionId : Identifier} {seen : Reader → State → Prop} {operation : Operation}
  {host : Host} {state : State} {view : View}

theorem secures_ask {request : Request} {post : Value request → View → Prop}
    {failed : HostError → View → Prop} (hquiet : request.isQuiet = true)
    (hpost : ∀ value next, Grown view next → post value next)
    (hfailed : ∀ err next, Grown view next → failed err next) :
    Program.Secures (setting sessionId seen operation) post failed (ask request) view := by
  intro before hbefore hinvariant reply next hanswers
  obtain ⟨⟨input, hanswer⟩, hsends, -⟩ := hanswers
  have hrows := answer_rows hanswer hquiet
  rw [entitle_quiet hquiet] at hsends
  have hgrown : Grown view next := hbefore.trans ⟨hrows ▸ List.prefix_rfl, hsends⟩
  refine ⟨⟨.inl hrows, hsends ▸ hinvariant.2⟩, ?_⟩
  cases reply with
  | ok value => exact hpost value next hgrown
  | error err => exact hfailed err next hgrown

theorem secures_quiet {request : Request} {post : Value request → View → Prop}
    (hquiet : request.isQuiet = true) (hpost : ∀ value next, Grown view next → post value next) :
    Program.Secures (setting sessionId seen operation) post (fun _ _ => True) (ask request) view :=
  secures_ask hquiet hpost fun _ _ _ => trivial

theorem secures_quiet_bind {request : Request} {α : Type} {post : α → View → Prop}
    {f : Value request → Operates α} (hquiet : request.isQuiet = true)
    (hf : ∀ value next, Grown view next →
      Program.Secures (setting sessionId seen operation) post (fun _ _ => True) (f value) next) :
    Program.Secures (setting sessionId seen operation) post (fun _ _ => True)
      (ask request >>= f) view :=
  (secures_quiet hquiet fun _ _ hgrown => hgrown).bind hf

theorem secures_read {reader : Reader} :
    Program.Secures (setting sessionId seen operation)
      (fun state next => Grown view next ∧ IsPast sessionId state next.1.rows ∧ seen reader state)
      (fun _ _ => True) (ask (.read reader)) view := by
  intro before hbefore hinvariant reply next hanswers
  obtain ⟨⟨input, hanswer⟩, hsends, hseen⟩ := hanswers
  have hrows := answer_rows hanswer rfl
  rw [entitle_quiet rfl] at hsends
  refine ⟨⟨.inl hrows, hsends ▸ hinvariant.2⟩, ?_⟩
  cases reply with
  | ok state =>
      have hsame : before.1.rows <+: next.1.rows := hrows ▸ List.prefix_rfl
      exact ⟨hbefore.trans ⟨hsame, hsends⟩, ⟨before.1.rows, hsame, answer_read hanswer⟩, hseen⟩
  | error err => trivial

/-- The send that a durable dispatch entitles to. -/
theorem secures_send (hentitled : 1 ≤ view.2) :
    Program.Secures (setting sessionId seen operation)
      (fun _ next => view.1.rows <+: next.1.rows) (fun _ _ => True) (ask .send) view := by
  intro before hbefore _ reply next hanswers
  obtain ⟨⟨input, hanswer⟩, hsends, -⟩ := hanswers
  have hrows : next.1.rows = before.1.rows := by
    cases input <;> simp [answer] at hanswer
    rw [← hanswer.2]
  have hgrown : view.1.rows <+: next.1.rows := hrows ▸ hbefore.1
  refine ⟨⟨.inl hrows, ?_⟩, ?_⟩
  · have hsame := hbefore.2
    cases reply <;> simp only [entitle] at hsends <;> omega
  · cases reply with
    | ok => exact hgrown
    | error err => trivial

theorem resolveTrace_eq_ok {given : Option String} {traceId resolved : String}
    (h : resolveTrace state given = .ok resolved) (htrace : state.traceId = some traceId) :
    resolved = traceId := by
  rw [resolveTrace, htrace] at h
  cases given with
  | none => exact (pure_eq_ok_iff.mp h).symm
  | some other =>
      obtain ⟨current, hcurrent, h⟩ := bind_eq_ok_iff.mp h
      obtain ⟨canonical, -, h⟩ := bind_eq_ok_iff.mp h
      obtain ⟨-, h⟩ := reject_bind_eq_ok_iff.mp h
      exact (pure_eq_ok_iff.mp h).symm.trans (pure_eq_ok_iff.mp hcurrent).symm

theorem checkRow_eq_ok {input : AppendInput} {timestamp : Int} {current : State} {row : Row}
    (h : checkRow host input timestamp current = .ok row) :
    ∃ correlationId, row = ⟨input.expectedVersion + 1, input.key, input.fact, timestamp,
        correlationId, host.actor⟩ ∧ (∃ after, applyFact current row = .ok after) ∧
          ∀ traceId, current.traceId = some traceId → correlationId = traceId := by
  rw [checkRow] at h
  obtain ⟨correlationId, hresolved, h⟩ := bind_eq_ok_iff.mp h
  obtain ⟨-, h⟩ := reject_bind_eq_ok_iff.mp h
  obtain ⟨after, happlied, h⟩ := bind_eq_ok_iff.mp h
  rw [pure_eq_ok_iff] at h
  exact ⟨correlationId, h.symm, ⟨after, h ▸ happlied⟩, fun traceId => resolveTrace_eq_ok hresolved⟩

/-- An append to a state that was read: if the row is added, it is to that state. -/
theorem secures_append {input : AppendInput} (hpast : IsPast sessionId state view.1.rows)
    (hversion : input.expectedVersion = state.version)
    (hemits : Emits seen operation state input.fact) (hkeyed : input.fact.Keyed input.key) :
    Program.Secures (setting sessionId seen operation)
      (fun value next => IsPast sessionId value next.1.rows ∧ seen .appended value ∧
        (input.fact.isDispatch = true → 1 ≤ next.2))
      (fun _ _ => True) (append host input) view := by
  have hclock : Program.Secures (setting sessionId seen operation)
      (fun _ next => Grown view next) (fun _ _ => True) (timestampOf input.occurredAt) view := by
    cases input.occurredAt with
    | some timestamp => exact Program.secures_pure ⟨List.prefix_rfl, rfl⟩
    | none => exact secures_quiet rfl fun _ _ hgrown => hgrown
  refine hclock.bind ?_
  intro timestamp first hfirst
  refine secures_read.bind ?_
  rintro current second ⟨hsecond, hcurrent, -⟩
  refine Program.Secures.lift_bind ?_ fun _ _ => trivial
  intro row hrow
  obtain ⟨correlationId, rfl, ⟨after, happlied⟩, htraced⟩ := checkRow_eq_ok hrow
  have hadded : Program.Secures (setting sessionId seen operation)
      (fun _ next => input.fact.isDispatch = true → 1 ≤ next.2) (fun _ _ => True)
      (ask (.append input.expectedVersion ⟨input.expectedVersion + 1, input.key, input.fact,
        timestamp, correlationId, host.actor⟩)) second := by
    intro third hthird hinvariant reply fourth hanswers
    obtain ⟨⟨reading, hanswer⟩, hsends, -⟩ := hanswers
    have hbalance := hinvariant.2
    refine ⟨⟨?_, ?_⟩, ?_⟩
    · rcases answer_append hanswer with ⟨-, -, hsame⟩ | ⟨-, hlength, hgrown⟩
      · exact .inl (congrArg Shared.rows hsame)
      · -- the row that was checked against `current` is added to `state`, so they are the same
        have hstate := hpast.grown ((hfirst.trans hsecond).trans hthird)
        have hsame : current = state := by
          refine hstate.eq_of_version_eq (hcurrent.grown hthird) ?_
          have hsequence := (applyFact_eq_ok happlied).1
          rw [← hversion]
          exact (Nat.succ.inj hsequence).symm
        exact .inr ⟨state, _, after, hstate.read_eq (hlength.trans hversion), hsame ▸ happlied,
          congrArg Shared.rows hgrown, hemits, hkeyed, hsame ▸ htraced⟩
    · cases reply with
      | ok idempotent =>
          simp only [entitle] at hsends
          split at hsends <;> omega
      | error err => exact hsends ▸ hbalance
    · cases reply with
      | ok idempotent =>
          intro hdispatch
          simp only [entitle, hdispatch, if_true] at hsends
          omega
      | error err => trivial
  refine hadded.bind fun _ fourth hentitled => ?_
  refine secures_read.imp ?_ fun _ _ h => h
  rintro value fifth ⟨hgrown, hvalue, hseen⟩
  exact ⟨hvalue, hseen, fun hdispatch => hgrown.2 ▸ hentitled hdispatch⟩

/-! ## Workers -/

/-- Nothing is known of the state that an operation settles with. -/
def Settles (_ : State) (_ : View) : Prop := True

theorem secures_settled {input : AppendInput} (hpast : IsPast sessionId state view.1.rows)
    (hversion : input.expectedVersion = state.version)
    (hemits : Emits seen operation state input.fact) (hkeyed : input.fact.Keyed input.key) :
    Program.Secures (setting sessionId seen operation) Settles (fun _ _ => True)
      (append host input) view :=
  (secures_append hpast hversion hemits hkeyed).imp (fun _ _ _ => trivial) fun _ _ h => h

theorem secures_expireWorkerIfNeeded {now : Int} {requestId : Identifier}
    (hpast : IsPast sessionId state view.1.rows) :
    Program.Secures (setting sessionId seen operation)
      (fun value next => IsPast sessionId value next.1.rows) (fun _ _ => True)
      (expireWorkerIfNeeded host state now requestId) view := by
  rw [expireWorkerIfNeeded]
  cases state.worker.workerId with
  | none => exact Program.secures_pure hpast
  | some workerId =>
      dsimp only
      split
      · exact Program.secures_pure hpast
      · exact (secures_append hpast rfl (.orphaned _) (Fact.keyed rfl)).imp (fun _ _ h => h.1) fun _ _ h => h

/-- The start of the operations on a worker: the state, the instant and the sweep. -/
theorem secures_swept {requestId : Identifier} {α : Type} {post : α → View → Prop}
    {f : Int → State → Operates α}
    (hpast : IsPast sessionId state view.1.rows)
    (hf : ∀ now swept next, IsPast sessionId swept next.1.rows →
      Program.Secures (setting sessionId seen operation) post (fun _ _ => True)
        (f now swept) next) :
    Program.Secures (setting sessionId seen operation) post (fun _ _ => True)
      (do
        let now ← ask .clock
        let swept ← expireWorkerIfNeeded host state now requestId
        f now swept) view := by
  refine secures_quiet_bind rfl ?_
  intro now first hfirst
  exact (secures_expireWorkerIfNeeded (hpast.grown hfirst)).bind fun swept next h => hf now swept next h

theorem secures_claimWorker {input : ClaimInput} :
    Program.Secures (setting sessionId seen (.claimWorker input)) Settles (fun _ _ => True)
      (claimWorker host input) view := by
  refine secures_read.bind ?_
  rintro state first ⟨-, hpast, -⟩
  refine Program.Secures.check (fun _ => trivial) fun _ => ?_
  refine secures_swept hpast ?_
  intro now swept next hswept
  refine Program.Secures.check (fun _ => trivial) fun _ => ?_
  refine Program.Secures.check (fun _ => trivial) fun _ => ?_
  refine Program.Secures.lift_bind (fun leaseExpiresAt _ => ?_) fun _ _ => trivial
  exact secures_settled hswept rfl (.attached _) (Fact.keyed rfl)

theorem secures_heartbeatWorker {input : FencedInput} :
    Program.Secures (setting sessionId seen (.heartbeatWorker input)) Settles (fun _ _ => True)
      (heartbeatWorker host input) view := by
  refine secures_read.bind ?_
  rintro state first ⟨-, hpast, -⟩
  refine secures_swept hpast ?_
  intro now swept next hswept
  refine Program.Secures.lift_bind (fun _ _ => ?_) fun _ _ => trivial
  refine Program.Secures.lift_bind (fun requestedExpiry _ => ?_) fun _ _ => trivial
  refine Program.Secures.check (fun _ => trivial) fun _ => ?_
  exact secures_settled hswept rfl (.heartbeat rfl rfl) (Fact.keyed rfl)

theorem secures_drainWorker {input : DrainInput}
    (hoperation : operation = .drainWorker input ∨ operation = .drainAndParkWorker input) :
    Program.Secures (setting sessionId seen operation) Settles (fun _ _ => True)
      (drainWorker host input) view := by
  refine secures_read.bind ?_
  rintro state first ⟨-, hpast, -⟩
  split
  · exact Program.secures_pure trivial
  refine secures_swept hpast ?_
  intro now swept next hswept
  refine Program.Secures.lift_bind (fun _ _ => ?_) fun _ _ => trivial
  refine Program.Secures.lift_bind (fun requestedDeadline _ => ?_) fun _ _ => trivial
  refine Program.Secures.check (fun _ => trivial) fun _ => ?_
  exact secures_settled hswept rfl (.drainRequested hoperation rfl rfl) (Fact.keyed rfl)

theorem secures_parkWorker {input : ParkInput}
    (hoperation : (∃ park, operation = .parkWorker park ∧ park.toFencedInput = input.toFencedInput) ∨
      ∃ drain, operation = .drainAndParkWorker drain ∧ drain.toFencedInput = input.toFencedInput) :
    Program.Secures (setting sessionId seen operation) Settles (fun _ _ => True)
      (parkWorker host input) view := by
  refine secures_read.bind ?_
  rintro state first ⟨-, hpast, -⟩
  split
  · exact Program.secures_pure trivial
  refine secures_swept hpast ?_
  intro now swept next hswept
  refine Program.Secures.lift_bind (fun _ _ => ?_) fun _ _ => trivial
  refine Program.Secures.check (fun _ => trivial) fun _ => ?_
  exact secures_settled hswept rfl (.parked hoperation rfl rfl) (Fact.keyed rfl)

theorem secures_drainAndParkWorker {input : DrainInput} :
    Program.Secures (setting sessionId seen (.drainAndParkWorker input)) Settles (fun _ _ => True)
      (drainAndParkWorker host input) view := by
  have hpark : ∀ next, Program.Secures (setting sessionId seen (.drainAndParkWorker input)) Settles
      (fun _ _ => True)
      (parkWorker host { toFencedInput := input.toFencedInput, reason := input.reason }) next :=
    fun next => secures_parkWorker (.inr ⟨input, rfl, rfl⟩)
  refine secures_read.bind ?_
  rintro state first -
  refine Program.Secures.check (fun _ => trivial) fun _ => ?_
  split
  · exact Program.secures_pure trivial
  split
  · exact (secures_drainWorker (.inr rfl)).bind fun _ next _ => hpark next
  · exact hpark first

theorem secures_retireWorker {input : ParkInput} :
    Program.Secures (setting sessionId seen (.retireWorker input)) Settles (fun _ _ => True)
      (retireWorker host input) view := by
  refine secures_read.bind ?_
  rintro state first ⟨-, hpast, -⟩
  refine Program.Secures.check (fun _ => trivial) fun _ => ?_
  exact secures_settled hpast rfl (.retired rfl rfl) (Fact.keyed rfl)

theorem keyed_eventRecorded (requestId : Identifier) (event : RuntimeEvent) :
    (Fact.eventRecorded event).Keyed s!"{requestId.val}:runtime:{event.sequence}" := by
  intro other heq
  cases heq
  exact ⟨requestId, rfl⟩

/-! ## Creation -/

/-- A failure is recorded by an operation that may record it of a live session. -/
theorem secures_fail {requestId : Identifier} {error : HostError} {outcomeUncertain : Bool}
    (hemits : ∀ state, state.terminal = false → seen .failing state → Emits seen operation state
      (if outcomeUncertain then .outcomeUncertain (normalizedFailure requestId error)
        else .failed (normalizedFailure requestId error))) :
    Program.Secures (setting sessionId seen operation) Settles (fun _ _ => True)
      (fail host requestId error outcomeUncertain) view := by
  refine secures_read.bind ?_
  rintro current first ⟨-, hpast, hseen⟩
  split
  · exact Program.secures_pure trivial
  next hlive =>
    refine secures_settled hpast rfl (hemits current (by simpa using hlive) hseen) (Fact.keyed ?_)
    cases outcomeUncertain <;> rfl

theorem secures_nextEvent {post : RuntimeEvent → View → Prop}
    (hpost : ∀ event next, Grown view next → post event next) :
    Program.Secures (setting sessionId seen operation) post (fun _ _ => True)
      (nextEvent state) view := by
  refine Program.Secures.bind (secures_quiet rfl hpost) ?_
  intro event next hevent
  exact Program.Secures.check (fun _ => trivial) fun _ => Program.secures_pure hevent

theorem secures_createFail {input : CreateInput} {error : HostError} {outcomeUncertain : Bool} :
    Program.Secures (setting sessionId seen (.create input)) Settles (fun _ _ => True)
      (fail host input.requestId error outcomeUncertain) view :=
  secures_fail fun _ _ _ => .creation (by cases outcomeUncertain <;> rfl)

theorem secures_bindRuntime {input : CreateInput} (hpast : IsPast sessionId state view.1.rows) :
    Program.Secures (setting sessionId seen (.create input)) Settles (fun _ _ => True)
      (bindRuntime host input state) view := by
  refine secures_quiet_bind rfl ?_
  intro result first hfirst
  refine Program.Secures.check (fun _ => trivial) fun _ => ?_
  refine secures_quiet_bind rfl ?_
  intro manifest second hsecond
  refine Program.Secures.bind
    (secures_append (hpast.grown (hfirst.trans hsecond)) rfl (.creation rfl)
      (Fact.keyed rfl)) ?_
  rintro bound third ⟨hbound, -⟩
  refine Program.Secures.bind (secures_nextEvent fun _ _ hgrown => hgrown) ?_
  intro event fourth hfourth
  refine Program.Secures.check (fun _ => trivial) fun _ => ?_
  exact secures_settled (hbound.grown hfourth) rfl (.creation rfl) (keyed_eventRecorded input.requestId event)

theorem secures_createRuntime {input : CreateInput} (hpast : IsPast sessionId state view.1.rows) :
    Program.Secures (setting sessionId seen (.create input)) Settles (fun _ _ => True)
      (createRuntime host input state) view := by
  have hasked : Program.Secures (setting sessionId seen (.create input))
      (fun _ next => Grown view next) (fun _ next => Grown view next) (ask .provider) view :=
    secures_ask rfl (fun _ _ h => h) fun _ _ h => h
  have hopened : Program.Secures (setting sessionId seen (.create input))
      (fun _ next => Grown view next) (fun _ _ => True)
      (tryCatch (Except.ok <$> ask .provider) fun error => pure (.error error)) view :=
    Program.Secures.tryCatch (Program.Secures.map hasked) fun _ _ h => Program.secures_pure h
  refine hopened.bind ?_
  intro opened next hgrown
  cases opened with
  | error error => exact secures_createFail
  | ok _ =>
      exact (secures_bindRuntime (hpast.grown hgrown)).tryCatch fun _ _ _ => secures_createFail

theorem secures_create {input : CreateInput} :
    Program.Secures (setting sessionId seen (.create input)) Settles (fun _ _ => True)
      (create host input) view := by
  refine Program.Secures.check (fun _ => trivial) fun _ => ?_
  refine secures_read.bind ?_
  rintro state first ⟨-, hpast, -⟩
  split
  · exact Program.secures_lift (fun _ _ => trivial) fun _ _ => trivial
  next hversion =>
    refine Program.Secures.check (fun _ => trivial) fun _ => ?_
    refine Program.Secures.bind
      (secures_append hpast (Nat.eq_zero_of_not_pos hversion).symm (.creation rfl)
        (Fact.keyed rfl)) ?_
    rintro created second ⟨hcreated, -⟩
    exact secures_createRuntime hcreated

/-! ## Turns -/

theorem secures_continuable {lease : Lease} :
    Program.Secures (setting sessionId seen operation)
      (fun state next => IsPast sessionId state next.1.rows ∧ Continuable lease state ∧
        seen .continuable state) (fun _ _ => True) (continuable lease) view := by
  refine secures_read.bind ?_
  rintro state first ⟨-, hpast, hseen⟩
  refine Program.Secures.check (fun _ => trivial) fun _ => ?_
  refine Program.Secures.check (fun _ => trivial) fun hlive => ?_
  refine Program.Secures.check (fun _ => trivial) fun hundispatched => ?_
  split
  next hunassigned =>
    refine Program.Secures.check (fun _ => trivial) fun hnone => ?_
    refine Program.secures_pure ⟨hpast, ⟨hlive, hundispatched, fun _ => ?_, ?_⟩, hseen⟩
    · cases lease
      simp_all
    · exact fun hne => absurd hunassigned hne
  next hassigned =>
    refine secures_quiet_bind rfl ?_
    intro now second hsecond
    refine Program.Secures.lift_bind (fun _ hasserted => ?_) fun _ _ => trivial
    refine Program.secures_pure ⟨hpast.grown hsecond, ⟨hlive, hundispatched, ?_, fun _ => ?_⟩, hseen⟩
    · exact fun heq => absurd heq hassigned
    · rw [assertWorkerLease, reject_eq_ok_iff] at hasserted
      simp_all [Lease.holds]

theorem secures_reattach :
    Program.Secures (setting sessionId seen operation) (fun _ _ => True) (fun _ _ => True)
      (reattach state) view := by
  refine secures_quiet_bind rfl fun _ first _ => ?_
  refine secures_quiet_bind rfl fun manifest second _ => ?_
  refine Program.Secures.check (fun _ => trivial) fun _ => ?_
  refine secures_quiet_bind rfl fun result third _ => ?_
  exact Program.secures_lift (fun _ _ => trivial) fun _ _ => trivial

theorem secures_recheck {lease : Lease} :
    Program.Secures (setting sessionId seen operation)
      (fun state next => IsPast sessionId state next.1.rows ∧ Continuable lease state ∧
        seen .continuable state) (fun _ _ => True) (recheck lease) view := by
  refine Program.Secures.tryCatch secures_continuable fun error first _ => ?_
  have hclosed : Program.Secures (setting sessionId seen operation) (fun _ _ => True)
      (fun _ _ => True) (tryCatch (ask .close) fun _ => pure ()) first :=
    (secures_quiet rfl fun _ _ _ => trivial).tryCatch fun _ _ _ => Program.secures_pure trivial
  exact hclosed.bind fun _ _ _ => Program.secures_throw trivial

variable {lease : Lease}

/-- Where a turn goes on from. -/
def Turns (sessionId : Identifier) (seen : Reader → State → Prop) (lease : Lease) (state : State)
    (view : View) : Prop :=
  IsPast sessionId state view.1.rows ∧ GoesOn seen lease state

/-- An outcome that waits for the next event goes on from a state that was read. -/
def Waits (sessionId : Identifier) (seen : Reader → State → Prop) (operation : Operation) :
    Outcome → View → Prop
  | .settled _, _ => True
  | .draining draining, view => ∃ lease, operation.turnLease? = some lease ∧
      Turns sessionId seen lease draining.current view

theorem waits_drainFrom {requestId : Identifier} (hlease : operation.turnLease? = some lease)
    (h : Turns sessionId seen lease state view) :
    Waits sessionId seen operation (drainFrom requestId state) view := by
  rw [drainFrom]
  split
  · trivial
  · exact ⟨lease, hlease, h⟩

theorem secures_uncertain {requestId : Identifier} {error : HostError}
    (hlease : operation.turnLease? = some lease) :
    Program.Secures (setting sessionId seen operation) (Waits sessionId seen operation)
      (fun _ _ => True) (.settled <$> fail host requestId error true) view :=
  Program.Secures.map
    ((secures_fail fun _ hlive hseen => .outcomeUncertain hlease hseen hlive).imp
      (fun _ _ _ => trivial) fun _ _ h => h)

theorem secures_turn (lease : Lease) {input : AppendInput} (hpast : IsPast sessionId state view.1.rows)
    (hversion : input.expectedVersion = state.version)
    (hemits : Emits seen operation state input.fact) (hkeyed : input.fact.Keyed input.key) :
    Program.Secures (setting sessionId seen operation) (Turns sessionId seen lease) (fun _ _ => True)
      (append host input) view :=
  (secures_append hpast hversion hemits hkeyed).imp (fun _ _ h => ⟨h.1, .inr h.2.1⟩) fun _ _ h => h

/-- The settlement of what the provider was asked for, and the wait for its events. -/
theorem secures_settlement {requestId : Identifier} {process : Operates Outcome}
    (hlease : operation.turnLease? = some lease)
    (h : Program.Secures (setting sessionId seen operation) (Waits sessionId seen operation)
      (fun _ _ => True) process view) :
    Program.Secures (setting sessionId seen operation) (Waits sessionId seen operation)
      (fun _ _ => True) (tryCatch process fun error => .settled <$> fail host requestId error true)
      view :=
  h.tryCatch fun _ _ _ => secures_uncertain hlease

theorem secures_drainToTerminal {draining : Draining} (hlease : operation.turnLease? = some lease)
    (h : Turns sessionId seen lease draining.current view) :
    Program.Secures (setting sessionId seen operation) (Waits sessionId seen operation)
      (fun _ _ => True) (drainToTerminal host draining) view := by
  refine secures_settlement hlease ?_
  refine Program.Secures.bind (secures_nextEvent fun _ _ hgrown => hgrown) ?_
  intro event first hfirst
  refine (secures_turn lease (h.1.grown hfirst) rfl (.eventRecorded hlease h.2)
    (keyed_eventRecorded draining.requestId event)).bind ?_
  intro current second hcurrent
  exact Program.secures_pure (waits_drainFrom hlease hcurrent)

theorem secures_resumeAndSend {input : SendInput} :
    Program.Secures (setting sessionId seen (.resumeAndSend input))
      (Waits sessionId seen (.resumeAndSend input)) (fun _ _ => True)
      (resumeAndSend host input) view := by
  refine secures_continuable.bind ?_
  rintro state first -
  refine Program.Secures.check (fun _ => trivial) fun _ => ?_
  refine secures_reattach.bind fun _ second _ => ?_
  refine secures_recheck.bind ?_
  rintro state third ⟨hpast, hcontinuable, hseen⟩
  have hrequested : Program.Secures (setting sessionId seen (.resumeAndSend input))
      (Turns sessionId seen input.lease) (fun _ _ => True) (requestTurn host input state) third := by
    rw [requestTurn]
    split
    · exact secures_turn input.lease hpast rfl (.turnRequested hcontinuable hseen) (Fact.keyed rfl)
    · exact Program.secures_pure ⟨hpast, .inl ⟨hcontinuable, hseen⟩⟩
  refine hrequested.bind fun requested fourth hturns => ?_
  refine (secures_append hturns.1 rfl (.dispatchStarted hturns.2)
    (Fact.keyed rfl)).bind ?_
  rintro dispatched fifth ⟨hdispatched, hseen, hentitled⟩
  refine secures_settlement rfl ?_
  refine (secures_send (hentitled rfl)).bind fun _ sixth hsixth => ?_
  refine secures_quiet_bind rfl fun result seventh hseventh => ?_
  refine Program.Secures.check (fun _ => trivial) fun _ => ?_
  exact Program.secures_pure
    (waits_drainFrom rfl ⟨hdispatched.mono (hsixth.trans hseventh.1), .inr hseen⟩)

theorem secures_resumeAndCancel {input : CancelInput} :
    Program.Secures (setting sessionId seen (.resumeAndCancel input))
      (Waits sessionId seen (.resumeAndCancel input)) (fun _ _ => True)
      (resumeAndCancel host input) view := by
  refine secures_read.bind ?_
  rintro state first -
  split
  · exact Program.secures_pure trivial
  refine secures_continuable.bind ?_
  rintro state second -
  refine Program.Secures.check (fun _ => trivial) fun _ => ?_
  refine secures_reattach.bind fun _ third _ => ?_
  refine secures_recheck.bind ?_
  rintro state fourth ⟨hpast, hcontinuable, hseen⟩
  have hrequested : Program.Secures (setting sessionId seen (.resumeAndCancel input))
      (Turns sessionId seen input.lease) (fun _ _ => True) (requestCancel host input state) fourth := by
    rw [requestCancel]
    split
    · exact secures_turn input.lease hpast rfl (.cancelRequested hcontinuable) (Fact.keyed rfl)
    · exact Program.secures_pure ⟨hpast, .inl ⟨hcontinuable, hseen⟩⟩
  refine hrequested.bind fun requested fifth hturns => ?_
  refine secures_settlement rfl ?_
  refine secures_quiet_bind rfl fun result sixth hsixth => ?_
  refine Program.Secures.check (fun _ => trivial) fun _ => ?_
  exact Program.secures_pure (waits_drainFrom rfl ⟨hturns.1.grown hsixth, hturns.2⟩)

/-! ## Operations -/

/-- What each operation records, whatever the others do. -/
theorem secures_programOf :
    Program.Secures (setting sessionId seen operation) (Waits sessionId seen operation)
      (fun _ _ => True) (programOf host operation) view := by
  have hsettled : ∀ {program : Operates State},
      Program.Secures (setting sessionId seen operation) Settles (fun _ _ => True) program view →
        Program.Secures (setting sessionId seen operation) (Waits sessionId seen operation)
          (fun _ _ => True) (.settled <$> program) view :=
    fun h => Program.Secures.map (h.imp (fun _ _ _ => trivial) fun _ _ h => h)
  cases operation with
  | claimWorker input => exact hsettled secures_claimWorker
  | heartbeatWorker input => exact hsettled secures_heartbeatWorker
  | drainWorker input => exact hsettled (secures_drainWorker (.inl rfl))
  | parkWorker input => exact hsettled (secures_parkWorker (.inl ⟨input, rfl, rfl⟩))
  | drainAndParkWorker input => exact hsettled secures_drainAndParkWorker
  | sweepWorker requestId =>
      refine hsettled (secures_read.bind ?_)
      rintro state first ⟨-, hpast, -⟩
      refine secures_quiet_bind rfl fun now second hsecond => ?_
      exact (secures_expireWorkerIfNeeded (hpast.grown hsecond)).imp (fun _ _ _ => trivial)
        fun _ _ h => h
  | retireWorker input => exact hsettled secures_retireWorker
  | create input => exact hsettled secures_create
  | resumeAndSend input => exact secures_resumeAndSend
  | resumeAndCancel input => exact secures_resumeAndCancel

end Hseos.Delegated
