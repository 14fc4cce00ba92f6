import Hseos.Governed.Progress

/-! # Stages of an operation

An operation has no facts, or it is held by the call that appended its start
facts, or that call has let go of it. Every action moves the stage of at most one
operation, and only forward, so that a provider is invoked at most once.
-/

namespace Hseos

/-! ## Stages -/

/-- Where an operation stands. Before and after its dispatch it is held by one call. -/
inductive Stage where
  | absent
  | held (call : Nat) (dispatched : Bool)
  | released
  deriving DecidableEq

/-- What can happen to an operation. -/
inductive Stage.Next : Stage → Stage → Prop where
  | start {call : Nat} : Next .absent (.held call false)
  | dispatch {call : Nat} : Next (.held call false) (.held call true)
  | release {call : Nat} {dispatched : Bool} : Next (.held call dispatched) .released
  /-- A queued request is cancelled: all three facts come at once. -/
  | cancel : Next .absent .released

/-- The provider may have been invoked for the operation. -/
def Stage.mayHaveDispatched : Stage → Bool
  | .absent => false
  | .held _ dispatched => dispatched
  | .released => true

/-- The two start facts, and nothing else. -/
inductive Started : List Fact → Prop where
  | intro {authorized started : Fact} (hauthorized : authorized.payload.isAuthorized = true)
      (hstarted : started.payload.isStarted = true) : Started [authorized, started]

/-- The two start facts and one terminal fact. -/
inductive Ended : List Fact → Prop where
  | intro {authorized started terminal : Fact}
      (hauthorized : authorized.payload.isAuthorized = true)
      (hstarted : started.payload.isStarted = true)
      (hterminal : terminal.payload.isTerminal = true) : Ended [authorized, started, terminal]

/-- The facts of an operation at a stage. -/
def Stage.Allows : Stage → List Fact → Prop
  | .absent, stream => stream = []
  | .held .., stream => Started stream
  | .released, stream => Started stream ∨ Ended stream

/-! ## Facts -/

theorem StartFacts.started' {prepared : Prepared} {approvalId : Option String}
    {evidence : List String} {authorized started : Fact}
    (h : StartFacts prepared approvalId evidence authorized started) :
    Started [authorized, started] := by
  constructor
  · rw [h.authorized.payload]
    rfl
  · rw [h.started.payload]
    rfl

theorem Started.length {stream : List Fact} (h : Started stream) : stream.length = 2 := by
  cases h
  rfl

theorem Ended.length {stream : List Fact} (h : Ended stream) : stream.length = 3 := by
  cases h
  rfl

theorem Started.snoc {stream : List Fact} {fact : Fact} (h : Started stream)
    (hterminal : fact.payload.isTerminal = true) : Ended (stream ++ [fact]) := by
  cases h with
  | intro hauthorized hstarted => exact .intro hauthorized hstarted hterminal

@[simp] theorem FactPayload.isTerminal_stored (payload : FactPayload) :
    payload.stored.isTerminal = payload.isTerminal := by
  cases payload <;> rfl

/-- What an execution records at its end is a terminal fact. -/
theorem outcomeOf_isTerminal {prepared : Prepared} {evidence : List String} {ending : Ending}
    {payload : FactPayload} (h : (outcomeOf prepared evidence ending).payload = some payload) :
    payload.isTerminal = true := by
  cases ending with
  | aborted =>
      obtain rfl := Option.some.inj h
      rfl
  | expired =>
      obtain rfl := Option.some.inj h
      rfl
  | threw error deadlineExceeded =>
      simp only [outcomeOf, threwOutcome] at h
      split_ifs at h <;> cases h <;> rfl
  | returned result =>
      have hrefused : ∀ {error reason receiptRef refs evidence warnings},
          (refusedOutcome prepared error reason receiptRef refs evidence warnings).payload =
            some payload → payload.isTerminal = true := by
        intro error reason receiptRef refs evidence warnings h
        simp only [refusedOutcome, failureOutcome, Option.some.injEq] at h
        rw [← h]
        split <;> rfl
      simp only [outcomeOf, returnedOutcome] at h
      split at h
      next => exact hrefused h
      next =>
        split at h
        next => exact hrefused h
        next =>
          split at h
          next => exact hrefused h
          next =>
            cases h
            rfl

/-! ## Holders -/

/-- The operation that a call holds, and whether it has invoked the provider. -/
def Phase.holds? : Phase → Option (Prepared × Bool)
  | .started prepared _ => some (prepared, false)
  | .dispatching prepared _ => some (prepared, true)
  | .persisting prepared _ ending => some (prepared, ending.ofProvider)
  | _ => none

@[simp] theorem holds?_failed {error : Thrown} {operationId : Option String}
    {warnings : List String} : (failed error operationId warnings).holds? = none := rfl

@[simp] theorem holds?_fails {prepared : Prepared} {error : Thrown} :
    (prepared.fails error).holds? = none := rfl

theorem holds?_beginCall {kind : CallKind} {request : ExecutionRequest}
    {admitted : Except Thrown Admitted} : (beginCall kind request admitted).phase.holds? = none := by
  cases admitted <;> rfl

theorem holds?_afterAuthority {kind : CallKind} {admitted : Admitted}
    {decision : Except Thrown Json} : (afterAuthority kind admitted decision).holds? = none := by
  unfold afterAuthority
  split <;> rfl

theorem holds?_afterPolicy {kind : CallKind} {request : ExecutionRequest} {admitted : Admitted}
    {decision : Except Thrown Json} {generated : String} {clock : ClockReading} :
    (afterPolicy kind request admitted decision generated clock).holds? = none := by
  unfold afterPolicy
  split
  next => rfl
  next =>
    split
    next => rfl
    next => split <;> rfl

theorem holds?_beginOperation {runtime : GovernedRuntime} {prepared : Prepared} :
    (beginOperation runtime prepared).holds? = none := by
  unfold beginOperation
  split_ifs <;> rfl

theorem holds?_afterRead {runtime : GovernedRuntime} {kind : CallKind} {prepared : Prepared}
    {existing : Except Thrown (List Fact)} :
    (afterRead runtime kind prepared existing).holds? = none := by
  unfold afterRead
  split
  next => rfl
  next => rfl
  next =>
    cases kind with
    | execute => exact holds?_beginOperation
    | cancelQueued => rfl

theorem holds?_afterResolve {prepared : Prepared} {answer : Except Thrown Json} :
    (afterResolve prepared answer).holds? = none := by
  unfold afterResolve
  split
  next => rfl
  next => split <;> rfl

/-! ## Stages of a state -/

/-- The stages that agree with a state. -/
structure Staged (stage : String → Stage) (state : GovernedState) : Prop where
  stream : ∀ operationId, (stage operationId).Allows (state.streams operationId)
  holder : ∀ {index : Nat} {call : Call} {prepared : Prepared} {dispatched : Bool},
    state.calls[index]? = some call → call.phase.holds? = some (prepared, dispatched) →
    stage prepared.operationId = .held index dispatched
  dispatched : ∀ prepared ∈ state.dispatched, (stage prepared.operationId).mayHaveDispatched = true
  once : (state.dispatched.map Prepared.operationId).Nodup

/-- At most one operation moves, and only forward. -/
def StageStep (stage stage' : String → Stage) : Prop :=
  stage' = stage ∨ ∃ operationId after, (stage operationId).Next after ∧
    stage' = Function.update stage operationId after

theorem staged_initial : Staged (fun _ => .absent) .initial where
  stream _ := rfl
  holder h := by cases h
  dispatched _ h := by cases h
  once := List.nodup_nil

section

variable {runtime : GovernedRuntime} {state next : GovernedState} {action : Action}
  {stage : String → Stage} {index : Nat} {phase : Phase}

/-- A call that keeps what it held, or holds nothing, leaves the stages alone. -/
theorem Staged.setPhase (h : Staged stage state)
    (hphase : ∀ old, state.calls[index]? = some old →
      phase.holds? = none ∨ phase.holds? = old.phase.holds?) :
    Staged stage (state.setPhase index phase) where
  stream := h.stream
  dispatched := h.dispatched
  once := h.once
  holder := by
    intro other call prepared dispatched hcall hholds
    rcases call_setPhase hcall with ⟨rfl, old, hold, rfl⟩ | ⟨-, hcall⟩
    · rcases hphase old hold with hnone | hsame
      · rw [hnone] at hholds
        cases hholds
      · exact h.holder hold (hsame ▸ hholds)
    · exact h.holder hcall hholds

theorem Staged.begin (h : Staged stage state) {call : Call} (hcall : call.phase.holds? = none) :
    Staged stage { state with calls := state.calls ++ [call] } where
  stream := h.stream
  dispatched := h.dispatched
  once := h.once
  holder := by
    intro other found prepared dispatched hfound hholds
    by_cases hlt : other < state.calls.length
    · rw [List.getElem?_append_left hlt] at hfound
      exact h.holder hfound hholds
    · rw [List.getElem?_append_right (Nat.le_of_not_lt hlt), List.getElem?_singleton] at hfound
      split_ifs at hfound
      obtain rfl := Option.some.inj hfound
      rw [hcall] at hholds
      cases hholds

theorem Stage.Next.mayHaveDispatched {before after : Stage} (h : before.Next after)
    (hdispatched : before.mayHaveDispatched = true) : after.mayHaveDispatched = true := by
  cases h with
  | start => cases hdispatched
  | dispatch => rfl
  | release => rfl
  | cancel => rfl

/-- One operation moves: no other call holds it, and the call that moves it holds
it, if at all, at its new stage. -/
theorem Staged.advance {operationId : String} {after : Stage} {stream : List Fact}
    (h : Staged stage state) (hnext : (stage operationId).Next after)
    (hfree : ∀ other dispatched, stage operationId = .held other dispatched → other = index)
    (hphase : ∀ prepared dispatched, phase.holds? = some (prepared, dispatched) →
      prepared.operationId = operationId ∧ after = .held index dispatched)
    (hcalls : next.calls = (state.setPhase index phase).calls)
    (hstreams : next.streams = Function.update state.streams operationId stream)
    (hstream : after.Allows stream)
    (hdispatched : next.dispatched = state.dispatched ∨ ∃ prepared,
      next.dispatched = state.dispatched ++ [prepared] ∧ prepared.operationId = operationId ∧
      (stage operationId).mayHaveDispatched = false ∧ after.mayHaveDispatched = true) :
    Staged (Function.update stage operationId after) next := by
  have hmay : ∀ other, (stage other).mayHaveDispatched = true →
      (Function.update stage operationId after other).mayHaveDispatched = true := by
    intro other hother
    by_cases hsame : other = operationId
    · subst hsame
      rw [Function.update_self]
      exact hnext.mayHaveDispatched hother
    · rw [Function.update_of_ne hsame]
      exact hother
  constructor
  case stream =>
    intro other
    rw [hstreams]
    by_cases hsame : other = operationId
    · subst hsame
      rw [Function.update_self, Function.update_self]
      exact hstream
    · rw [Function.update_of_ne hsame, Function.update_of_ne hsame]
      exact h.stream other
  case holder =>
    intro other call prepared dispatched hcall hholds
    rw [hcalls] at hcall
    rcases call_setPhase hcall with ⟨rfl, old, hold, rfl⟩ | ⟨hother, hcall⟩
    · obtain ⟨hsame, hafter⟩ := hphase prepared dispatched hholds
      rw [hsame, Function.update_self, hafter]
    · have hheld := h.holder hcall hholds
      have hne : prepared.operationId ≠ operationId := by
        intro hsame
        exact hother (hfree other dispatched (hsame ▸ hheld)).symm
      rw [Function.update_of_ne hne]
      exact hheld
  case dispatched =>
    intro prepared hprepared
    rcases hdispatched with hsame | ⟨last, hlast, hid, -, hafter⟩
    · exact hmay _ (h.dispatched prepared (hsame ▸ hprepared))
    · rw [hlast, List.mem_append, List.mem_singleton] at hprepared
      rcases hprepared with hprepared | rfl
      · exact hmay _ (h.dispatched prepared hprepared)
      · rw [hid, Function.update_self]
        exact hafter
  case once =>
    rcases hdispatched with hsame | ⟨last, hlast, hid, hbefore, -⟩
    · rw [hsame]
      exact h.once
    · rw [hlast, List.map_append, List.map_singleton, List.nodup_append]
      refine ⟨h.once, List.nodup_singleton _, ?_⟩
      intro a ha b hb heq
      obtain ⟨earlier, hearlier, rfl⟩ := List.mem_map.mp ha
      rw [List.mem_singleton] at hb
      have hmayEarlier := h.dispatched earlier hearlier
      rw [heq, hb, hid, hbefore] at hmayEarlier
      cases hmayEarlier

/-- Whatever its stage, the stream of an operation is empty, started or ended. -/
theorem Staged.shape (h : Staged stage state) (operationId : String) :
    state.streams operationId = [] ∨ Started (state.streams operationId) ∨
      Ended (state.streams operationId) := by
  have hallows := h.stream operationId
  cases hstage : stage operationId with
  | absent =>
      rw [hstage] at hallows
      exact .inl hallows
  | held =>
      rw [hstage] at hallows
      exact .inr (.inl hallows)
  | released =>
      rw [hstage] at hallows
      exact .inr hallows

/-- An operation without facts has not begun. -/
theorem Staged.absent (h : Staged stage state) {operationId : String}
    (hempty : state.streams operationId = []) : stage operationId = .absent := by
  have hallows := h.stream operationId
  rw [hempty] at hallows
  cases hstage : stage operationId with
  | absent => rfl
  | held =>
      rw [hstage] at hallows
      cases hallows
  | released =>
      rw [hstage] at hallows
      rcases hallows with hstarted | hended
      · cases hstarted
      · cases hended

/-! ## Actions -/

theorem Staged.start {prepared : Prepared} {approvalId : Option String}
    {stamps : FactStamp × FactStamp} {now : ClockReading} {failure : Option Thrown}
    (h : Staged stage state) :
    ∃ stage', Staged stage' (stepStart state index prepared approvalId stamps now failure) ∧
      StageStep stage stage' := by
  unfold stepStart
  cases hstart : startOperation state prepared approvalId stamps now failure with
  | error error => exact ⟨stage, h.setPhase fun _ _ => .inl rfl, .inl rfl⟩
  | ok result =>
      obtain ⟨evidence, approvals, streams⟩ := result
      obtain ⟨hempty, ⟨authorized, started, hfacts, -, -, rfl⟩, -, -⟩ := startOperation_eq_ok hstart
      have habsent := h.absent hempty
      have hnext : (stage prepared.operationId).Next (.held index false) := by
        rw [habsent]
        exact .start
      refine ⟨_, h.advance hnext ?_ ?_ rfl rfl hfacts.started' (.inl rfl), .inr ⟨_, _, hnext, rfl⟩⟩
      · intro other dispatched hheld
        rw [habsent] at hheld
        cases hheld
      · intro held dispatched hholds
        obtain ⟨rfl, rfl⟩ := Prod.mk.inj (Option.some.inj hholds)
        exact ⟨rfl, rfl⟩

/-- An end that comes before the dispatch is not the provider's. -/
theorem ofProvider_of_beforeDispatch {request : ExecutionRequest} {prepared : Prepared}
    {aborted : Bool} {now : ClockReading} {ending : Ending}
    (h : beforeDispatch request prepared aborted now = .ok (some ending)) :
    ending.ofProvider = false := by
  unfold beforeDispatch at h
  split at h
  next =>
    obtain rfl := Option.some.inj (Except.ok.inj h)
    rfl
  next =>
    obtain ⟨instant, -, h⟩ := bind_eq_ok_iff.mp h
    replace h := pure_eq_ok_iff.mp h
    split_ifs at h
    obtain rfl := Option.some.inj h
    rfl

theorem Staged.dispatch {call : Call} {prepared : Prepared} {evidence : List String}
    {aborted : Bool} {now : ClockReading} (h : Staged stage state)
    (hcall : state.calls[index]? = some call) (hphase : call.phase = .started prepared evidence) :
    ∃ stage', Staged stage'
        (stepDispatch state index call.request prepared evidence aborted now) ∧
      StageStep stage stage' := by
  have hholds : call.phase.holds? = some (prepared, false) := by rw [hphase]; rfl
  have hheld := h.holder hcall hholds
  unfold stepDispatch
  split
  next => exact ⟨stage, h.setPhase fun _ _ => .inl rfl, .inl rfl⟩
  next ending hending =>
    refine ⟨stage, h.setPhase ?_, .inl rfl⟩
    intro old hold
    obtain rfl := Option.some.inj (hcall.symm.trans hold)
    right
    rw [hholds, Phase.holds?, ofProvider_of_beforeDispatch hending]
  next =>
    have hnext : (stage prepared.operationId).Next (.held index true) := by
      rw [hheld]
      exact .dispatch
    have hstream : (Stage.held index true).Allows (state.streams prepared.operationId) := by
      have hallows := h.stream prepared.operationId
      rw [hheld] at hallows
      exact hallows
    refine ⟨_, h.advance hnext ?_ ?_ rfl ?_ hstream
      (.inr ⟨prepared, rfl, rfl, ?_, rfl⟩), .inr ⟨_, _, hnext, rfl⟩⟩
    · intro other dispatched hother
      rw [hheld] at hother
      exact (Stage.held.inj hother).1.symm
    · intro held dispatched hholds
      obtain ⟨rfl, rfl⟩ := Prod.mk.inj (Option.some.inj hholds)
      exact ⟨rfl, rfl⟩
    · exact (Function.update_eq_self _ _).symm
    · rw [hheld]
      rfl

theorem Staged.record {call : Call} {prepared : Prepared} {evidence : List String}
    {ending : Ending} {stamp : FactStamp} {failure : Option Thrown} {reconcile : Option String}
    (h : Staged stage state) (hcall : state.calls[index]? = some call)
    (hphase : call.phase = .persisting prepared evidence ending) :
    ∃ stage', Staged stage'
        (stepRecord state index prepared evidence ending stamp failure reconcile) ∧
      StageStep stage stage' := by
  have hheld : stage prepared.operationId = .held index ending.ofProvider := by
    apply h.holder hcall
    rw [hphase]
    rfl
  unfold stepRecord
  dsimp only
  split
  next => exact ⟨stage, h.setPhase fun _ _ => .inl rfl, .inl rfl⟩
  next streams happend =>
    obtain ⟨-, payload, fact, hpayload, hfact, -, rfl⟩ := appendOutcome_eq_ok happend
    have hnext : (stage prepared.operationId).Next .released := by
      rw [hheld]
      exact .release
    have hstream : Started (state.streams prepared.operationId) := by
      have hallows := h.stream prepared.operationId
      rw [hheld] at hallows
      exact hallows
    have hterminal : fact.stored.payload.isTerminal = true := by
      rw [Fact.stored, FactPayload.isTerminal_stored, hfact.payload]
      exact outcomeOf_isTerminal hpayload
    refine ⟨_, h.advance hnext ?_ ?_ rfl rfl (.inr (hstream.snoc hterminal)) (.inl rfl),
      .inr ⟨_, _, hnext, rfl⟩⟩
    · intro other dispatched hother
      rw [hheld] at hother
      exact (Stage.held.inj hother).1.symm
    · intro held dispatched hholds
      cases hholds

theorem Staged.cancel {prepared : Prepared} {stamps : FactStamp × FactStamp × FactStamp}
    {failure : Option Thrown} {reconcile : Option String} (h : Staged stage state) :
    ∃ stage', Staged stage' (stepCancel state index prepared stamps failure reconcile) ∧
      StageStep stage stage' := by
  unfold stepCancel
  split
  next => exact ⟨stage, h.setPhase fun _ _ => .inl rfl, .inl rfl⟩
  next streams happend =>
    obtain ⟨facts, hfacts, happend⟩ := bind_eq_ok_iff.mp happend
    obtain ⟨authorized, started, cancelled, hstored, hstart, hcancelled⟩ :=
      cancellationFacts_eq_ok hfacts
    obtain ⟨hlength, -, rfl⟩ := appendFacts_eq_ok happend
    have hempty := List.length_eq_zero_iff.mp hlength
    have habsent := h.absent hempty
    have hnext : (stage prepared.operationId).Next .released := by
      rw [habsent]
      exact .cancel
    have hended : Ended (state.streams prepared.operationId ++ facts.map Fact.stored) := by
      rw [hempty, hstored]
      apply hstart.started'.snoc
      rw [hcancelled.payload]
      rfl
    refine ⟨_, h.advance hnext ?_ ?_ rfl rfl (.inr hended) (.inl rfl), .inr ⟨_, _, hnext, rfl⟩⟩
    · intro other dispatched hheld
      rw [habsent] at hheld
      cases hheld
    · intro held dispatched hholds
      cases hholds

/-- Every action moves the stages forward. -/
theorem Staged.step (h : Staged stage state) (hstep : Progress runtime state action next) :
    ∃ stage', Staged stage' next ∧ StageStep stage stage' := by
  cases hstep with
  | execute => exact ⟨stage, h.begin holds?_beginCall, .inl rfl⟩
  | cancelQueued => exact ⟨stage, h.begin holds?_beginCall, .inl rfl⟩
  | issue => exact ⟨stage, ⟨h.stream, h.holder, h.dispatched, h.once⟩, .inl rfl⟩
  | refuseIssue => exact ⟨stage, h, .inl rfl⟩
  | authority => exact ⟨stage, h.setPhase fun _ _ => .inl holds?_afterAuthority, .inl rfl⟩
  | policy => exact ⟨stage, h.setPhase fun _ _ => .inl holds?_afterPolicy, .inl rfl⟩
  | read => exact ⟨stage, h.setPhase fun _ _ => .inl holds?_afterRead, .inl rfl⟩
  | resolve => exact ⟨stage, h.setPhase fun _ _ => .inl holds?_afterResolve, .inl rfl⟩
  | start => exact h.start
  | dispatch hcall hphase => exact h.dispatch hcall hphase
  | settle hcall hphase hprovider =>
      refine ⟨stage, h.setPhase ?_, .inl rfl⟩
      intro old hold
      obtain rfl := Option.some.inj (hcall.symm.trans hold)
      right
      rw [hphase, Phase.holds?, Phase.holds?, hprovider]
  | record hcall hphase => exact h.record hcall hphase
  | cancel => exact h.cancel

/-! ## Runs -/

theorem exists_staged {actions : List Action}
    (h : run (governedStep runtime) .initial actions = .ok state) : ∃ stage, Staged stage state := by
  apply run_invariant (P := fun state => ∃ stage, Staged stage state) ⟨_, staged_initial⟩ ?_ h
  rintro middle action next ⟨stage, hstage⟩ hstep
  obtain ⟨stage', hstage', -⟩ := hstage.step (governedStep_progress hstep)
  exact ⟨stage', hstage'⟩

/-- Whatever the interleaving, a provider is invoked at most once for an operation,
when exactly its two start facts are durable, and its stream is empty, started or
ended. -/
theorem dispatch_at_most_once {actions : List Action}
    (h : run (governedStep runtime) .initial actions = .ok state) :
    (state.dispatched.map Prepared.operationId).Nodup ∧
      (∀ operationId, state.streams operationId = [] ∨ Started (state.streams operationId) ∨
        Ended (state.streams operationId)) ∧
      ∀ action next, governedStep runtime state action = .ok next →
        (∀ operationId, state.streams operationId <+: next.streams operationId) ∧
        (next.dispatched = state.dispatched ∨ ∃ prepared,
          next.dispatched = state.dispatched ++ [prepared] ∧
          Started (state.streams prepared.operationId)) := by
  obtain ⟨stage, hstage⟩ := exists_staged h
  refine ⟨hstage.once, hstage.shape, ?_⟩
  intro action next hstep
  have hprogress := governedStep_progress hstep
  refine ⟨hprogress.streams_prefix, ?_⟩
  rcases hprogress.dispatched with hsame | ⟨index, call, prepared, evidence, hcall, hphase, hnext⟩
  · exact .inl hsame
  · right
    refine ⟨prepared, hnext, ?_⟩
    have hheld : stage prepared.operationId = .held index false := by
      apply hstage.holder hcall
      rw [hphase]
      rfl
    have hallows := hstage.stream prepared.operationId
    rw [hheld] at hallows
    exact hallows

end

/-! ## A run -/

namespace Sample

def anySchema : ExecutionSchema where
  version := 1
  safeParse value :=
    match value with
    | some data => .accepted data
    | none => .rejected none none

def mailContract : ExecutionContract where
  name := "mail"
  capability := "mail.send"
  provider := "smtp"
  authority := "owner"
  policyVersion := "p1"
  reversibility := .irreversibleMutation
  cancellationPolicy := .cooperative
  failureMode := .failClosed
  timeoutMs := 1000
  requiresApproval := true
  providerAcceptsIdempotency := true
  inputSchema := anySchema
  outputSchema := anySchema

def governed : GovernedRuntime where
  contracts := ⟨[mailContract], by decide, by decide⟩
  approvalBoundary := true

def mailScope : Json := .obj [("box", .str "b1")]

def mailRequest : ExecutionRequest where
  body := .obj [("tool", .str "mail"), ("input", .obj []),
    ("actor", .obj [("id", .str "u1"), ("type", .str "user")]), ("resource_scope", mailScope),
    ("idempotency_key", .str "k1")]
  signal := .absent

def mailOperation : String := deterministicOperationId "mail" "k1"

def mailApproval : Json :=
  .obj [("approval_id", .str "a1"), ("operation_id", .str mailOperation),
    ("policy_version", .str "p1"), ("evidence_ref", .str "r1"),
    ("issued_at", .str "1970-01-01T00:00:00.000Z"), ("expires_at", .str "1970-01-02T00:00:00.000Z"),
    ("decision", .str "approved"), ("authorizer", .obj [("id", .str "u2"), ("type", .str "user")]),
    ("resource_scope", mailScope)]

def clock (instant : Int) : ClockReading := .ok (some instant)

def stamp (eventId : String) : FactStamp := ⟨.ok eventId, clock 0⟩

def allowed : Except Thrown Json :=
  .ok (.obj [("allowed", .bool true), ("policy_version", .str "p1")])

/-- An approved execution up to its dispatch. -/
def mailActions : List Action :=
  [.issue mailApproval, .execute mailRequest .found, .authority 0 allowed,
    .policy 0 allowed "" (clock 0), .read 0 none, .resolve 0 (.ok (.str "a1")),
    .start 0 (stamp "e1", stamp "e2") (clock 0) none, .dispatch 0 false (clock 0)]

end Sample

theorem mail_dispatched_once : ∃ state,
    run (governedStep Sample.governed) .initial Sample.mailActions = .ok state ∧
      state.dispatched.map Prepared.operationId = [Sample.mailOperation] ∧
      ∀ next, governedStep Sample.governed state (.dispatch 0 false (Sample.clock 0)) = .ok next →
        next.dispatched = state.dispatched ∨ ∃ prepared,
          next.dispatched = state.dispatched ++ [prepared] ∧
          Started (state.streams prepared.operationId) := by
  obtain ⟨state, hrun, hcheck⟩ := runsTo_iff.mp
    (show runsTo (governedStep Sample.governed) .initial Sample.mailActions (fun state =>
        decide (state.dispatched.map Prepared.operationId = [Sample.mailOperation])) = true by
      decide +kernel)
  refine ⟨state, hrun, of_decide_eq_true hcheck, ?_⟩
  intro next hstep
  exact ((dispatch_at_most_once hrun).2.2 _ next hstep).2

end Hseos
