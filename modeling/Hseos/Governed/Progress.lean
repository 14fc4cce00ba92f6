import Hseos.Governed.Runtime
import Mathlib.Logic.Function.Basic

/-! # What one action does

The inversion of the runtime: for each action, the call that was waiting for it
and the state that follows, and from it what can happen to the streams, to the
approvals and to the invocations of providers.
-/

namespace Hseos

variable {runtime : GovernedRuntime} {state next : GovernedState} {action : Action}

/-! ## Calls by index -/

theorem getElem?_setPhase (state : GovernedState) (index other : Nat) (phase : Phase) :
    (state.setPhase index phase).calls[other]? =
      if index = other then state.calls[other]?.map fun call => { call with phase := phase }
      else state.calls[other]? := by
  rw [GovernedState.setPhase, List.getElem?_modify]
  split <;> simp

/-- After a phase is set, a call is the one whose phase was set, or as it was. -/
theorem call_setPhase {index other : Nat} {phase : Phase} {call : Call}
    (h : (state.setPhase index phase).calls[other]? = some call) :
    (index = other ∧ ∃ old, state.calls[other]? = some old ∧ call = { old with phase := phase }) ∨
      (index ≠ other ∧ state.calls[other]? = some call) := by
  rw [getElem?_setPhase] at h
  by_cases hindex : index = other
  · rw [if_pos hindex, Option.map_eq_some_iff] at h
    obtain ⟨old, hold, rfl⟩ := h
    exact .inl ⟨hindex, old, hold, rfl⟩
  · rw [if_neg hindex] at h
    exact .inr ⟨hindex, h⟩

/-! ## Actions -/

/-- `Progress runtime state action next`: the action takes the state to `next`. -/
inductive Progress (runtime : GovernedRuntime) (state : GovernedState) :
    Action → GovernedState → Prop where
  | execute {request : ExecutionRequest} {lookup : ProviderLookup} :
      Progress runtime state (.execute request lookup) { state with
        calls := state.calls ++
          [beginCall .execute request (admitExecution runtime.contracts lookup request)] }
  | cancelQueued {request : ExecutionRequest} :
      Progress runtime state (.cancelQueued request) { state with
        calls := state.calls ++
          [beginCall .cancelQueued request (admitCancellation runtime.contracts request)] }
  | issue {record : Json} {approvals : ApprovalStore}
      (hissue : state.approvals.issue record = .ok approvals) :
      Progress runtime state (.issue record) { state with approvals := approvals }
  | refuseIssue {record : Json} : Progress runtime state (.issue record) state
  | authority {index : Nat} {decision : Except Thrown Json} {call : Call} {admitted : Admitted}
      (hcall : state.calls[index]? = some call) (hphase : call.phase = .authorizing admitted) :
      Progress runtime state (.authority index decision)
        (state.setPhase index (afterAuthority call.kind admitted decision))
  | policy {index : Nat} {decision : Except Thrown Json} {generated : String} {clock : ClockReading}
      {call : Call} {admitted : Admitted}
      (hcall : state.calls[index]? = some call) (hphase : call.phase = .deciding admitted) :
      Progress runtime state (.policy index decision generated clock) (state.setPhase index
        (afterPolicy call.kind call.request admitted decision generated clock))
  | read {index : Nat} {failure : Option Thrown} {existing : Except Thrown (List Fact)} {call : Call}
      {prepared : Prepared} (hcall : state.calls[index]? = some call)
      (hphase : call.phase = .reading prepared)
      (hexisting : ∀ facts, existing = .ok facts → facts = state.streams prepared.operationId) :
      Progress runtime state (.read index failure)
        (state.setPhase index (afterRead runtime call.kind prepared existing))
  | resolve {index : Nat} {answer : Except Thrown Json} {call : Call} {prepared : Prepared}
      (hcall : state.calls[index]? = some call) (hphase : call.phase = .resolving prepared) :
      Progress runtime state (.resolve index answer)
        (state.setPhase index (afterResolve prepared answer))
  | start {index : Nat} {stamps : FactStamp × FactStamp} {now : ClockReading}
      {failure : Option Thrown} {call : Call} {prepared : Prepared} {approvalId : Option String}
      (hcall : state.calls[index]? = some call)
      (hphase : call.phase = .starting prepared approvalId) :
      Progress runtime state (.start index stamps now failure)
        (stepStart state index prepared approvalId stamps now failure)
  | dispatch {index : Nat} {aborted : Bool} {now : ClockReading} {call : Call} {prepared : Prepared}
      {evidence : List String} (hcall : state.calls[index]? = some call)
      (hphase : call.phase = .started prepared evidence) :
      Progress runtime state (.dispatch index aborted now)
        (stepDispatch state index call.request prepared evidence aborted now)
  | settle {index : Nat} {ending : Ending} {call : Call} {prepared : Prepared}
      {evidence : List String} (hcall : state.calls[index]? = some call)
      (hphase : call.phase = .dispatching prepared evidence) (hprovider : ending.ofProvider = true) :
      Progress runtime state (.settle index ending)
        (state.setPhase index (.persisting prepared evidence ending))
  | record {index : Nat} {stamp : FactStamp} {failure : Option Thrown} {reconcile : Option String}
      {call : Call} {prepared : Prepared} {evidence : List String} {ending : Ending}
      (hcall : state.calls[index]? = some call)
      (hphase : call.phase = .persisting prepared evidence ending) :
      Progress runtime state (.record index stamp failure reconcile)
        (stepRecord state index prepared evidence ending stamp failure reconcile)
  | cancel {index : Nat} {stamps : FactStamp × FactStamp × FactStamp} {failure : Option Thrown}
      {reconcile : Option String} {call : Call} {prepared : Prepared}
      (hcall : state.calls[index]? = some call) (hphase : call.phase = .cancelling prepared) :
      Progress runtime state (.cancel index stamps failure reconcile)
        (stepCancel state index prepared stamps failure reconcile)

theorem governedStep_progress (h : governedStep runtime state action = .ok next) :
    Progress runtime state action next := by
  have hphase? : ∀ {index : Nat} {call : Call} {phase : Phase},
      (state.calls[index]?.map fun call => (call, call.phase)) = some (call, phase) →
      state.calls[index]? = some call ∧ call.phase = phase := by
    intro index call phase hsome
    obtain ⟨found, hfound, heq⟩ := Option.map_eq_some_iff.mp hsome
    obtain ⟨rfl, rfl⟩ := Prod.mk.inj heq
    exact ⟨hfound, rfl⟩
  cases action with
  | execute request lookup =>
      obtain rfl := Except.ok.inj h
      exact .execute
  | cancelQueued request =>
      obtain rfl := Except.ok.inj h
      exact .cancelQueued
  | issue record =>
      unfold governedStep at h
      dsimp only at h
      split at h
      next =>
        obtain rfl := Except.ok.inj h
        exact .refuseIssue
      next approvals hissue =>
        obtain rfl := Except.ok.inj h
        exact .issue hissue
  | read index failure =>
      unfold governedStep at h
      dsimp only at h
      split at h
      next call prepared hsome =>
        obtain rfl := Except.ok.inj h
        refine .read (hphase? hsome).1 (hphase? hsome).2 ?_
        intro facts hfacts
        cases failure with
        | some error => cases hfacts
        | none => exact (Except.ok.inj hfacts).symm
      next => cases h
  | settle index ending =>
      unfold governedStep at h
      dsimp only at h
      split at h
      next call prepared evidence hsome =>
        split at h
        next hprovider =>
          obtain rfl := Except.ok.inj h
          exact .settle (hphase? hsome).1 (hphase? hsome).2 hprovider
        next => cases h
      next => cases h
  | _ =>
      unfold governedStep at h
      dsimp only at h
      split at h
      next hsome =>
        obtain rfl := Except.ok.inj h
        constructor
        · exact (hphase? hsome).1
        · exact (hphase? hsome).2
      next => cases h

/-! ## Appends -/

theorem appendFacts_eq_ok {streams streams' : Streams} {operationId : String} {version : Nat}
    {facts : List Fact} {failure : Option Thrown}
    (h : appendFacts streams operationId version facts failure = .ok streams') :
    (streams operationId).length = version ∧ (∀ fact ∈ facts, fact.storable = true) ∧
      streams' = Function.update streams operationId
        (streams operationId ++ facts.map Fact.stored) := by
  cases failure with
  | some error => cases h
  | none =>
      obtain ⟨hstorable, h⟩ := reject_bind_eq_ok_iff.mp h
      obtain ⟨hversion, h⟩ := reject_bind_eq_ok_iff.mp h
      simp only [Bool.not_eq_false', List.all_eq_true, decide_eq_false_iff_not,
        not_not] at hstorable hversion
      exact ⟨hversion, hstorable, (pure_eq_ok_iff.mp h).symm⟩

/-- Only a result changes when it is stored. -/
theorem Fact.Made.stored {fact : Fact} {operation : Operation} {payload : FactPayload}
    {evidenceRefs : List String} (h : fact.Made operation payload evidenceRefs)
    (hpayload : payload.stored = payload) : fact.stored = fact := by
  have hsame : fact.payload.stored = fact.payload := by rw [h.payload, hpayload]
  rw [Fact.stored, hsame]

/-- The facts that start an operation. -/
structure StartFacts (prepared : Prepared) (approvalId : Option String) (evidence : List String)
    (authorized started : Fact) : Prop where
  authorized : authorized.Made prepared.operation
    (.authorized (prepared.authorizedFact approvalId)) evidence
  started : started.Made prepared.operation (.started prepared.startedFact) []

theorem startFacts_eq_ok {prepared : Prepared} {approvalId : Option String}
    {evidence : List String} {stamps : FactStamp × FactStamp} {facts : List Fact}
    (h : startFacts prepared approvalId evidence stamps = .ok facts) :
    ∃ authorized started, facts = [authorized, started] ∧
      facts.map Fact.stored = [authorized, started] ∧
      StartFacts prepared approvalId evidence authorized started := by
  obtain ⟨authorized, hauthorized, h⟩ := bind_eq_ok_iff.mp h
  obtain ⟨started, hstarted, h⟩ := bind_eq_ok_iff.mp h
  obtain rfl := pure_eq_ok_iff.mp h
  have ha := makeFact_eq_ok hauthorized
  have hs := makeFact_eq_ok hstarted
  refine ⟨authorized, started, rfl, ?_, ha, hs⟩
  rw [List.map_cons, List.map_cons, List.map_nil, ha.stored rfl, hs.stored rfl]

/-- A start that succeeds found an empty stream, and consumed the approval if there
was one to consume. -/
theorem startOperation_eq_ok {prepared : Prepared} {approvalId : Option String}
    {stamps : FactStamp × FactStamp} {now : ClockReading} {failure : Option Thrown}
    {evidence : List String} {approvals : ApprovalStore} {streams : Streams}
    (h : startOperation state prepared approvalId stamps now failure =
      .ok (evidence, approvals, streams)) :
    state.streams prepared.operationId = [] ∧
    (∃ authorized started, StartFacts prepared approvalId
        (approvalEvidence state.approvals approvalId) authorized started ∧
      authorized.storable = true ∧ started.storable = true ∧
      streams = Function.update state.streams prepared.operationId [authorized, started]) ∧
    evidence = approvalEvidence state.approvals approvalId ∧
    ((approvalId = none ∧ approvals = state.approvals) ∨
      ∃ id instant row, approvalId = some id ∧
        state.approvals.Usable ⟨id, prepared.operationId, prepared.operation.resourceScope,
          prepared.contract.policyVersion, isoString instant⟩ row ∧
        approvals = { state.approvals with
          uses := state.approvals.uses ++ [⟨id, prepared.operationId, isoString instant⟩] }) := by
  obtain ⟨facts, hfacts, h⟩ := bind_eq_ok_iff.mp h
  obtain ⟨authorized, started, rfl, hstored, hstart⟩ := startFacts_eq_ok hfacts
  have happended : ∀ {streams : Streams},
      appendFacts state.streams prepared.operationId 0 [authorized, started] failure = .ok streams →
      state.streams prepared.operationId = [] ∧ ∃ authorized started, StartFacts prepared approvalId
          (approvalEvidence state.approvals approvalId) authorized started ∧
        authorized.storable = true ∧ started.storable = true ∧
        streams = Function.update state.streams prepared.operationId [authorized, started] := by
    intro streams happend
    obtain ⟨hempty, hstorable, hstreams⟩ := appendFacts_eq_ok happend
    have hnil := List.length_eq_zero_iff.mp hempty
    refine ⟨hnil, authorized, started, hstart, hstorable _ (by simp), hstorable _ (by simp), ?_⟩
    rw [hstreams, hstored, hnil, List.nil_append]
  dsimp only at h
  cases approvalId with
  | none =>
      obtain ⟨streams, happend, h⟩ := bind_eq_ok_iff.mp h
      obtain ⟨rfl, rfl, rfl⟩ := pure_eq_ok_iff.mp h
      obtain ⟨hnil, hstreams⟩ := happended happend
      exact ⟨hnil, hstreams, rfl, .inl ⟨rfl, rfl⟩⟩
  | some id =>
      obtain ⟨instant, -, h⟩ := bind_eq_ok_iff.mp h
      obtain ⟨⟨row, approvals, streams⟩, hconsume, h⟩ := bind_eq_ok_iff.mp h
      obtain ⟨rfl, rfl, rfl⟩ := pure_eq_ok_iff.mp h
      obtain ⟨happend, husable, happrovals⟩ := ApprovalStore.consume_eq_ok hconsume
      obtain ⟨hnil, hstreams⟩ := happended happend
      refine ⟨hnil, hstreams, ?_, .inr ⟨id, instant, row, rfl, husable, happrovals⟩⟩
      have hfound := husable.found
      dsimp only at hfound
      simp [approvalEvidence, hfound]

/-- A terminal fact that was appended follows the two start facts. -/
theorem appendOutcome_eq_ok {streams streams' : Streams} {prepared : Prepared} {outcome : Outcome}
    {stamp : FactStamp} {failure : Option Thrown}
    (h : appendOutcome streams prepared outcome stamp failure = .ok streams') :
    (streams prepared.operationId).length = 2 ∧ ∃ (payload : FactPayload) (fact : Fact),
      outcome.payload = some payload ∧
      fact.Made prepared.operation payload outcome.evidenceRefs ∧ fact.storable = true ∧
      streams' = Function.update streams prepared.operationId
        (streams prepared.operationId ++ [fact.stored]) := by
  unfold appendOutcome at h
  cases hpayload : outcome.payload with
  | none =>
      rw [hpayload] at h
      cases h
  | some payload =>
      rw [hpayload] at h
      obtain ⟨fact, hfact, h⟩ := bind_eq_ok_iff.mp h
      obtain ⟨hversion, hstorable, hstreams⟩ := appendFacts_eq_ok h
      exact ⟨hversion, payload, fact, rfl, makeFact_eq_ok hfact, hstorable fact (by simp), hstreams⟩

/-- The facts of a cancellation before the start. -/
theorem cancellationFacts_eq_ok {prepared : Prepared} {stamps : FactStamp × FactStamp × FactStamp}
    {facts : List Fact} (h : cancellationFacts prepared stamps = .ok facts) :
    ∃ authorized started cancelled : Fact, facts.map Fact.stored = [authorized, started, cancelled] ∧
      StartFacts prepared none [] authorized started ∧
      cancelled.Made prepared.operation
        (.cancelled "cancelled by governed scheduler before provider dispatch" "scheduler_queue" none
          prepared.warnings) [] := by
  obtain ⟨starts, hstarts, h⟩ := bind_eq_ok_iff.mp h
  obtain ⟨cancelled, hcancelled, h⟩ := bind_eq_ok_iff.mp h
  obtain rfl := pure_eq_ok_iff.mp h
  obtain ⟨authorized, started, rfl, hstored, hstart⟩ := startFacts_eq_ok hstarts
  have hmade := makeFact_eq_ok hcancelled
  refine ⟨authorized, started, cancelled, ?_, hstart, hmade⟩
  rw [List.map_append, hstored, List.map_cons, List.map_nil, hmade.stored rfl]
  rfl

/-! ## Streams and dispatches -/

/-- An action appends facts to the stream of one operation, or to none. -/
theorem Progress.streams (h : Progress runtime state action next) :
    ∃ (operationId : String) (facts : List Fact), next.streams =
      Function.update state.streams operationId (state.streams operationId ++ facts) := by
  have hnone : ∃ (operationId : String) (facts : List Fact), state.streams =
      Function.update state.streams operationId (state.streams operationId ++ facts) :=
    ⟨"", [], by rw [List.append_nil, Function.update_eq_self]⟩
  cases h with
  | start hcall hphase =>
      unfold stepStart
      split
      next => exact hnone
      next hstart =>
        obtain ⟨hempty, ⟨authorized, started, -, -, -, rfl⟩, -, -⟩ := startOperation_eq_ok hstart
        exact ⟨_, [authorized, started], by rw [hempty, List.nil_append]⟩
  | dispatch hcall hphase =>
      unfold stepDispatch
      split <;> exact hnone
  | record hcall hphase =>
      unfold stepRecord
      dsimp only
      split
      next => exact hnone
      next happend =>
        obtain ⟨-, -, fact, -, -, -, rfl⟩ := appendOutcome_eq_ok happend
        exact ⟨_, _, rfl⟩
  | cancel hcall hphase =>
      unfold stepCancel
      split
      next => exact hnone
      next happend =>
        obtain ⟨facts, -, happend⟩ := bind_eq_ok_iff.mp happend
        obtain ⟨-, -, rfl⟩ := appendFacts_eq_ok happend
        exact ⟨_, _, rfl⟩
  | _ => exact hnone

/-- No fact is ever lost or changed. -/
theorem Progress.streams_prefix (h : Progress runtime state action next) (operationId : String) :
    state.streams operationId <+: next.streams operationId := by
  obtain ⟨changed, facts, hstreams⟩ := h.streams
  rw [hstreams]
  by_cases hsame : operationId = changed
  · subst hsame
    rw [Function.update_self]
    exact List.prefix_append _ _
  · rw [Function.update_of_ne hsame]

/-- A provider is invoked by a call that stands between the start facts and the
dispatch, and by one call at a time. -/
theorem Progress.dispatched (h : Progress runtime state action next) :
    next.dispatched = state.dispatched ∨
      ∃ (index : Nat) (call : Call) (prepared : Prepared) (evidence : List String),
        state.calls[index]? = some call ∧ call.phase = .started prepared evidence ∧
        next.dispatched = state.dispatched ++ [prepared] := by
  cases h with
  | start hcall hphase =>
      unfold stepStart
      split <;> exact .inl rfl
  | dispatch hcall hphase =>
      unfold stepDispatch
      split
      next => exact .inl rfl
      next => exact .inl rfl
      next => exact .inr ⟨_, _, _, _, hcall, hphase, rfl⟩
  | record hcall hphase =>
      unfold stepRecord
      dsimp only
      split <;> exact .inl rfl
  | cancel hcall hphase =>
      unfold stepCancel
      split <;> exact .inl rfl
  | _ => exact .inl rfl

end Hseos
