import Hseos.Governed.Progress

/-! # Requests and their operations

What a call keeps of its request on its way. Two executions of one request have
one operation, up to the deadline, and what the policy adds.
-/

namespace Hseos

/-! ## What the checks establish -/

/-- A request was admitted. -/
structure Admitted.For (registry : ContractRegistry) (request : ExecutionRequest)
    (admitted : Admitted) : Prop where
  contract : registry.resolve (request.body.field? "tool") = .ok admitted.contract
  input : admitted.contract.validateInput (request.body.field? "input") = .ok admitted.input
  actor : admitted.actor = request.member "actor"
  resourceScope : admitted.resourceScope = request.member "resource_scope"

/-- The operation of a request, with its key and its deadline. -/
def ExecutionRequest.operation (request : ExecutionRequest) (kind : CallKind)
    (contract : ExecutionContract) (key deadline : String) : Operation where
  operationId := deterministicOperationId contract.name key
  tool := contract.name
  capability := contract.capability
  actor := request.member "actor"
  resourceScope := request.member "resource_scope"
  idempotencyKey := key
  correlationId := request.orElse "correlation_id" (deterministicOperationId contract.name key)
  causationId :=
    request.orElse "causation_id" (kind.causation (deterministicOperationId contract.name key))
  deadline := deadline

/-- An execution was prepared for a request. -/
structure Prepared.For (registry : ContractRegistry) (kind : CallKind) (request : ExecutionRequest)
    (prepared : Prepared) : Prop where
  contract : registry.resolve (request.body.field? "tool") = .ok prepared.contract
  input : prepared.contract.validateInput (request.body.field? "input") = .ok prepared.input
  digest : prepared.inputDigest = Hseos.inputDigest prepared.input
  key : ∀ given, request.body.field? "idempotency_key" = some given →
    given = .str prepared.operation.idempotencyKey
  operation : prepared.operation = request.operation kind prepared.contract
    prepared.operation.idempotencyKey prepared.operation.deadline

section

variable {registry : ContractRegistry} {kind : CallKind} {request : ExecutionRequest}
  {admitted : Admitted} {prepared : Prepared}

theorem admitExecution_eq_ok {lookup : ProviderLookup}
    (h : admitExecution registry lookup request = .ok admitted) :
    admitted.For registry request := by
  obtain ⟨-, h⟩ := reject_bind_eq_ok_iff.mp h
  obtain ⟨contract, hcontract, h⟩ := bind_eq_ok_iff.mp h
  obtain ⟨-, -, h⟩ := bind_eq_ok_iff.mp h
  obtain ⟨-, -, h⟩ := bind_eq_ok_iff.mp h
  obtain ⟨input, hinput, h⟩ := bind_eq_ok_iff.mp h
  dsimp only at h
  obtain ⟨-, h⟩ := reject_bind_eq_ok_iff.mp h
  obtain ⟨-, h⟩ := reject_bind_eq_ok_iff.mp h
  obtain ⟨-, h⟩ := reject_bind_eq_ok_iff.mp h
  obtain ⟨-, h⟩ := reject_bind_eq_ok_iff.mp h
  obtain ⟨-, h⟩ := reject_bind_eq_ok_iff.mp h
  obtain rfl := pure_eq_ok_iff.mp h
  exact ⟨hcontract, hinput, rfl, rfl⟩

theorem admitCancellation_eq_ok (h : admitCancellation registry request = .ok admitted) :
    admitted.For registry request := by
  obtain ⟨-, h⟩ := reject_bind_eq_ok_iff.mp h
  obtain ⟨contract, hcontract, h⟩ := bind_eq_ok_iff.mp h
  obtain ⟨-, -, h⟩ := bind_eq_ok_iff.mp h
  obtain ⟨-, h⟩ := reject_bind_eq_ok_iff.mp h
  obtain ⟨input, hinput, h⟩ := bind_eq_ok_iff.mp h
  dsimp only at h
  obtain ⟨-, h⟩ := reject_bind_eq_ok_iff.mp h
  obtain ⟨-, h⟩ := reject_bind_eq_ok_iff.mp h
  obtain rfl := pure_eq_ok_iff.mp h
  exact ⟨hcontract, hinput, rfl, rfl⟩

/-- A key that the request gives is the one that is used. -/
theorem idempotencyKey_eq_ok {generated key : String}
    (h : idempotencyKey kind request generated = .ok key) {given : Json}
    (hgiven : request.body.field? "idempotency_key" = some given) : given = .str key := by
  unfold idempotencyKey at h
  rw [hgiven] at h
  dsimp only at h
  split at h
  next found hfound =>
    obtain rfl := Except.ok.inj h
    obtain ⟨hstring, -⟩ := Option.filter_eq_some_iff.mp hfound
    cases given with
    | str text =>
        rw [Option.bind_some, Json.string?, Option.some.injEq] at hstring
        rw [hstring]
    | _ => cases hstring
  next =>
    rw [Option.isNone_some, Bool.false_and, if_neg Bool.false_ne_true] at h
    cases h
  next => cases h

theorem prepare_eq_ok {key : String} {policyApproval : Bool} {warnings : List String}
    {clock : ClockReading} (hadmitted : admitted.For registry request)
    (hkey : ∀ given, request.body.field? "idempotency_key" = some given → given = .str key)
    (h : prepare kind request admitted key policyApproval warnings clock = .ok prepared) :
    prepared.For registry kind request := by
  obtain ⟨startedAt, -, h⟩ := bind_eq_ok_iff.mp h
  obtain ⟨deadline, -, h⟩ := bind_eq_ok_iff.mp h
  obtain rfl := pure_eq_ok_iff.mp h
  refine ⟨hadmitted.contract, hadmitted.input, rfl, hkey, ?_⟩
  rw [hadmitted.actor, hadmitted.resourceScope]
  rfl

/-- Executions of one request, which gives its key, have the same contract, the same
input and, up to the deadline, the same operation. -/
theorem Prepared.For.unique {request' : ExecutionRequest} {prepared' : Prepared}
    (h : prepared.For registry kind request) (h' : prepared'.For registry kind request')
    (hbody : request'.body = request.body)
    (hkey : (request.body.field? "idempotency_key").isSome = true) :
    prepared'.contract = prepared.contract ∧ prepared'.inputDigest = prepared.inputDigest ∧
      prepared'.operation =
        { prepared.operation with deadline := prepared'.operation.deadline } := by
  have hcontract : prepared'.contract = prepared.contract := by
    have hsame := h'.contract
    rw [hbody, h.contract] at hsame
    exact (Except.ok.inj hsame).symm
  have hinput : prepared'.input = prepared.input := by
    have hsame := h'.input
    rw [hbody, hcontract, h.input] at hsame
    exact (Except.ok.inj hsame).symm
  have hkeys : prepared'.operation.idempotencyKey = prepared.operation.idempotencyKey := by
    obtain ⟨given, hgiven⟩ := Option.isSome_iff_exists.mp hkey
    have hfirst := h.key given hgiven
    have hsecond := h'.key given (hbody ▸ hgiven)
    exact (Json.str.inj (hfirst.symm.trans hsecond)).symm
  refine ⟨hcontract, by rw [h'.digest, h.digest, hinput], ?_⟩
  rw [h'.operation, hcontract, hkeys]
  conv_rhs => rw [h.operation]
  simp only [ExecutionRequest.operation, ExecutionRequest.member, ExecutionRequest.orElse, hbody]

end

/-! ## What every call carries -/

/-- What a phase carries belongs to the request, and an execution that is about to
start names an approval exactly when it requires one. -/
def Phase.For (registry : ContractRegistry) (kind : CallKind) (request : ExecutionRequest) :
    Phase → Prop
  | .authorizing admitted | .deciding admitted => admitted.For registry request
  | .reading prepared => prepared.For registry kind request
  | .resolving prepared =>
      prepared.For registry kind request ∧ kind = .execute ∧ prepared.requiresApproval = true
  | .starting prepared approvalId =>
      prepared.For registry kind request ∧ kind = .execute ∧
        approvalId.isSome = prepared.requiresApproval
  | .cancelling prepared => prepared.For registry kind request ∧ kind = .cancelQueued
  | .started prepared _ | .dispatching prepared _ | .persisting prepared _ _ =>
      prepared.For registry kind request ∧ kind = .execute
  | .finished _ recorded =>
      ∀ ended ∈ recorded, ended.prepared.For registry kind request ∧ kind = .execute

def Call.Sound (registry : ContractRegistry) (call : Call) : Prop :=
  call.phase.For registry call.kind call.request

section

variable {runtime : GovernedRuntime} {state next : GovernedState} {action : Action}
  {registry : ContractRegistry} {kind : CallKind} {request : ExecutionRequest}
  {admitted : Admitted} {prepared : Prepared} {index : Nat} {phase : Phase}

/-- A call that failed carries nothing. -/
theorem phaseFor_failed {error : Thrown} {operationId : Option String} {warnings : List String} :
    (failed error operationId warnings).For registry kind request := by
  intro ended hended
  cases hended

theorem phaseFor_afterPolicy {decision : Except Thrown Json} {generated : String}
    {clock : ClockReading} (h : admitted.For registry request) :
    (afterPolicy kind request admitted decision generated clock).For registry kind request := by
  unfold afterPolicy
  split
  next => exact phaseFor_failed
  next =>
    split
    next => exact phaseFor_failed
    next hkey =>
      split
      next => exact phaseFor_failed
      next hprepare =>
        exact prepare_eq_ok h (fun given hgiven => idempotencyKey_eq_ok hkey hgiven) hprepare

theorem phaseFor_afterRead {existing : Except Thrown (List Fact)}
    (h : prepared.For registry kind request) :
    (afterRead runtime kind prepared existing).For registry kind request := by
  unfold afterRead
  split
  next => exact phaseFor_failed
  next =>
    intro ended hended
    cases hended
  next =>
    cases kind with
    | cancelQueued => exact ⟨h, rfl⟩
    | execute =>
        dsimp only
        unfold beginOperation
        split_ifs with happroval
        · exact ⟨h, rfl, happroval⟩
        · exact phaseFor_failed
        · exact ⟨h, rfl, (Bool.eq_false_of_not_eq_true happroval).symm⟩

theorem phaseFor_afterResolve {answer : Except Thrown Json}
    (h : prepared.For registry kind request) (hkind : kind = .execute)
    (happroval : prepared.requiresApproval = true) :
    (afterResolve prepared answer).For registry kind request := by
  unfold afterResolve
  split
  next => exact phaseFor_failed
  next =>
    split
    next => exact phaseFor_failed
    next => exact ⟨h, hkind, happroval.symm⟩

/-- After a phase is set, every call has a property if the other calls had it and
the call that moved has it now. -/
theorem forall_call_of_setPhase {P : Call → Prop}
    (hother : ∀ other call, index ≠ other → state.calls[other]? = some call → P call)
    (hphase : ∀ old, state.calls[index]? = some old → P { old with phase := phase }) :
    ∀ call ∈ (state.setPhase index phase).calls, P call := by
  intro call hcall
  obtain ⟨other, hfound⟩ := List.mem_iff_getElem?.mp hcall
  rcases call_setPhase hfound with ⟨rfl, old, hold, rfl⟩ | ⟨hne, hold⟩
  · exact hphase old hold
  · exact hother other call hne hold

theorem forall_call_setPhase {P : Call → Prop} (h : ∀ call ∈ state.calls, P call)
    (hphase : ∀ old, state.calls[index]? = some old → P { old with phase := phase }) :
    ∀ call ∈ (state.setPhase index phase).calls, P call :=
  forall_call_of_setPhase (fun _ call _ hcall => h call (List.mem_of_getElem? hcall)) hphase

theorem forall_call_append {P : Call → Prop} {last : Call} (h : ∀ call ∈ state.calls, P call)
    (hlast : P last) : ∀ call ∈ state.calls ++ [last], P call := by
  intro call hcall
  rcases List.mem_append.mp hcall with hcall | hcall
  · exact h call hcall
  · obtain rfl := List.mem_singleton.mp hcall
    exact hlast

/-- Whatever the action, every call carries what belongs to its request. -/
theorem Progress.sound (hstep : Progress runtime state action next)
    (h : ∀ call ∈ state.calls, call.Sound runtime.contracts) :
    ∀ call ∈ next.calls, call.Sound runtime.contracts := by
  have hmoved : ∀ {index : Nat} {call : Call} {phase : Phase}, state.calls[index]? = some call →
      phase.For runtime.contracts call.kind call.request →
      ∀ call ∈ (state.setPhase index phase).calls, call.Sound runtime.contracts := by
    intro index call phase hcall hphase
    apply forall_call_setPhase h
    intro old hold
    obtain rfl := Option.some.inj (hcall.symm.trans hold)
    exact hphase
  have hcarried : ∀ {index : Nat} {call : Call} {phase : Phase}, state.calls[index]? = some call →
      call.phase = phase → phase.For runtime.contracts call.kind call.request := by
    rintro index call phase hcall rfl
    exact h call (List.mem_of_getElem? hcall)
  cases hstep with
  | @execute request lookup =>
      apply forall_call_append h
      cases hadmit : admitExecution runtime.contracts lookup request with
      | error error => exact phaseFor_failed
      | ok admitted => exact admitExecution_eq_ok hadmit
  | @cancelQueued request =>
      apply forall_call_append h
      cases hadmit : admitCancellation runtime.contracts request with
      | error error => exact phaseFor_failed
      | ok admitted => exact admitCancellation_eq_ok hadmit
  | issue => exact h
  | refuseIssue => exact h
  | authority hcall hphase =>
      apply hmoved hcall
      have hadmitted := hcarried hcall hphase
      unfold afterAuthority
      split
      next => exact phaseFor_failed
      next => exact hadmitted
  | policy hcall hphase => exact hmoved hcall (phaseFor_afterPolicy (hcarried hcall hphase))
  | read hcall hphase => exact hmoved hcall (phaseFor_afterRead (hcarried hcall hphase))
  | resolve hcall hphase =>
      obtain ⟨hprepared, hkind, happroval⟩ := hcarried hcall hphase
      exact hmoved hcall (phaseFor_afterResolve hprepared hkind happroval)
  | start hcall hphase =>
      obtain ⟨hprepared, hkind, -⟩ := hcarried hcall hphase
      unfold stepStart
      split
      next => exact hmoved hcall phaseFor_failed
      next => exact hmoved hcall ⟨hprepared, hkind⟩
  | dispatch hcall hphase =>
      have hprepared := hcarried hcall hphase
      unfold stepDispatch
      split
      next => exact hmoved hcall phaseFor_failed
      next => exact hmoved hcall hprepared
      next => exact hmoved hcall hprepared
  | settle hcall hphase =>
      have hprepared := hcarried hcall hphase
      exact hmoved hcall hprepared
  | record hcall hphase =>
      have hprepared := hcarried hcall hphase
      unfold stepRecord
      dsimp only
      split
      next =>
        apply hmoved hcall
        intro ended hended
        cases hended
      next =>
        apply hmoved hcall
        intro ended hended
        obtain rfl := Option.some.inj hended
        exact hprepared
  | cancel hcall hphase =>
      unfold stepCancel
      split
      next => exact hmoved hcall phaseFor_failed
      next =>
        apply hmoved hcall
        intro ended hended
        cases hended

theorem calls_sound {actions : List Action}
    (h : run (governedStep runtime) .initial actions = .ok state) :
    ∀ call ∈ state.calls, call.Sound runtime.contracts := by
  apply run_invariant (P := fun state => ∀ call ∈ state.calls, call.Sound runtime.contracts) ?_ ?_ h
  · intro call hcall
    cases hcall
  · intro middle action next hmiddle hstep
    exact (governedStep_progress hstep).sound hmiddle

end

end Hseos
