import Hseos.Governed.AtMostOnce
import Hseos.Governed.Identity

/-! # What an execution finds in its stream

While a call holds an operation, the stream consists of the start facts that the
call appended; after it recorded its end, of these and the terminal fact. No
other call can append in between.
-/

namespace Hseos

/-- The stream was started by an execution, with the evidence of its approval. -/
inductive StartedBy (prepared : Prepared) (evidence : List String) : List Fact → Prop where
  | intro {approvalId : Option String} {authorized started : Fact}
      (facts : StartFacts prepared approvalId evidence authorized started)
      (approval : approvalId.isSome = prepared.requiresApproval)
      (storable : authorized.storable = true) : StartedBy prepared evidence [authorized, started]

/-- The stream was ended by an execution, which returned the envelope. -/
inductive EndedBy (recorded : Recorded) : Envelope → List Fact → Prop where
  | intro {stream : List Fact} {payload : FactPayload} {terminal : Fact}
      (started : StartedBy recorded.prepared recorded.approvalEvidence stream)
      (payload_eq : (outcomeOf recorded.prepared recorded.approvalEvidence recorded.ending).payload =
        some payload)
      (made : terminal.Made recorded.prepared.operation payload
        (outcomeOf recorded.prepared recorded.approvalEvidence recorded.ending).evidenceRefs) :
      EndedBy recorded
        ((outcomeOf recorded.prepared recorded.approvalEvidence recorded.ending).envelope
          ((outcomeOf recorded.prepared recorded.approvalEvidence recorded.ending).warnings ++
            recorded.reconcile.toList))
        (stream ++ [terminal.stored])

/-- What a phase says of the streams. -/
def Phase.Backed (streams : Streams) : Phase → Prop
  | .started prepared evidence | .dispatching prepared evidence | .persisting prepared evidence _ =>
      StartedBy prepared evidence (streams prepared.operationId)
  | .finished envelope recorded =>
      ∀ ended ∈ recorded, EndedBy ended envelope (streams ended.prepared.operationId)
  | _ => True

theorem StartedBy.length {prepared : Prepared} {evidence : List String} {stream : List Fact}
    (h : StartedBy prepared evidence stream) : stream.length = 2 := by
  cases h
  rfl

theorem EndedBy.length {recorded : Recorded} {envelope : Envelope} {stream : List Fact}
    (h : EndedBy recorded envelope stream) : stream.length = 3 := by
  cases h with
  | intro hstarted =>
      rw [List.length_append, hstarted.length]
      rfl

section

variable {runtime : GovernedRuntime} {state next : GovernedState} {action : Action}
  {stage : String → Stage} {index : Nat} {phase : Phase}

@[simp] theorem backed_failed {streams : Streams} {error : Thrown} {operationId : Option String}
    {warnings : List String} : (failed error operationId warnings).Backed streams := by
  intro ended hended
  cases hended

theorem backed_finished {streams : Streams} {envelope : Envelope} :
    (Phase.finished envelope none).Backed streams := by
  intro ended hended
  cases hended

theorem backed_afterAuthority {streams : Streams} {kind : CallKind} {admitted : Admitted}
    {decision : Except Thrown Json} : (afterAuthority kind admitted decision).Backed streams := by
  unfold afterAuthority
  split
  next => exact backed_failed
  next => trivial

theorem backed_afterPolicy {streams : Streams} {kind : CallKind} {request : ExecutionRequest}
    {admitted : Admitted} {decision : Except Thrown Json} {generated : String}
    {clock : ClockReading} :
    (afterPolicy kind request admitted decision generated clock).Backed streams := by
  unfold afterPolicy
  split
  next => exact backed_failed
  next =>
    split
    next => exact backed_failed
    next =>
      split
      next => exact backed_failed
      next => trivial

theorem backed_afterRead {streams : Streams} {kind : CallKind} {prepared : Prepared}
    {existing : Except Thrown (List Fact)} :
    (afterRead runtime kind prepared existing).Backed streams := by
  unfold afterRead
  split
  next => exact backed_failed
  next => exact backed_finished
  next =>
    cases kind with
    | cancelQueued => trivial
    | execute =>
        dsimp only
        unfold beginOperation
        split_ifs
        · trivial
        · exact backed_failed
        · trivial

theorem backed_afterResolve {streams : Streams} {prepared : Prepared}
    {answer : Except Thrown Json} : (afterResolve prepared answer).Backed streams := by
  unfold afterResolve
  split
  next => exact backed_failed
  next =>
    split
    next => exact backed_failed
    next => trivial

/-- Appending to a stream that no other call holds, and that is not ended, leaves
alone what the other calls say of the streams. -/
theorem Phase.Backed.update {streams : Streams} {operationId : String} {stream : List Fact}
    (h : phase.Backed streams) (hfree : ∀ prepared dispatched,
      phase.holds? = some (prepared, dispatched) → prepared.operationId ≠ operationId)
    (hshort : (streams operationId).length ≤ 2) :
    phase.Backed (Function.update streams operationId stream) := by
  have hheld : ∀ {prepared : Prepared} {evidence : List String} {dispatched : Bool},
      phase.holds? = some (prepared, dispatched) →
      StartedBy prepared evidence (streams prepared.operationId) →
      StartedBy prepared evidence
        (Function.update streams operationId stream prepared.operationId) := by
    intro prepared evidence dispatched hholds hstarted
    rw [Function.update_of_ne (hfree prepared dispatched hholds)]
    exact hstarted
  cases phase with
  | started prepared evidence => exact hheld rfl h
  | dispatching prepared evidence => exact hheld rfl h
  | persisting prepared evidence ending => exact hheld rfl h
  | finished envelope recorded =>
      intro ended hended
      have hbefore := h ended hended
      have hne : ended.prepared.operationId ≠ operationId := by
        rintro rfl
        have hlength := hbefore.length
        omega
      rw [Function.update_of_ne hne]
      exact hbefore
  | _ => trivial

/-- Whatever the action, every call finds in the streams what it appended. -/
theorem Progress.backed (hstep : Progress runtime state action next) (hstage : Staged stage state)
    (hsound : ∀ call ∈ state.calls, call.Sound runtime.contracts)
    (h : ∀ call ∈ state.calls, call.phase.Backed state.streams) :
    ∀ call ∈ next.calls, call.phase.Backed next.streams := by
  have hquiet : ∀ {index : Nat} {phase : Phase}, phase.Backed state.streams →
      ∀ call ∈ (state.setPhase index phase).calls, call.phase.Backed state.streams :=
    fun hphase => forall_call_setPhase h fun _ _ => hphase
  have hcarried : ∀ {index : Nat} {call : Call} {phase : Phase}, state.calls[index]? = some call →
      call.phase = phase → phase.Backed state.streams := by
    rintro index call phase hcall rfl
    exact h call (List.mem_of_getElem? hcall)
  -- An operation that is absent, or held by the call that moves, is held by no other call.
  have hmoved : ∀ {index : Nat} {phase : Phase} {operationId : String} {stream : List Fact},
      (∀ other dispatched, stage operationId = .held other dispatched → other = index) →
      (state.streams operationId).length ≤ 2 →
      phase.Backed (Function.update state.streams operationId stream) →
      ∀ call ∈ (state.setPhase index phase).calls,
        call.phase.Backed (Function.update state.streams operationId stream) := by
    intro index phase operationId stream hfree hshort hphase
    refine forall_call_of_setPhase ?_ fun _ _ => hphase
    intro other call hother hcall
    refine (h call (List.mem_of_getElem? hcall)).update ?_ hshort
    rintro prepared dispatched hholds rfl
    exact hother (hfree other dispatched (hstage.holder hcall hholds)).symm
  cases hstep with
  | execute =>
      apply forall_call_append h
      unfold beginCall
      dsimp only
      split
      next => exact backed_failed
      next => trivial
  | cancelQueued =>
      apply forall_call_append h
      unfold beginCall
      dsimp only
      split
      next => exact backed_failed
      next => trivial
  | issue => exact h
  | refuseIssue => exact h
  | authority => exact hquiet backed_afterAuthority
  | policy => exact hquiet backed_afterPolicy
  | read => exact hquiet backed_afterRead
  | resolve => exact hquiet backed_afterResolve
  | @start index stamps now failure call prepared approvalId hcall hphase =>
      have happroval : approvalId.isSome = prepared.requiresApproval := by
        have hfor := hsound call (List.mem_of_getElem? hcall)
        rw [Call.Sound, hphase] at hfor
        exact hfor.2.2
      unfold stepStart
      split
      next => exact hquiet backed_failed
      next hstart =>
        obtain ⟨hempty, ⟨authorized, started, hfacts, hstorable, -, rfl⟩, rfl, -⟩ :=
          startOperation_eq_ok hstart
        apply hmoved
        · intro other dispatched hheld
          rw [hstage.absent hempty] at hheld
          cases hheld
        · simp [hempty]
        · rw [Phase.Backed, Function.update_self]
          exact .intro hfacts happroval hstorable
  | dispatch hcall hphase =>
      have hbacked := hcarried hcall hphase
      unfold stepDispatch
      split
      next => exact hquiet backed_failed
      next => exact hquiet hbacked
      next => exact hquiet hbacked
  | settle hcall hphase =>
      have hbacked := hcarried hcall hphase
      exact hquiet hbacked
  | @record index stamp failure reconcile call prepared evidence ending hcall hphase =>
      have hbacked := hcarried hcall hphase
      have hheld : stage prepared.operationId = .held index ending.ofProvider := by
        apply hstage.holder hcall
        rw [hphase]
        rfl
      unfold stepRecord
      dsimp only
      split
      next => exact hquiet backed_finished
      next happend =>
        obtain ⟨hlength, payload, fact, hpayload, hfact, -, rfl⟩ := appendOutcome_eq_ok happend
        apply hmoved
        · intro other dispatched hother
          rw [hheld] at hother
          exact (Stage.held.inj hother).1.symm
        · exact hlength.le
        · intro ended hended
          obtain rfl := Option.some.inj hended
          rw [Function.update_self]
          exact .intro hbacked hpayload hfact
  | cancel hcall hphase =>
      unfold stepCancel
      split
      next => exact hquiet backed_failed
      next happend =>
        obtain ⟨facts, -, happend⟩ := bind_eq_ok_iff.mp happend
        obtain ⟨hlength, -, rfl⟩ := appendFacts_eq_ok happend
        have habsent := hstage.absent (List.length_eq_zero_iff.mp hlength)
        apply hmoved
        · intro other dispatched hheld
          rw [habsent] at hheld
          cases hheld
        · omega
        · exact backed_finished

/-- In every run, every call finds in the streams what it appended. -/
theorem calls_backed {actions : List Action}
    (h : run (governedStep runtime) .initial actions = .ok state) :
    ∀ call ∈ state.calls, call.phase.Backed state.streams := by
  apply run_history (P := fun _ state => ∀ call ∈ state.calls, call.phase.Backed state.streams) ?_ ?_ h
  · intro call hcall
    cases hcall
  · intro past middle action next hpast hmiddle hstep
    obtain ⟨stage, hstage⟩ := exists_staged hpast
    exact (governedStep_progress hstep).backed hstage (calls_sound hpast) hmiddle

end

end Hseos
