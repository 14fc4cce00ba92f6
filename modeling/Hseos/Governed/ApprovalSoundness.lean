import Hseos.Governed.Durable

/-! # Approvals and the dispatches they cover

An approval is consumed together with the start facts that name it. A provider
that needs an approval is invoked only for an operation that consumed one, and
this one covers the operation.
-/

namespace Hseos

/-- The approval that was used covers the operation. -/
structure Approval.Covers (row : Approval) (use : ApprovalUse) (policyVersion : String)
    (resourceScope : Json) : Prop where
  approved : row.decision = .approved
  operationId : row.operationId = use.operationId
  policyVersion : row.policyVersion = policyVersion
  resourceScope : approvalJson (some resourceScope) "resource_scope" = .ok row.resourceScopeJson
  issued : codeUnitLe row.issuedAt use.consumedAt
  unexpired : ¬codeUnitLe row.expiresAt use.consumedAt

namespace ApprovalStore

/-- The uses of an operation. -/
def usesOf (store : ApprovalStore) (operationId : String) : List ApprovalUse :=
  store.uses.filter fun use => use.operationId = operationId

/-- Exactly one approval was consumed for the operation, and it covers it. -/
def Consumed (store : ApprovalStore) (operationId policyVersion : String) (resourceScope : Json)
    (approvalId : String) : Prop :=
  ∃ use row, store.usesOf operationId = [use] ∧ use.approvalId = approvalId ∧
    store.get approvalId = some row ∧ row.Covers use policyVersion resourceScope

end ApprovalStore

/-- What the stream of an operation says of its approval. -/
inductive Approved (registry : ContractRegistry) (store : ApprovalStore) (operationId : String) :
    List Fact → Prop where
  | absent (unused : store.usesOf operationId = []) : Approved registry store operationId []
  | unasked {authorized : Fact} {rest : List Fact} {fact : AuthorizedFact}
      (payload : authorized.payload = .authorized fact) (approval : fact.approvalId = none)
      (unused : store.usesOf operationId = [])
      (free : ∀ contract ∈ registry.contracts, contract.name = fact.tool →
        contract.needsApproval = false) :
      Approved registry store operationId (authorized :: rest)
  | consumed {authorized : Fact} {rest : List Fact} {fact : AuthorizedFact} {approvalId : String}
      (payload : authorized.payload = .authorized fact) (approval : fact.approvalId = some approvalId)
      (consumed : store.Consumed operationId fact.policyVersion fact.resourceScope approvalId) :
      Approved registry store operationId (authorized :: rest)

/-! ## Approvals stay as they are -/

section

variable {store : ApprovalStore} {registry : ContractRegistry} {operationId : String}
  {stream : List Fact}

theorem get_append {store' : ApprovalStore} {row found : Approval} {approvalId : String}
    (hstore : store'.approvals = store.approvals ++ [row])
    (h : store.get approvalId = some found) : store'.get approvalId = some found := by
  rw [ApprovalStore.get] at h ⊢
  rw [hstore, List.find?_append, h]
  rfl

/-- A new approval changes nothing for the operations that are there. -/
theorem Approved.issue {store' : ApprovalStore} {row : Approval}
    (h : Approved registry store operationId stream)
    (hstore : store' = { store with approvals := store.approvals ++ [row] }) :
    Approved registry store' operationId stream := by
  subst hstore
  cases h with
  | absent hunused => exact .absent hunused
  | unasked hpayload hnone hunused hfree => exact .unasked hpayload hnone hunused hfree
  | consumed hpayload happroval hconsumed =>
      obtain ⟨use, found, huses, hid, hfound, hcovers⟩ := hconsumed
      exact .consumed hpayload happroval ⟨use, found, huses, hid, get_append rfl hfound, hcovers⟩

theorem usesOf_append {use : ApprovalUse} :
    ApprovalStore.usesOf { store with uses := store.uses ++ [use] } operationId =
      if use.operationId = operationId then store.usesOf operationId ++ [use]
      else store.usesOf operationId := by
  rw [ApprovalStore.usesOf, List.filter_append]
  split_ifs with hsame
  · rw [List.filter_cons_of_pos (by simpa using hsame), List.filter_nil]
    rfl
  · rw [List.filter_cons_of_neg (by simpa using hsame), List.filter_nil, List.append_nil]
    rfl

/-- A use changes nothing for the other operations. -/
theorem Approved.use {use : ApprovalUse} (h : Approved registry store operationId stream)
    (hother : use.operationId ≠ operationId) :
    Approved registry { store with uses := store.uses ++ [use] } operationId stream := by
  have huses : ApprovalStore.usesOf { store with uses := store.uses ++ [use] } operationId =
      store.usesOf operationId := by
    rw [usesOf_append, if_neg hother]
  cases h with
  | absent hunused => exact .absent (huses.trans hunused)
  | unasked hpayload hnone hunused hfree =>
      exact .unasked hpayload hnone (huses.trans hunused) hfree
  | consumed hpayload happroval hconsumed =>
      obtain ⟨found, row, hfound, hrest⟩ := hconsumed
      exact .consumed hpayload happroval ⟨found, row, huses.trans hfound, hrest⟩

theorem Approved.append (h : Approved registry store operationId stream) (hstream : stream ≠ [])
    (facts : List Fact) : Approved registry store operationId (stream ++ facts) := by
  cases h with
  | absent => exact absurd rfl hstream
  | unasked hpayload hnone hunused hfree => exact .unasked hpayload hnone hunused hfree
  | consumed hpayload happroval hconsumed => exact .consumed hpayload happroval hconsumed

end

/-! ## Actions -/

/-- Every operation and its approval agree, and no approval was used twice. -/
structure ApprovalsSound (registry : ContractRegistry) (state : GovernedState) : Prop where
  operations : ∀ operationId,
    Approved registry state.approvals operationId (state.streams operationId)
  once : (state.approvals.uses.map (·.approvalId)).Nodup

section

variable {runtime : GovernedRuntime} {registry : ContractRegistry} {state next : GovernedState}
  {action : Action} {index : Nat}

theorem approvalsSound_initial : ApprovalsSound registry .initial where
  operations _ := .absent rfl
  once := List.nodup_nil

/-- A contract of the registry is determined by its name. -/
theorem ContractRegistry.eq_of_name {contract contract' : ExecutionContract}
    (h : contract ∈ registry.contracts) (h' : contract' ∈ registry.contracts)
    (hname : contract.name = contract'.name) : contract = contract' :=
  List.inj_on_of_nodup_map registry.distinct h h' hname

/-- The stream of one operation changes, and the approvals with it. -/
theorem ApprovalsSound.of_update {operationId : String} {stream : List Fact}
    (hstreams : next.streams = Function.update state.streams operationId stream)
    (hchanged : Approved registry next.approvals operationId stream)
    (hothers : ∀ other, other ≠ operationId →
      Approved registry next.approvals other (state.streams other))
    (honce : (next.approvals.uses.map (·.approvalId)).Nodup) : ApprovalsSound registry next where
  once := honce
  operations := by
    intro other
    rw [hstreams]
    by_cases hsame : other = operationId
    · subst hsame
      rw [Function.update_self]
      exact hchanged
    · rw [Function.update_of_ne hsame]
      exact hothers other hsame

theorem ApprovalsSound.start {kind : CallKind} {request : ExecutionRequest} {prepared : Prepared}
    {approvalId : Option String} {stamps : FactStamp × FactStamp} {now : ClockReading}
    {failure : Option Thrown} (h : ApprovalsSound registry state)
    (hfor : prepared.For registry kind request)
    (happroval : approvalId.isSome = prepared.requiresApproval) :
    ApprovalsSound registry (stepStart state index prepared approvalId stamps now failure) := by
  unfold stepStart
  split
  next => exact ⟨h.operations, h.once⟩
  next hstart =>
    obtain ⟨hempty, ⟨authorized, started, hfacts, -, -, rfl⟩, -, hconsumption⟩ :=
      startOperation_eq_ok hstart
    have hunused : state.approvals.usesOf prepared.operationId = [] := by
      have hbefore := h.operations prepared.operationId
      rw [hempty] at hbefore
      cases hbefore with
      | absent hunused => exact hunused
    rcases hconsumption with ⟨rfl, rfl⟩ | ⟨id, instant, row, rfl, husable, rfl⟩
    · refine .of_update rfl ?_ (fun other _ => h.operations other) h.once
      refine .unasked hfacts.authorized.payload rfl hunused ?_
      intro contract hcontract hname
      obtain rfl := ContractRegistry.eq_of_name hcontract
        (ContractRegistry.mem_of_resolve_eq_ok hfor.contract).1 hname
      have hneeds : (prepared.contract.needsApproval || prepared.policyApproval) = false :=
        happroval.symm
      exact (Bool.or_eq_false_iff.mp hneeds).1
    · refine .of_update rfl ?_ (fun other hother => (h.operations other).use (Ne.symm hother)) ?_
      · refine .consumed hfacts.authorized.payload rfl
          ⟨⟨id, prepared.operationId, isoString instant⟩, row, ?_, rfl, husable.found, ?_⟩
        · rw [usesOf_append, if_pos rfl, hunused, List.nil_append]
        · exact ⟨husable.approved, husable.operationId, husable.policyVersion,
            husable.resourceScope, husable.active, husable.unexpired⟩
      · rw [List.map_append, List.map_singleton, List.nodup_append]
        refine ⟨h.once, List.nodup_singleton _, ?_⟩
        intro used hused last hlast heq
        obtain ⟨use, huse, rfl⟩ := List.mem_map.mp hused
        rw [List.mem_singleton] at hlast
        exact (husable.unused use huse).1 (heq.trans hlast)

/-- Every action keeps the approvals sound, unless it cancels a queued request. -/
theorem ApprovalsSound.step (h : ApprovalsSound runtime.contracts state)
    (hstep : Progress runtime state action next)
    (hsound : ∀ call ∈ state.calls, call.Sound runtime.contracts)
    (hkind : ∀ call ∈ state.calls, call.kind = .execute) :
    ApprovalsSound runtime.contracts next := by
  cases hstep with
  | issue hissue =>
      obtain ⟨row, -, -, rfl⟩ := ApprovalStore.issue_eq_ok hissue
      exact ⟨fun operationId => (h.operations operationId).issue rfl, h.once⟩
  | start hcall hphase =>
      have hfor := hsound _ (List.mem_of_getElem? hcall)
      rw [Call.Sound, hphase] at hfor
      exact h.start hfor.1 hfor.2.2
  | dispatch hcall hphase =>
      unfold stepDispatch
      split <;> exact ⟨h.operations, h.once⟩
  | record hcall hphase =>
      unfold stepRecord
      dsimp only
      split
      next => exact ⟨h.operations, h.once⟩
      next happend =>
        obtain ⟨hlength, payload, fact, -, -, -, rfl⟩ := appendOutcome_eq_ok happend
        refine .of_update rfl ((h.operations _).append ?_ _) (fun other _ => h.operations other) h.once
        intro hempty
        rw [hempty] at hlength
        cases hlength
  | cancel hcall hphase =>
      have hfor := hsound _ (List.mem_of_getElem? hcall)
      rw [Call.Sound, hphase] at hfor
      exact absurd (hfor.2.symm.trans (hkind _ (List.mem_of_getElem? hcall))) (by decide)
  | _ => exact ⟨h.operations, h.once⟩

/-- Only `cancelQueued` makes calls of its kind. -/
theorem Progress.kind (hstep : Progress runtime state action next)
    (haction : ∀ request, action ≠ .cancelQueued request)
    (h : ∀ call ∈ state.calls, call.kind = .execute) : ∀ call ∈ next.calls, call.kind = .execute := by
  have hmoved : ∀ {index : Nat} {phase : Phase},
      ∀ call ∈ (state.setPhase index phase).calls, call.kind = .execute := by
    intro index phase
    apply forall_call_setPhase h
    intro old hold
    exact h old (List.mem_of_getElem? hold)
  cases hstep with
  | execute => exact forall_call_append h rfl
  | cancelQueued => exact absurd rfl (haction _)
  | issue => exact h
  | refuseIssue => exact h
  | start =>
      unfold stepStart
      split <;> exact hmoved
  | dispatch =>
      unfold stepDispatch
      split <;> exact hmoved
  | record =>
      unfold stepRecord
      dsimp only
      split <;> exact hmoved
  | cancel =>
      unfold stepCancel
      split <;> exact hmoved
  | _ => exact hmoved

/-! ## Runs -/

theorem approvals_sound {actions : List Action}
    (hexecutes : ∀ request, Action.cancelQueued request ∉ actions)
    (h : run (governedStep runtime) .initial actions = .ok state) :
    (∀ call ∈ state.calls, call.kind = .execute) ∧ ApprovalsSound runtime.contracts state := by
  refine run_history (P := fun past state => (∀ request, Action.cancelQueued request ∉ past) →
    (∀ call ∈ state.calls, call.kind = .execute) ∧ ApprovalsSound runtime.contracts state)
    ?_ ?_ h hexecutes
  · intro _
    exact ⟨fun _ hcall => (List.not_mem_nil hcall).elim, approvalsSound_initial⟩
  · intro past middle action next hpast hmiddle hstep hnone
    have hnone' : ∀ request, Action.cancelQueued request ∉ past :=
      fun request hmem => hnone request (List.mem_append_left _ hmem)
    have haction : ∀ request, action ≠ .cancelQueued request := by
      rintro request rfl
      exact hnone request (by simp)
    obtain ⟨hkind, hsound⟩ := hmiddle hnone'
    have hprogress := governedStep_progress hstep
    exact ⟨hprogress.kind haction hkind, hsound.step hprogress (calls_sound hpast) hkind⟩

/-- Among concurrent executions each approval is consumed at most once, and it is
consumed exactly when the start facts that name it are there: the start facts of an
operation whose contract needs an approval come with exactly one, which covers the
operation. Every dispatch under such a contract is covered. -/
theorem approval_soundness {actions : List Action}
    (hexecutes : ∀ request, Action.cancelQueued request ∉ actions)
    (h : run (governedStep runtime) .initial actions = .ok state) :
    (state.approvals.uses.map (·.approvalId)).Nodup ∧
      (∀ use ∈ state.approvals.uses,
        (Started (state.streams use.operationId) ∨ Ended (state.streams use.operationId)) ∧
          ∃ authorized rest fact, state.streams use.operationId = authorized :: rest ∧
            authorized.payload = .authorized fact ∧ fact.approvalId = some use.approvalId) ∧
      (∀ operationId authorized rest fact contract,
        state.streams operationId = authorized :: rest → authorized.payload = .authorized fact →
        contract ∈ runtime.contracts.contracts → contract.name = fact.tool →
        contract.needsApproval = true → ∃ approvalId, fact.approvalId = some approvalId ∧
          state.approvals.Consumed operationId fact.policyVersion fact.resourceScope approvalId) ∧
      ∀ action next, governedStep runtime state action = .ok next →
        next.dispatched = state.dispatched ∨ ∃ prepared,
          next.dispatched = state.dispatched ++ [prepared] ∧
          (prepared.contract.needsApproval = true → ∃ approvalId,
            state.approvals.Consumed prepared.operationId prepared.contract.policyVersion
              prepared.operation.resourceScope approvalId) := by
  obtain ⟨-, hsound⟩ := approvals_sound hexecutes h
  obtain ⟨stage, hstage⟩ := exists_staged h
  refine ⟨hsound.once, ?_, ?_, ?_⟩
  · intro use huse
    have hmem : use ∈ state.approvals.usesOf use.operationId := by
      rw [ApprovalStore.usesOf, List.mem_filter]
      exact ⟨huse, by simp⟩
    cases hstream : state.streams use.operationId with
    | nil =>
        have happroved := hsound.operations use.operationId
        rw [hstream] at happroved
        cases happroved with
        | absent hunused =>
            rw [hunused] at hmem
            cases hmem
    | cons authorized rest =>
        have happroved := hsound.operations use.operationId
        rw [hstream] at happroved
        cases happroved with
        | unasked _ _ hunused =>
            rw [hunused] at hmem
            cases hmem
        | consumed hpayload happroval hconsumed =>
            obtain ⟨found, row, huses, rfl, -⟩ := hconsumed
            rw [huses, List.mem_singleton] at hmem
            subst hmem
            have hshape := (hstage.shape use.operationId).resolve_left (by simp [hstream])
            exact ⟨hstream ▸ hshape, authorized, rest, _, rfl, hpayload, happroval⟩
  · intro operationId authorized rest fact contract hstream hpayload hcontract hname hneeds
    have happroved := hsound.operations operationId
    rw [hstream] at happroved
    cases happroved with
    | unasked hpayload' _ _ hfree =>
        obtain rfl := FactPayload.authorized.inj (hpayload.symm.trans hpayload')
        rw [hfree contract hcontract hname] at hneeds
        cases hneeds
    | consumed hpayload' happroval hconsumed =>
        obtain rfl := FactPayload.authorized.inj (hpayload.symm.trans hpayload')
        exact ⟨_, happroval, hconsumed⟩
  · intro action next hstep
    rcases (governedStep_progress hstep).dispatched with
      hsame | ⟨index, call, prepared, evidence, hcall, hphase, hnext⟩
    · exact .inl hsame
    · refine .inr ⟨prepared, hnext, ?_⟩
      intro hneeds
      have hbacked := calls_backed h call (List.mem_of_getElem? hcall)
      rw [hphase] at hbacked
      have happroved := hsound.operations prepared.operationId
      have hstarted : StartedBy prepared evidence (state.streams prepared.operationId) := hbacked
      generalize state.streams prepared.operationId = stream at happroved hstarted
      cases hstarted with
      | @intro approvalId authorized started hfacts hasked =>
          cases happroved with
          | unasked hpayload hnone =>
              obtain rfl := FactPayload.authorized.inj (hfacts.authorized.payload.symm.trans hpayload)
              obtain rfl : approvalId = none := hnone
              have hrequires : (prepared.contract.needsApproval || prepared.policyApproval) = false :=
                hasked.symm
              rw [hneeds, Bool.true_or] at hrequires
              cases hrequires
          | consumed hpayload happroval hconsumed =>
              obtain rfl := FactPayload.authorized.inj (hfacts.authorized.payload.symm.trans hpayload)
              exact ⟨_, hconsumed⟩

end

theorem mail_approved : ∃ state next,
    run (governedStep Sample.governed) .initial (Sample.mailActions.dropLast) = .ok state ∧
      governedStep Sample.governed state (.dispatch 0 false (Sample.clock 0)) = .ok next ∧
      (next.dispatched = state.dispatched ∨ ∃ prepared,
        next.dispatched = state.dispatched ++ [prepared] ∧
        (prepared.contract.needsApproval = true → ∃ approvalId,
          state.approvals.Consumed prepared.operationId prepared.contract.policyVersion
            prepared.operation.resourceScope approvalId)) := by
  obtain ⟨next, hrun, -⟩ := runsTo_iff.mp
    (show runsTo (governedStep Sample.governed) .initial
        (Sample.mailActions.dropLast ++ [.dispatch 0 false (Sample.clock 0)])
        (fun next => next.dispatched.length = 1) = true by decide +kernel)
  obtain ⟨state, hstate, hstep⟩ := run_snoc_eq_ok_iff.mp hrun
  have hexecutes : ∀ request, Action.cancelQueued request ∉ Sample.mailActions.dropLast := by
    simp [Sample.mailActions]
  exact ⟨state, next, hstate, hstep, (approval_soundness hexecutes hstate).2.2.2 _ next hstep⟩

end Hseos
