import Hseos.Jobs.Dispatch

/-! # Outcomes of a job

A dispatcher computes the outcome of an execution from the results of its tasks
alone; the projection also asks how their sessions ended.
-/

namespace Hseos.Jobs

open EngineeringTask (sha)

section

variable {world : World} {state : JobState} {receipts : Receipts} {command : DispatchCommand}
  {proofs : List Proof} {now : Nat}

/-! ## Proofs -/

theorem proofFor_eq_ok {entry : PlanTask} {proof : Proof} (h : proofFor world entry = .ok proof) :
    proof.taskId = entry.taskRunId ∧ proof.sessionId = entry.sessionId ∧
      ∃ result, (world.task entry.taskRunId).result = some result ∧ proof.result = result.result ∧
        proof.resultSha256 = sha (resultJson result) := by
  unfold proofFor at h
  cases hresult : (world.task entry.taskRunId).result with
  | none =>
      simp only [hresult] at h
      cases h
  | some result =>
      simp only [hresult, reject_bind_eq_ok_iff, pure_eq_ok_iff] at h
      obtain ⟨-, rfl⟩ := h
      exact ⟨rfl, rfl, result, rfl, rfl, rfl⟩

theorem proofsFor_eq_ok (h : proofsFor world state = .ok proofs) :
    state.tasks.mapM (proofFor world) = .ok proofs := by
  simp only [proofsFor, bind_eq_ok_iff] at h
  obtain ⟨-, -, -, -, h⟩ := h
  exact h

theorem checkProofs_of_proofsFor (hplan : (state.tasks.map (·.taskRunId)).Nodup)
    (h : proofsFor world state = .ok proofs) : checkProofs state.tasks proofs = .ok () := by
  have hproofs := proofsFor_eq_ok h
  have hids : proofs.map (·.taskId) = state.tasks.map (·.taskRunId) :=
    map_eq_of_mapM_eq_ok hproofs fun _ _ hproof => (proofFor_eq_ok hproof).1
  have hlength : proofs.length = state.tasks.length := by
    simpa using congrArg List.length hids
  have hknown : ∀ proof ∈ proofs, ∃ entry ∈ state.tasks,
      entry.taskRunId = proof.taskId ∧ entry.sessionId = proof.sessionId := by
    intro proof hproof
    obtain ⟨entry, hentry, hmade⟩ := mem_of_mapM_eq_ok hproofs proof hproof
    obtain ⟨htask, hsession, -⟩ := proofFor_eq_ok hmade
    exact ⟨entry, hentry, htask.symm, hsession.symm⟩
  have hdedup : (state.tasks.map (·.taskRunId)).dedup.length = state.tasks.length := by
    rw [List.Nodup.dedup hplan, List.length_map]
  simpa [checkProofs, invalid, hids, hlength, hdedup] using hknown

/-- A drifted task of the plan has a proof that shows it. -/
theorem exists_drift_proof (h : proofsFor world state = .ok proofs)
    (hdrift : baselineDrift world state = true) :
    ∃ proof ∈ proofs, hasDrifted (world.task proof.taskId) = true ∧ proof.result = .notExecuted ∧
      (world.task proof.taskId).result.any
        (fun result => proof.resultSha256 = sha (resultJson result)) = true := by
  obtain ⟨entry, hentry, hdrifted⟩ := List.any_eq_true.mp hdrift
  obtain ⟨proof, hproof, hmade⟩ := exists_of_mapM_eq_ok (proofsFor_eq_ok h) entry hentry
  obtain ⟨htask, -, result, hresult, hverdict, hsha⟩ := proofFor_eq_ok hmade
  rw [← htask] at hdrifted hresult
  refine ⟨proof, hproof, hdrifted, ?_, by simp [hresult, hsha]⟩
  simp only [hasDrifted, hresult, Option.any_some, Bool.and_eq_true, decide_eq_true_eq] at hdrifted
  exact hverdict.trans hdrifted.2.1

/-! ## Checks of a settling event -/

theorem checkExecutionRow_of_checkCommand {event : ExecutionEvent}
    (hchecked : checkCommand state receipts command = .ok ())
    (hresource : command.resourceId = state.resourceId) (hnow : state.lastTransition ≤ event.at_)
    (hcommand : event.command = command) (hdigest : event.digest = command.digest) :
    checkExecutionRow state ⟨1, state.currentSequence + 1, event⟩ receipts = .ok () := by
  subst hcommand
  simp only [checkCommand, reject_bind_eq_ok_iff, reject_eq_ok_iff] at hchecked
  obtain ⟨hsame, hpending, hsequence, hfence⟩ := hchecked
  cases hprevious : receipts event.command.commandId with
  | none =>
      simp only [hprevious, Option.any_none, Bool.false_eq_true, if_false,
        decide_eq_false_iff_not, not_not] at hsequence hfence
      simp [checkExecutionRow, invalid, hprevious, hresource, hdigest, hfence, hsequence, hnow]
  | some receipt =>
      simp only [hprevious, Option.any_some, Bool.not_eq_false'] at hsame hpending
      simp only [hprevious, Option.any_some, hpending, if_true, Bool.or_eq_false_iff,
        decide_eq_false_iff_not, not_not] at hsequence hfence
      simp only [decide_eq_false_iff_not, not_not] at hsame
      simp [checkExecutionRow, invalid, hprevious, hresource, hdigest, hfence, hsequence, hpending,
        hsame, hnow]

/-- What a drained execution has in common with its state. -/
structure Drained (world : World) (state : JobState) (receipts : Receipts)
    (command : DispatchCommand) (proofs : List Proof) : Prop where
  execution : state.execution.isSome = true
  status : state.status.isUnderWay = true
  plan : (state.tasks.map (·.taskRunId)).Nodup
  resource : command.resourceId = state.resourceId
  action : command.action = .reconcile ∨
    command.action = .dispatch ∧ (receipts command.commandId).any (·.pending) = true
  checked : checkCommand state receipts command = .ok ()
  proven : proofsFor world state = .ok proofs
  settled : ∀ proof ∈ proofs, proof.result ≠ .blocked

theorem Drained.checkUnderWay {event : ExecutionEvent}
    (h : Drained world state receipts command proofs) (hcommand : event.command = command) :
    checkUnderWay state event ((receipts event.command.commandId).any (·.pending)) = .ok () := by
  subst hcommand
  rcases h.action with haction | ⟨haction, hpending⟩
  · simp [Jobs.checkUnderWay, invalid, h.execution, h.status, haction]
  · simp [Jobs.checkUnderWay, invalid, h.execution, h.status, haction, hpending]

/-- The result and the sessions of an execution agree on its outcome. -/
def OutcomeAgreed (state : JobState) (proofs : List Proof) : Prop :=
  state.cancellationRequested = true ∨ (∃ proof ∈ proofs, proof.result ≠ .approved) ∨
    ∀ proof ∈ proofs, proof.terminal = "completed"

instance : Decidable (OutcomeAgreed state proofs) := by
  unfold OutcomeAgreed
  infer_instance

theorem approved_iff : approved proofs = true ↔
    (∀ proof ∈ proofs, proof.result = .approved) ∧ ∀ proof ∈ proofs, proof.terminal = "completed" := by
  simp [approved, forall_and]

/-- The projection takes the outcome that the dispatcher computes exactly when the
sessions agree with the results. -/
theorem checkOutcome_iff (event : ExecutionEvent) (h : Drained world state receipts command proofs)
    (houtcome : event.outcome = settledOutcome world state proofs) (hproofs : event.proofs = proofs)
    (hreason : event.reason = settledReason world state command)
    (hparent : event.outcome = .invalidated → parentTerminal world state = true) :
    checkOutcome world state event = .ok () ↔ OutcomeAgreed state proofs := by
  have hblocked : event.proofs.any (fun x => x.result = .blocked) = false := by
    simpa [hproofs] using h.settled
  simp only [checkOutcome, invalid, reject_eq_ok_iff, hblocked, Bool.false_or]
  by_cases hcancelled : state.cancellationRequested = true
  · have hsettled : settledOutcome world state proofs = .cancelled := if_pos hcancelled
    simp [houtcome, hsettled, hcancelled, OutcomeAgreed]
  by_cases hfailed : ∃ proof ∈ proofs, proof.result = .failed
  · -- a failed task fails the job, whatever else
    have hsettled : settledOutcome world state proofs = .failed := by
      simp [settledOutcome, hcancelled, hfailed]
    obtain ⟨proof, hproof, hresult⟩ := hfailed
    have hother : proof.result ≠ .approved := by simp [hresult]
    have hagreed : OutcomeAgreed state proofs := .inr (.inl ⟨proof, hproof, hother⟩)
    have happroved : approved proofs = false := by
      rw [Bool.eq_false_iff, Ne, approved_iff]
      exact fun hall => hother (hall.1 proof hproof)
    simp [houtcome, hsettled, hproofs, happroved, hagreed]
  by_cases hdrift : state.kind = .workflow ∧ baselineDrift world state = true
  · have hsettled : settledOutcome world state proofs = .invalidated := by
      simp [settledOutcome, hcancelled, hfailed, hdrift]
    obtain ⟨proof, hproof, hdrifted, hresult, hsha⟩ := exists_drift_proof h.proven hdrift.2
    have hagreed : OutcomeAgreed state proofs := .inr (.inl ⟨proof, hproof, by simp [hresult]⟩)
    have hproven : provenDrift world state event = true := by
      simp only [provenDrift, houtcome, hsettled, hparent (houtcome.trans hsettled), hproofs]
      simp only [decide_true, Bool.true_and, Bool.and_eq_true, List.any_eq_true]
      exact ⟨by simpa using hfailed, proof, hproof, hdrifted, hsha⟩
    simp [houtcome, hsettled, hcancelled, hreason, settledReason, hdrift.2, hproven, hagreed]
  by_cases hall : ∀ proof ∈ proofs, proof.result = .approved
  · -- only here does the projection ask more than the dispatcher
    have hsettled : settledOutcome world state proofs = .succeeded := by
      simpa [settledOutcome, hcancelled, hfailed, hdrift] using hall
    have hagreed : OutcomeAgreed state proofs ↔ approved proofs = true := by
      rw [approved_iff]
      constructor
      · rintro (hrequested | ⟨proof, hproof, hother⟩ | hcompleted)
        · exact absurd hrequested hcancelled
        · exact absurd (hall proof hproof) hother
        · exact ⟨hall, hcompleted⟩
      · exact fun hboth => .inr (.inr hboth.2)
    simp [houtcome, hsettled, hproofs, hcancelled, hagreed]
  · have hsettled : settledOutcome world state proofs = .failed := by
      simpa [settledOutcome, hcancelled, hfailed, hdrift] using hall
    have happroved : approved proofs = false := by
      rw [Bool.eq_false_iff, Ne, approved_iff]
      exact fun hboth => hall hboth.1
    push Not at hall
    have hagreed : OutcomeAgreed state proofs := .inr (.inl hall)
    simp [houtcome, hsettled, hproofs, happroved, hagreed]

theorem exists_projected_iff {row : JobRow ExecutionEvent} :
    (∃ next, projectJobExecution world (some state) row receipts = .ok next) ↔
      checkExecutionRow state row receipts = .ok () ∧
        checkExecutionPhase world state row.payload
          ((receipts row.payload.command.commandId).any (·.pending)) = .ok () := by
  constructor
  · rintro ⟨next, h⟩
    obtain ⟨⟨⟩, hrow, h⟩ := bind_eq_ok_iff.mp h
    obtain ⟨⟨⟩, hphase, -⟩ := bind_eq_ok_iff.mp h
    exact ⟨hrow, hphase⟩
  · rintro ⟨hrow, hphase⟩
    exact ⟨_, bind_eq_ok_iff.mpr ⟨(), hrow, bind_eq_ok_iff.mpr ⟨(), hphase, rfl⟩⟩⟩

/-- The outcome cannot be settled yet: the baseline has drifted and the parent goes on. -/
def Unsettled (world : World) (state : JobState) (proofs : List Proof) : Prop :=
  settledOutcome world state proofs = .invalidated ∧ parentTerminal world state = false

theorem settleEvent_of_unsettled (h : Drained world state receipts command proofs)
    (hunsettled : Unsettled world state proofs) :
    settleEvent world state command now = .ok ⟨command, command.digest, now, .uncertain, .uncertain,
      [], "acceptance-or-drain-unconfirmed"⟩ := by
  have hblocked : proofs.any (fun p => p.result = .blocked) = false := by simpa using h.settled
  simp [settleEvent, settledEvent, h.proven, hblocked, hunsettled.1, hunsettled.2, reject, bind,
    Except.bind]

theorem settleEvent_of_settled (h : Drained world state receipts command proofs)
    (hsettled : ¬Unsettled world state proofs) :
    settleEvent world state command now = .ok ⟨command, command.digest, now, .settled,
      settledOutcome world state proofs, proofs, settledReason world state command⟩ := by
  have hblocked : proofs.any (fun p => p.result = .blocked) = false := by simpa using h.settled
  have hparent : (decide (settledOutcome world state proofs = .invalidated) &&
      !parentTerminal world state) = false := by
    simpa [Unsettled] using hsettled
  simp [settleEvent, settledEvent, h.proven, hblocked, hparent, reject, bind, Except.bind, pure,
    Except.pure]

/-- What makes a job invalid keeps one of its tasks from being approved. -/
theorem agreed_of_invalidated (h : Drained world state receipts command proofs)
    (houtcome : settledOutcome world state proofs = .invalidated) : OutcomeAgreed state proofs := by
  have hdrift : baselineDrift world state = true := by
    unfold settledOutcome at houtcome
    split_ifs at houtcome with hcancelled hfailed hdrift
    exact (Bool.and_eq_true_iff.mp hdrift).2
  obtain ⟨proof, hproof, -, hresult, -⟩ := exists_drift_proof h.proven hdrift
  exact .inr (.inl ⟨proof, hproof, by simp [hresult]⟩)

/-- The event that a drained execution is settled with is projected exactly when the
outcome is agreed. -/
theorem settlement_accepted_iff (h : Drained world state receipts command proofs)
    (hnow : state.lastTransition ≤ now) :
    (∃ event next, settleEvent world state command now = .ok event ∧
      projectJobExecution world (some state) ⟨1, state.currentSequence + 1, event⟩ receipts =
        .ok next) ↔ OutcomeAgreed state proofs := by
  -- the row of the event is in order, so the checks of its phase decide
  have hdecides : ∀ event : ExecutionEvent, settleEvent world state command now = .ok event →
      event.command = command → event.digest = command.digest → event.at_ = now →
      ((∃ event next, settleEvent world state command now = .ok event ∧
        projectJobExecution world (some state) ⟨1, state.currentSequence + 1, event⟩ receipts =
          .ok next) ↔
        checkExecutionPhase world state event
          ((receipts event.command.commandId).any (·.pending)) = .ok ()) := by
    intro event hevent hcommand hdigest hat
    have hrow := checkExecutionRow_of_checkCommand h.checked h.resource (hat ▸ hnow) hcommand hdigest
    constructor
    · rintro ⟨other, next, hother, hnext⟩
      obtain rfl := Except.ok.inj (hevent.symm.trans hother)
      exact (exists_projected_iff.mp ⟨next, hnext⟩).2
    · intro hphase
      obtain ⟨next, hnext⟩ := exists_projected_iff.mpr ⟨hrow, hphase⟩
      exact ⟨event, next, hevent, hnext⟩
  by_cases hunsettled : Unsettled world state proofs
  · rw [hdecides _ (settleEvent_of_unsettled h hunsettled) rfl rfl rfl]
    refine iff_of_true ?_ (agreed_of_invalidated h hunsettled.1)
    exact bind_eq_ok_iff.mpr ⟨(), h.checkUnderWay rfl, rfl⟩
  · rw [hdecides _ (settleEvent_of_settled h hunsettled) rfl rfl rfl]
    have hparent : settledOutcome world state proofs = .invalidated →
        parentTerminal world state = true := by
      intro houtcome
      by_contra hopen
      exact hunsettled ⟨houtcome, Bool.not_eq_true _ ▸ hopen⟩
    rw [← checkOutcome_iff ⟨command, command.digest, now, .settled, settledOutcome world state proofs,
      proofs, settledReason world state command⟩ h rfl rfl rfl hparent]
    constructor
    · intro hphase
      obtain ⟨-, -, hphase⟩ := bind_eq_ok_iff.mp hphase
      obtain ⟨-, -, hphase⟩ := bind_eq_ok_iff.mp hphase
      exact hphase
    · intro hphase
      refine bind_eq_ok_iff.mpr ⟨(), h.checkUnderWay rfl, bind_eq_ok_iff.mpr ⟨(), ?_, hphase⟩⟩
      exact checkProofs_of_proofsFor h.plan h.proven

end

namespace Sample

/-- A task that has been approved. -/
def task : EngineeringTask.TaskState :=
  { EngineeringTask.TaskState.initial with
    version := 4
    started := true
    result := some ⟨.approved, "criteria-satisfied", .obj []⟩ }

/-- The ledger when the session of the task has ended with a status. -/
def world (status : String) : World where
  task _ := task
  session _ := ⟨9, "", true, status, []⟩
  unresolvedTasks _ := []

def plan : Plan := ⟨"/state", [⟨"t1", "s1", .obj []⟩], none⟩

/-- A job whose dispatched execution is running. -/
def running : JobState where
  resourceId := "j1"
  kind := .task
  status := .running
  currentSequence := 5
  notBefore := 0
  deadlineAt := 1000
  dependsOn := []
  admission := ⟨.obj [], 100, none⟩
  cancellationRequested := false
  transitionAt := some 10
  fence := some 1
  owner := none
  firstStartedAt := some 1
  executionDeadlineAt := some 101
  leaseUntil := none
  recoveryCommandId := none
  materialization := some ⟨.ready, plan, "m1", 1, none⟩
  execution := some ⟨.intent, [], "", some "d1", some 1⟩
  retryOf := none
  retrySuccessorId := none

def reconcile : DispatchCommand := ⟨"r1", "j1", 5, 1, .reconcile, false, none⟩

def proof (status : String) : Proof :=
  ⟨"t1", 4, .approved, sha (resultJson ⟨.approved, "criteria-satisfied", .obj []⟩), "s1", 9, status, ""⟩

theorem drained (status : String) :
    Drained (world status) running Receipts.empty reconcile [proof status] where
  execution := rfl
  status := rfl
  plan := by decide
  resource := rfl
  action := .inl rfl
  checked := rfl
  proven := rfl
  settled := by simp [proof]

end Sample

theorem running_settled : ∃ event next,
    settleEvent (Sample.world "completed") Sample.running Sample.reconcile 20 = .ok event ∧
      projectJobExecution (Sample.world "completed") (some Sample.running) ⟨1, 6, event⟩
        Receipts.empty = .ok next :=
  (settlement_accepted_iff (Sample.drained "completed") (by decide)).mpr
    (.inr (.inr (by simp [Sample.proof])))

/-- An approved task whose session failed leaves the job without an outcome. -/
theorem failedSession_not_settled : ¬ ∀ world state receipts command proofs now,
    Drained world state receipts command proofs → state.lastTransition ≤ now →
    ∃ event next, settleEvent world state command now = .ok event ∧
      projectJobExecution world (some state) ⟨1, state.currentSequence + 1, event⟩ receipts =
        .ok next := by
  intro hall
  obtain ⟨event, next, hevent, hnext⟩ := hall (Sample.world "failed") Sample.running Receipts.empty
    Sample.reconcile _ 20 (Sample.drained "failed") (by decide)
  have hrefused : (projectJobExecution (Sample.world "failed") (some Sample.running)
      ⟨1, 6, event⟩ Receipts.empty).isOk = false := by
    obtain rfl := Except.ok.inj hevent
    decide +kernel
  have haccepted : (projectJobExecution (Sample.world "failed") (some Sample.running)
      ⟨1, 6, event⟩ Receipts.empty) = .ok next := hnext
  rw [haccepted] at hrefused
  cases hrefused

end Hseos.Jobs
