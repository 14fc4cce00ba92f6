import Hseos.Engineering.TaskState

/-! # Lifecycle of an engineering task

What every readable stream of a task satisfies, and that appends keep streams
readable. What a reduction changes depends on the kind of its event alone; what
it checks is stated for the kinds that the lifecycle is about.
-/

namespace Hseos.EngineeringTask

section

variable {parsers : Parsers} {state next : TaskState} {created : CreatedTask} {event : Payload}

/-! ## What a reduction checks -/

theorem createTask_eq_ok {creation : Creation} (h : createTask parsers state creation = .ok next) :
    ∃ contract, parsers.parseEngineeringTask creation.contract = some contract ∧
      next = { state with created := some ⟨creation, contract⟩ } := by
  unfold createTask at h
  cases hparse : parsers.parseEngineeringTask creation.contract with
  | none =>
      rw [hparse] at h
      cases h
  | some contract =>
      simp only [hparse, bind_eq_ok_iff, pure_eq_ok_iff] at h
      obtain ⟨-, -, -, -, -, -, -, -, -, -, -, -, h⟩ := h
      exact ⟨contract, rfl, h.symm⟩

theorem diagnose_eq_ok {diagnosis : Diagnosis} (h : diagnose state created diagnosis = .ok next) :
    (∀ entry ∈ state.diagnoses, entry.reviewStepId = diagnosis.reviewStepId →
      entry.filesSha256 ≠ diagnosis.filesSha256) ∧
      next = { state with diagnoses := state.diagnoses ++ [diagnosis] } := by
  simp only [diagnose, reject_bind_eq_ok_iff, pure_eq_ok_iff, Bool.or_eq_false_iff] at h
  obtain ⟨⟨⟨⟨-, hfresh⟩, -⟩, -⟩, h⟩ := h
  refine ⟨?_, h.symm⟩
  simpa using hfresh

theorem recordReview_eq_ok {review : Review} (h : recordReview state created review = .ok next) :
    (review.correctionRequested = true →
      (state.reviews.filter (·.correctionRequested)).length < created.contract.maxFailedCorrections) ∧
      next = { state with reviews := state.reviews ++ [review] } := by
  simp only [recordReview, reject_bind_eq_ok_iff, pure_eq_ok_iff, Bool.or_eq_false_iff] at h
  obtain ⟨⟨-, hbudget⟩, h⟩ := h
  refine ⟨?_, h.symm⟩
  intro hrequested
  simpa [hrequested] using hbudget

theorem takeSnapshot_eq_ok {snapshot : Snapshot} (h : takeSnapshot state created snapshot = .ok next) :
    next = { state with snapshot := some snapshot } := by
  simp only [takeSnapshot, bind_eq_ok_iff, pure_eq_ok_iff] at h
  obtain ⟨-, -, -, -, -, -, h⟩ := h
  exact h.symm

/-- The command checks of a proof are those of the contract, all of them passed. -/
def ProvesCommands (contract : TaskContract) (proof : Json) : Prop :=
  ∃ actual : List Json, (proof.field? "command_checks" = some (.arr actual) ∨ actual = []) ∧
    List.Forall₂ (fun commandId check => check.field? "command_id" = some (.str commandId) ∧
      check.field? "status" = some (.str "succeeded") ∧
      check.field? "exit_code" = some (.ofNat 0)) (contract.commandChecks.getD []) actual

theorem provesCommands_of_passed {contract : TaskContract} {proof : Json}
    (h : acceptanceCommandsPassed contract proof = true) : ProvesCommands contract proof := by
  simp only [acceptanceCommandsPassed, Bool.and_eq_true, decide_eq_true_eq, List.all_eq_true,
    Prod.forall] at h
  obtain ⟨hlength, hpassed⟩ := h
  refine ⟨_, ?_, List.forall₂_iff_zip.mpr ⟨hlength.symm, fun hmem => ?_⟩⟩
  · split
    next hchecks => exact .inl hchecks
    next => exact .inr rfl
  · obtain ⟨⟨hcommand, hstatus⟩, hexit⟩ := hpassed _ _ hmem
    exact ⟨hcommand, hstatus, hexit⟩

/-- What an approval proves about the state it ends. -/
structure ApprovedIn (state : TaskState) (created : CreatedTask) (proof : Json) : Prop where
  started : state.started = true
  cancellation : state.cancellation = false
  files : ∃ snapshot, state.snapshot = some snapshot ∧
    proof.field? "files_sha256" = some (.str snapshot.filesSha256)
  verifier : proof.field? "verifier_sha256" = some (.str created.contract.verifierSha256)
  commands : ProvesCommands created.contract proof

theorem checkApproval_eq_ok {proof : Json} {u : Unit}
    (h : checkApproval state created proof = .ok u) : ApprovedIn state created proof := by
  simp only [checkApproval, reject_eq_ok_iff, Bool.or_eq_false_iff, Bool.not_eq_false',
    decide_eq_false_iff_not, not_not] at h
  obtain ⟨⟨⟨⟨⟨⟨⟨⟨⟨⟨⟨⟨hstarted, hcancellation⟩, -⟩, -⟩, -⟩, -⟩, -⟩, hfiles⟩, hverifier⟩, -⟩, -⟩, -⟩,
    hcommands⟩ := h
  obtain ⟨snapshot, hsnapshot, hproved⟩ := (Option.any_eq_true _ _).mp hfiles
  exact ⟨hstarted, hcancellation, ⟨snapshot, hsnapshot, of_decide_eq_true hproved⟩, hverifier,
    provesCommands_of_passed hcommands⟩

/-! ## What a reduction changes -/

/-- The parts of a state that some events leave behind. -/
structure Reflects (parsers : Parsers) (events : List Payload) (state : TaskState) : Prop where
  version : state.version = events.length
  created : ∀ created, state.created = some created →
    events.head? = some (.created created.event) ∧
      parsers.parseEngineeringTask created.event.contract = some created.contract
  started : state.started = events.any Payload.isStarted
  cancellation : state.cancellation = events.any Payload.isCancellation
  snapshot : state.snapshot = (events.filterMap Payload.snapshot?).getLast?
  result : state.result.isSome = events.any Payload.isResult
  reviews : state.reviews = events.filterMap Payload.review?
  diagnoses : state.diagnoses = events.filterMap Payload.diagnosis?

theorem reflects_initial : Reflects parsers [] .initial where
  version := rfl
  created _ h := nomatch h
  started := rfl
  cancellation := rfl
  snapshot := rfl
  result := rfl
  reviews := rfl
  diagnoses := rfl

/-- What one event adds to a state, before it is counted. -/
structure Adds (state : TaskState) (event : Payload) (next : TaskState) : Prop where
  version : next.version = state.version
  created : event.isCreated = false → next.created = state.created
  started : next.started = (state.started || event.isStarted)
  cancellation : next.cancellation = (state.cancellation || event.isCancellation)
  snapshot : next.snapshot = event.snapshot?.or state.snapshot
  result : next.result.isSome = (state.result.isSome || event.isResult)
  reviews : next.reviews = state.reviews ++ event.review?.toList
  diagnoses : next.diagnoses = state.diagnoses ++ event.diagnosis?.toList

theorem reduceCreated_adds (h : reduceCreated parsers state created event = .ok next) :
    Adds state event next := by
  cases event with
  | created creation =>
      obtain ⟨contract, -, rfl⟩ := createTask_eq_ok h
      constructor <;> simp
  | executionStarted owner =>
      simp only [reduceCreated, startExecution, reject_bind_eq_ok_iff, pure_eq_ok_iff] at h
      obtain ⟨-, rfl⟩ := h
      constructor <;> simp
  | reconciliation report decision =>
      simp only [reduceCreated, reconcile, reject_bind_eq_ok_iff, pure_eq_ok_iff] at h
      obtain ⟨-, rfl⟩ := h
      constructor <;> simp
  | executionReclaimed owner =>
      simp only [reduceCreated, reclaimExecution, reject_bind_eq_ok_iff, pure_eq_ok_iff] at h
      obtain ⟨-, rfl⟩ := h
      constructor <;> simp
  | verificationReclaimed owner =>
      simp only [reduceCreated, reclaimVerification, reject_bind_eq_ok_iff, pure_eq_ok_iff] at h
      obtain ⟨-, rfl⟩ := h
      constructor <;> simp
  | uncertainty question =>
      simp only [reduceCreated, raiseUncertainty, reject_bind_eq_ok_iff, pure_eq_ok_iff] at h
      obtain ⟨-, rfl⟩ := h
      constructor <;> simp
  | diagnosis diagnosis =>
      obtain ⟨-, rfl⟩ := diagnose_eq_ok h
      constructor <;> simp
  | review review =>
      obtain ⟨-, rfl⟩ := recordReview_eq_ok h
      constructor <;> simp
  | cancellationRequested =>
      simp only [reduceCreated, requestCancellation, reject_bind_eq_ok_iff, pure_eq_ok_iff] at h
      obtain ⟨-, rfl⟩ := h
      constructor <;> simp
  | snapshot snapshot =>
      obtain rfl := takeSnapshot_eq_ok h
      constructor <;> simp
  | result result =>
      simp only [reduceCreated, recordResult, bind_eq_ok_iff, pure_eq_ok_iff] at h
      obtain ⟨-, -, rfl⟩ := h
      constructor <;> simp

/-- Whatever its state, a reduction adds its event. -/
theorem transition_adds (h : transition parsers state event = .ok next) : Adds state event next := by
  unfold transition at h
  split at h
  · obtain ⟨contract, -, rfl⟩ := createTask_eq_ok h
    constructor <;> simp
  · cases h
  · exact reduceCreated_adds h

/-- Only the event that creates a task is reduced without one. -/
theorem exists_created (h : transition parsers state event = .ok next)
    (hevent : event.isCreated = false) :
    ∃ created, state.created = some created ∧ reduceCreated parsers state created event = .ok next := by
  unfold transition at h
  split at h
  · cases hevent
  · cases h
  next created hcreated => exact ⟨created, hcreated, h⟩

theorem reduce_eq_ok (h : reduce parsers state event = .ok next) :
    state.result = none ∧ (state.version = 0 ↔ event.isCreated = true) ∧
      ∃ changed, transition parsers state event = .ok changed ∧
        next = { changed with version := changed.version + 1 } := by
  obtain ⟨hlifecycle, h⟩ := reject_bind_eq_ok_iff.mp h
  obtain ⟨changed, hchanged, h⟩ := bind_eq_ok_iff.mp h
  obtain rfl := pure_eq_ok_iff.mp h
  obtain ⟨hresult, hcreated⟩ := Bool.or_eq_false_iff.mp hlifecycle
  refine ⟨by simpa using hresult, ?_, changed, hchanged, rfl⟩
  rw [← bne_eq_false_iff_eq.mp hcreated, decide_eq_true_iff]

theorem exists_creation (h : event.isCreated = true) : ∃ creation, event = .created creation := by
  cases event with
  | created creation => exact ⟨creation, rfl⟩
  | _ => cases h

theorem createTask_of_transition {creation : Creation}
    (h : transition parsers state (.created creation) = .ok next) :
    createTask parsers state creation = .ok next := by
  unfold transition at h
  cases hcreated : state.created <;> rw [hcreated] at h <;> exact h

/-- The event that creates a task is the first, and its contract is the one that rules. -/
theorem created_step {events : List Payload} (hstate : Reflects parsers events state)
    (hchanged : transition parsers state event = .ok next)
    (hcreated : state.version = 0 ↔ event.isCreated = true) {made : CreatedTask}
    (hmade : next.created = some made) :
    (events ++ [event]).head? = some (.created made.event) ∧
      parsers.parseEngineeringTask made.event.contract = some made.contract := by
  by_cases hfirst : event.isCreated = true
  · have hversion := hstate.version
    rw [hcreated.mpr hfirst] at hversion
    obtain rfl := List.eq_nil_of_length_eq_zero hversion.symm
    obtain ⟨creation, rfl⟩ := exists_creation hfirst
    obtain ⟨contract, hcontract, rfl⟩ := createTask_eq_ok (createTask_of_transition hchanged)
    obtain rfl := Option.some.inj hmade
    exact ⟨rfl, hcontract⟩
  · rw [(transition_adds hchanged).created (by simpa using hfirst)] at hmade
    obtain ⟨hhead, hcontract⟩ := hstate.created made hmade
    exact ⟨by rw [List.head?_append, hhead]; rfl, hcontract⟩

theorem reflects_step {events : List Payload} (hstate : Reflects parsers events state)
    (h : reduce parsers state event = .ok next) : Reflects parsers (events ++ [event]) next := by
  obtain ⟨hresult, hcreated, changed, hchanged, rfl⟩ := reduce_eq_ok h
  have hadds := transition_adds hchanged
  refine ⟨?_, fun made hmade => created_step hstate hchanged hcreated hmade, ?_, ?_, ?_, ?_, ?_, ?_⟩
  · simp [hadds.version, hstate.version]
  · simp [hadds.started, hstate.started]
  · simp [hadds.cancellation, hstate.cancellation]
  · rw [hadds.snapshot, hstate.snapshot, filterMap_concat, List.getLast?_append]
    cases event.snapshot? <;> rfl
  · simp [hadds.result, hstate.result]
  · rw [hadds.reviews, hstate.reviews, filterMap_concat]
  · rw [hadds.diagnoses, hstate.diagnoses, filterMap_concat]

/-! ## Lifecycles -/

/-- The task whose first event is `creation` is ruled by its contract. -/
def RuledBy (parsers : Parsers) (events : List Payload) (contract : TaskContract) : Prop :=
  ∃ creation, events.head? = some (.created creation) ∧
    parsers.parseEngineeringTask creation.contract = some contract

/-- What the events before an approval have to be. -/
structure Approved (parsers : Parsers) (past : List Payload) (proof : Json) : Prop where
  started : ∃ event ∈ past, event.isStarted = true
  notCancelled : ∀ event ∈ past, event.isCancellation = false
  files : ∃ snapshot, (past.filterMap Payload.snapshot?).getLast? = some snapshot ∧
    proof.field? "files_sha256" = some (.str snapshot.filesSha256)
  contract : ∃ contract, RuledBy parsers past contract ∧
    proof.field? "verifier_sha256" = some (.str contract.verifierSha256) ∧
    ProvesCommands contract proof

/-- The corrections that the reviews of some events requested. -/
def correctionsOf (events : List Payload) : Nat :=
  ((events.filterMap Payload.review?).filter (·.correctionRequested)).length

/-- The reviews and files that some events diagnosed. -/
def diagnosedPairs (events : List Payload) : List (String × String) :=
  (events.filterMap Payload.diagnosis?).map fun diagnosis =>
    (diagnosis.reviewStepId, diagnosis.filesSha256)

/-- The lifecycle of a task: a result ends it, an approval is sound, the corrections
stay within the contract, and nothing is diagnosed twice. -/
structure Lifecycle (parsers : Parsers) (events : List Payload) : Prop where
  resultLast : ∀ past event rest, events = past ++ event :: rest → event.isResult = true → rest = []
  approvals : Throughout (fun past event => ∀ result, event = .result result →
    result.result = .approved → Approved parsers past result.evidence) events
  corrections : events ≠ [] → ∃ contract, RuledBy parsers events contract ∧
    correctionsOf events ≤ contract.maxFailedCorrections
  diagnoses : (diagnosedPairs events).Nodup

theorem lifecycle_nil : Lifecycle parsers [] where
  resultLast _ _ _ h := by simp at h
  approvals _ _ _ h := by simp at h
  corrections h := absurd rfl h
  diagnoses := List.nodup_nil

variable {events : List Payload}

theorem RuledBy.snoc {contract : TaskContract} (h : RuledBy parsers events contract)
    (event : Payload) : RuledBy parsers (events ++ [event]) contract := by
  obtain ⟨creation, hhead, hcontract⟩ := h
  exact ⟨creation, by rw [List.head?_append, hhead]; rfl, hcontract⟩

theorem RuledBy.unique {contract other : TaskContract} (h : RuledBy parsers events contract)
    (hother : RuledBy parsers events other) : contract = other := by
  obtain ⟨creation, hhead, hcontract⟩ := h
  obtain ⟨creation', hhead', hcontract'⟩ := hother
  obtain rfl : creation = creation' :=
    Payload.created.inj (Option.some.inj (hhead.symm.trans hhead'))
  exact Option.some.inj (hcontract.symm.trans hcontract')

theorem Reflects.ruledBy (h : Reflects parsers events state) (hcreated : state.created = some created) :
    RuledBy parsers events created.contract :=
  ⟨created.event, h.created created hcreated⟩

theorem approved_of_approvedIn {proof : Json} (hstate : Reflects parsers events state)
    (hcreated : state.created = some created) (h : ApprovedIn state created proof) :
    Approved parsers events proof := by
  refine ⟨?_, ?_, ?_, created.contract, hstate.ruledBy hcreated, h.verifier, h.commands⟩
  · rw [← List.any_eq_true, ← hstate.started]
    exact h.started
  · have hnone := h.cancellation
    rw [hstate.cancellation, List.any_eq_false] at hnone
    simpa using hnone
  · rw [← hstate.snapshot]
    exact h.files

/-- An approval that is reduced is sound. -/
theorem approved_step (hstate : Reflects parsers events state) {result : Result}
    (h : transition parsers state (.result result) = .ok next) (happroved : result.result = .approved) :
    Approved parsers events result.evidence := by
  obtain ⟨created, hcreated, hrecord⟩ := exists_created h rfl
  simp only [reduceCreated, recordResult, happroved, if_true, bind_eq_ok_iff] at hrecord
  obtain ⟨u, hchecked, -⟩ := hrecord
  exact approved_of_approvedIn hstate hcreated (checkApproval_eq_ok hchecked)

theorem correctionsOf_snoc (events : List Payload) (event : Payload) :
    correctionsOf (events ++ [event]) =
      correctionsOf events + (event.review?.toList.filter (·.correctionRequested)).length := by
  rw [correctionsOf, filterMap_concat, List.filter_append, List.length_append, correctionsOf]

/-- A review that is reduced fits the correction budget. -/
theorem corrections_step (hstate : Reflects parsers events state)
    (h : transition parsers state event = .ok next) {contract : TaskContract}
    (hcontract : RuledBy parsers events contract)
    (hcorrections : correctionsOf events ≤ contract.maxFailedCorrections) :
    correctionsOf (events ++ [event]) ≤ contract.maxFailedCorrections := by
  rw [correctionsOf_snoc]
  cases event with
  | review review =>
      obtain ⟨created, hcreated, hrecord⟩ := exists_created h rfl
      obtain ⟨hbudget, -⟩ := recordReview_eq_ok hrecord
      obtain rfl := (hstate.ruledBy hcreated).unique hcontract
      rw [hstate.reviews] at hbudget
      by_cases hrequested : review.correctionRequested = true
      · have hleft : correctionsOf events < created.contract.maxFailedCorrections := hbudget hrequested
        simp only [Payload.review?, Option.toList_some, List.filter_cons, hrequested, if_true,
          List.filter_nil, List.length_singleton]
        omega
      · simpa [hrequested] using hcorrections
  | _ => simpa using hcorrections

theorem diagnosedPairs_snoc (events : List Payload) (event : Payload) :
    diagnosedPairs (events ++ [event]) = diagnosedPairs events ++
      event.diagnosis?.toList.map fun diagnosis => (diagnosis.reviewStepId, diagnosis.filesSha256) := by
  rw [diagnosedPairs, filterMap_concat, List.map_append, diagnosedPairs]

/-- A diagnosis that is reduced is the first of its review and files. -/
theorem diagnoses_step (hstate : Reflects parsers events state)
    (h : transition parsers state event = .ok next)
    (hdiagnoses : (diagnosedPairs events).Nodup) : (diagnosedPairs (events ++ [event])).Nodup := by
  rw [diagnosedPairs_snoc]
  cases event with
  | diagnosis diagnosis =>
      obtain ⟨created, -, hrecord⟩ := exists_created h rfl
      obtain ⟨hfresh, -⟩ := diagnose_eq_ok hrecord
      rw [hstate.diagnoses] at hfresh
      refine List.nodup_append.mpr ⟨hdiagnoses, by simp, ?_⟩
      intro pair hpair last hlast hsame
      obtain ⟨entry, hentry, rfl⟩ := List.mem_map.mp hpair
      obtain rfl := List.mem_singleton.mp hlast
      exact hfresh entry hentry (congrArg Prod.fst hsame) (congrArg Prod.snd hsame)
  | _ => simpa using hdiagnoses

theorem lifecycle_step (hlifecycle : Lifecycle parsers events) (hstate : Reflects parsers events state)
    (h : reduce parsers state event = .ok next) : Lifecycle parsers (events ++ [event]) := by
  have hnext := reflects_step hstate h
  obtain ⟨hopen, hfirst, changed, hchanged, rfl⟩ := reduce_eq_ok h
  have hunended : ∀ past ∈ events, past.isResult = false := by
    have hnone := hstate.result
    rw [hopen] at hnone
    simpa using hnone.symm
  refine ⟨?_, ?_, ?_, diagnoses_step hstate hchanged hlifecycle.diagnoses⟩
  · -- an event before the last is not a result, so a result is the last
    intro past ended rest hsplit hended
    rcases List.eq_nil_or_concat' rest with hnil | ⟨others, last, rfl⟩
    · exact hnil
    · rw [← List.cons_append, ← List.append_assoc] at hsplit
      obtain ⟨rfl, -⟩ := List.append_inj' hsplit rfl
      rw [hunended ended (by simp)] at hended
      cases hended
  · refine hlifecycle.approvals.snoc ?_
    rintro result rfl happroved
    exact approved_step hstate hchanged happroved
  · intro _
    by_cases hne : events = []
    · -- the first event creates the task and is no review
      subst hne
      have hmake := hfirst.mp hstate.version
      obtain ⟨creation, rfl⟩ := exists_creation hmake
      obtain ⟨contract, hcontract, -⟩ := createTask_eq_ok (createTask_of_transition hchanged)
      exact ⟨contract, ⟨creation, rfl, hcontract⟩, Nat.zero_le _⟩
    · obtain ⟨contract, hcontract, hcorrections⟩ := hlifecycle.corrections hne
      exact ⟨contract, hcontract.snoc event,
        corrections_step hstate hchanged hcontract hcorrections⟩

/-! ## Streams -/

variable {id : String} {rows : List Row}

/-- The events of a stream. -/
def payloads (rows : List Row) : List Payload := rows.map (·.payload.val)

/-- What reading some rows has found out. -/
structure ReadsTo (parsers : Parsers) (id : String) (rows : List Row) (reader : Reader) : Prop where
  reflects : Reflects parsers (payloads rows) reader.state
  lifecycle : Lifecycle parsers (payloads rows)
  previousId : reader.previousId = (rows.getLast?.map (·.eventId)).getD id

theorem readsTo_of_run {reader : Reader} (h : run (readRow parsers id) ⟨.initial, id⟩ rows = .ok reader) :
    ReadsTo parsers id rows reader := by
  refine run_history ⟨reflects_initial, lifecycle_nil, rfl⟩ ?_ h
  intro past before row next _ hbefore hstep
  obtain ⟨-, hstep⟩ := reject_bind_eq_ok_iff.mp hstep
  obtain ⟨state, hreduce, hnext⟩ := bind_eq_ok_iff.mp hstep
  obtain rfl := pure_eq_ok_iff.mp hnext
  have hevents : payloads (past ++ [row]) = payloads past ++ [row.payload.val] := by simp [payloads]
  refine ⟨?_, ?_, by simp⟩
  · rw [hevents]
    exact reflects_step hbefore.reflects hreduce
  · rw [hevents]
    exact lifecycle_step hbefore.lifecycle hbefore.reflects hreduce

theorem read_eq_ok_iff {state : TaskState} : read parsers id rows = .ok state ↔
    ∃ reader, run (readRow parsers id) ⟨.initial, id⟩ rows = .ok reader ∧ reader.state = state :=
  map_eq_ok_iff

/-- A stream that `append` extends is readable afterwards. -/
theorem read_of_append {call : Call} {next : List Row} (h : append parsers id rows call = .ok next) :
    ∃ state, read parsers id next = .ok state := by
  unfold append at h
  cases hevent : call.event with
  | none =>
      rw [hevent] at h
      cases h
  | some event =>
      simp only [hevent, bind_eq_ok_iff, reject_eq_ok_iff, pure_eq_ok_iff] at h
      obtain ⟨-, -, -, -, state, hread, -, hversion, after, hreduce, -, -, rfl⟩ := h
      obtain ⟨⟨reached, previousId⟩, hrun, rfl⟩ := read_eq_ok_iff.mp hread
      have hreads := readsTo_of_run hrun
      have hrow : readRow parsers id ⟨reached, previousId⟩ (newRow id rows call event) =
          .ok ⟨after, call.eventId⟩ := by
        refine reject_bind_eq_ok_iff.mpr ⟨?_, bind_eq_ok_iff.mpr ⟨after, hreduce, rfl⟩⟩
        have hcaused : previousId = (rows.getLast?.map (·.eventId)).getD id := hreads.previousId
        have hexpected : reached.version = call.expectedVersion := by simpa using hversion
        simp [newRow, hcaused, hexpected]
      exact ⟨after, read_eq_ok_iff.mpr ⟨_, run_snoc_eq_ok_iff.mpr ⟨_, hrun, hrow⟩, rfl⟩⟩

theorem read_perform {state : TaskState} (h : read parsers id rows = .ok state) (call : Call) :
    ∃ state, read parsers id (perform parsers id rows call) = .ok state := by
  unfold perform
  cases happend : append parsers id rows call with
  | error failure => exact ⟨state, h⟩
  | ok next => exact read_of_append happend

theorem read_streamAfter (parsers : Parsers) (id : String) (calls : List Call) :
    ∃ state, read parsers id (streamAfter parsers id calls) = .ok state := by
  induction calls using List.reverseRecOn with
  | nil => exact ⟨.initial, rfl⟩
  | append_singleton past call ih =>
      obtain ⟨state, hstate⟩ := ih
      rw [streamAfter, List.foldl_append]
      exact read_perform hstate call

/-- Whatever appends build is readable, an append that returns leaves a stream that
is, and the events of every readable stream have the lifecycle of a task. -/
theorem engineering_task_lifecycle (parsers : Parsers) (id : String) :
    (∀ calls, ∃ state, read parsers id (streamAfter parsers id calls) = .ok state) ∧
      (∀ rows call next, append parsers id rows call = .ok next →
        ∃ state, read parsers id next = .ok state) ∧
      ∀ rows state, read parsers id rows = .ok state → Lifecycle parsers (payloads rows) := by
  refine ⟨read_streamAfter parsers id, fun rows call next => read_of_append, ?_⟩
  intro rows state h
  obtain ⟨reader, hrun, -⟩ := read_eq_ok_iff.mp h
  exact (readsTo_of_run hrun).lifecycle

end

namespace Sample

def contract : TaskContract := ⟨["r1"], ["add.js"], 1, 1000, "verifier", some ["c1"], 4⟩

/-- Every contract reads like `contract`, and nothing else is given. -/
def parsers : Parsers :=
  ⟨fun _ => some contract, fun _ => false, fun _ => 0, fun _ _ => false, fun _ => false, fun _ => false⟩

def creation : Creation where
  contract := .obj []
  contractSha256 := sha (.obj [])
  sessionId := "s1"
  deadline := 1
  binding := none
  extensions := none
  pluginModel := none
  compaction := none
  fork := none
  responseSource := none
  responses := []

def files : Snapshot :=
  ⟨[⟨"add.js", none, none⟩], sha (Snapshot.mk [⟨"add.js", none, none⟩] "").filesJson⟩

def proof : Json :=
  .obj [("approved", .bool true),
    ("command_checks", .arr [.obj [("command_id", .str "c1"), ("exit_code", .ofNat 0),
      ("status", .str "succeeded")]]),
    ("contract_sha256", .str creation.contractSha256), ("descendants_terminated", .bool true),
    ("files_sha256", .str files.filesSha256), ("isolation_digest", .str (sha .null)),
    ("schema_version", .ofNat 1), ("session_id", .str "s1"), ("verifier_sha256", .str "verifier"),
    ("workspace_access", .str "read_only")]

def call (expectedVersion : Nat) (payload : Payload)
    (h : payload.valid = true := by decide +kernel) : Call :=
  ⟨some ⟨payload, h⟩, expectedVersion, true, true, "e" ++ Nat.repr expectedVersion, true⟩

/-- A task that is approved, and a cancellation that comes too late. -/
def calls : List Call :=
  [call 0 (.created creation), call 1 (.executionStarted none), call 2 (.snapshot files),
    call 3 (.result ⟨.approved, "criteria-satisfied", proof⟩), call 4 .cancellationRequested]

end Sample

example : (read Sample.parsers "t1" (streamAfter Sample.parsers "t1" Sample.calls)).toOption.any
    (fun state => state.version = 4 && state.result.isSome && !state.cancellation) = true := by
  decide +kernel

end Hseos.EngineeringTask
