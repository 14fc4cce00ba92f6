import Hseos.Engineering.TaskEvent

/-! # Engineering task state

The reducer of the events of one task, and the two operations of
`EngineeringTaskState`: reading the stream back, and a compare-and-append that
reduces the event before it stores it.
-/

namespace Hseos.EngineeringTask

/-! ## Contracts -/

/-- What the reducer reads of a contract that `parseEngineeringTask` accepts. -/
structure TaskContract where
  requirementIds : List String
  scopeRead : List String
  maxFailedCorrections : Nat
  maxArtifactBytes : Nat
  verifierSha256 : String
  /-- The `command_id` of every entry of `verifier.command_checks`. -/
  commandChecks : Option (List String)
  maxToolCalls : Nat
  deriving DecidableEq

/-- The parsers of other modules, and JavaScript's `value > 0` for an object's `length`. -/
structure Parsers where
  parseEngineeringTask : Json → Option TaskContract
  parseExecutionPluginSelection : Json → Bool
  taskContextReservations : Json → Nat
  parseTaskPluginModel : Json → Option Json → Bool
  validateEngineeringBinding : Json → Bool
  greaterThanZero : Json → Bool

/-- An optional integer member between two bounds. -/
def optionalWithin (low high : Nat) (value : Json) (name : String) : Bool :=
  (value.field? name).all fun
    | .num number => number.natural?.any (intWithin low high)
    | _ => false

/-- `parseTaskCompaction` accepts the value. -/
def parseTaskCompaction (value : Json) : Bool :=
  match value with
  | .obj members =>
      members.all (fun member => member.1 ∈
        ["schema_version", "provider_id", "threshold_basis_points", "context_tokens"]) &&
      value.field? "schema_version" = some (.ofNat 1) &&
      value.field? "provider_id" = some (.str "compaction:deterministic") &&
      optionalWithin 1 10000 value "threshold_basis_points" &&
      optionalWithin 1024 1000000 value "context_tokens"
  | _ => false

/-! ## States -/

inductive TaskError where
  | error (message : String)
  | parse (parser : String)
  | denied (check : String)
  | ledger
  | typeError
  deriving DecidableEq

/-- The `created` event with its contract. -/
structure CreatedTask where
  event : Creation
  contract : TaskContract
  deriving DecidableEq

/-- A `reconciliation` event with the review it follows. -/
structure Reconciled where
  report : Json
  decision : Option Decision
  reviewStepId : Option String
  deriving DecidableEq

structure TaskState where
  version : Nat
  created : Option CreatedTask
  snapshot : Option Snapshot
  result : Option Result
  started : Bool
  cancellation : Bool
  owner : Option Owner
  reviews : List Review
  diagnoses : List Diagnosis
  uncertainty : Option String
  reconciliation : Option Reconciled
  deriving DecidableEq

def TaskState.initial : TaskState where
  version := 0
  created := none
  snapshot := none
  result := none
  started := false
  cancellation := false
  owner := none
  reviews := []
  diagnoses := []
  uncertainty := none
  reconciliation := none

/-! ## Reducer -/

section

variable (parsers : Parsers)

def checkExtensions (created : Creation) (contract : TaskContract) : Except TaskError Unit :=
  match created.extensions with
  | none => .ok ()
  | some extensions => do
      reject (!parsers.parseExecutionPluginSelection extensions)
        (.parse "parseExecutionPluginSelection")
      reject (contract.maxToolCalls < parsers.taskContextReservations extensions)
        (.error "Context selection exceeds the original task tool budget")

def checkPluginModel (created : Creation) : Except TaskError Unit :=
  match created.pluginModel with
  | none => .ok ()
  | some pluginModel => do
      reject (!parsers.parseTaskPluginModel pluginModel created.extensions)
        (.parse "parseTaskPluginModel")
      reject (created.binding.any Json.truthy || created.responses ≠ [])
        (.error "A task cannot combine model sources")

def checkBinding (created : Creation) : Except TaskError Unit :=
  match created.binding with
  | none => .ok ()
  | some binding => do
      reject (!parsers.validateEngineeringBinding binding) (.parse "validateEngineeringBinding")
      reject (created.responses ≠ [])
        (.error "A task cannot combine bound and scripted models")

def createTask (state : TaskState) (created : Creation) : Except TaskError TaskState :=
  match parsers.parseEngineeringTask created.contract with
  | none => .error (.parse "parseEngineeringTask")
  | some contract => do
      checkExtensions parsers created contract
      checkPluginModel parsers created
      reject (created.compaction.any fun compaction => !parseTaskCompaction compaction)
        (.parse "parseTaskCompaction")
      reject (created.responseSource.isSome && (created.responses = [] ||
          created.binding.any Json.truthy || created.pluginModel.any Json.truthy))
        (.error "Response provenance requires scripted responses")
      checkBinding parsers created
      reject (sha created.contract ≠ created.contractSha256)
        (.error "Task contract digest mismatch")
      return { state with created := some ⟨created, contract⟩ }

def startExecution (state : TaskState) (owner : Option Owner) : Except TaskError TaskState := do
  reject (state.started || state.cancellation)
    (.error "Task execution is already claimed or cancelled")
  return { state with started := true, owner := owner }

/-- A report without its own digest. -/
def unsigned : Json → Json
  | .obj members => .obj (members.filter fun member => member.1 ≠ "sha256")
  | report => report

/-- `report.questions?.length > 0`. -/
def hasQuestions (report : Json) : Bool :=
  match report.field? "questions" with
  | some (.arr items) => items ≠ []
  | some (.str text) => text ≠ ""
  | some (.obj members) => ((Json.obj members).field? "length").any parsers.greaterThanZero
  | _ => false

def reconcile (state : TaskState) (created : CreatedTask) (report : Json)
    (decision : Option Decision) : Except TaskError TaskState := do
  let sha256 := report.field? "sha256"
  reject (!state.started || state.cancellation || some (.str (sha (unsigned report))) ≠ sha256 ||
      report.field? "prerequisites_verified" ≠ some (.bool true) ||
      report.field? "task_sequence" ≠ some (.ofNat state.version) ||
      report.field? "session_id" ≠ some (.str created.event.sessionId) ||
      report.field? "contract_sha256" ≠ some (.str created.event.contractSha256) ||
      (hasQuestions parsers report &&
        !(decision.any fun decision => some (.str decision.reportSha256.val) = sha256)))
    (.error "Reconciliation requires verified current state and explicit answers to uncertainty")
  let reviewStepId := (state.reviews.getLast?.map (·.stepId)).filter (· ≠ "")
  return { state with reconciliation := some ⟨report, decision, reviewStepId⟩ }

def reclaimExecution (state : TaskState) (owner : Owner) : Except TaskError TaskState := do
  reject (state.reconciliation.isNone || state.cancellation)
    (.error "Execution recovery requires reconciliation")
  return { state with owner := some owner }

def reclaimVerification (state : TaskState) (owner : Owner) : Except TaskError TaskState := do
  reject (!state.started || state.cancellation) (.error "Task cannot reclaim verification")
  return { state with owner := some owner }

def raiseUncertainty (state : TaskState) (question : String) : Except TaskError TaskState := do
  reject state.uncertainty.isSome (.error "An unresolved question already exists")
  return { state with uncertainty := some question }

/-- The digest of the files that a review is about: those the reconciliation after it
observed, or its own. -/
def TaskState.observedFiles (state : TaskState) (review : Review) : Option Json :=
  match state.reconciliation with
  | some reconciled =>
      if reconciled.reviewStepId = some review.stepId then reconciled.report.field? "files_sha256"
      else some (.str review.filesSha256)
  | none => some (.str review.filesSha256)

def diagnose (state : TaskState) (created : CreatedTask) (event : Diagnosis) :
    Except TaskError TaskState := do
  reject (!(state.reviews.getLast?.any fun review => review.correctionRequested &&
        review.stepId = event.reviewStepId &&
        state.observedFiles review = some (.str event.filesSha256)) ||
      (state.diagnoses.any fun entry =>
        entry.reviewStepId = event.reviewStepId && entry.filesSha256 = event.filesSha256) ||
      !event.requirementIds.Nodup ||
      !(event.requirementIds.all fun id => id ∈ created.contract.requirementIds))
    (.error
      "Diagnosis must bind one protected rejection, observed artifacts and original requirements")
  return { state with diagnoses := state.diagnoses ++ [event] }

def recordReview (state : TaskState) (created : CreatedTask) (event : Review) :
    Except TaskError TaskState := do
  reject (!state.started || state.cancellation ||
      !(state.snapshot.any fun snapshot => event.filesSha256 = snapshot.filesSha256) ||
      (event.approved && event.correctionRequested) ||
      (event.correctionRequested && created.contract.maxFailedCorrections ≤
        (state.reviews.filter (·.correctionRequested)).length))
    (.error "Invalid protected review or correction budget")
  return { state with reviews := state.reviews ++ [event] }

def requestCancellation (state : TaskState) : Except TaskError TaskState := do
  reject state.cancellation (.error "Task cancellation is already requested")
  return { state with cancellation := true }

def checkArtifact (contract : TaskContract) (file : Artifact) : Except TaskError Unit :=
  reject (file.path ∉ contract.scopeRead ||
      (match file.content with
      | none => file.sha256.isSome
      | some content => file.sha256 ≠ some (sha256Hex (chars content))))
    (.error "Invalid task artifact snapshot")

def takeSnapshot (state : TaskState) (created : CreatedTask) (event : Snapshot) :
    Except TaskError TaskState := do
  let contract := created.contract
  reject (!state.started || sha event.filesJson ≠ event.filesSha256)
    (.error "Task snapshot digest or lifecycle mismatch")
  reject (event.files.length ≠ contract.scopeRead.length || !(event.files.map (·.path)).Nodup ||
      contract.maxArtifactBytes <
        (event.files.map fun file => byteLength (chars (file.content.getD ""))).sum)
    (.error "Invalid task snapshot coverage or budget")
  event.files.forM (checkArtifact contract)
  return { state with snapshot := some event }

def acceptanceCommandsPassed (contract : TaskContract) (proof : Json) : Bool :=
  let required := contract.commandChecks.getD []
  let actual := match proof.field? "command_checks" with
    | some (.arr items) => items
    | _ => []
  actual.length = required.length && (required.zip actual).all fun (commandId, check) =>
    check.field? "command_id" = some (.str commandId) &&
      check.field? "status" = some (.str "succeeded") &&
      check.field? "exit_code" = some (.ofNat 0)

/-- `/^[a-f0-9]{64}$/` matches `value || ''` as a string. -/
def matchesSha256 (value : Option Json) : Bool :=
  value.any fun value => value.truthy && isSha256 value.asString

def checkApproval (state : TaskState) (created : CreatedTask) (proof : Json) :
    Except TaskError Unit :=
  reject (!state.started || state.cancellation || state.snapshot.isNone ||
      proof.field? "schema_version" ≠ some (.ofNat 1) ||
      proof.field? "approved" ≠ some (.bool true) ||
      proof.field? "contract_sha256" ≠ some (.str created.event.contractSha256) ||
      proof.field? "session_id" ≠ some (.str created.event.sessionId) ||
      !(state.snapshot.any fun snapshot =>
        proof.field? "files_sha256" = some (.str snapshot.filesSha256)) ||
      proof.field? "verifier_sha256" ≠ some (.str created.contract.verifierSha256) ||
      !matchesSha256 (proof.field? "isolation_digest") ||
      proof.field? "workspace_access" ≠ some (.str "read_only") ||
      proof.field? "descendants_terminated" ≠ some (.bool true) ||
      !acceptanceCommandsPassed created.contract proof)
    (.error "Approval lacks bound verification evidence")

def recordResult (state : TaskState) (created : CreatedTask) (event : Result) :
    Except TaskError TaskState := do
  (if event.result = .approved then checkApproval state created event.evidence else .ok ())
  return { state with result := some event }

/-- The cases of a task that has been created. -/
def reduceCreated (state : TaskState) (created : CreatedTask) :
    Payload → Except TaskError TaskState
  | .created event => createTask parsers state event
  | .executionStarted owner => startExecution state owner
  | .reconciliation report decision => reconcile parsers state created report decision
  | .executionReclaimed owner => reclaimExecution state owner
  | .verificationReclaimed owner => reclaimVerification state owner
  | .uncertainty question => raiseUncertainty state question
  | .diagnosis event => diagnose state created event
  | .review event => recordReview state created event
  | .cancellationRequested => requestCancellation state
  | .snapshot event => takeSnapshot state created event
  | .result event => recordResult state created event

/-- The cases of `reduce`. No state with a positive version is without its `created` event. -/
def transition (state : TaskState) (event : Payload) : Except TaskError TaskState :=
  match state.created, event with
  | none, .created event => createTask parsers state event
  | none, _ => .error .typeError
  | some created, event => reduceCreated parsers state created event

/-- `reduce`. -/
def reduce (state : TaskState) (event : Payload) : Except TaskError TaskState := do
  reject (state.result.isSome || decide (state.version = 0) != event.isCreated)
    (.error "Invalid task lifecycle")
  let next ← transition parsers state event
  return { next with version := next.version + 1 }

/-! ## Streams -/

/-- A row of the stream of a task. -/
structure Row where
  eventId : String
  eventType : String
  schemaVersion : Nat
  streamSequence : Nat
  correlationId : String
  causationId : String
  payload : Event
  deriving DecidableEq

/-- What is known after some rows: the state and the identifier the next row is caused by. -/
structure Reader where
  state : TaskState
  previousId : String
  deriving DecidableEq

variable (id : String)

def readRow (reader : Reader) (row : Row) : Except TaskError Reader := do
  reject (row.eventType ≠ "EngineeringTaskEventRecorded" || row.schemaVersion ≠ 1 ||
      row.streamSequence ≠ reader.state.version + 1 || row.correlationId ≠ id ||
      row.causationId ≠ reader.previousId)
    (.error "Invalid engineering task event sequence")
  let state ← reduce parsers reader.state row.payload.val
  return ⟨state, row.eventId⟩

/-- `read`. -/
def read (rows : List Row) : Except TaskError TaskState :=
  (run (readRow parsers id) ⟨.initial, id⟩ rows).map (·.state)

/-- One call of `append`, with what it finds outside the stream: the event the
schema makes of the value, the checks of the job and of the terminals, the fresh
event identifier, and whether the ledger takes the row. -/
structure Call where
  event : Option Event
  expectedVersion : Nat
  runtimeAccess : Bool
  terminalsSettled : Bool
  eventId : String
  ledgerAccepts : Bool
  deriving DecidableEq

/-- The row that `append` asks the ledger to store. -/
def newRow (rows : List Row) (call : Call) (event : Event) : Row where
  eventId := call.eventId
  eventType := "EngineeringTaskEventRecorded"
  schemaVersion := 1
  streamSequence := call.expectedVersion + 1
  correlationId := id
  causationId := (rows.getLast?.map (·.eventId)).getD id
  payload := event

/-- `append`: one transaction, so a failure leaves the stream as it was. -/
def append (rows : List Row) (call : Call) : Except TaskError (List Row) :=
  match call.event with
  | none => .error (.parse "eventSchema")
  | some event => do
      reject (event.val.needsRuntimeAccess && !call.runtimeAccess) (.denied "assertJobRuntimeAccess")
      reject (event.val.needsSettledTerminals && !call.terminalsSettled)
        (.denied "assertTerminalsSettled")
      let state ← read parsers id rows
      reject (state.version ≠ call.expectedVersion) (.error "Task evidence concurrency conflict")
      let _ ← reduce parsers state event.val
      reject ((rows.map (·.streamSequence)).foldl max 0 ≠ call.expectedVersion || !call.ledgerAccepts)
        .ledger
      return rows ++ [newRow id rows call event]

/-- The stream after a call, successful or not. -/
def perform (rows : List Row) (call : Call) : List Row := (append parsers id rows call).toOption.getD rows

/-- The stream that some calls build, whoever makes them. -/
def streamAfter (calls : List Call) : List Row := calls.foldl (perform parsers id) []

end

end Hseos.EngineeringTask
