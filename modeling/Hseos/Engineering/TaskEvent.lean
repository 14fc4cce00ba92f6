import Hseos.Contracts.Common
import Hseos.Foundation.Run
import Hseos.Foundation.Thrown

/-! # Engineering task events

What is recorded about one engineering task, and what the schema of a recorded
event checks. Free JSON values are in canonical member order.
-/

namespace Hseos.EngineeringTask

/-- `sha`: the SHA-256 of the canonical text. -/
def sha (value : Json) : String := sha256Hex (canonicalJson value)

/-! ## Payloads -/

/-- `ownerSchema`. -/
structure Owner where
  pid : Nat
  startTicks : String
  resourceParent : Option String
  deriving DecidableEq

def Owner.valid (owner : Owner) : Bool :=
  intWithin 1 maxSafeInteger owner.pid && chars owner.startTicks ≠ [] &&
    (chars owner.startTicks).all Char.isDigit

/-- A string that `trim` leaves as it is. -/
def trimmed (text : String) : Bool :=
  !((chars text).head?.any isJsSpace) && !((chars text).getLast?.any isJsSpace)

/-- `diagnosisSchema`. -/
structure Diagnosis where
  reviewStepId : String
  filesSha256 : String
  cause : String
  correction : String
  requirementIds : List String
  deriving DecidableEq

def Diagnosis.valid (diagnosis : Diagnosis) : Bool :=
  trimmed diagnosis.cause && lengthWithin 1 2048 diagnosis.cause && trimmed diagnosis.correction &&
    lengthWithin 1 2048 diagnosis.correction && diagnosis.requirementIds ≠ []

/-- The answer to the questions of a reconciliation report. -/
structure Decision where
  reportSha256 : Sha256Text
  answer : Refined (lengthWithin 1 8192)
  deriving DecidableEq

structure CommandCheck where
  commandId : String
  status : String
  exitCode : Option Int
  deriving DecidableEq

def CommandCheck.valid (check : CommandCheck) : Bool :=
  lengthWithin 0 40 check.status && check.exitCode.all fun code => code.natAbs ≤ maxSafeInteger

structure Review where
  stepId : String
  approved : Bool
  reason : String
  commandChecks : Option (List CommandCheck)
  filesSha256 : String
  correctionRequested : Bool
  deriving DecidableEq

def Review.valid (review : Review) : Bool :=
  review.commandChecks.all fun checks => checks.length ≤ 16 && checks.all (·.valid)

/-- The character that `z.string().uuid()` wants at a position of the mask. -/
def isUuidChar (mask c : Char) : Bool :=
  match mask with
  | 'v' => '1' ≤ c && c ≤ '8'
  | 'n' => c ∈ ['8', '9', 'a', 'b', 'A', 'B']
  | '-' => c = '-'
  | _ => c.isDigit || ('a' ≤ c && c ≤ 'f') || ('A' ≤ c && c ≤ 'F')

def isRunId (text : String) : Bool :=
  let mask := "hhhhhhhh-hhhh-vhhh-nhhh-hhhhhhhhhhhh".toList
  text ∈ ["00000000-0000-0000-0000-000000000000", "ffffffff-ffff-ffff-ffff-ffffffffffff"] ||
    ((chars text).length = mask.length && (mask.zip (chars text)).all fun p => isUuidChar p.1 p.2)

/-- `forkSchema`. -/
structure Fork where
  parentTaskRunId : Refined isRunId
  parentSessionId : String
  parentSequence : Nat
  ancestryEventCount : Nat
  ancestrySha256 : Sha256Text
  deriving DecidableEq

def Fork.valid (fork : Fork) : Bool :=
  fork.parentSessionId ≠ "" && intWithin 1 maxSafeInteger fork.parentSequence &&
    intWithin 1 maxSafeInteger fork.ancestryEventCount &&
    fork.parentSequence = fork.ancestryEventCount

/-- A scripted response of the model. -/
structure Response where
  name : Refined (lengthWithin 1 160)
  input : Json
  deriving DecidableEq

structure Creation where
  contract : Json
  contractSha256 : String
  sessionId : String
  deadline : Nat
  binding : Option Json
  extensions : Option Json
  pluginModel : Option Json
  compaction : Option Json
  fork : Option Fork
  responseSource : Option Json
  responses : List Response
  deriving DecidableEq

def Creation.valid (created : Creation) : Bool :=
  created.contract.canonical && intWithin 1 maxSafeInteger created.deadline &&
    created.binding.all (·.canonical) && created.extensions.all (·.canonical) &&
    created.pluginModel.all (·.canonical) && created.compaction.all (·.canonical) &&
    created.fork.all (·.valid) && created.responseSource.all (·.canonicalObject) &&
    created.responses.length ≤ 64 && created.responses.all (·.input.canonicalObject)

/-- `artifact`. -/
structure Artifact where
  path : String
  content : Option String
  sha256 : Option String
  deriving DecidableEq

def Artifact.toJson (file : Artifact) : Json :=
  .obj [("path", .str file.path), ("content", .ofNullable .str file.content),
    ("sha256", .ofNullable .str file.sha256)]

structure Snapshot where
  files : List Artifact
  filesSha256 : String
  deriving DecidableEq

def Snapshot.filesJson (snapshot : Snapshot) : Json := .arr (snapshot.files.map Artifact.toJson)

/-- `STATES`. -/
inductive Verdict where
  | approved
  | failed
  | blocked
  | notExecuted
  deriving DecidableEq

structure Result where
  result : Verdict
  reason : String
  evidence : Json
  deriving DecidableEq

/-! ## Events -/

/-- The payload of a recorded event, by kind. -/
inductive Payload where
  | diagnosis (event : Diagnosis)
  | uncertainty (question : String)
  | executionStarted (owner : Option Owner)
  | verificationReclaimed (owner : Owner)
  | executionReclaimed (owner : Owner)
  | reconciliation (report : Json) (decision : Option Decision)
  | cancellationRequested
  | review (event : Review)
  | created (event : Creation)
  | snapshot (event : Snapshot)
  | result (event : Result)
  deriving DecidableEq

namespace Payload

/-- `eventSchema`. -/
def valid : Payload → Bool
  | .diagnosis event => event.valid
  | .uncertainty question => lengthWithin 1 2048 question
  | .executionStarted owner => owner.all (·.valid)
  | .verificationReclaimed owner | .executionReclaimed owner => owner.valid
  | .reconciliation report _ => report.canonicalObject
  | .cancellationRequested => true
  | .review event => event.valid
  | .created event => event.valid
  | .snapshot _ => true
  | .result event => event.evidence.canonicalObject

@[simp] def isCreated : Payload → Bool
  | .created _ => true
  | _ => false

@[simp] def isStarted : Payload → Bool
  | .executionStarted _ => true
  | _ => false

@[simp] def isCancellation : Payload → Bool
  | .cancellationRequested => true
  | _ => false

@[simp] def isResult : Payload → Bool
  | .result _ => true
  | _ => false

@[simp] def snapshot? : Payload → Option Snapshot
  | .snapshot event => some event
  | _ => none

@[simp] def review? : Payload → Option Review
  | .review event => some event
  | _ => none

@[simp] def diagnosis? : Payload → Option Diagnosis
  | .diagnosis event => some event
  | _ => none

/-- The kinds that need access to the runtime of the task's job. -/
def needsRuntimeAccess : Payload → Bool
  | .executionStarted _ | .executionReclaimed _ | .verificationReclaimed _ => true
  | _ => false

/-- The kinds that need settled terminals. -/
def needsSettledTerminals : Payload → Bool
  | .executionStarted _ | .executionReclaimed _ => true
  | _ => false

end Payload

/-- An event that `eventSchema` accepts. -/
abbrev Event := {payload : Payload // payload.valid = true}

end Hseos.EngineeringTask
