import Hseos.Foundation.Sha256
import Hseos.Liveness.Watch

/-! # Parked reports

The lines that the stop guard parked while the ledger could not be written, and how a
cycle records them: each as of its own instant.
-/

namespace Hseos.Liveness

def ReasonCode.text : ReasonCode → String
  | .declared => "declared"
  | .noStateAtStop => "no_state_at_stop"
  | .invalidLivenessLine => "invalid_liveness_line"
  | .backgroundTaskActive => "background_task_active"
  | .foregroundCapExceeded => "foreground_cap_exceeded"
  | .waitDeadlineExceeded => "wait_deadline_exceeded"
  | .wakeExhausted => "wake_exhausted"
  | .evidenceUnverified => "evidence_unverified"
  | .blockedPending => "blocked_pending"
  | .guardInternalError => "guard_internal_error"
  | .stallNoActivity => "stall_no_activity"
  | .heartbeatLeaseExpired => "heartbeat_lease_expired"
  | .waitingOnDeclared => "waiting_on_declared"

def ReasonCode.all : List ReasonCode :=
  [.declared, .noStateAtStop, .invalidLivenessLine, .backgroundTaskActive, .foregroundCapExceeded,
    .waitDeadlineExceeded, .wakeExhausted, .evidenceUnverified, .blockedPending,
    .guardInternalError, .stallNoActivity, .heartbeatLeaseExpired, .waitingOnDeclared]

/-- `STATE_REASON_CODES`. -/
def DeclaredState.reasonCode : DeclaredState → ReasonCode
  | .done | .failed => .declared
  | .blocked => .blockedPending
  | .waitingOn => .waitingOnDeclared

/-! ## Lines -/

/-- A parked line that is a record with the texts it needs. -/
structure PendingRecord where
  session : String
  agent : String
  line : String
  /-- `Date.parse(at)`, if it is a number. -/
  parsedAt : Option Int
  reasonCode : Option String

/-- The readers of texts: the JSON of a parked line, and the schema of a LIVENESS line. -/
structure LineFormat where
  parseRecord : String → Except String PendingRecord
  parseSchema : String → Except (List String) Declaration

/-- The rules between the fields of a declaration, at an instant. -/
def declarationErrors (value : Declaration) (config : Config) (now : Int) : List String :=
  (if value.state = .waitingOn ∧ value.waitingOn = none then
    ["waiting_on is required when state is WAITING_ON"] else []) ++
  (if value.state ≠ .waitingOn ∧ value.waitingOn ≠ none then
    ["waiting_on is forbidden unless state is WAITING_ON"] else []) ++
  (if value.state = .done ∧ value.evidence = none then
    ["evidence is required when state is DONE"] else []) ++
  match value.waitingOn with
  | none => []
  | some wait =>
      if wait.deadlineMs ≤ now then ["waiting_on.deadline_at must be in the future"]
      -- Each `wake_via` is a decision of the commander or of a person.
      else if now + config.maxWaitDeadlineS * 1000 < wait.deadlineMs then
        ["waiting_on.deadline_at exceeds max_wait_deadline_s (" ++
          toString config.maxWaitDeadlineS ++ "s) from now"]
      else []

def parseLivenessLine (format : LineFormat) (line : String) (config : Config) (now : Int) :
    Except (List String) Declaration :=
  match format.parseSchema line with
  | .error errors => .error errors
  | .ok value =>
      let errors := declarationErrors value config now
      if errors = [] then .ok value else .error errors

def isWordChar (c : Char) : Bool := c.isAlphanum || c = '_'

/-- Anything else is replaced, unit by unit of the text. -/
def safeKey (value : String) : String :=
  let chars := if value = "" then "unknown".toList else value.toList
  String.ofList ((chars.flatMap fun c =>
    if isWordChar c || c = '.' || c = '-' then [c]
    else if c.toNat < 0x10000 then ['_'] else ['_', '_']).take 80)

/-- `SAFE_ID`. -/
def isSafeId (value : String) : Bool :=
  match value.toList with
  | [] => false
  | first :: rest => first.isAlphanum && rest.length ≤ 127 &&
      rest.all fun c => isWordChar c || c = '.' || c = '-'

inductive Consumed where
  | consumed
  | duplicate
  | invalid (reason : String)
  deriving DecidableEq

/-- The reason code that goes with the state, unless the line has another one. -/
def checkReasonCode (state : DeclaredState) (reasonCode : Option String) : Except String Unit :=
  let expected := state.reasonCode.text
  let code := reasonCode.getD expected
  if code ∉ ReasonCode.all.map (·.text) then .error ("unknown reason_code: " ++ code)
  else if code ≠ expected then
    .error ("reason_code " ++ code ++ " is not coherent with state " ++ state.text ++ " (expected " ++
      expected ++ ")")
  else .ok ()

/-- What a parked line declares, of which run, and as of when. -/
structure PendingReport where
  session : String
  agent : String
  value : Declaration
  time : Int

/-- The checks of a line that is not in the ledger yet. -/
def readPendingReport (format : LineFormat) (record : PendingRecord) (config : Config) (now : Int) :
    Except String PendingReport :=
  let session := safeKey record.session
  let agent := safeKey record.agent
  if !isSafeId session || !isSafeId agent then
    .error "session or agent is not a safe id"
  else
    let time := record.parsedAt.getD now
    match parseLivenessLine format record.line config time with
    | .error errors => .error (String.intercalate "; " errors)
    | .ok value =>
        match checkReasonCode value.state record.reasonCode with
        | .error message => .error message
        | .ok () => .ok ⟨session, agent, value, time⟩

def consumePendingReport (format : LineFormat) (db : Ledger) (text : String) (config : Config)
    (now : Int) : Ledger × Consumed :=
  match format.parseRecord text with
  | .error reason => (db, .invalid reason)
  | .ok record =>
      let key := sha256Hex text.toList
      if db.rows.any fun row => row.event.body.sourceKey? = some key then (db, .duplicate)
      else
        match readPendingReport format record config now with
        | .error reason => (db, .invalid reason)
        | .ok report =>
            (db.recordReport report.session report.agent report.value none (some key) report.time,
              .consumed)

end Hseos.Liveness
