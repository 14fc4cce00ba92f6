import Hseos.Contracts.Common
import Hseos.Foundation.Run
import Hseos.Ledger.Event
import Hseos.Session.History

/-! # Trace lineage

The identifiers under which the events of a session and of its children are
correlated, and the failures of the session store.
-/

namespace Hseos.SessionStore

/-- What a call of the session store throws. -/
inductive Failure where
  /-- `SessionEventStoreError`. -/
  | store (message code : String)
  /-- `AgentTraceLineageError`. -/
  | trace (message : String)
  /-- `AgentContractError` for a value with this label. -/
  | contract (label : String)
  | replay (failure : ReplayFailure)
  | ledger (error : LedgerError)
  /-- The database refused the transaction. -/
  | database
  | typeError
  deriving DecidableEq

def storeError (message : String) : Failure := .store message "AGENT_SESSION_STORE_INVALID"

def causationError (message : String) : Failure :=
  .store message "AGENT_SESSION_CAUSATION_FRAGMENTED"

def fragmented (message : String) : Failure := .store message "AGENT_SESSION_TRACE_FRAGMENTED"

/-- A text of at most 1024 bytes without spaces and control characters. -/
def isIdentity (value : String) : Bool :=
  value ≠ "" && boundedString 1024 value &&
    (chars value).all fun character => 32 < character.toNat && character.toNat ≠ 127

def boundedIdentity (value label : String) : Except Failure String :=
  if isIdentity value then .ok value else .error (.trace (label ++ " is invalid"))

/-- The first digits of the SHA-256 of `hseos-<kind>` and the identity. -/
def traceDigest (kind value : String) (length : Nat) : String :=
  String.ofList
    ((Sha256.hexDigest (utf8 (chars ("hseos-" ++ kind ++ "\x00") ++ chars value))).take length)

/-- So many lowercase hexadecimal digits, not all of them zero. -/
def isTraceId (length : Nat) (value : String) : Bool :=
  (chars value).length = length && (chars value).all Sha256.isHexChar &&
    (chars value).any (· ≠ '0')

/-- `canonicalTraceId`. -/
def canonicalTraceId (seed : String) : Except Failure String := do
  let value ← boundedIdentity seed "trace seed"
  return if isTraceId 32 value then value else traceDigest "trace" value 32

/-- `canonicalSpanId`. -/
def canonicalSpanId (identity : String) : Except Failure String := do
  let value ← boundedIdentity identity "span identity"
  return if isTraceId 16 value then value else traceDigest "span" value 16

structure TraceContext where
  traceId : String
  spanId : String
  traceparent : String
  deriving DecidableEq

def createTraceContext (traceSeed spanIdentity : String) : Except Failure TraceContext := do
  let traceId ← canonicalTraceId traceSeed
  let spanId ← canonicalSpanId spanIdentity
  return { traceId, spanId, traceparent := "00-" ++ traceId ++ "-" ++ spanId ++ "-01" }

example : canonicalTraceId "session-1" = .ok (traceDigest "trace" "session-1" 32) := by
  decide +kernel

end Hseos.SessionStore
