import Hseos.Foundation.Thrown
import Hseos.Foundation.Unique

/-! # Execution envelopes

What a governed execution returns, whether it succeeded or failed.
-/

namespace Hseos

structure EnvelopeData where
  operationId : String
  result : Json
  replayed : Bool
  deriving DecidableEq

structure EnvelopeError where
  code : String
  message : String
  operationId : Option String
  retryable : Bool
  deriving DecidableEq

structure Envelope where
  ok : Bool
  data : Option EnvelopeData
  error : Option EnvelopeError
  evidence : List String
  warnings : List String
  deriving DecidableEq

def executionEnvelope (ok : Bool) (data : Option EnvelopeData) (error : Option EnvelopeError)
    (evidence warnings : List String) : Envelope :=
  ⟨ok, data, error, unique evidence, unique warnings⟩

/-- The error that an envelope reports for a thrown value. -/
def envelopeError (error : Thrown) (operationId : Option String) : EnvelopeError where
  code := error.code.nonEmpty?.getD "EXECUTION_FAILED"
  message := error.message.nonEmpty?.getD error.shown
  operationId := operationId
  retryable := error.retryable

def failureEnvelope (error : Thrown) (operationId : Option String)
    (evidence warnings : List String) : Envelope :=
  executionEnvelope false none (some (envelopeError error operationId)) evidence warnings

/-- `new GovernedExecutionError(message, code)`. -/
def governedError (message code : String) : Thrown := .ofError "GovernedExecutionError" code message

/-- `new DispatchDeadlineError()`. -/
def dispatchDeadlineError : Thrown :=
  .ofError "GovernedExecutionError" "EXECUTION_DEADLINE_EXCEEDED"
    "Provider did not settle before the execution deadline"

end Hseos
