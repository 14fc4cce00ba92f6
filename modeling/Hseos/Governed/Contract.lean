import Hseos.Governed.Envelope
import Mathlib.Data.List.Basic

/-! # Tool contracts

The contracts that governed tools are registered with, and the checks their
schemas make of inputs and outputs. A schema is code of its author: what its
`safeParse` makes of a value is a function of the contract.
-/

namespace Hseos

inductive Reversibility where
  | readOnly
  | idempotentMutation
  | compensatableMutation
  | irreversibleMutation
  deriving DecidableEq

def Reversibility.text : Reversibility → String
  | .readOnly => "read_only"
  | .idempotentMutation => "idempotent_mutation"
  | .compensatableMutation => "compensatable_mutation"
  | .irreversibleMutation => "irreversible_mutation"

inductive CancellationPolicy where
  | cooperative
  | nonCancellable
  deriving DecidableEq

def CancellationPolicy.text : CancellationPolicy → String
  | .cooperative => "cooperative"
  | .nonCancellable => "non_cancellable"

inductive FailureMode where
  | failClosed
  | optionalWarning
  deriving DecidableEq

def FailureMode.text : FailureMode → String
  | .failClosed => "fail_closed"
  | .optionalWarning => "optional_warning"

/-! ## Schemas -/

/-- What `safeParse` answers: it throws, or it rejects the value with a code and a
cause of its own, or it accepts it. -/
inductive Parsed where
  | threw
  | rejected (code cause : Option String)
  | accepted (data : Json)

structure ExecutionSchema where
  version : Nat
  safeParse : Option Json → Parsed

/-- A code that a schema may classify its rejection with. -/
def isSpecificCode (code : String) : Bool :=
  match chars code with
  | [] => false
  | c :: rest => c.isUpper && 2 ≤ rest.length && rest.length ≤ 63 &&
      rest.all fun d => d.isUpper || d.isDigit || d = '_'

/-- A cause that a schema may state. -/
def isStatedCause (cause : String) : Bool :=
  match chars cause with
  | [] => false
  | c :: rest => c.isAlpha && rest.length ≤ 159 &&
      rest.all fun d => d.isAlphanum || d ∈ [' ', '.', '_', ',', '/', '-']

/-- Which of its two schemas a contract applies. -/
inductive SchemaPhase where
  | input
  | output
  deriving DecidableEq

namespace SchemaPhase

def text : SchemaPhase → String
  | .input => "input"
  | .output => "output"

def invalidCode : SchemaPhase → String
  | .input => "EXECUTION_INPUT_INVALID"
  | .output => "EXECUTION_OUTPUT_INVALID"

end SchemaPhase

def contractError (message code : String) : Thrown := .ofError "ExecutionContractError" code message

/-- The error for a value that a schema rejects. -/
def schemaRejection (schema : ExecutionSchema) (phase : SchemaPhase) (code cause : Option String) :
    Thrown :=
  let specific := code.filter isSpecificCode
  let stated := match cause.filter isStatedCause with
    | some cause => ": " ++ cause
    | none => ""
  contractError
    (phase.text ++ " does not match schema v" ++ toString schema.version ++ stated)
    (specific.getD phase.invalidCode)

def parseSchema (schema : ExecutionSchema) (value : Option Json) (phase : SchemaPhase) :
    Except Thrown Json :=
  match schema.safeParse value with
  | .threw => .error (contractError (phase.text ++ " schema evaluation failed")
      "EXECUTION_SCHEMA_EVALUATION_FAILED")
  | .rejected code cause => .error (schemaRejection schema phase code cause)
  | .accepted data => .ok data

/-! ## Contracts -/

structure ExecutionContract where
  name : String
  capability : String
  provider : String
  authority : String
  policyVersion : String
  reversibility : Reversibility
  cancellationPolicy : CancellationPolicy
  failureMode : FailureMode
  timeoutMs : Nat
  requiresApproval : Bool
  providerAcceptsIdempotency : Bool
  inputSchema : ExecutionSchema
  outputSchema : ExecutionSchema

namespace ExecutionContract

/-- What `register` checks of a contract. -/
def valid (contract : ExecutionContract) : Bool :=
  contract.name ≠ "" && contract.capability ≠ "" && contract.provider ≠ "" &&
    contract.authority ≠ "" && contract.policyVersion ≠ "" && 1 ≤ contract.timeoutMs &&
    contract.timeoutMs ≤ 3600000 && 1 ≤ contract.inputSchema.version &&
    1 ≤ contract.outputSchema.version

def validateInput (contract : ExecutionContract) (input : Option Json) : Except Thrown Json :=
  parseSchema contract.inputSchema input .input

def validateOutput (contract : ExecutionContract) (output : Option Json) : Except Thrown Json :=
  parseSchema contract.outputSchema output .output

/-- The approval a contract asks for whatever the policy says. -/
def needsApproval (contract : ExecutionContract) : Bool :=
  contract.requiresApproval || contract.reversibility = .irreversibleMutation ||
    (contract.reversibility ≠ .readOnly && !contract.providerAcceptsIdempotency)

end ExecutionContract

/-- `ExecutionContractRegistry`, once it is sealed. -/
structure ContractRegistry where
  contracts : List ExecutionContract
  valid : ∀ contract ∈ contracts, contract.valid = true
  distinct : (contracts.map (·.name)).Nodup

namespace ContractRegistry

def resolve (registry : ContractRegistry) (name : Option Json) : Except Thrown ExecutionContract :=
  match registry.contracts.find? fun contract => name = some (.str contract.name) with
  | some contract => .ok contract
  | none => .error (contractError
      ("Unknown governed tool: " ++ (name.map Json.asString).getD "undefined")
      "EXECUTION_TOOL_NOT_FOUND")

theorem mem_of_resolve_eq_ok {registry : ContractRegistry} {name : Option Json}
    {contract : ExecutionContract} (h : registry.resolve name = .ok contract) :
    contract ∈ registry.contracts ∧ name = some (.str contract.name) := by
  unfold resolve at h
  split at h
  next found hfound =>
    obtain rfl := Except.ok.inj h
    exact ⟨List.mem_of_find?_eq_some hfound, by simpa using List.find?_some hfound⟩
  next => cases h

end ContractRegistry

end Hseos
