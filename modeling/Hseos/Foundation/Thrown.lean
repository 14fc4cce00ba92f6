import Hseos.Foundation.JsObject
import Hseos.Foundation.Json

/-! # Thrown values

A program may throw any value. What handlers read of it are a few fields, each a
string or something else of which only the truth and the conversion to a string
are known.
-/

namespace Hseos

inductive ErrorField where
  | text (value : String)
  | other (truthy : Bool) (shown : String)
  deriving DecidableEq

namespace ErrorField

/-- The field of a value that has no such field. -/
def undefined : ErrorField := .other false "undefined"

def truthy : ErrorField → Bool
  | .text value => value ≠ ""
  | .other truthy _ => truthy

/-- `String(value)`. -/
def shown : ErrorField → String
  | .text value => value
  | .other _ shown => shown

/-- The field as a string with at least one character. -/
def nonEmpty? : ErrorField → Option String
  | .text value => if value = "" then none else some value
  | .other .. => none

end ErrorField

/-- A thrown value. -/
structure Thrown where
  code : ErrorField
  message : ErrorField
  /-- `String(error)`, or `Execution failed` for `null` and `undefined`. -/
  shown : String
  retryable : Bool
  outcome : ErrorField
  receiptRef : Option ErrorField
  deriving DecidableEq

/-- An `Error` of a class with a name, as its constructor leaves it. -/
def Thrown.ofError (name code message : String) : Thrown where
  code := .text code
  message := .text message
  shown := if message = "" then name else name ++ ": " ++ message
  retryable := false
  outcome := .undefined
  receiptRef := none

/-! ## Conversion to strings -/

namespace Json

mutual

/-- `String(value)`. -/
def asString : Json → String
  | .null => "null"
  | .bool value => if value then "true" else "false"
  | .num (.finite text) => text.val
  | .num (.infinite negative) => if negative then "-Infinity" else "Infinity"
  | .str value => value
  | .arr items => ",".intercalate (itemsAsString items)
  | .obj _ => "[object Object]"

/-- The items as `Array.prototype.join` shows them. -/
def itemsAsString : List Json → List String
  | [] => []
  | item :: rest => (if item = .null then "" else asString item) :: itemsAsString rest

end

end Json

end Hseos
