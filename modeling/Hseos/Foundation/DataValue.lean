import Mathlib.Data.Prod.Lex
import Mathlib.Order.Defs.LinearOrder
import Mathlib.Algebra.Ring.Nat
import Mathlib.Algebra.Ring.Int.Defs

/-! # Data values

The values that a caller hands over as data: no functions, and an absent property reads
as `undefined`. A finite number is a multiple of `2 ^ -1074`, the least positive double,
so that numbers compare as integers do.
-/

namespace Hseos

/-! ## Numbers -/

/-- The multiples of `2 ^ -1074` that a double can be: 53 significant bits, no overflow. -/
def isDoubleUnits (units : Nat) : Bool :=
  units.log2 < 2098 && units % 2 ^ (units.log2 - 52) = 0

/-- The magnitude of a finite double, in units of `2 ^ -1074`. -/
abbrev DoubleUnits := {units : Nat // isDoubleUnits units = true}

inductive JsDouble where
  | nan
  | infinity (negative : Bool)
  | finite (negative : Bool) (units : DoubleUnits)
  deriving DecidableEq

namespace JsDouble

/-- `Number.isFinite(value)`. -/
def isFinite : JsDouble → Bool
  | .finite .. => true
  | .nan | .infinity _ => false

/-- `value < 0`. Negative zero is not. -/
def isNegative : JsDouble → Bool
  | .finite negative units => negative && units.val ≠ 0
  | .infinity negative => negative
  | .nan => false

/-- The place of a number among the others. Negative zero comes right before zero, as
`Math.min` orders them, and `NaN` before all: a minimum with it is `NaN`. -/
def place : JsDouble → ℕ ×ₗ ℤ
  | .nan => toLex (0, 0)
  | .infinity true => toLex (1, 0)
  | .finite true units => toLex (2, -(units.val : ℤ) - 1)
  | .finite false units => toLex (2, units.val)
  | .infinity false => toLex (3, 0)

theorem place_injective : Function.Injective place := by
  intro a b h
  rcases a with - | ⟨- | -⟩ | ⟨- | -, units⟩ <;> rcases b with - | ⟨- | -⟩ | ⟨- | -, others⟩ <;>
    simp only [place, EmbeddingLike.apply_eq_iff_eq, Prod.mk.injEq] at h
  all_goals first | rfl | omega | exact congrArg _ (Subtype.ext (by omega))

/-- `Math.min` of two numbers. -/
def min (a b : JsDouble) : JsDouble := if a.place ≤ b.place then a else b

/-- `Math.min(...values)`. -/
def minimum (values : List JsDouble) : JsDouble := values.foldr min (.infinity false)

end JsDouble

/-! ## Values -/

inductive DataValue where
  | undefined
  | null
  | bool (value : Bool)
  | num (value : JsDouble)
  | str (value : String)
  | arr (items : List DataValue)
  | obj (members : List (String × DataValue))

namespace DataValue

/-- `value[name]` of an object, for a name that objects do not inherit. -/
def field (value : DataValue) (name : String) : DataValue :=
  match value with
  | .obj members => ((members.find? fun m => m.1 = name).map Prod.snd).getD .undefined
  | _ => .undefined

/-- `value && typeof value === 'object' && !Array.isArray(value)`. -/
def isRecord : DataValue → Bool
  | .obj _ => true
  | _ => false

def truthy : DataValue → Bool
  | .undefined | .null => false
  | .bool value => value
  | .num (.finite _ units) => units.val ≠ 0
  | .num (.infinity _) => true
  | .num .nan => false
  | .str value => value ≠ ""
  | .arr _ | .obj _ => true

/-- The string that a value is. -/
def string? : DataValue → Option String
  | .str value => some value
  | _ => none

end DataValue

end Hseos
