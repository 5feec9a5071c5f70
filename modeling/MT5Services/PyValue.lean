import MT5Services.PyNumber

/-!
The values that services read out of dictionaries of the broker and of the signal runtime:
nothing, a number, or a text together with what `float` and `int` read off it. `x or y`,
`float(x)` and `int(x)` are as in Python; a conversion that raises gives nothing.
-/
namespace MT5Services.PyValue

inductive Value
  | missing
  | number (x : ℚ)
  | text (content : String) (asFloat : Option ℚ) (asInt : Option ℤ)
  deriving DecidableEq, Repr

namespace Value

def truthy : Value → Bool
  | .missing => false
  | .number x => x ≠ 0
  | .text content _ _ => content ≠ ""

/-- `x or y`. -/
def orElse (x y : Value) : Value := if x.truthy then x else y

/-- `float(x)`, if it does not raise. -/
def toFloat : Value → Option ℚ
  | .missing => none
  | .number x => some x
  | .text _ asFloat _ => asFloat

/-- `int(x)`, if it does not raise. -/
def toInt : Value → Option ℤ
  | .missing => none
  | .number x => some (PyNumber.toInt x)
  | .text _ _ asInt => asInt

/-- `x` as a number, where a text is none. -/
def asNumber : Value → Option ℚ
  | .number x => some x
  | _ => none

end Value

end MT5Services.PyValue
