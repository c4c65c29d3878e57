import Recalc.Decimal.Layout
import Recalc.Decimal.Reader
import Recalc.Double
import Recalc.ErrorKind
import Recalc.Text.Blank

/-!
# Cell values

What a cell holds, how it is shown, how typed content becomes a value and how a value becomes a
number.
-/

namespace Recalc

inductive Value where
  | empty
  | boolean (b : Bool)
  | number (x : Float)
  | text (s : String)
  | error (e : ErrorKind)
  deriving BEq, Inhabited, Repr

namespace Value

/-- Whole numbers smaller than this are shown as integers, so that zero has no sign. -/
def integerLimit : Float := 1000000000000000

/-- The text of a number. -/
def showNumber (x : Float) : String :=
  if Double.isWhole x && x.abs < integerLimit then
    toString ((Double.integerPart? x).getD 0)
  else Decimal.plain.render x

/-- The text of a value in a cell. -/
def display : Value → String
  | empty => ""
  | boolean b => if b then "TRUE" else "FALSE"
  | number x => showNumber x
  | text s => s
  | error e => e.spelling

instance : ToString Value := ⟨display⟩

def typeName : Value → String
  | empty => "empty"
  | boolean _ => "boolean"
  | number _ => "number"
  | text _ => "text"
  | error _ => "error"

def isEmpty : Value → Bool
  | empty => true
  | _ => false

def isError : Value → Bool
  | error _ => true
  | _ => false

def error? : Value → Option ErrorKind
  | error e => some e
  | _ => none

def number? : Value → Option Float
  | number x => some x
  | _ => none

def boolean? : Value → Option Bool
  | boolean b => some b
  | _ => none

def text? : Value → Option String
  | text s => some s
  | _ => none

/-- Typed content that is not a formula: nothing but blanks is empty, a finite numeral is a number,
and anything else is text as it stands. -/
def ofContent (raw : String) : Value :=
  let trimmed := Text.trim raw.toList
  if trimmed.isEmpty then empty
  else match Decimal.readFinite? trimmed with
    | some x => number x
    | none => text raw

/-- The double nearest to an integer. -/
def ofInt (n : Int) : Value := number (Float.ofInt n)

/-- A value as an operand of arithmetic. -/
def toNumber : Value → Except ErrorKind Float
  | number x => .ok x
  | boolean b => .ok (if b then 1 else 0)
  | empty => .ok 0
  | text s =>
      match Decimal.readFinite? (Text.trim s.toList) with
      | some x => .ok x
      | none => .error .badValue
  | error e => .error e

/-- An outcome as a value. -/
def ofExcept : Except ErrorKind Value → Value
  | .ok v => v
  | .error e => error e

@[simp] theorem ofExcept_ok (v : Value) : ofExcept (.ok v) = v := rfl

@[simp] theorem ofExcept_error (e : ErrorKind) : ofExcept (.error e) = error e := rfl

end Value

end Recalc
