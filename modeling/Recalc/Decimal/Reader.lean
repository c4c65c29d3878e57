import Recalc.Decimal.Digits

/-!
# Reading decimals

A decimal numeral is an optional sign, digits with an optional point among or around them, and an
optional exponent with digits of its own. It denotes the nearest double.
-/

namespace Recalc.Decimal

/-- A numeral taken apart. -/
structure Numeral where
  negative : Bool
  coefficient : Nat
  exponent : Int
  deriving DecidableEq, Repr

/-- Take an optional sign off. -/
def takeSign : List Char → Bool × List Char
  | '-' :: rest => (true, rest)
  | '+' :: rest => (false, rest)
  | rest => (false, rest)

/-- The exponent part, which is nothing or a mark, an optional sign and at least one digit. -/
def exponentPart? : List Char → Option Int
  | [] => some 0
  | c :: rest =>
      if c = 'e' || c = 'E' then
        let (negative, digits) := takeSign rest
        if !isDigits digits then none
        else if negative then some (-(digitsValue digits : Int))
        else some (digitsValue digits)
      else none

/-- The digits after an optional point, and what follows them. -/
def fractionPart : List Char → List Char × List Char
  | '.' :: rest => (rest.takeWhile Char.isDigit, rest.dropWhile Char.isDigit)
  | rest => ([], rest)

/-- A numeral without its sign. -/
def unsigned? (s : List Char) : Option (Nat × Int) :=
  let whole := s.takeWhile Char.isDigit
  let (fraction, rest) := fractionPart (s.dropWhile Char.isDigit)
  if whole.isEmpty && fraction.isEmpty then none
  else (exponentPart? rest).map fun exponent =>
    (digitsValue (whole ++ fraction), exponent - fraction.length)

def numeral? (s : List Char) : Option Numeral :=
  let (negative, rest) := takeSign s
  (unsigned? rest).map fun parts => ⟨negative, parts.1, parts.2⟩

/-- The infinite double. -/
def infinity : Float := Float.ofBits 0x7FF0000000000000

/-- The double nearest to `coefficient · 10 ^ exponent`. Far outside the range of doubles the
number of digits decides, so no huge power is formed. -/
def nearest (coefficient : Nat) (exponent : Int) : Float :=
  let size := ((Nat.toDigits 10 coefficient).length : Int) + exponent
  if coefficient = 0 || size < -400 then 0
  else if 400 < size then infinity
  else Float.ofScientific coefficient (exponent < 0) exponent.natAbs

/-- The double that a numeral denotes. -/
def Numeral.toFloat (n : Numeral) : Float :=
  let magnitude := nearest n.coefficient n.exponent
  if n.negative then -magnitude else magnitude

/-- Read a text that is a numeral from end to end. -/
def read? (s : List Char) : Option Float := (numeral? s).map Numeral.toFloat

/-- Read a numeral that denotes a finite double. -/
def readFinite? (s : List Char) : Option Float := (read? s).filter Float.isFinite

end Recalc.Decimal
