import Recalc.Function

/-!
# Bits and binary numerals

Bitwise functions take whole numbers below `2 ^ 48`. A binary numeral has up to ten digits; one of
ten digits that starts with a one is negative, in two's complement.
-/

namespace Recalc.Function

/-- A whole number from zero up to `2 ^ 48`. -/
def bitOperand (x : Float) : Except ErrorKind Nat :=
  match Double.toNat? x with
  | some n => if n < Nat.pow 2 48 then .ok n else .error .badNumber
  | none => .error .badNumber

/-- A function of the bits of two operands, the left one checked first. -/
def bitwise (f : Nat → Nat → Nat) (call : Call) : Eval Value :=
  Eval.settle do
    checkArity call.arguments.length 2 2
    match call.arguments with
    | [a, b] =>
        let x ← bitOperand (← Attempt.number a.value)
        let y ← bitOperand (← Attempt.number b.value)
        return .number (Double.ofNat (f x y))
    | _ => throw .notAvailable

/-- The number of digits of the longest binary numerals. -/
def binaryPlaces : Nat := 10

/-- The value of binary digits. -/
def binaryValue (digits : List Char) : Nat :=
  digits.foldl (fun value c => value * 2 + (if c = '1' then 1 else 0)) 0

/-- The binary digits of a number, without leading zeros. -/
def binaryDigits (n : Nat) : List Char := Nat.toDigits 2 n

/-- The integer written by a binary numeral. -/
def ofBinary (digits : List Char) : Except ErrorKind Int :=
  if digits.isEmpty || binaryPlaces < digits.length
      || !digits.all (fun c => c = '0' || c = '1') then .error .badNumber
  else if digits.length = binaryPlaces && digits.head? = some '1' then
    .ok ((binaryValue digits : Int) - Int.pow 2 binaryPlaces)
  else .ok (binaryValue digits)

/-- The numeral that a value stands for: the decimal digits of a whole number, or a text. -/
def binaryText : Value → Except ErrorKind (List Char)
  | .number x =>
      match Double.toNat? x with
      | some n => .ok (Nat.toDigits 10 n)
      | none => .error .badNumber
  | .text s => .ok (Text.trim s.toList)
  | .empty => .ok ['0']
  | .boolean _ => .error .badValue
  | .error e => .error e

def binaryToDecimal (call : Call) : Eval Value :=
  Eval.settle do
    checkArity call.arguments.length 1 1
    match call.arguments with
    | [a] =>
        let n ← ofBinary (← binaryText (← Attempt.scalar a.value))
        return Value.ofInt n
    | _ => throw .notAvailable

/-- A number without its fraction, from `-512` up to `511`. -/
def toBinaryOperand (x : Float) : Except ErrorKind Int :=
  match Double.integerPart? x with
  | some n => if -512 ≤ n && n < 512 then .ok n else .error .badNumber
  | none => if x.isNaN then .ok 0 else .error .badNumber

/-- Zeros before digits, up to the number of places asked for. -/
def padded (digits : List Char) (x : Float) : Except ErrorKind (List Char) :=
  match Double.integerPart? x with
  | some places =>
      if places < 1 || (binaryPlaces : Int) < places || places < digits.length then
        .error .badNumber
      else .ok (List.replicate (places.toNat - digits.length) '0' ++ digits)
  | none => .error .badNumber

/-- Negative numbers always have ten digits; others have as many as asked for. -/
def decimalToBinary (call : Call) : Eval Value :=
  Eval.settle do
    checkArity call.arguments.length 1 2
    match call.arguments with
    | [] => throw .notAvailable
    | a :: more =>
        let n ← toBinaryOperand (← Attempt.number a.value)
        if n < 0 then
          return .text (String.ofList (binaryDigits (n + Int.pow 2 binaryPlaces).toNat))
        let digits := binaryDigits n.toNat
        match more with
        | [] => return .text (String.ofList digits)
        | places :: _ =>
            return .text (String.ofList (← padded digits (← Attempt.number places.value)))

def binary : List Function := [
  ⟨"BITAND", "BITAND", false, bitwise Nat.land⟩,
  ⟨"BITOR", "BITOR", false, bitwise Nat.lor⟩,
  ⟨"BITXOR", "BITXOR", false, bitwise Nat.xor⟩,
  ⟨"BIN2DEC", "BIN2DEC", false, binaryToDecimal⟩,
  ⟨"DEC2BIN", "DEC2BIN", false, decimalToBinary⟩]

end Recalc.Function
