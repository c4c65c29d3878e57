import Recalc.Decimal.Shortest

/-!
# Writing doubles

The digits of a finite double are its shortest decimal. A style decides which numbers are written
out in full, which with an exponent, and how a number without a fraction ends.
-/

namespace Recalc.Decimal

/-- The decisions that a number format leaves to its user. -/
structure Style where
  /-- Whether a number whose leading digit has this exponent is written out in full. -/
  full : Int → Bool
  /-- What follows a number that is written out in full and has no fraction. -/
  wholeEnd : String

/-- The digits of a decimal written out in full. -/
def Scaled.inFull (wholeEnd : String) (d : Scaled) : String :=
  let digits := Nat.toDigits 10 d.coefficient
  let places := (-d.exponent).toNat
  if 0 ≤ d.exponent then
    String.ofList (digits ++ List.replicate d.exponent.toNat '0') ++ wholeEnd
  else if places < digits.length then
    String.ofList (digits.take (digits.length - places) ++ '.'
      :: digits.drop (digits.length - places))
  else
    String.ofList ('0' :: '.' :: List.replicate (places - digits.length) '0' ++ digits)

/-- The exponent of the leading digit. -/
def Scaled.leading (d : Scaled) : Int :=
  d.exponent + ((Nat.toDigits 10 d.coefficient).length : Int) - 1

/-- One digit before the point, and the exponent behind an `e`. -/
def Scaled.withExponent (d : Scaled) : String :=
  let fraction := match Nat.toDigits 10 d.coefficient with
    | [] => []
    | [lead] => [lead]
    | lead :: rest => lead :: '.' :: rest
  String.ofList fraction ++ "e" ++ toString d.leading

/-- The text of a positive decimal. -/
def Style.positive (style : Style) (d : Scaled) : String :=
  if style.full d.leading then d.inFull style.wholeEnd else d.withExponent

/-- The text of a double. -/
def Style.render (style : Style) (x : Float) : String :=
  let signed (sign : Float.Model.UnpackedFloat.Sign) (text : String) : String :=
    match sign with
    | .positive => text
    | .negative => "-" ++ text
  match x.toModel.unpack with
  | .notANumber => "NaN"
  | .infinity sign => signed sign "inf"
  | .zero sign => signed sign ("0" ++ style.wholeEnd)
  | .finite sign mantissa exponent _ => signed sign (style.positive (shortest mantissa exponent))

/-- Every number in full, without a mark for whole numbers. -/
def plain : Style := ⟨fun _ => true, ""⟩

/-- Numbers from `0.0001` up to `10 ^ 16` in full, and whole ones of them with a fraction. -/
def tagged : Style := ⟨fun leading => -4 ≤ leading && leading < 16, ".0"⟩

end Recalc.Decimal
