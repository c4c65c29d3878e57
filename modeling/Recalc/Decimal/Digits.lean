/-!
# Decimal digits
-/

namespace Recalc.Decimal

/-- The value of a run of decimal digits. -/
def digitsValue (digits : List Char) : Nat :=
  digits.foldl (fun value c => value * 10 + (c.toNat - '0'.toNat)) 0

@[simp] theorem digitsValue_nil : digitsValue [] = 0 := rfl

@[simp] theorem digitsValue_append_singleton (digits : List Char) (c : Char) :
    digitsValue (digits ++ [c]) = digitsValue digits * 10 + (c.toNat - '0'.toNat) := by
  simp [digitsValue]

/-- Whether a text consists of at least one decimal digit and nothing else. -/
def isDigits (s : List Char) : Bool := !s.isEmpty && s.all Char.isDigit

theorem isDigits_iff {s : List Char} :
    isDigits s = true ↔ s ≠ [] ∧ ∀ c ∈ s, c.isDigit = true := by
  simp [isDigits]

end Recalc.Decimal
