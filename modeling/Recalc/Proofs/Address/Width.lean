import Recalc.Proofs.Address.Column

/-!
# Letters read within a width

Letters are read with each number on the way held to a limit: a product or a sum that reaches it, or
a difference below zero, leaves no answer. Words of any length are read with their answer, for the
first letter that leads behind the last column ends the reading.
-/

namespace Recalc.Column

/-- A number below the limit. -/
def below? (limit n : Nat) : Option Nat := if n < limit then some n else none

/-- A difference that is not below zero. -/
def minus? (m n : Nat) : Option Nat := if n ≤ m then some (m - n) else none

/-- `digit` within a limit. -/
def digitBelow? (limit : Nat) (c : Char) : Option Nat := do
  let place ← minus? c.toUpper.toNat 'A'.toNat
  below? limit (place + 1)

/-- `valueFrom` within a limit. -/
def valueBelow? (limit : Nat) (word : List Char) :
    Nat → List Char → Option (Except NotationError Nat)
  | value, [] => some (.ok value)
  | value, c :: rest =>
      if !c.isAlpha then some (.error (.badLetter c))
      else do
        let shifted ← below? limit (value * 26)
        let place ← digitBelow? limit c
        let next ← below? limit (shifted + place)
        if maxColumns < next then some (.error (.columnOutOfRange (String.ofList word)))
        else valueBelow? limit word next rest

/-- `ofLetters` within a limit. -/
def ofLettersBelow? (limit : Nat) (word : List Char) : Option (Except NotationError Nat) :=
  if word.isEmpty then some (.error .emptyLetters)
  else do
    match ← valueBelow? limit word 0 word with
    | .error e => some (.error e)
    | .ok value => (minus? value 1).map .ok

variable {limit value m n : Nat} {c : Char} {word rest : List Char}

theorem below?_of_lt (h : n < limit) : below? limit n = some n := if_pos h

theorem minus?_of_le (h : n ≤ m) : minus? m n = some (m - n) := if_pos h

/-- In capitals the letters stand from `A` to `Z`. -/
theorem toNat_toUpper_bounds (hc : c.isAlpha = true) :
    'A'.toNat ≤ c.toUpper.toNat ∧ c.toUpper.toNat < 'A'.toNat + 26 :=
  Text.of_ascii
    (P := fun c => c.isAlpha = true →
      'A'.toNat ≤ c.toUpper.toNat ∧ c.toUpper.toNat < 'A'.toNat + 26)
    (by decide) (Text.lt_of_isAlpha hc) hc

theorem digit_le (hc : c.isAlpha = true) : digit c ≤ 26 := by
  have hbounds := toNat_toUpper_bounds hc
  rw [digit]
  omega

theorem digitBelow?_eq (hlimit : 26 < limit) (hc : c.isAlpha = true) :
    digitBelow? limit c = some (digit c) := by
  have hdigit : digit c < limit := Nat.lt_of_le_of_lt (digit_le hc) hlimit
  rw [digitBelow?, minus?_of_le (toNat_toUpper_bounds hc).1]
  exact below?_of_lt hdigit

/-- From a column that a sheet can have, one more letter leads to no number beyond the limit. -/
theorem valueBelow?_eq (hlimit : maxColumns * 26 + 26 < limit) (hvalue : value ≤ maxColumns) :
    valueBelow? limit word value rest = some (valueFrom word value rest) := by
  induction rest generalizing value with
  | nil => rfl
  | cons c rest ih =>
      rw [valueBelow?, valueFrom]
      split
      case isTrue => rfl
      case isFalse hc =>
        have halpha : c.isAlpha = true := by simpa using hc
        have hdigit : digit c ≤ 26 := digit_le halpha
        have hshifted : below? limit (value * 26) = some (value * 26) := below?_of_lt (by omega)
        have hnext : below? limit (value * 26 + digit c) = some (value * 26 + digit c) :=
          below?_of_lt (by omega)
        rw [hshifted, Option.bind_eq_bind, Option.bind_some, digitBelow?_eq (by omega) halpha]
        simp only [Option.bind_some, hnext]
        split
        case isTrue => rfl
        -- Reading goes on only from a value that is a column's again.
        case isFalse hcolumns => exact ih (by omega)

/-- Within a limit that a single letter behind the last column does not reach, every word is read
with its answer. -/
theorem ofLettersBelow?_eq (hlimit : maxColumns * 26 + 26 < limit) (word : List Char) :
    ofLettersBelow? limit word = some (ofLetters word) := by
  cases word with
  | nil => rfl
  | cons c rest =>
      rw [ofLettersBelow?, ofLetters, if_neg (by simp), if_neg (by simp),
        valueBelow?_eq hlimit (Nat.zero_le _)]
      cases h : valueFrom (c :: rest) 0 (c :: rest) with
      | error e => rfl
      | ok value =>
          have hpos : 1 ≤ value := by
            rw [← ((valueFrom_eq_ok_iff (Nat.zero_le _)).1 h).2.1]
            exact worth_cons_pos 0 c rest
          simp only [Option.bind_eq_bind, Option.bind_some, minus?_of_le hpos]
          rfl

end Recalc.Column
