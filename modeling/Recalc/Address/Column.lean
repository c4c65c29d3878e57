/-!
# Column letters

Columns count `A` to `Z`, then `AA`, `AB` and so on: base twenty-six without a digit for zero.
Letters are read in either case, up to the last column that a sheet can have.
-/

namespace Recalc

/-- The number of columns that letters can name. -/
def maxColumns : Nat := 16384

/-- Why a text is not the address of a cell. -/
inductive NotationError where
  | empty
  | noColumn (text : String)
  | emptyLetters
  | badLetter (letter : Char)
  | columnOutOfRange (letters : String)
  | noRow (text : String)
  | badRow (text : String)
  | rowOutOfRange (text : String)
  deriving DecidableEq, Repr

namespace NotationError

/-- What is wrong with the text. -/
def reason : NotationError → String
  | empty => "empty address"
  | noColumn text => s!"no column letters in '{text}'"
  | emptyLetters => "empty column letters"
  | badLetter letter => s!"invalid column letter '{letter}'"
  | columnOutOfRange letters => s!"column '{letters}' out of range"
  | noRow text => s!"no row number in '{text}'"
  | badRow text => s!"invalid row number in '{text}'"
  | rowOutOfRange text => s!"row number out of range in '{text}'"

def message (e : NotationError) : String := "Invalid cell address: " ++ e.reason

end NotationError

namespace Column

/-- The letter for a digit below twenty-six. -/
def letter (digit : Nat) : Char := Char.ofNat ('A'.toNat + digit)

/-- The last `places` letters of a column. -/
def lettersWithin : Nat → Nat → List Char
  | 0, _ => []
  | places + 1, n =>
      (if n < 26 then [] else lettersWithin places (n / 26 - 1)) ++ [letter (n % 26)]

theorem lettersWithin_succ (places : Nat) {n : Nat} (h : n < places) :
    lettersWithin (places + 1) n = lettersWithin places n := by
  induction places generalizing n with
  | zero => omega
  | succ places ih =>
      by_cases hn : n < 26
      · simp [lettersWithin, hn]
      · rw [lettersWithin, if_neg hn, ih (by omega), lettersWithin, if_neg hn]

theorem lettersWithin_eq {places n : Nat} (h : n < places) :
    lettersWithin places n = lettersWithin (n + 1) n := by
  induction places with
  | zero => omega
  | succ places ih =>
      rcases Nat.lt_succ_iff_lt_or_eq.1 h with h | rfl
      · rw [lettersWithin_succ places h, ih h]
      · rfl

/-- The letters of a column, the first column being `A`. -/
def letters (n : Nat) : List Char := lettersWithin (n + 1) n

theorem letters_of_lt {n : Nat} (h : n < 26) : letters n = [letter n] := by
  simp [letters, lettersWithin, h, Nat.mod_eq_of_lt h]

theorem letters_of_le {n : Nat} (h : 26 ≤ n) :
    letters n = letters (n / 26 - 1) ++ [letter (n % 26)] := by
  have hlt : ¬ n < 26 := by omega
  rw [letters, lettersWithin, if_neg hlt, lettersWithin_eq (by omega : n / 26 - 1 < n), ← letters]

/-- The value of a letter, from one to twenty-six. -/
def digit (c : Char) : Nat := c.toUpper.toNat - 'A'.toNat + 1

/-- Read on after letters worth `value`; `word` is the whole word for the message. -/
def valueFrom (word : List Char) : Nat → List Char → Except NotationError Nat
  | value, [] => .ok value
  | value, c :: rest =>
      if !c.isAlpha then .error (.badLetter c)
      else if maxColumns < value * 26 + digit c then
        .error (.columnOutOfRange (String.ofList word))
      else valueFrom word (value * 26 + digit c) rest

/-- The column that letters name. -/
def ofLetters (word : List Char) : Except NotationError Nat :=
  if word.isEmpty then .error .emptyLetters
  else (valueFrom word 0 word).map (· - 1)

end Column

end Recalc
