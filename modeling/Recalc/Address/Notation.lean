import Recalc.Address
import Recalc.Address.Column
import Recalc.Decimal.Digits
import Recalc.Text.Blank

/-!
# A1 notation

An address is written as its column letters and its row counted from one. A text is read with
blanks around it dropped, with letters in either case and a `$` before the letters or the row.
-/

namespace Recalc

/-- The number of rows that a row number can name. -/
def maxRows : Nat := 1048576

namespace Address

/-- The address as letters and a row number. -/
def toA1 (a : Address) : String :=
  String.ofList (Column.letters a.col) ++ toString (a.row + 1)

instance : ToString Address := ⟨toA1⟩

/-- Drop a dollar sign. -/
def dropDollar : List Char → List Char
  | '$' :: rest => rest
  | rest => rest

/-- A row number as written: digits with an optional plus sign, below the coordinate limit. -/
def rowNumber? (s : List Char) : Option Nat :=
  let digits := match s with
    | '+' :: rest => rest
    | rest => rest
  if Decimal.isDigits digits && Decimal.digitsValue digits < coordinateLimit then
    some (Decimal.digitsValue digits)
  else none

/-- The row that `s` names, the first row being number one. -/
def readRow (text s : List Char) : Except NotationError Nat :=
  if s.isEmpty then .error (.noRow (String.ofList text))
  else match rowNumber? s with
    | none => .error (.badRow (String.ofList text))
    | some n =>
        if n = 0 || maxRows < n then .error (.rowOutOfRange (String.ofList text))
        else .ok (n - 1)

/-- Read an address on a sheet from text without blanks around it. -/
def ofA1Chars (sheet : Nat) (text : List Char) : Except NotationError Address :=
  if text.isEmpty then .error .empty
  else
    let body := dropDollar text
    let letters := body.takeWhile Char.isAlpha
    if letters.isEmpty then .error (.noColumn (String.ofList text))
    else do
      let col ← Column.ofLetters letters
      let row ← readRow text (dropDollar (body.dropWhile Char.isAlpha))
      return { sheet, col, row }

/-- Read an address on a sheet. -/
def ofA1 (sheet : Nat) (s : String) : Except NotationError Address :=
  ofA1Chars sheet (Text.trim s.toList)

end Address

end Recalc
