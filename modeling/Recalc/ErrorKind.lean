import Recalc.Text.Case

/-!
# Error values

The kinds of error that a cell can show, with their spelling in the sheet and their names.
-/

namespace Recalc

inductive ErrorKind where
  | cycle
  | divideByZero
  | unreadable
  | notAvailable
  | unknownName
  | badNumber
  | badReference
  | badValue
  deriving DecidableEq, Repr

namespace ErrorKind

/-- Every kind, by name. -/
def all : List ErrorKind :=
  [cycle, divideByZero, unreadable, notAvailable, unknownName, badNumber, badReference, badValue]

theorem mem_all (e : ErrorKind) : e ∈ all := by cases e <;> decide

/-- The spelling in a sheet. -/
def spelling : ErrorKind → String
  | cycle => "#CYCLE!"
  | divideByZero => "#DIV/0!"
  | unreadable => "#ERROR!"
  | notAvailable => "#N/A"
  | unknownName => "#NAME?"
  | badNumber => "#NUM!"
  | badReference => "#REF!"
  | badValue => "#VALUE!"

/-- The name that does not depend on a language. -/
def name : ErrorKind → String
  | cycle => "CYCLE"
  | divideByZero => "DIV_BY_ZERO"
  | unreadable => "ERROR"
  | notAvailable => "NA"
  | unknownName => "NAME"
  | badNumber => "NUM"
  | badReference => "REF"
  | badValue => "VALUE"

/-- The kind spelled by a text in capital or small letters. -/
def ofSpelling? (s : String) : Option ErrorKind :=
  let capital := Text.toCapitals s
  all.find? fun e => e.spelling == capital

def ofName? (s : String) : Option ErrorKind := all.find? fun e => e.name == s

end ErrorKind

end Recalc
