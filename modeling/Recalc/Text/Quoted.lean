import Recalc.Text.PrintTable

/-!
# Quoted text in messages

A quoted text or character shows what cannot be printed by number, and escapes the mark that
closes the quotation.
-/

namespace Recalc.Text

/-- Whether a character stands for itself inside quotation marks. -/
def isPrintable (c : Char) : Bool := !inRanges unprintableRanges c

/-- A code point in small hexadecimal digits without leading zeros. -/
def hexDigits (code : Nat) : List Char := Nat.toDigits 16 code

/-- One character between two marks `mark`. -/
def escaped (mark : Char) (c : Char) : List Char :=
  if c = Char.ofNat 0 then ['\\', '0']
  else if c = '\t' then ['\\', 't']
  else if c = '\r' then ['\\', 'r']
  else if c = '\n' then ['\\', 'n']
  else if c = '\\' || c = mark then ['\\', c]
  else if isPrintable c then [c]
  else ['\\', 'u', '\x7b'] ++ hexDigits c.toNat ++ ['\x7d']

/-- Text in double quotation marks. -/
def quoted (s : String) : String :=
  String.ofList ('"' :: s.toList.flatMap (escaped '"') ++ ['"'])

/-- A character in single quotation marks. -/
def quotedChar (c : Char) : String :=
  String.ofList ('\'' :: escaped '\'' c ++ ['\''])

end Recalc.Text
