import Recalc.Text.CodeRange

/-!
# Blank characters

The characters with the white space property, and cutting them from the two ends of a text.
-/

namespace Recalc.Text

/-- The ranges of characters with the white space property. -/
def blankRanges : List (Nat × Nat) := [
  (0x9, 0xD), (0x20, 0x20), (0x85, 0x85), (0xA0, 0xA0), (0x1680, 0x1680), (0x2000, 0x200A),
  (0x2028, 0x2029), (0x202F, 0x202F), (0x205F, 0x205F), (0x3000, 0x3000)]

def isBlank (c : Char) : Bool := inRanges blankRanges c

/-- Drop the blanks at the start. -/
def trimStart (s : List Char) : List Char := s.dropWhile isBlank

/-- Drop the blanks at the end. -/
def trimEnd (s : List Char) : List Char := (s.reverse.dropWhile isBlank).reverse

/-- Drop the blanks at both ends. -/
def trim (s : List Char) : List Char := trimEnd (trimStart s)

@[simp] theorem trim_nil : trim [] = [] := rfl

/-- Drop the blanks at both ends of a string. -/
def trimmed (s : String) : String := String.ofList (trim s.toList)

@[simp] theorem toList_trimmed (s : String) : (trimmed s).toList = trim s.toList := by
  simp [trimmed]

end Recalc.Text
