import Recalc.Decimal.Layout
import Recalc.ErrorKind
import Recalc.Text.Quoted

/-!
# Formula tokens

The words of a formula and how messages show them. The end of a formula is the end of its list of
tokens.
-/

namespace Recalc

inductive Token where
  | number (x : Float)
  | text (s : String)
  | boolean (b : Bool)
  | error (e : ErrorKind)
  /-- A word that is neither a boolean nor a cell. -/
  | name (s : String)
  /-- The address of a cell as written. -/
  | cell (s : String)
  | plus
  | minus
  | star
  | slash
  | caret
  | percent
  | ampersand
  | equal
  | notEqual
  | lessThan
  | lessEqual
  | greaterThan
  | greaterEqual
  | colon
  | comma
  | leftParen
  | rightParen
  /-- A character that starts no token. -/
  | invalid (c : Char)
  deriving DecidableEq

namespace Token

/-- The word for an error literal in messages. -/
def errorTag : ErrorKind → String
  | .cycle => "Cycle"
  | .divideByZero => "DivByZero"
  | .unreadable => "Error"
  | .notAvailable => "Na"
  | .unknownName => "Name"
  | .badNumber => "Num"
  | .badReference => "Ref"
  | .badValue => "Value"

/-- A token as messages show it. -/
def describe : Token → String
  | number x => s!"Number({Decimal.tagged.render x})"
  | text s => s!"String({Text.quoted s})"
  | boolean b => s!"Boolean({b})"
  | error e => s!"Error({errorTag e})"
  | name s => s!"Identifier({Text.quoted s})"
  | cell s => s!"CellRef({Text.quoted s})"
  | plus => "Plus"
  | minus => "Minus"
  | star => "Star"
  | slash => "Slash"
  | caret => "Caret"
  | percent => "Percent"
  | ampersand => "Ampersand"
  | equal => "Equal"
  | notEqual => "NotEqual"
  | lessThan => "LessThan"
  | lessEqual => "LessEqual"
  | greaterThan => "GreaterThan"
  | greaterEqual => "GreaterEqual"
  | colon => "Colon"
  | comma => "Comma"
  | leftParen => "LeftParen"
  | rightParen => "RightParen"
  | invalid c => s!"Invalid({Text.quotedChar c})"

/-- The next token, or the end of the formula, as messages show it. -/
def describeNext : Option Token → String
  | some token => token.describe
  | none => "Eof"

end Token

end Recalc
