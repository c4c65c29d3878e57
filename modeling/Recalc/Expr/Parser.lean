import Recalc.Expr
import Recalc.Token.Scan

/-!
# Parsing formulas

From loosest to tightest: comparisons, joining of texts, sums, products, powers, signs, percent
marks, ranges. Powers group to the right, the other binary operators to the left. A leading plus
sign leaves no trace. Both ends of a range are single cells.
-/

namespace Recalc

/-- Why a text is not a formula. -/
inductive ParseError where
  | noEqualsSign
  | unexpected (next : Option Token)
  | unknownName (name : String)
  | expected (token : Token) (next : Option Token)
  | leftOver (next : Option Token)
  | rangeEnds
  | badReference (text : String) (cause : NotationError)
  deriving DecidableEq

namespace ParseError

def message : ParseError → String
  | noEqualsSign => "Parse error: Formula must start with '='"
  | unexpected next => s!"Parse error: Unexpected token: {Token.describeNext next}"
  | unknownName name => s!"Parse error: Unknown name: {name}"
  | expected token next =>
      s!"Parse error: Expected {token.describe}, got {Token.describeNext next}"
  | leftOver next => s!"Parse error: Unexpected {Token.describeNext next} after expression"
  | rangeEnds => "Parse error: Range operator requires two cell references"
  | badReference text cause => s!"Invalid reference: '{text}': {cause.message}"

end ParseError

namespace Token

def comparison? : Token → Option BinaryOp
  | equal => some .equal
  | notEqual => some .notEqual
  | lessThan => some .lessThan
  | lessEqual => some .lessEqual
  | greaterThan => some .greaterThan
  | greaterEqual => some .greaterEqual
  | _ => none

def joining? : Token → Option BinaryOp
  | ampersand => some .concat
  | _ => none

def additive? : Token → Option BinaryOp
  | plus => some .add
  | minus => some .subtract
  | _ => none

def multiplicative? : Token → Option BinaryOp
  | star => some .multiply
  | slash => some .divide
  | _ => none

end Token

/-- Reads an expression off the front of a list of tokens. -/
abbrev Parser := List Token → Except ParseError (Expr × List Token)

namespace Parser

/-- Go on with up to `limit` operators of one level, grouping to the left. -/
def chainFrom (operator? : Token → Option BinaryOp) (operand : Parser) :
    Nat → Expr → Parser
  | 0, left, tokens => .ok (left, tokens)
  | _ + 1, left, [] => .ok (left, [])
  | limit + 1, left, token :: rest =>
      match operator? token with
      | none => .ok (left, token :: rest)
      | some op => do
          let (right, rest) ← operand rest
          chainFrom operator? operand limit (.binary op left right) rest

/-- Operands joined by the operators of one level. -/
def chain (operator? : Token → Option BinaryOp) (limit : Nat) (operand : Parser) : Parser :=
  fun tokens => do
    let (left, rest) ← operand tokens
    chainFrom operator? operand limit left rest

/-- Operands joined by power signs, grouping to the right. -/
def powers (operand : Parser) : Nat → Parser
  | 0, tokens => operand tokens
  | limit + 1, tokens => do
      let (left, rest) ← operand tokens
      match rest with
      | .caret :: rest =>
          let (right, rest) ← powers operand limit rest
          return (.binary .power left right, rest)
      | _ => return (left, rest)

/-- Percent marks behind an operand. -/
def percents : Expr → List Token → Expr × List Token
  | x, .percent :: rest => percents (.unary .percent x) rest
  | x, tokens => (x, tokens)

/-- Signs before an operand, and percent marks behind it. -/
def signed (operand : Parser) : Parser
  | .minus :: rest => do
      let (x, rest) ← signed operand rest
      return (.unary .negate x, rest)
  | .plus :: rest => signed operand rest
  | tokens => do
      let (x, rest) ← operand tokens
      return percents x rest

/-- One operand, or two cells with a colon between them. -/
def ranged (operand : Parser) : Parser := fun tokens => do
  let (first, rest) ← operand tokens
  match rest with
  | .colon :: rest =>
      let (second, rest) ← operand rest
      match first, second with
      | .cell a, .cell b => return (.range ⟨a, b⟩, rest)
      | _, _ => throw .rangeEnds
  | _ => return (first, rest)

/-- Take a token that has to come next. -/
def expect (token : Token) : List Token → Except ParseError (List Token)
  | [] => .error (.expected token none)
  | next :: rest => if next = token then .ok rest else .error (.expected token (some next))

/-- Further arguments of a call, each behind a comma. -/
def argumentsFrom (nested : Parser) : Nat → List Token → Except ParseError (List Expr × List Token)
  | 0, tokens => .ok ([], tokens)
  | limit + 1, .comma :: rest => do
      let (x, rest) ← nested rest
      let (xs, rest) ← argumentsFrom nested limit rest
      return (x :: xs, rest)
  | _ + 1, tokens => .ok ([], tokens)

/-- The arguments of a call, without the parenthesis that ends them. -/
def arguments (limit : Nat) (nested : Parser) :
    List Token → Except ParseError (List Expr × List Token)
  | .rightParen :: rest => .ok ([], .rightParen :: rest)
  | tokens => do
      let (x, rest) ← nested tokens
      let (xs, rest) ← argumentsFrom nested limit rest
      return (x :: xs, rest)

/-- Literals, references, calls and parentheses around a nested expression. -/
def primary (home : Address) (limit : Nat) (nested : Parser) : Parser
  | .number x :: rest => .ok (.number x, rest)
  | .text s :: rest => .ok (.text s, rest)
  | .boolean b :: rest => .ok (.boolean b, rest)
  | .error e :: rest => .ok (.error e, rest)
  | .cell s :: rest =>
      match Address.ofA1 home.sheet s with
      | .ok target => .ok (.cell (Reference.between home target), rest)
      | .error cause => .error (.badReference s cause)
  | .leftParen :: rest => do
      let (x, rest) ← nested rest
      let rest ← expect .rightParen rest
      return (.paren x, rest)
  | .name s :: .leftParen :: rest => do
      let (xs, rest) ← arguments limit nested rest
      let rest ← expect .rightParen rest
      return (.call (Text.toCapitals s) xs, rest)
  | .name s :: _ => .error (.unknownName s)
  | tokens => .error (.unexpected tokens.head?)

/-- All levels of operators over one kind of operand. -/
def operators (limit : Nat) (operand : Parser) : Parser :=
  chain Token.comparison? limit <|
    chain Token.joining? limit <|
      chain Token.additive? limit <|
        chain Token.multiplicative? limit <|
          powers (signed (ranged operand)) limit

/-- An expression with parentheses and calls nested less than `depth` deep. -/
def expression (home : Address) (limit : Nat) : Nat → Parser
  | 0, tokens => .error (.unexpected tokens.head?)
  | depth + 1, tokens =>
      operators limit (primary home limit (expression home limit depth)) tokens

end Parser

namespace Expr

/-- Read all of a list of tokens as an expression at `home`. No loop of the parser takes more steps
than there are tokens. -/
def ofTokens (home : Address) (tokens : List Token) : Except ParseError Expr := do
  let (x, rest) ← Parser.expression home tokens.length (tokens.length + 1) tokens
  if rest.isEmpty then return x else throw (.leftOver rest.head?)

/-- Whether typed content is a formula. -/
def isFormula (content : String) : Bool := content.toList.head? == some '='

/-- Read a formula, which may have blanks around it, at `home`. -/
def ofFormula (home : Address) (formula : String) : Except ParseError Expr :=
  match Text.trim formula.toList with
  | '=' :: rest => ofTokens home (Token.scanAll rest)
  | _ => .error .noEqualsSign

end Expr

end Recalc
