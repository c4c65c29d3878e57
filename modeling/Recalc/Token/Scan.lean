import Recalc.Address.Notation
import Recalc.Decimal.Reader
import Recalc.Token

/-!
# Scanning a formula

Blanks separate tokens and are dropped. Each scan takes the longest token at the front of the text;
a character that starts none is a token of its own, so scanning never fails.
-/

namespace Recalc.Token

/-- The tokens written as one character, apart from those that may go on. -/
def symbol? : Char → Option Token
  | '+' => some plus
  | '-' => some minus
  | '*' => some star
  | '/' => some slash
  | '^' => some caret
  | '%' => some percent
  | '&' => some ampersand
  | ':' => some colon
  | ',' => some comma
  | '(' => some leftParen
  | ')' => some rightParen
  | '=' => some equal
  | _ => none

/-- A text literal behind its opening quote. A doubled quote stands for one quote; the end of the
formula closes the literal too. -/
def textBody : List Char → List Char × List Char
  | '"' :: '"' :: rest => let (body, after) := textBody rest; ('"' :: body, after)
  | '"' :: rest => ([], rest)
  | c :: rest => let (body, after) := textBody rest; (c :: body, after)
  | [] => ([], [])

/-- What is left behind a text literal is the end of the text. -/
theorem textBody_suffix (s : List Char) : (textBody s).2 <:+ s := by
  fun_induction textBody s with
  | case1 rest body after hbody ih =>
      rw [hbody] at ih
      exact ih.trans ((List.suffix_cons _ _).trans (List.suffix_cons _ _))
  | case2 rest => exact List.suffix_cons _ _
  | case3 c rest _ _ body after hbody ih =>
      rw [hbody] at ih
      exact ih.trans (List.suffix_cons _ _)
  | case4 => exact List.suffix_rfl

/-- Split off the characters of an unsigned numeral: digits, a point with digits, an exponent mark
with a sign and digits. The exponent may turn out to have no digits. -/
def numeralSpan (s : List Char) : List Char × List Char :=
  let whole := s.takeWhile Char.isDigit
  let (fraction, afterFraction) := match s.dropWhile Char.isDigit with
    | '.' :: rest => ('.' :: rest.takeWhile Char.isDigit, rest.dropWhile Char.isDigit)
    | rest => ([], rest)
  let (power, after) := match afterFraction with
    | c :: rest =>
        if c = 'e' || c = 'E' then
          match rest with
          | sign :: digits =>
              if sign = '+' || sign = '-' then
                (c :: sign :: digits.takeWhile Char.isDigit, digits.dropWhile Char.isDigit)
              else (c :: rest.takeWhile Char.isDigit, rest.dropWhile Char.isDigit)
          | [] => ([c], [])
        else ([], afterFraction)
    | [] => ([], [])
  (whole ++ fraction ++ power, after)

/-- A number, or its first character alone where its exponent has no digits. -/
def ofNumeral (first : Char) (span : List Char) : Token :=
  match Decimal.read? span with
  | some x => number x
  | none => invalid first

/-- Characters of an error literal behind its hash sign. -/
def isErrorChar (c : Char) : Bool := c.isAlphanum || c = '!' || c = '/' || c = '?'

/-- A word that starts with a hash sign. -/
def ofErrorWord (word : List Char) : Token :=
  match ErrorKind.ofSpelling? (String.ofList word) with
  | some e => error e
  | none => name (String.ofList word)

/-- Characters of names, booleans and addresses. -/
def isWordChar (c : Char) : Bool := c.isAlphanum || c = '_' || c = '$' || c = '.'

/-- Whether a word is letters and a row number, each behind an optional dollar sign. -/
def isCellWord (word : List Char) : Bool :=
  let body := Address.dropDollar word
  !(body.takeWhile Char.isAlpha).isEmpty
    && Decimal.isDigits (Address.dropDollar (body.dropWhile Char.isAlpha))

/-- The token of a word, where `called` tells whether a parenthesis follows at once. -/
def ofWord (called : Bool) (word : List Char) : Token :=
  let capital := Text.capitals word
  if called then name (String.ofList word)
  else if capital = ['T', 'R', 'U', 'E'] then boolean true
  else if capital = ['F', 'A', 'L', 'S', 'E'] then boolean false
  else if isCellWord word then cell (String.ofList word)
  else name (String.ofList word)

/-- Whether a numeral starts here: a digit, or a point before a digit. -/
def startsNumeral : List Char → Bool
  | '.' :: c :: _ => c.isDigit
  | c :: _ => c.isDigit
  | [] => false

/-- The token at the front of a text that does not start with a blank. -/
def scanFrom (c : Char) (rest : List Char) : Token × List Char :=
  match symbol? c with
  | some token => (token, rest)
  | none =>
      if c = '<' then
        match rest with
        | '=' :: more => (lessEqual, more)
        | '>' :: more => (notEqual, more)
        | _ => (lessThan, rest)
      else if c = '>' then
        match rest with
        | '=' :: more => (greaterEqual, more)
        | _ => (greaterThan, rest)
      else if c = '"' then
        let (body, after) := textBody rest
        (text (String.ofList body), after)
      else if startsNumeral (c :: rest) then
        let (span, after) := numeralSpan (c :: rest)
        (ofNumeral c span, after)
      else if c = '#' then
        (ofErrorWord (c :: rest.takeWhile isErrorChar), rest.dropWhile isErrorChar)
      else if c.isAlpha || c = '_' || c = '$' then
        let after := rest.dropWhile isWordChar
        (ofWord (after.head? == some '(') (c :: rest.takeWhile isWordChar), after)
      else (invalid c, rest)

/-- The next token and the text behind it, if anything but blanks is left. -/
def scan? (s : List Char) : Option (Token × List Char) :=
  match Text.trimStart s with
  | [] => none
  | c :: rest => some (scanFrom c rest)

/-- Up to `limit` tokens of a text. -/
def scanUpTo : Nat → List Char → List Token
  | 0, _ => []
  | limit + 1, s =>
      match scan? s with
      | none => []
      | some (token, rest) => token :: scanUpTo limit rest

/-- The tokens of a text. Each has at least one character. -/
def scanAll (s : List Char) : List Token := scanUpTo s.length s

end Recalc.Token
