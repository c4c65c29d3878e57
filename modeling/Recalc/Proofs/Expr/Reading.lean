import Recalc.Expr.Parser
import Recalc.Proofs.Token.Walk

/-!
# Reading a formula token by token

A reader knows the next token of a text and the position behind it; it scans again when that token
is taken. Loops go round and expressions are nested as often as the tokens ask for: a limit only
tells how often this is followed up, and reading comes to nothing where it is reached, as it does
where a position is none of the text. With a limit beyond the number of tokens neither happens, and
reading comes to what parsing all tokens at once does.
-/

namespace Recalc

/-- A text that is read from its front. -/
structure Reader where
  text : String
  /-- How often a loop of a scan may go round. -/
  limit : Nat
  /-- Where the next scan starts. -/
  pos : String.Pos.Raw
  /-- The next token. There is none at the end. -/
  next : Option Token
  /-- How often the text has been scanned. -/
  scans : Nat

namespace Reader

/-- Scan for the next token. -/
def advance (r : Reader) : Option Reader :=
  (Token.pass r.limit r.text r.pos).map fun (next, pos) =>
    { r with next, pos, scans := r.scans + 1 }

/-- A reader in front of some tokens. -/
def Before (r : Reader) (tokens : List Token) : Prop :=
  ∃ back, Text.behind? r.text r.pos = some back ∧ back.length < r.limit
    ∧ (r.next = none → back = []) ∧ tokens = r.next.toList ++ Token.scanAll back

/-- On the way from one place to another, the text has been scanned once for each token between. -/
structure Passes (r : Reader) (tokens : List Token) (r' : Reader) (rest : List Token) : Prop where
  before : r'.Before rest
  scans : r'.scans + rest.length = r.scans + tokens.length
  length_le : rest.length ≤ tokens.length

variable {r r' r'' : Reader} {tokens rest : List Token}

theorem exists_advance {back : List Char} (h : Text.behind? r.text r.pos = some back)
    (hlimit : back.length < r.limit) :
    ∃ r', r.advance = some r' ∧ r'.Before (Token.scanAll back) ∧ r'.scans = r.scans + 1 := by
  obtain ⟨next, passed, rest, hpass, rfl, hfound, -, hnone⟩ := Token.exists_pass hlimit h
  refine ⟨{ r with next, pos := r.pos + String.ofList passed, scans := r.scans + 1 },
    by rw [advance, hpass, Option.map_some], ⟨rest, Text.behind?_append h,
      ((List.suffix_append passed rest).length_le).trans_lt hlimit, hnone, ?_⟩, rfl⟩
  cases next with
  | none => rw [Token.scanAll_of_none hfound, hnone rfl]; rfl
  | some t => exact Token.scanAll_of_some hfound

theorem Before.next_eq (h : r.Before tokens) : r.next = tokens.head? := by
  obtain ⟨back, -, -, hnone, rfl⟩ := h
  cases hnext : r.next with
  | none => rw [hnone hnext]; rfl
  | some t => rfl

/-- Taking a token scans for the next one. -/
theorem Before.exists_advance {t : Token} (h : r.Before (t :: rest)) :
    ∃ r', r.advance = some r' ∧ r.Passes (t :: rest) r' rest := by
  have hnext := h.next_eq
  obtain ⟨back, hback, hlimit, -, htokens⟩ := h
  rw [List.head?_cons] at hnext
  rw [hnext] at htokens
  obtain ⟨r', hr', hbefore, hscans⟩ := Reader.exists_advance hback hlimit
  obtain rfl : rest = Token.scanAll back := (List.cons.inj htokens).2
  exact ⟨r', hr', hbefore, by rw [hscans, List.length_cons]; omega, Nat.le_succ _⟩

theorem Passes.refl (h : r.Before tokens) : r.Passes tokens r tokens := ⟨h, rfl, le_rfl⟩

theorem Passes.trans {more : List Token} (h : r.Passes tokens r' rest)
    (h' : r'.Passes rest r'' more) : r.Passes tokens r'' more :=
  ⟨h'.before, h'.scans.trans h.scans, h'.length_le.trans h.length_le⟩

end Reader

/-- What a reader does comes to a value or to an error, unless it comes to nothing. -/
abbrev Reader.Action (α : Type) := ExceptT ParseError (StateT Reader Option) α

namespace Reader.Action

variable {α β : Type}

/-- What reading comes to, and the reader that it leaves. -/
def outcome? (p : Action α) (r : Reader) : Option (Except ParseError α × Reader) :=
  StateT.run (ExceptT.run p) r

/-- Reading that comes to nothing. -/
def nothing : Action α := ExceptT.mk fun _ => none

/-- The next token. -/
def peek : Action (Option Token) := return (← get).next

/-- Take the next token. -/
def take : Action Unit := ExceptT.mk fun r => r.advance.map (.ok (), ·)

/-- Go on with operators of one level, grouping to the left. -/
def chainFrom (operator? : Token → Option BinaryOp) (operand : Action Expr) :
    Nat → Expr → Action Expr
  | 0, _ => nothing
  | limit + 1, left => do
      match (← peek).bind operator? with
      | none => return left
      | some op =>
          take
          let right ← operand
          chainFrom operator? operand limit (.binary op left right)

/-- Operands joined by the operators of one level. -/
def chain (operator? : Token → Option BinaryOp) (limit : Nat) (operand : Action Expr) :
    Action Expr := do
  let left ← operand
  chainFrom operator? operand limit left

/-- Operands joined by power signs, grouping to the right. -/
def powers (operand : Action Expr) : Nat → Action Expr
  | 0 => nothing
  | limit + 1 => do
      let left ← operand
      if (← peek) = some .caret then
        take
        let right ← powers operand limit
        return .binary .power left right
      else return left

/-- Percent marks behind an operand. -/
def percents : Nat → Expr → Action Expr
  | 0, _ => nothing
  | limit + 1, x => do
      if (← peek) = some .percent then
        take
        percents limit (.unary .percent x)
      else return x

/-- Signs before an operand, and percent marks behind it. -/
def signed (operand : Action Expr) : Nat → Action Expr
  | 0 => nothing
  | limit + 1 => do
      if (← peek) = some .minus then
        take
        let x ← signed operand limit
        return .unary .negate x
      else if (← peek) = some .plus then
        take
        signed operand limit
      else
        let x ← operand
        percents (limit + 1) x

/-- One operand, or two cells with a colon between them. -/
def ranged (operand : Action Expr) : Action Expr := do
  let first ← operand
  if (← peek) = some .colon then
    take
    let second ← operand
    match first, second with
    | .cell a, .cell b => return .range ⟨a, b⟩
    | _, _ => throw .rangeEnds
  else return first

/-- Take a token that has to come next. -/
def expect (token : Token) : Action Unit := do
  let next ← peek
  if next = some token then take else throw (.expected token next)

/-- Further arguments of a call, each behind a comma. -/
def argumentsFrom (nested : Action Expr) : Nat → Action (List Expr)
  | 0 => nothing
  | limit + 1 => do
      if (← peek) = some .comma then
        take
        let x ← nested
        let xs ← argumentsFrom nested limit
        return x :: xs
      else return []

/-- The arguments of a call, without the parenthesis that ends them. -/
def arguments (limit : Nat) (nested : Action Expr) : Action (List Expr) := do
  if (← peek) = some .rightParen then return []
  else
    let x ← nested
    let xs ← argumentsFrom nested limit
    return x :: xs

/-- Literals, references, calls and parentheses around a nested expression. -/
def primary (home : Address) (limit : Nat) (nested : Action Expr) : Action Expr := do
  match ← peek with
  | some (.number x) => do take; return .number x
  | some (.text s) => do take; return .text s
  | some (.boolean b) => do take; return .boolean b
  | some (.error e) => do take; return .error e
  | some (.cell s) => do
      take
      match Address.ofA1 home.sheet s with
      | .ok target => return .cell (Reference.between home target)
      | .error cause => throw (.badReference s cause)
  | some .leftParen => do
      take
      let x ← nested
      expect .rightParen
      return .paren x
  | some (.name s) => do
      take
      if (← peek) = some .leftParen then
        expect .leftParen
        let xs ← arguments limit nested
        expect .rightParen
        return .call (Text.toCapitals s) xs
      else throw (.unknownName s)
  | next => throw (.unexpected next)

/-- All levels of operators over one kind of operand. -/
def operators (limit : Nat) (operand : Action Expr) : Action Expr :=
  chain Token.comparison? limit <|
    chain Token.joining? limit <|
      chain Token.additive? limit <|
        chain Token.multiplicative? limit <|
          powers (signed (ranged operand) limit) limit

/-- An expression. -/
def expression (home : Address) (limit : Nat) : Nat → Action Expr
  | 0 => nothing
  | depth + 1 => operators limit (primary home limit (expression home limit depth))

/-- An expression that is all of a text. -/
def whole (home : Address) (limit : Nat) : Action Expr := do
  let x ← expression home limit limit
  let next ← peek
  if next = none then return x else throw (.leftOver next)

end Reader.Action

/-- Read a formula, which may have blanks around it, at `home`, and count the scans. -/
def Expr.readFormula (limit : Nat) (home : Address) (formula : String) :
    Option (Except ParseError Expr × Nat) :=
  match Text.trim formula.toList with
  | '=' :: body => do
      let r ← Reader.advance ⟨String.ofList body, limit, 0, none, 0⟩
      let (outcome, r) ← (Reader.Action.whole home limit).outcome? r
      return (outcome, r.scans)
  | _ => some (.error .noEqualsSign, 0)

end Recalc
