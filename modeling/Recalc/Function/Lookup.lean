import Recalc.Function

/-!
# Looking values up in ranges

Keys are numbers, texts and booleans, and match values of their own type only. The range is written
in the call.
-/

namespace Recalc.Function

/-- A key that can be looked up. -/
def lookupKey (value : Eval Value) : Attempt Value := do
  match ← value with
  | .number x => return .number x
  | .text s => return .text s
  | .boolean b => return .boolean b
  | .empty | .error _ => throw .badValue

/-- Equality within one type. -/
def lookupEqual : Value → Value → Bool
  | .number x, .number y => x == y
  | .text s, .text t => s == t
  | .boolean a, .boolean b => a == b
  | _, _ => false

/-- The column that a number picks out of `width`, counted from one, its fraction cut off. What is
not a number at all is within both bounds, and it counts as zero. -/
def columnChoice (width : Nat) (x : Float) : Except ErrorKind Nat :=
  match Double.integerPart? x with
  | some n =>
      if n < 1 then .error .badValue
      else if (width : Int) < n then .error .badReference
      else .ok n.toNat
  | none =>
      if x.isNaN then .ok 0
      else if x < 1 then .error .badValue
      else .error .badReference

/-- A number argument, which no other type stands in for. -/
def indexNumber (value : Eval Value) : Attempt Float := do
  match ← value with
  | .number x => return x
  | _ => throw .badValue

/-- An argument that is a boolean if it is there. -/
def checkSorted : Option Argument → Attempt Unit
  | none => return
  | some a => do
      match ← a.value with
      | .boolean _ => return
      | _ => throw .badValue

/-- A place in a range: a column, counted from one, and a row, counted from zero. -/
structure Place where
  range : Range
  column : Nat
  row : Nat

def Place.address (p : Place) : Address := p.range.address (p.column - 1) p.row

/-- The first row that starts with the key, in the chosen column. -/
def lookUpPlace (call : Call) : Attempt Place := do
  checkArity call.arguments.length 3 4
  match call.arguments with
  | key :: range :: index :: sorted =>
      let key ← lookupKey key.value
      let r ← range.range
      let x ← indexNumber index.value
      checkSorted sorted.head?
      let column ← columnChoice r.width x
      match ← Attempt.findRow key r with
      | some row => return ⟨r, column, row⟩
      | none => throw .notAvailable
  | _ => throw .notAvailable

/-- The cell of the first row that starts with the key, in the chosen column. -/
def lookUpRow (call : Call) : Eval Value :=
  Eval.settle do Eval.cell (← lookUpPlace call).address

/-- The place of a key among the cells of a range: by the index if the range is one column wide, by
looking through it row by row otherwise. -/
def findPosition (key : Value) (r : Range) : Attempt (Option Nat) :=
  if r.width = 1 then Attempt.findRow key r
  else return (← Attempt.rangeValues r).findIdx? fun v => lookupEqual v key

/-- The place of the first match, counted from one. A third argument is never looked at. -/
def matchPosition (call : Call) : Eval Value :=
  Eval.settle do
    checkArity call.arguments.length 2 3
    match call.arguments with
    | key :: range :: _ =>
        let key ← lookupKey key.value
        let r ← range.range
        match ← findPosition key r with
        | some offset => return .number (Double.ofNat (offset + 1))
        | none => throw .notAvailable
    | _ => throw .notAvailable

/-- A measure of a range, whose cells are not looked at. -/
def shape (measure : Range → Nat) (call : Call) : Eval Value :=
  Eval.settle do
    checkArity call.arguments.length 1 1
    match call.arguments with
    | [a] => return .number (Double.ofNat (measure (← a.range)))
    | _ => throw .notAvailable

def lookup : List Function := [
  ⟨"VLOOKUP", "VLOOKUP", false, lookUpRow⟩,
  ⟨"MATCH", "MATCH", false, matchPosition⟩,
  ⟨"COLUMNS", "COLUMNS", true, shape Range.width⟩,
  ⟨"ROWS", "ROWS", true, shape Range.height⟩]

end Recalc.Function
