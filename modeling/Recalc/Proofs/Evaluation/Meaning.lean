import Recalc.Evaluation
import Recalc.Expr.Dependency

/-!
# What formulas mean

An interpreter that keeps nothing between two reads. It sees a grid of stored values: a reference
reads its cell, blank or not, and is an error outside the sheet; a range is read row by row if all
of it is on the sheet. The meaning of a formula depends on the cells that it names and on no others.
-/

namespace Recalc

/-- The cells that there are, and the values stored in them. -/
structure Grid where
  inBounds : Address → Bool
  stored : Address → Value

/-- An argument with its value, and its range if it is written as one. -/
structure Operand where
  range? : Option (Option Range)
  value : Value

namespace Operand

def range (o : Operand) : Except ErrorKind Range :=
  match o.range? with
  | none => .error .badValue
  | some none => .error .badReference
  | some (some r) => .ok r

def number (o : Operand) : Except ErrorKind Float := o.value.toNumber

def scalar (o : Operand) : Except ErrorKind Value :=
  match o.value with
  | .error e => .error e
  | v => .ok v

/-- The operand as a key of a search. -/
def key (o : Operand) : Except ErrorKind Value :=
  match o.value with
  | .empty | .error _ => .error .badValue
  | v => .ok v

/-- The operand as the number of a column. -/
def column (o : Operand) : Except ErrorKind Float :=
  match o.value with
  | .number x => .ok x
  | _ => .error .badValue

/-- An operand that has to be a boolean if it is there. -/
def checkBoolean : Option Operand → Except ErrorKind Unit
  | none => .ok ()
  | some o =>
      match o.value with
      | .boolean _ => .ok ()
      | _ => .error .badValue

end Operand

namespace Grid

/-- The value that a reference to an address reads. -/
def cell (g : Grid) (a : Address) : Value :=
  if g.inBounds a then g.stored a else .error .badReference

/-- The values that a range reads. -/
def range (g : Grid) (r : Range) : Except ErrorKind (List Value) :=
  if r.addresses.all g.inBounds then .ok (r.addresses.map g.stored) else .error .badReference

/-- The first row of a range whose first cell equals a key. -/
def findRow (g : Grid) (key : Value) (r : Range) : Except ErrorKind (Option Nat) := do
  let _ ← g.range r
  return (ColumnIndex.ofList ((List.range r.height).map fun row =>
    g.stored (r.address 0 row))).find? key

/-- The first place in a range of a cell that equals a key. -/
def findPosition (g : Grid) (key : Value) (r : Range) : Except ErrorKind (Option Nat) :=
  if r.width = 1 then g.findRow key r
  else do return (← g.range r).findIdx? fun v => Function.lookupEqual v key

end Grid

/-! ## The functions -/

namespace Grid

open Recalc.Function (checkArity)

def ofNumber (f : Float → Float) : List Operand → Except ErrorKind Value
  | [] => .error .badValue
  | [o] => do Value.ofFinite (f (← o.number))
  | _ => .error .notAvailable

def addOperand (g : Grid) (total : Float) (o : Operand) : Except ErrorKind Float :=
  match o.range? with
  | some none => .error .badReference
  | some (some r) => do Function.addCells total (← g.range r)
  | none => do return total + (← o.number)

def sum (g : Grid) (operands : List Operand) : Except ErrorKind Value := do
  checkArity operands.length 1 255
  Value.ofFinite (← operands.foldlM g.addOperand 0)

def bitwise (f : Nat → Nat → Nat) (operands : List Operand) : Except ErrorKind Value := do
  checkArity operands.length 2 2
  match operands with
  | [a, b] =>
      let x ← Function.bitOperand (← a.number)
      let y ← Function.bitOperand (← b.number)
      return .number (Double.ofNat (f x y))
  | _ => .error .notAvailable

def binaryToDecimal (operands : List Operand) : Except ErrorKind Value := do
  checkArity operands.length 1 1
  match operands with
  | [a] => return Value.ofInt (← Function.ofBinary (← Function.binaryText (← a.scalar)))
  | _ => .error .notAvailable

/-- The binary digits of a number that is not negative, in as many places as asked for. -/
def binaryPlaces (digits : List Char) : List Operand → Except ErrorKind Value
  | [] => .ok (.text (String.ofList digits))
  | places :: _ => do return .text (String.ofList (← Function.padded digits (← places.number)))

def decimalToBinary (operands : List Operand) : Except ErrorKind Value := do
  checkArity operands.length 1 2
  match operands with
  | [] => .error .notAvailable
  | a :: more =>
      let n ← Function.toBinaryOperand (← a.number)
      if n < 0 then
        .ok (.text (String.ofList
          (Function.binaryDigits (n + Int.pow 2 Function.binaryPlaces).toNat)))
      else binaryPlaces (Function.binaryDigits n.toNat) more

def lookUpRow (g : Grid) (operands : List Operand) : Except ErrorKind Value := do
  checkArity operands.length 3 4
  match operands with
  | key :: range :: index :: sorted =>
      let key ← key.key
      let r ← range.range
      let x ← index.column
      Operand.checkBoolean sorted.head?
      let column ← Function.columnChoice r.width x
      match ← g.findRow key r with
      | some row => return g.cell (r.address (column - 1) row)
      | none => .error .notAvailable
  | _ => .error .notAvailable

/-- The place that a lookup leads to. -/
def lookUpPlace (g : Grid) (operands : List Operand) : Except ErrorKind Function.Place := do
  checkArity operands.length 3 4
  match operands with
  | key :: range :: index :: sorted =>
      let key ← key.key
      let r ← range.range
      let x ← index.column
      Operand.checkBoolean sorted.head?
      let column ← Function.columnChoice r.width x
      match ← g.findRow key r with
      | some row => return ⟨r, column, row⟩
      | none => .error .notAvailable
  | _ => .error .notAvailable

theorem lookUpRow_eq (g : Grid) (operands : List Operand) :
    g.lookUpRow operands = do return g.cell (← g.lookUpPlace operands).address := by
  unfold lookUpRow lookUpPlace
  rw [bind_assoc]
  refine bind_congr fun _ => ?_
  rcases operands with _ | ⟨key, _ | ⟨range, _ | ⟨index, sorted⟩⟩⟩
  · rfl
  · rfl
  · rfl
  · simp only [bind_assoc]
    refine bind_congr fun key => bind_congr fun r => bind_congr fun x => bind_congr fun _ =>
      bind_congr fun column => bind_congr fun row => ?_
    cases row <;> rfl

def matchPosition (g : Grid) (operands : List Operand) : Except ErrorKind Value := do
  checkArity operands.length 2 3
  match operands with
  | key :: range :: _ =>
      let key ← key.key
      let r ← range.range
      match ← g.findPosition key r with
      | some offset => return .number (Double.ofNat (offset + 1))
      | none => .error .notAvailable
  | _ => .error .notAvailable

def shape (measure : Range → Nat) (operands : List Operand) : Except ErrorKind Value := do
  checkArity operands.length 1 1
  match operands with
  | [o] => return .number (Double.ofNat (measure (← o.range)))
  | _ => .error .notAvailable

/-- A call of a function by its name in capitals. -/
def call (g : Grid) (operands : List Operand) : String → Except ErrorKind Value
  | "ABS" => ofNumber Float.abs operands
  | "SUM" => g.sum operands
  | "BITAND" => bitwise Nat.land operands
  | "BITOR" => bitwise Nat.lor operands
  | "BITXOR" => bitwise Nat.xor operands
  | "BIN2DEC" => binaryToDecimal operands
  | "DEC2BIN" => decimalToBinary operands
  | "VLOOKUP" => g.lookUpRow operands
  | "MATCH" => g.matchPosition operands
  | "COLUMNS" => shape Range.width operands
  | "ROWS" => shape Range.height operands
  | _ => .error .unknownName

end Grid

/-! ## Expressions -/

namespace Expr

mutual

/-- The meaning of an expression in a formula at `home`. -/
def meaning (g : Grid) (home : Address) : Expr → Value
  | number x => .number x
  | text s => .text s
  | boolean b => .boolean b
  | error e => .error e
  | cell r =>
      match r.resolve? home with
      | some a => g.cell a
      | none => .error .badReference
  | range _ => .error .badValue
  | binary op left right => op.apply (left.meaning g home) (right.meaning g home)
  | unary op operand => op.apply (operand.meaning g home)
  | paren inner => inner.meaning g home
  | call name arguments =>
      Value.ofExcept (g.call (operandsOf g home arguments) (Text.toCapitals name))

/-- Arguments with their meanings. -/
def operandsOf (g : Grid) (home : Address) : List Expr → List Operand
  | [] => []
  | x :: xs => ⟨x.literalRange? home, x.meaning g home⟩ :: operandsOf g home xs

end

@[simp] theorem operandsOf_eq_map (g : Grid) (home : Address) (xs : List Expr) :
    operandsOf g home xs = xs.map fun x => ⟨x.literalRange? home, x.meaning g home⟩ := by
  induction xs with
  | nil => rfl
  | cons x xs ih => simp [operandsOf, ih]

/-- Induction over expressions, with the hypothesis for every argument of a call. -/
@[elab_as_elim]
theorem induct {p : Expr → Prop} (number : ∀ x, p (number x)) (text : ∀ s, p (text s))
    (boolean : ∀ b, p (boolean b)) (error : ∀ e, p (error e)) (cell : ∀ r, p (cell r))
    (range : ∀ r, p (range r))
    (binary : ∀ op left right, p left → p right → p (binary op left right))
    (unary : ∀ op operand, p operand → p (unary op operand))
    (paren : ∀ inner, p inner → p (paren inner))
    (call : ∀ name arguments, (∀ x ∈ arguments, p x) → p (call name arguments)) :
    ∀ x, p x :=
  @Expr.rec p (fun xs => ∀ x ∈ xs, p x) number text boolean error cell range binary unary paren
    call nofun fun _ _ hx hxs y hy => (List.mem_cons.mp hy).elim (fun h => h ▸ hx) (hxs y)

end Expr

end Recalc
