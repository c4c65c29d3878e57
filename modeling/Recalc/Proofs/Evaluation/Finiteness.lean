import Recalc.Proofs.Double.Finiteness
import Recalc.Proofs.Evaluation.Dependence
import Recalc.Proofs.Evaluation.Numbers

/-!
# Values that are finite

Typed content is finite, and operators and functions make finite values of finite ones. A number in
a formula is not looked at, so it is the only source of a value that is infinite.
-/

namespace Recalc

namespace Value

/-- What is given as a number is finite. -/
def Finite : Value → Prop
  | number x => x.isFinite = true
  | _ => True

variable {v : Value} {x : Float}

theorem finite_ofContent (raw : String) : (ofContent raw).Finite := by
  rw [ofContent]
  split
  · trivial
  · split
    · next h => exact (Option.filter_eq_some_iff.mp h).2
    · trivial

theorem Finite.isFinite_of_toNumber (hv : v.Finite) (h : v.toNumber = .ok x) :
    x.isFinite = true := by
  cases v with
  | number y => exact Except.ok.inj h ▸ hv
  | boolean b =>
      obtain rfl := Except.ok.inj h
      cases b <;> decide
  | empty =>
      obtain rfl := Except.ok.inj h
      decide
  | text s =>
      rw [toNumber] at h
      split at h
      · next hs => exact Except.ok.inj h ▸ (Option.filter_eq_some_iff.mp hs).2
      · cases h
  | error e => cases h

theorem finite_of_ofFinite (h : ofFinite x = .ok v) : v.Finite := by
  rw [ofFinite] at h
  split at h
  · next hx => exact Except.ok.inj h ▸ hx
  · cases h

theorem finite_ofExcept {outcome : Except ErrorKind Value}
    (h : ∀ v, outcome = .ok v → v.Finite) : (ofExcept outcome).Finite := by
  cases outcome with
  | error e => trivial
  | ok v => exact h v rfl

theorem finite_arithmetic (f : Float → Float → Except ErrorKind Float) (left right : Value) :
    (arithmetic f left right).Finite := by
  refine finite_ofExcept fun v h => ?_
  obtain ⟨x, -, h⟩ := exists_of_bind_eq_ok h
  obtain ⟨y, -, h⟩ := exists_of_bind_eq_ok h
  obtain ⟨z, -, h⟩ := exists_of_bind_eq_ok h
  exact finite_of_ofFinite h

end Value

/-! ## Operators -/

theorem BinaryOp.finite_apply (op : BinaryOp) (left right : Value) :
    (op.apply left right).Finite := by
  rw [apply]
  split
  · trivial
  · trivial
  · cases op with
    | add | subtract | multiply | divide | power => exact Value.finite_arithmetic _ _ _
    | _ => trivial

theorem UnaryOp.finite_apply (op : UnaryOp) {v : Value} (hv : v.Finite) : (op.apply v).Finite := by
  rw [apply]
  split
  · trivial
  · next x hx =>
      have hfinite := hv.isFinite_of_toNumber hx
      cases op with
      | negate => exact Double.isFinite_neg hfinite
      | percent => exact Double.isFinite_div_hundred hfinite

/-! ## Functions -/

theorem Function.binaryValue_lt (digits : List Char) : binaryValue digits < 2 ^ digits.length := by
  let push := fun (value : Nat) (c : Char) => value * 2 + (if c = '1' then 1 else 0)
  suffices hfold : ∀ value, digits.foldl push value < (value + 1) * 2 ^ digits.length by
    have := hfold 0
    rwa [Nat.zero_add, Nat.one_mul] at this
  induction digits with
  | nil => exact fun value => by simp
  | cons c digits ih =>
      intro value
      have hpush : push value c + 1 ≤ (value + 1) * 2 := by
        dsimp only [push]
        split <;> omega
      calc (c :: digits).foldl push value < (push value c + 1) * 2 ^ digits.length := ih _
        _ ≤ (value + 1) * 2 * 2 ^ digits.length := Nat.mul_le_mul_right _ hpush
        _ = (value + 1) * 2 ^ (c :: digits).length := by
          rw [List.length_cons, Nat.pow_succ', Nat.mul_assoc]

/-- A binary numeral writes a number that a double can equal. -/
theorem Function.natAbs_of_ofBinary {digits : List Char} {n : Int} (h : ofBinary digits = .ok n) :
    n.natAbs < 2 ^ 53 := by
  rw [ofBinary] at h
  split at h
  · cases h
  · next hdigits =>
      have hlength : digits.length ≤ 10 := by
        simp only [Bool.or_eq_true, not_or] at hdigits
        exact Nat.not_lt.mp fun hlong => hdigits.1.2 (decide_eq_true hlong)
      have hlt : binaryValue digits < 2 ^ 10 :=
        Nat.lt_of_lt_of_le (binaryValue_lt digits) (Nat.pow_le_pow_right (by decide) hlength)
      have hplaces : Int.pow 2 binaryPlaces = 1024 := by decide
      split at h
      · have := Except.ok.inj h
        omega
      · have := Except.ok.inj h
        omega

namespace Grid

variable {g : Grid} {operands : List Operand} {v : Value}

theorem finite_cell (hg : ∀ a, (g.stored a).Finite) (a : Address) : (g.cell a).Finite := by
  rw [cell]
  split
  · exact hg a
  · trivial

theorem finite_ofNumber {f : Float → Float} (h : ofNumber f operands = .ok v) : v.Finite := by
  rcases operands with _ | ⟨a, _ | ⟨b, rest⟩⟩
  · cases h
  · obtain ⟨x, -, h⟩ := exists_of_bind_eq_ok h
    exact Value.finite_of_ofFinite h
  · cases h

theorem finite_sum (h : g.sum operands = .ok v) : v.Finite := by
  obtain ⟨_, -, h⟩ := exists_of_bind_eq_ok h
  obtain ⟨total, -, h⟩ := exists_of_bind_eq_ok h
  exact Value.finite_of_ofFinite h

theorem finite_bitwise {f : Nat → Nat → Nat} (h : bitwise f operands = .ok v) : v.Finite := by
  obtain ⟨_, -, h⟩ := exists_of_bind_eq_ok h
  rcases operands with _ | ⟨a, _ | ⟨b, _ | ⟨c, rest⟩⟩⟩
  · cases h
  · cases h
  · obtain ⟨_, -, h⟩ := exists_of_bind_eq_ok h
    obtain ⟨x, -, h⟩ := exists_of_bind_eq_ok h
    obtain ⟨_, -, h⟩ := exists_of_bind_eq_ok h
    obtain ⟨y, -, h⟩ := exists_of_bind_eq_ok h
    exact Except.ok.inj h ▸ Double.isFinite_ofNat _
  · cases h

theorem finite_binaryToDecimal (h : binaryToDecimal operands = .ok v) : v.Finite := by
  obtain ⟨_, -, h⟩ := exists_of_bind_eq_ok h
  rcases operands with _ | ⟨a, _ | ⟨b, rest⟩⟩
  · cases h
  · obtain ⟨_, -, h⟩ := exists_of_bind_eq_ok h
    obtain ⟨digits, -, h⟩ := exists_of_bind_eq_ok h
    obtain ⟨n, hn, h⟩ := exists_of_bind_eq_ok h
    exact Except.ok.inj h ▸ Double.isFinite_ofInt (Function.natAbs_of_ofBinary hn)
  · cases h

theorem finite_decimalToBinary (h : decimalToBinary operands = .ok v) : v.Finite := by
  obtain ⟨_, -, h⟩ := exists_of_bind_eq_ok h
  rcases operands with _ | ⟨a, more⟩
  · cases h
  · obtain ⟨_, -, h⟩ := exists_of_bind_eq_ok h
    obtain ⟨n, -, h⟩ := exists_of_bind_eq_ok h
    split at h
    · exact Except.ok.inj h ▸ trivial
    · cases more with
      | nil => exact Except.ok.inj h ▸ trivial
      | cons places rest =>
          obtain ⟨_, -, h⟩ := exists_of_bind_eq_ok h
          obtain ⟨_, -, h⟩ := exists_of_bind_eq_ok h
          exact Except.ok.inj h ▸ trivial

theorem finite_lookUpRow (hg : ∀ a, (g.stored a).Finite) (h : g.lookUpRow operands = .ok v) :
    v.Finite := by
  rw [lookUpRow_eq] at h
  obtain ⟨place, -, h⟩ := exists_of_bind_eq_ok h
  exact Except.ok.inj h ▸ finite_cell hg place.address

theorem finite_matchPosition (h : g.matchPosition operands = .ok v) : v.Finite := by
  obtain ⟨_, -, h⟩ := exists_of_bind_eq_ok h
  rcases operands with _ | ⟨key, _ | ⟨range, rest⟩⟩
  · cases h
  · cases h
  · obtain ⟨_, -, h⟩ := exists_of_bind_eq_ok h
    obtain ⟨_, -, h⟩ := exists_of_bind_eq_ok h
    obtain ⟨offset, -, h⟩ := exists_of_bind_eq_ok h
    cases offset with
    | none => cases h
    | some offset => exact Except.ok.inj h ▸ Double.isFinite_ofNat _

theorem finite_shape {measure : Range → Nat} (h : shape measure operands = .ok v) : v.Finite := by
  obtain ⟨_, -, h⟩ := exists_of_bind_eq_ok h
  rcases operands with _ | ⟨a, _ | ⟨b, rest⟩⟩
  · cases h
  · obtain ⟨_, -, h⟩ := exists_of_bind_eq_ok h
    exact Except.ok.inj h ▸ Double.isFinite_ofNat _
  · cases h

/-- A function gives a finite value, which for a lookup is that of a cell. -/
theorem finite_call (hg : ∀ a, (g.stored a).Finite) {name : String}
    (h : g.call operands name = .ok v) : v.Finite := by
  unfold call at h
  split at h
  · exact finite_ofNumber h
  · exact finite_sum h
  · exact finite_bitwise h
  · exact finite_bitwise h
  · exact finite_bitwise h
  · exact finite_binaryToDecimal h
  · exact finite_decimalToBinary h
  · exact finite_lookUpRow hg h
  · exact finite_matchPosition h
  · exact finite_shape h
  · exact finite_shape h
  · cases h

end Grid

/-! ## Expressions -/

namespace Expr

mutual

/-- The numbers that an expression is written with. -/
def numbers : Expr → List Float
  | number x => [x]
  | text _ | boolean _ | error _ | cell _ | range _ => []
  | binary _ left right => left.numbers ++ right.numbers
  | unary _ operand => operand.numbers
  | paren inner => inner.numbers
  | call _ arguments => numbersOf arguments

/-- The numbers that a list of arguments is written with. -/
def numbersOf : List Expr → List Float
  | [] => []
  | x :: xs => x.numbers ++ numbersOf xs

end

variable {g : Grid} {home : Address}

/-- An expression with finite numbers has a finite value where all cells have. -/
theorem finite_meaning (hg : ∀ a, (g.stored a).Finite) (x : Expr)
    (hx : ∀ n ∈ x.numbers, n.isFinite = true) : (x.meaning g home).Finite := by
  induction x using Expr.induct with
  | number n => exact hx n List.mem_cons_self
  | text | boolean | error | range => trivial
  | cell r =>
      rw [meaning]
      cases r.resolve? home with
      | none => trivial
      | some a => exact Grid.finite_cell hg a
  | binary op left right => exact op.finite_apply _ _
  | unary op operand ih => exact op.finite_apply (ih hx)
  | paren inner ih => exact ih hx
  | call name arguments => exact Value.finite_ofExcept fun v h => Grid.finite_call hg h

end Expr

namespace Grid

open Classical in
/-- The grid with blanks in place of the values that are not finite. -/
noncomputable def bounded (g : Grid) : Grid :=
  ⟨g.inBounds, fun a => if (g.stored a).Finite then g.stored a else .empty⟩

theorem finite_bounded (g : Grid) (a : Address) : (g.bounded.stored a).Finite := by
  rw [bounded]
  dsimp only
  split
  · assumption
  · trivial

theorem agreeOn_bounded {g : Grid} {dependencies : List Dependency}
    (h : ∀ d ∈ dependencies, g.Covers d → ∀ a ∈ d.addresses, (g.stored a).Finite) :
    g.AgreeOn g.bounded dependencies :=
  ⟨rfl, fun d hd hcovers a ha => (if_pos (h d hd hcovers a ha)).symm⟩

end Grid

/-- An expression with finite numbers has a finite value where the cells have from which it takes
its value. -/
theorem Expr.finite_meaning_of_inputs {g : Grid} {home : Address} (x : Expr)
    (hinputs : ∀ d ∈ x.inputs Registry.builtin.shapeOnly home, g.Covers d →
      ∀ a ∈ d.addresses, (g.stored a).Finite)
    (hx : ∀ n ∈ x.numbers, n.isFinite = true) : (x.meaning g home).Finite := by
  rw [x.meaning_congr_inputs (Grid.agreeOn_bounded hinputs)]
  exact finite_meaning g.finite_bounded x hx

end Recalc
