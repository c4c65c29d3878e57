import Recalc.Proofs.Evaluation.Dependence
import Recalc.Proofs.Expr.Roundtrip
import Recalc.Sheet

/-!
# Formulas in other places

A text stands for different distances in different cells, and for the same cells in all of them. An
expression that is kept while its cell changes names what it named before, moved as far as the cell.
-/

namespace Recalc

namespace Reference

/-- The reference of a formula at `other` to what this one, of a formula at `home`, refers to. -/
def seenFrom (home other : Address) (r : Reference) : Reference :=
  ⟨r.cols + ((home.col : Int) - other.col), r.rows + ((home.row : Int) - other.row)⟩

variable {home other target : Address}

theorem seenFrom_between (home other target : Address) :
    (between home target).seenFrom home other = between other target := by
  simp only [between, seenFrom, mk.injEq]
  omega

theorem resolve?_seenFrom (hsheet : other.sheet = home.sheet) (r : Reference) :
    (r.seenFrom home other).resolve? other = r.resolve? home := by
  have hcol : (other.col : Int) + (r.seenFrom home other).cols = home.col + r.cols := by
    simp only [seenFrom]
    omega
  have hrow : (other.row : Int) + (r.seenFrom home other).rows = home.row + r.rows := by
    simp only [seenFrom]
    omega
  simp only [resolve?, Address.shift?, Address.shiftCoordinate?, hcol, hrow, hsheet]

end Reference

/-- The range of a formula at `other` that covers what this one, of a formula at `home`, covers. -/
def RangeReference.seenFrom (home other : Address) (r : RangeReference) : RangeReference :=
  ⟨r.first.seenFrom home other, r.second.seenFrom home other⟩

theorem RangeReference.resolve?_seenFrom {home other : Address} (hsheet : other.sheet = home.sheet)
    (r : RangeReference) : (r.seenFrom home other).resolve? other = r.resolve? home := by
  rw [resolve?, seenFrom, Reference.resolve?_seenFrom hsheet, Reference.resolve?_seenFrom hsheet]
  rfl

namespace Expr

mutual

/-- The expression at `other` that names what this one names at `home`. -/
def seenFrom (home other : Address) : Expr → Expr
  | number x => .number x
  | text s => .text s
  | boolean b => .boolean b
  | error e => .error e
  | cell r => .cell (r.seenFrom home other)
  | range r => .range (r.seenFrom home other)
  | binary op left right => .binary op (left.seenFrom home other) (right.seenFrom home other)
  | unary op operand => .unary op (operand.seenFrom home other)
  | paren inner => .paren (inner.seenFrom home other)
  | call name arguments => .call name (seenFromAll home other arguments)

/-- The expressions of a list, one by one. -/
def seenFromAll (home other : Address) : List Expr → List Expr
  | [] => []
  | x :: xs => x.seenFrom home other :: seenFromAll home other xs

end

@[simp] theorem seenFromAll_eq_map (home other : Address) (xs : List Expr) :
    seenFromAll home other xs = xs.map (seenFrom home other) := by
  induction xs with
  | nil => rfl
  | cons x xs ih => simp [seenFromAll, ih]

end Expr

/-! ## The same text elsewhere -/

section Elsewhere

variable {home other : Address} {level : Level} {tokens : List Token} {x : Expr}

/-- A sentence in one cell is a sentence in every cell of the sheet. -/
theorem Derives.seenFrom (hsheet : other.sheet = home.sheet) (h : Derives home level tokens x) :
    Derives other level tokens (x.seenFrom home other) := by
  induction h with
  | number | text | boolean | error => constructor
  | cell h =>
      rw [Expr.seenFrom, Reference.seenFrom_between]
      exact .cell (hsheet ▸ h)
  | range ha hb =>
      rw [Expr.seenFrom, RangeReference.seenFrom, Reference.seenFrom_between,
        Reference.seenFrom_between]
      exact .range (hsheet ▸ ha) (hsheet ▸ hb)
  | paren _ ih =>
      rw [Expr.seenFrom]
      exact .paren ih
  | @call name arguments _ ih =>
      have hcall := @Derives.call other name
        (arguments.map fun a => ⟨a.level, a.tokens, a.expr.seenFrom home other⟩) (by simpa using ih)
      simpa [Expr.seenFrom, Function.comp_def] using hcall
  | percent hlevel _ ih =>
      rw [Expr.seenFrom]
      exact .percent hlevel ih
  | negate hlevel _ ih =>
      rw [Expr.seenFrom]
      exact .negate hlevel ih
  | plus hlevel _ ih => exact .plus hlevel ih
  | binary op hl hr _ _ ihl ihr =>
      rw [Expr.seenFrom]
      exact .binary op hl hr ihl ihr

namespace Expr

theorem ofFormula_seenFrom (hsheet : other.sheet = home.sheet) {formula : String}
    (h : ofFormula home formula = .ok x) :
    ofFormula other formula = .ok (x.seenFrom home other) := by
  unfold ofFormula at h ⊢
  split at h
  · obtain ⟨l, hx⟩ := ofTokens_eq_ok.1 h
    exact ofTokens_eq_ok.2 ⟨l, hx.seenFrom hsheet⟩
  · cases h

theorem dependencies_seenFrom (hsheet : other.sheet = home.sheet) (skip : String → Bool)
    (x : Expr) : (x.seenFrom home other).dependencies skip other = x.dependencies skip home := by
  induction x using Expr.induct with
  | number | text | boolean | error => rfl
  | cell r => rw [seenFrom, dependencies, dependencies, Reference.resolve?_seenFrom hsheet]
  | range r => rw [seenFrom, dependencies, dependencies, RangeReference.resolve?_seenFrom hsheet]
  | binary op left right ihl ihr => rw [seenFrom, dependencies, dependencies, ihl, ihr]
  | unary op operand ih => rw [seenFrom, dependencies, dependencies, ih]
  | paren inner ih => rw [seenFrom, dependencies, dependencies, ih]
  | call name arguments ih =>
      rw [seenFrom, dependencies, dependencies, dependenciesOf_eq_flatMap,
        dependenciesOf_eq_flatMap, seenFromAll_eq_map, List.flatMap_map, List.flatMap_congr ih]

theorem literalRange?_seenFrom (hsheet : other.sheet = home.sheet) (x : Expr) :
    (x.seenFrom home other).literalRange? other = x.literalRange? home := by
  cases x with
  | range r => exact congrArg some (RangeReference.resolve?_seenFrom hsheet r)
  | _ => rfl

end Expr

/-- None of the functions that are always there looks at the cell in which the call stands. -/
theorem Function.run_builtin_home {f : Function} (hf : f ∈ Function.builtin) (home other : Address)
    (arguments : List Argument) (registered : Nat) :
    f.run ⟨other, arguments, registered⟩ = f.run ⟨home, arguments, registered⟩ := by
  simp only [builtin, arithmetic, binary, lookup, List.mem_append, List.mem_cons,
    List.not_mem_nil, or_false] at hf
  rcases hf with ((rfl | rfl) | rfl | rfl | rfl | rfl | rfl) | rfl | rfl | rfl | rfl <;> rfl

theorem Expr.evaluate_seenFrom (hsheet : other.sheet = home.sheet) (x : Expr) :
    (x.seenFrom home other).evaluate .builtin other = x.evaluate .builtin home := by
  induction x using Expr.induct with
  | number | text | boolean | error | range => rfl
  | cell r => rw [seenFrom, evaluate, evaluate, Reference.resolve?_seenFrom hsheet]
  | binary op left right ihl ihr => rw [seenFrom, evaluate, evaluate, ihl, ihr]
  | unary op operand ih => rw [seenFrom, evaluate, evaluate, ih]
  | paren inner ih => rw [seenFrom, evaluate, evaluate, ih]
  | call name arguments ih =>
      have harguments : argumentsOf .builtin other (arguments.map (seenFrom home other))
          = argumentsOf .builtin home arguments := by
        rw [argumentsOf_eq_map, argumentsOf_eq_map, List.map_map]
        apply List.map_congr_left
        intro x hx
        rw [Function.comp_apply, literalRange?_seenFrom hsheet, ih x hx]
      rw [seenFrom, evaluate, evaluate, seenFromAll_eq_map, harguments]
      cases hf : Registry.builtin.find? name with
      | none => rfl
      | some f => exact Function.run_builtin_home (Registry.of_find?_builtin hf).1 _ _ _ _

theorem Expr.operandsOf_seenFrom_of (hsheet : other.sheet = home.sheet) {g : Grid} {xs : List Expr}
    (hmeaning : ∀ x ∈ xs, (x.seenFrom home other).meaning g other = x.meaning g home) :
    operandsOf g other (xs.map (seenFrom home other)) = operandsOf g home xs := by
  rw [operandsOf_eq_map, operandsOf_eq_map, List.map_map]
  apply List.map_congr_left
  intro x hx
  rw [Function.comp_apply, literalRange?_seenFrom hsheet, hmeaning x hx]

theorem Expr.meaning_seenFrom (hsheet : other.sheet = home.sheet) (g : Grid) (x : Expr) :
    (x.seenFrom home other).meaning g other = x.meaning g home := by
  induction x using Expr.induct with
  | number | text | boolean | error | range => rfl
  | cell r => rw [seenFrom, meaning, meaning, Reference.resolve?_seenFrom hsheet]
  | binary op left right ihl ihr => rw [seenFrom, meaning, meaning, ihl, ihr]
  | unary op operand ih => rw [seenFrom, meaning, meaning, ih]
  | paren inner ih => rw [seenFrom, meaning, meaning, ih]
  | call name arguments ih =>
      rw [seenFrom, meaning, meaning, seenFromAll_eq_map, operandsOf_seenFrom_of hsheet ih]

theorem Expr.operandsOf_seenFrom (hsheet : other.sheet = home.sheet) (g : Grid) (xs : List Expr) :
    operandsOf g other (xs.map (seenFrom home other)) = operandsOf g home xs :=
  operandsOf_seenFrom_of hsheet fun x _ => x.meaning_seenFrom hsheet g

end Elsewhere

/-! ## The same expression elsewhere -/

namespace Address

theorem shiftCoordinate?_eq_some {n m : Nat} {delta : Int} :
    shiftCoordinate? n delta = some m ↔ (n : Int) + delta = m ∧ m < coordinateLimit := by
  simp only [shiftCoordinate?, Bool.and_eq_true, decide_eq_true_eq]
  split
  · rw [Option.some.injEq]
    omega
  · simp only [reduceCtorEq, false_iff]
    omega

theorem shift?_eq_some {a b : Address} {cols rows : Int} :
    a.shift? cols rows = some b ↔
      b.sheet = a.sheet ∧ shiftCoordinate? a.col cols = some b.col
        ∧ shiftCoordinate? a.row rows = some b.row := by
  simp only [shift?, Option.bind_eq_some_iff, Option.map_eq_some_iff]
  constructor
  · rintro ⟨col, hcol, row, hrow, rfl⟩
    exact ⟨rfl, hcol, hrow⟩
  · rintro ⟨hsheet, hcol, hrow⟩
    exact ⟨_, hcol, _, hrow, by rw [← hsheet]⟩

/-- A shift by two distances is a shift by one and then by the other, if there is a cell between. -/
theorem shift?_add {a b : Address} {cols rows : Int} (h : a.shift? cols rows = some b)
    (cols' rows' : Int) : a.shift? (cols + cols') (rows + rows') = b.shift? cols' rows' := by
  obtain ⟨hsheet, hcol, hrow⟩ := shift?_eq_some.1 h
  have hcols : (a.col : Int) + (cols + cols') = b.col + cols' := by
    rw [← Int.add_assoc, (shiftCoordinate?_eq_some.1 hcol).1]
  have hrows : (a.row : Int) + (rows + rows') = b.row + rows' := by
    rw [← Int.add_assoc, (shiftCoordinate?_eq_some.1 hrow).1]
  simp only [shift?, shiftCoordinate?, hcols, hrows, hsheet]

end Address

/-- The range moved by so many columns and rows, if both corners stay within the limits. -/
def Range.shift? (r : Range) (cols rows : Int) : Option Range :=
  (r.start.shift? cols rows).bind fun start =>
    (r.last.shift? cols rows).map fun _ => { r with start }

/-- The dependency moved by so many columns and rows, if its corners stay within the limits. -/
def Dependency.shift? (cols rows : Int) : Dependency → Option Dependency
  | .cell a => (a.shift? cols rows).map .cell
  | .range r => (r.shift? cols rows).map .range

theorem Range.shift?_eq_some {r s : Range} {cols rows : Int} :
    r.shift? cols rows = some s ↔
      r.start.shift? cols rows = some s.start ∧ (∃ last, r.last.shift? cols rows = some last)
        ∧ s.width = r.width ∧ s.height = r.height := by
  simp only [shift?, Option.bind_eq_some_iff, Option.map_eq_some_iff]
  constructor
  · rintro ⟨start, hstart, last, hlast, rfl⟩
    exact ⟨hstart, ⟨last, hlast⟩, rfl, rfl⟩
  · rintro ⟨hstart, ⟨last, hlast⟩, hwidth, hheight⟩
    refine ⟨_, hstart, last, hlast, ?_⟩
    cases s
    congr
    · exact hwidth.symm
    · exact hheight.symm

/-- The least and the greatest of two coordinates can be moved if and only if both can. -/
theorem Address.shiftCoordinate?_corners {m n least greatest : Nat} {delta : Int} :
    shiftCoordinate? (min m n) delta = some least ∧ shiftCoordinate? (max m n) delta = some greatest
      ↔ ∃ m' n', shiftCoordinate? m delta = some m' ∧ shiftCoordinate? n delta = some n'
        ∧ min m' n' = least ∧ max m' n' = greatest := by
  simp only [shiftCoordinate?_eq_some]
  constructor
  · rintro ⟨⟨hleast, -⟩, hgreatest, hlimit⟩
    refine ⟨(m + delta).toNat, (n + delta).toNat, ⟨?_, ?_⟩, ⟨?_, ?_⟩, ?_, ?_⟩ <;> omega
  · rintro ⟨m', n', ⟨hm, hmlimit⟩, ⟨hn, hnlimit⟩, rfl, rfl⟩
    refine ⟨⟨?_, ?_⟩, ?_, ?_⟩ <;> omega

namespace Range

theorem last_ofCorners (a b : Address) :
    (ofCorners a b).last = ⟨a.sheet, max a.col b.col, max a.row b.row⟩ := by
  simp only [last, address, ofCorners, Address.mk.injEq, true_and]
  omega

/-- A range moves as its corners do, in whichever order they are given. -/
theorem shift?_ofCorners (a b : Address) (cols rows : Int) :
    (ofCorners a b).shift? cols rows =
      (a.shift? cols rows).bind fun a' => (b.shift? cols rows).map (ofCorners a') := by
  -- The width is kept because the distance between the least and the greatest coordinate is.
  have hlength : ∀ {m n m' n' : Nat} {delta : Int}, Address.shiftCoordinate? m delta = some m' →
      Address.shiftCoordinate? n delta = some n' → n' - m' + 1 = n - m + 1 := by
    intro m n m' n' delta hm hn
    have hm' := (Address.shiftCoordinate?_eq_some.1 hm).1
    have hn' := (Address.shiftCoordinate?_eq_some.1 hn).1
    omega
  ext ⟨⟨sheet, left, top⟩, width, height, _, _⟩
  simp only [shift?_eq_some, last_ofCorners, Option.bind_eq_some_iff, Option.map_eq_some_iff,
    Address.shift?_eq_some]
  constructor
  · rintro ⟨⟨hsheet, hcol, hrow⟩, ⟨last, -, hlastcol, hlastrow⟩, hwidth, hheight⟩
    obtain ⟨col, col', hcola, hcolb, hcolmin, hcolmax⟩ :=
      Address.shiftCoordinate?_corners.1 ⟨hcol, hlastcol⟩
    obtain ⟨row, row', hrowa, hrowb, hrowmin, hrowmax⟩ :=
      Address.shiftCoordinate?_corners.1 ⟨hrow, hlastrow⟩
    refine ⟨⟨a.sheet, col, row⟩, ⟨rfl, hcola, hrowa⟩, ⟨b.sheet, col', row'⟩,
      ⟨rfl, hcolb, hrowb⟩, ?_⟩
    obtain rfl : sheet = a.sheet := hsheet
    obtain rfl : width = _ := hwidth.trans (hlength hcol hlastcol).symm
    obtain rfl : height = _ := hheight.trans (hlength hrow hlastrow).symm
    simp only [ofCorners, hcolmin, hcolmax, hrowmin, hrowmax]
  · rintro ⟨a', ⟨hsheeta, hcola, hrowa⟩, b', ⟨-, hcolb, hrowb⟩, hcorners⟩
    cases hcorners
    obtain ⟨hcolmin, hcolmax⟩ :=
      Address.shiftCoordinate?_corners.2 ⟨_, _, hcola, hcolb, rfl, rfl⟩
    obtain ⟨hrowmin, hrowmax⟩ :=
      Address.shiftCoordinate?_corners.2 ⟨_, _, hrowa, hrowb, rfl, rfl⟩
    exact ⟨⟨hsheeta, hcolmin, hrowmin⟩,
      ⟨⟨a.sheet, max a'.col b'.col, max a'.row b'.row⟩, rfl, hcolmax, hrowmax⟩,
      hlength hcolmin hcolmax, hlength hrowmin hrowmax⟩

end Range

section Moved

variable {home shifted : Address} {cols rows : Int}

theorem Reference.resolve?_shift {r : Reference} {target : Address}
    (hshift : home.shift? cols rows = some shifted) (h : r.resolve? home = some target) :
    r.resolve? shifted = target.shift? cols rows := by
  rw [resolve?, ← Address.shift?_add hshift, ← Address.shift?_add h, Int.add_comm cols,
    Int.add_comm rows]

theorem RangeReference.resolve?_shift {r : RangeReference} {a b : Address}
    (hshift : home.shift? cols rows = some shifted) (ha : r.first.resolve? home = some a)
    (hb : r.second.resolve? home = some b) :
    r.resolve? shifted = (r.resolve? home).bind (·.shift? cols rows) := by
  rw [resolve?, resolve?, Reference.resolve?_shift hshift ha, Reference.resolve?_shift hshift hb,
    ha, hb, Option.bind_some, Option.map_some, Option.bind_some, Range.shift?_ofCorners]

namespace Expr

/-- An expression kept while its cell moves names what it named, moved alike. -/
theorem WellFormed.dependencies_shift {x : Expr} (hx : x.WellFormed home)
    (hshift : home.shift? cols rows = some shifted) (skip : String → Bool) :
    x.dependencies skip shifted =
      (x.dependencies skip home).filterMap (Dependency.shift? cols rows) := by
  induction hx with
  | number | text | boolean | error => rfl
  | cell h =>
      obtain ⟨target, htarget, -⟩ := h
      rw [dependencies, dependencies, Reference.resolve?_shift hshift htarget, htarget]
      cases hmoved : target.shift? cols rows <;> simp [Dependency.shift?, hmoved]
  | @range a b ha hb =>
      obtain ⟨first, hfirst, -⟩ := ha
      obtain ⟨second, hsecond, -⟩ := hb
      have hresolve : RangeReference.resolve? ⟨a, b⟩ home = some (.ofCorners first second) := by
        rw [RangeReference.resolve?, hfirst, hsecond]
        rfl
      rw [dependencies, dependencies, RangeReference.resolve?_shift hshift hfirst hsecond, hresolve]
      cases hmoved : (Range.ofCorners first second).shift? cols rows <;>
        simp [Dependency.shift?, hmoved]
  | binary _ _ _ _ ihl ihr => rw [dependencies, dependencies, ihl, ihr, List.filterMap_append]
  | unary _ _ ih => rw [dependencies, dependencies, ih]
  | paren _ ih => rw [dependencies, dependencies, ih]
  | @call name arguments _ _ _ ih =>
      rw [dependencies, dependencies]
      split
      · rfl
      · rw [dependenciesOf_eq_flatMap, dependenciesOf_eq_flatMap, List.filterMap_flatMap,
          List.flatMap_congr ih]

end Expr

end Moved

/-- A formula means the same in all cells of a sheet: it can be read in one if and only if it can in
another, names the same cells and ranges in the same order, and has the same value in every sheet.
Its expression, kept for a cell so many columns and rows away, names all of these moved alike,
except those that would get a corner outside the limits of coordinates. -/
theorem Expr.ofFormula_placed {home other : Address} (hsheet : other.sheet = home.sheet)
    (formula : String) :
    ((∃ x, ofFormula home formula = .ok x) ↔ ∃ y, ofFormula other formula = .ok y)
      ∧ ∀ x, ofFormula home formula = .ok x →
        (∀ y, ofFormula other formula = .ok y →
          (∀ skip, y.dependencies skip other = x.dependencies skip home)
            ∧ ∀ s : Sheet, s.evaluate (y.evaluate .builtin other)
                = s.evaluate (x.evaluate .builtin home))
          ∧ ∀ cols rows shifted, home.shift? cols rows = some shifted →
            ∀ skip, x.dependencies skip shifted =
              (x.dependencies skip home).filterMap (Dependency.shift? cols rows) := by
  refine ⟨⟨fun ⟨x, hx⟩ => ⟨_, ofFormula_seenFrom hsheet hx⟩,
    fun ⟨y, hy⟩ => ⟨_, ofFormula_seenFrom hsheet.symm hy⟩⟩, fun x hx => ⟨fun y hy => ?_, ?_⟩⟩
  · obtain rfl : x.seenFrom home other = y :=
      Except.ok.inj ((ofFormula_seenFrom hsheet hx).symm.trans hy)
    exact ⟨fun skip => dependencies_seenFrom hsheet skip x,
      fun s => by rw [evaluate_seenFrom hsheet]⟩
  · intro cols rows shifted hshift skip
    exact (wellFormed_of_ofFormula hx).dependencies_shift hshift skip

/-- A formula of `C3` put into `A1`, and its expression kept for the cell below to the left. The
range that it adds up would start left of the first column there. -/
theorem Expr.ofFormula_placed_clipped :
    ∃ x y, ofFormula ⟨0, 2, 2⟩ "=SUM(A1:B2)&C4" = .ok x
      ∧ ofFormula ⟨0, 0, 0⟩ "=SUM(A1:B2)&C4" = .ok y
      ∧ (∀ skip, y.dependencies skip ⟨0, 0, 0⟩ = x.dependencies skip ⟨0, 2, 2⟩)
      ∧ (∀ s : Sheet, s.evaluate (y.evaluate .builtin ⟨0, 0, 0⟩)
          = s.evaluate (x.evaluate .builtin ⟨0, 2, 2⟩))
      ∧ x.dependencies (fun _ => false) ⟨0, 2, 2⟩
          = [.range ⟨⟨0, 0, 0⟩, 2, 2, by decide, by decide⟩, .cell ⟨0, 2, 3⟩]
      ∧ x.dependencies (fun _ => false) ⟨0, 1, 3⟩ = [.cell ⟨0, 1, 4⟩] := by
  have hx : ofFormula ⟨0, 2, 2⟩ "=SUM(A1:B2)&C4" =
      .ok (.binary .concat (.call "SUM" [.range ⟨⟨-2, -2⟩, ⟨-1, -1⟩⟩]) (.cell ⟨0, 1⟩)) := by
    rfl
  have hplaced := @ofFormula_placed ⟨0, 2, 2⟩ ⟨0, 0, 0⟩ rfl "=SUM(A1:B2)&C4"
  obtain ⟨y, hy⟩ := hplaced.1.1 ⟨_, hx⟩
  obtain ⟨helsewhere, hmoved⟩ := hplaced.2 _ hx
  obtain ⟨hdependencies, hvalue⟩ := helsewhere y hy
  exact ⟨_, y, hx, hy, hdependencies, hvalue, rfl,
    (hmoved (-1) 1 ⟨0, 1, 3⟩ (by decide) _).trans (by decide)⟩

end Recalc
