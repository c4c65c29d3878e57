import Mathlib.Data.List.Nodup
import Recalc.Proofs.Evaluation.Meaning
import Recalc.Proofs.Rectangle

/-!
# What a meaning depends on

A formula's meaning is the same in two grids that agree on the cells it names and on those of the
ranges it names. The arguments of a function that looks at the shape of a range only need not agree.
-/

namespace Recalc

/-! ## The functions that are always there -/

namespace Registry

theorem of_find?_registerAll {r : Registry} {fs : List Function} {name : String} {f : Function}
    (h : (r.registerAll fs).find? name = some f) :
    f ∈ fs ∧ Text.toCapitals f.name = Text.toCapitals name ∨ r.find? name = some f := by
  induction fs generalizing r with
  | nil => exact Or.inr h
  | cons first fs ih =>
      rcases ih (r := r.register first) h with hf | hf
      · exact Or.inl ⟨List.mem_cons_of_mem _ hf.1, hf.2⟩
      · rw [find?_register] at hf
        split at hf
        · next hname =>
            obtain rfl := Option.some.inj hf
            exact Or.inl ⟨List.mem_cons_self, hname⟩
        · exact Or.inr hf

theorem ne_of_find?_registerAll {r : Registry} {fs : List Function} {name : String}
    (h : (r.registerAll fs).find? name = none) :
    r.find? name = none ∧ ∀ f ∈ fs, Text.toCapitals f.name ≠ Text.toCapitals name := by
  induction fs generalizing r with
  | nil => exact ⟨h, nofun⟩
  | cons first fs ih =>
      obtain ⟨hfirst, hrest⟩ := ih (r := r.register first) h
      rw [find?_register] at hfirst
      split at hfirst
      · cases hfirst
      · next hname =>
          refine ⟨hfirst, fun f hf => ?_⟩
          rcases List.mem_cons.mp hf with rfl | hf
          · exact hname
          · exact hrest f hf

end Registry

/-- The functions of `Registry.builtin`. -/
def Function.builtin : List Function := arithmetic ++ binary ++ lookup

theorem Function.toCapitals_builtin : ∀ f ∈ builtin, Text.toCapitals f.name = f.name := by
  decide +kernel

theorem Registry.of_find?_builtin {name : String} {f : Function}
    (h : builtin.find? name = some f) : f ∈ Function.builtin ∧ f.name = Text.toCapitals name := by
  rcases of_find?_registerAll h with ⟨hf, hname⟩ | hf
  · exact ⟨hf, (Function.toCapitals_builtin f hf).symm.trans hname⟩
  · rw [find?_empty] at hf
    cases hf

theorem Registry.ne_of_find?_builtin {name : String} (h : builtin.find? name = none) :
    ∀ f ∈ Function.builtin, f.name ≠ Text.toCapitals name := by
  intro f hf hname
  exact (ne_of_find?_registerAll h).2 f hf ((Function.toCapitals_builtin f hf).trans hname)

/-- A function that is always there is found by its name in either case. -/
theorem Registry.find?_builtin_of_mem {name : String} {f : Function} (hf : f ∈ Function.builtin)
    (hname : f.name = Text.toCapitals name) : builtin.find? name = some f := by
  have hnodup : (Function.builtin.map Function.name).Nodup := by decide +kernel
  cases hfind : builtin.find? name with
  | none => exact absurd hname (ne_of_find?_builtin hfind f hf)
  | some g =>
      obtain ⟨hg, hname'⟩ := of_find?_builtin hfind
      rw [List.inj_on_of_nodup_map hnodup hg hf (hname'.trans hname.symm)]

theorem Registry.shapeOnly_builtin_iff (name : String) :
    builtin.shapeOnly name = true ↔
      Text.toCapitals name = "COLUMNS" ∨ Text.toCapitals name = "ROWS" := by
  have hall : ∀ f ∈ Function.builtin,
      f.shapeOnly = true ↔ f.name = "COLUMNS" ∨ f.name = "ROWS" := by decide +kernel
  have hnames : ∀ s, s = "COLUMNS" ∨ s = "ROWS" → ∃ f ∈ Function.builtin, f.name = s := by
    rintro s (rfl | rfl) <;> decide +kernel
  rw [shapeOnly]
  cases hf : builtin.find? name with
  | some f =>
      obtain ⟨hmem, hname⟩ := of_find?_builtin hf
      rw [Option.any_some, hall f hmem, hname]
  | none =>
      apply iff_of_false nofun
      intro hs
      obtain ⟨f, hmem, hname⟩ := hnames _ hs
      exact ne_of_find?_builtin hf f hmem hname

/-! ## Grids that agree -/

namespace Dependency

/-- The cells that a dependency covers. -/
def addresses : Dependency → List Address
  | .cell a => [a]
  | .range r => r.addresses

end Dependency

namespace Grid

/-- All of a dependency is on the sheet. -/
def Covers (g : Grid) (d : Dependency) : Prop := ∀ a ∈ d.addresses, g.inBounds a = true

/-- The grids have the same cells, with the same values in each dependency that stays on the
sheet. -/
structure AgreeOn (g h : Grid) (dependencies : List Dependency) : Prop where
  inBounds : g.inBounds = h.inBounds
  stored : ∀ d ∈ dependencies, g.Covers d → ∀ a ∈ d.addresses, g.stored a = h.stored a

variable {g h : Grid} {dependencies : List Dependency}

theorem AgreeOn.mono (agree : g.AgreeOn h dependencies) {fewer : List Dependency}
    (hsub : fewer ⊆ dependencies) : g.AgreeOn h fewer :=
  ⟨agree.inBounds, fun d hd => agree.stored d (hsub hd)⟩

theorem AgreeOn.cell (agree : g.AgreeOn h dependencies) {a : Address}
    (ha : .cell a ∈ dependencies) : g.cell a = h.cell a := by
  rw [Grid.cell, Grid.cell, ← agree.inBounds]
  by_cases hin : g.inBounds a = true
  · have hcovers : g.Covers (.cell a) := fun b hb => List.mem_singleton.mp hb ▸ hin
    rw [agree.stored _ ha hcovers a (List.mem_singleton.mpr rfl)]
  · rw [if_neg hin, if_neg hin]

theorem covers_range_iff (g : Grid) (r : Range) :
    g.Covers (.range r) ↔ r.addresses.all g.inBounds = true := List.all_eq_true.symm

theorem range_of_covers {r : Range} (hr : g.Covers (.range r)) :
    g.range r = .ok (r.addresses.map g.stored) :=
  if_pos ((g.covers_range_iff r).mp hr)

/-- A range that can be read is on the sheet. -/
theorem covers_of_range {r : Range} {values : List Value} (hr : g.range r = .ok values) :
    g.Covers (.range r) := by
  rw [Grid.range] at hr
  split at hr
  · next hall => exact (g.covers_range_iff r).mpr hall
  · cases hr

theorem AgreeOn.range (agree : g.AgreeOn h dependencies) {r : Range}
    (hr : .range r ∈ dependencies) : g.range r = h.range r := by
  rw [Grid.range, Grid.range, ← agree.inBounds]
  by_cases hall : r.addresses.all g.inBounds = true
  · have hvalues : r.addresses.map g.stored = r.addresses.map h.stored :=
      List.map_congr_left (agree.stored _ hr ((g.covers_range_iff r).mpr hall))
    rw [hvalues]
  · rw [if_neg hall, if_neg hall]

theorem AgreeOn.findRow (agree : g.AgreeOn h dependencies) {r : Range}
    (hr : .range r ∈ dependencies) (key : Value) : g.findRow key r = h.findRow key r := by
  rw [Grid.findRow, Grid.findRow, ← agree.range hr]
  cases hvalues : g.range r with
  | error e => rfl
  | ok values =>
      have hcolumn : (List.range r.height).map (fun row => g.stored (r.address 0 row))
          = (List.range r.height).map fun row => h.stored (r.address 0 row) :=
        List.map_congr_left fun row hrow => agree.stored _ hr (covers_of_range hvalues) _
          (r.address_mem r.width_pos (List.mem_range.mp hrow))
      rw [hcolumn]

theorem AgreeOn.findPosition (agree : g.AgreeOn h dependencies) {r : Range}
    (hr : .range r ∈ dependencies) (key : Value) :
    g.findPosition key r = h.findPosition key r := by
  rw [Grid.findPosition, Grid.findPosition, agree.findRow hr, agree.range hr]

end Grid

/-! ## Functions on grids that agree -/

theorem bind_congr_of_ok {α β : Type} {x : Except ErrorKind α} {f f' : α → Except ErrorKind β}
    (h : ∀ v, x = .ok v → f v = f' v) : (x >>= f) = (x >>= f') := by
  cases x with
  | error e => rfl
  | ok v => exact h v rfl

theorem ColumnIndex.lt_of_extend (values : List Value) {index : ColumnIndex} {first : Nat}
    (hindex : ∀ (key : LookupKey) (row : Nat), index.rows[key]? = some row → row < first)
    {key : LookupKey} {row : Nat} (h : (index.extend first values).rows[key]? = some row) :
    row < first + values.length := by
  induction values generalizing index first with
  | nil => exact hindex key row h
  | cons v values ih =>
      have hinsert : ∀ (key : LookupKey) (row : Nat),
          (index.insert first v).rows[key]? = some row → row < first + 1 := by
        intro key row hrow
        rw [ColumnIndex.insert] at hrow
        split at hrow
        · rw [Std.TreeMap.getElem?_insertIfNew] at hrow
          split at hrow
          · obtain rfl := Option.some.inj hrow
            exact Nat.lt_succ_self _
          · exact Nat.lt_succ_of_lt (hindex key row hrow)
        · exact Nat.lt_succ_of_lt (hindex key row hrow)
      have := ih hinsert h
      rw [List.length_cons]
      omega

/-- A row that is found is a row of the column. -/
theorem ColumnIndex.lt_of_find?_ofList {column : List Value} {key : Value} {row : Nat}
    (h : (ofList column).find? key = some row) : row < column.length := by
  obtain ⟨k, -, hk⟩ := Option.bind_eq_some_iff.mp h
  have hempty : ∀ (key : LookupKey) (row : Nat), empty.rows[key]? = some row → row < 0 :=
    fun key row hrow => by simp [empty] at hrow
  have := lt_of_extend column hempty hk
  omega

/-- A row is found in a range on the sheet, and it is a row of that range. -/
theorem Grid.of_findRow {g : Grid} {key : Value} {r : Range} {row : Nat}
    (h : g.findRow key r = .ok (some row)) : g.Covers (.range r) ∧ row < r.height := by
  rw [findRow] at h
  cases hvalues : g.range r with
  | error e =>
      rw [hvalues] at h
      cases h
  | ok values =>
      rw [hvalues] at h
      have hrow := ColumnIndex.lt_of_find?_ofList (Except.ok.inj h)
      rw [List.length_map, List.length_range] at hrow
      exact ⟨covers_of_range hvalues, hrow⟩

theorem Function.lt_of_columnChoice {width : Nat} {x : Float} {column : Nat} (hwidth : 0 < width)
    (h : columnChoice width x = .ok column) : column - 1 < width := by
  rw [columnChoice] at h
  split at h
  · split at h
    · cases h
    · split at h
      · cases h
      · obtain rfl := Except.ok.inj h
        omega
  · split at h
    · obtain rfl := Except.ok.inj h
      exact hwidth
    · split at h <;> cases h

namespace Grid

variable {g h : Grid} {dependencies : List Dependency} {operands : List Operand}

/-- Every range among the operands is a dependency. -/
def Names (dependencies : List Dependency) (operands : List Operand) : Prop :=
  ∀ o ∈ operands, ∀ r, o.range? = some (some r) → .range r ∈ dependencies

theorem range?_of_range_eq_ok {o : Operand} {r : Range} (h : o.range = .ok r) :
    o.range? = some (some r) := by
  rw [Operand.range] at h
  split at h
  · cases h
  · cases h
  · next heq => rw [heq, Except.ok.inj h]

theorem AgreeOn.sum (agree : g.AgreeOn h dependencies) (names : Names dependencies operands) :
    g.sum operands = h.sum operands := by
  have hfold : ∀ total, operands.foldlM g.addOperand total
      = operands.foldlM h.addOperand total := by
    induction operands with
    | nil => exact fun total => rfl
    | cons o operands ih =>
        intro total
        have ho : g.addOperand total o = h.addOperand total o := by
          rw [addOperand, addOperand]
          split
          · rfl
          · next r hr => rw [agree.range (names o List.mem_cons_self r hr)]
          · rfl
        rw [List.foldlM_cons, List.foldlM_cons, ho]
        exact bind_congr_of_ok fun total _ =>
          ih (fun o ho => names o (List.mem_cons_of_mem _ ho)) total
  rw [Grid.sum, Grid.sum, hfold]

theorem AgreeOn.lookUpRow (agree : g.AgreeOn h dependencies)
    (names : Names dependencies operands) : g.lookUpRow operands = h.lookUpRow operands := by
  unfold Grid.lookUpRow
  apply bind_congr_of_ok
  intro _ _
  rcases operands with _ | ⟨key, _ | ⟨range, _ | ⟨index, sorted⟩⟩⟩
  · rfl
  · rfl
  · rfl
  · refine bind_congr_of_ok fun key _ => bind_congr_of_ok fun r hr => ?_
    refine bind_congr_of_ok fun x _ => bind_congr_of_ok fun _ _ => ?_
    apply bind_congr_of_ok
    intro column hcolumn
    have hr' := names range (by simp) r (range?_of_range_eq_ok hr)
    rw [agree.findRow hr' key]
    apply bind_congr_of_ok
    intro row hrow
    cases row with
    | none => rfl
    | some row =>
        rw [← agree.findRow hr' key] at hrow
        obtain ⟨hcovers, hlt⟩ := of_findRow hrow
        have hmem := r.address_mem (Function.lt_of_columnChoice r.width_pos hcolumn) hlt
        have hcell : g.cell (r.address (column - 1) row) = h.cell (r.address (column - 1) row) := by
          rw [Grid.cell, Grid.cell, ← agree.inBounds, agree.stored _ hr' hcovers _ hmem]
        exact congrArg Except.ok hcell

theorem AgreeOn.matchPosition (agree : g.AgreeOn h dependencies)
    (names : Names dependencies operands) :
    g.matchPosition operands = h.matchPosition operands := by
  unfold Grid.matchPosition
  apply bind_congr_of_ok
  intro _ _
  rcases operands with _ | ⟨key, _ | ⟨range, rest⟩⟩
  · rfl
  · rfl
  · refine bind_congr_of_ok fun key _ => bind_congr_of_ok fun r hr => ?_
    rw [agree.findPosition (names range (by simp) r (range?_of_range_eq_ok hr)) key]

theorem AgreeOn.call (agree : g.AgreeOn h dependencies) (names : Names dependencies operands)
    (name : String) : g.call operands name = h.call operands name := by
  unfold Grid.call
  split
  case h_2 => exact agree.sum names
  case h_8 => exact agree.lookUpRow names
  case h_9 => exact agree.matchPosition names
  all_goals rfl

/-- The measure of a range depends on how the argument is written only. -/
theorem shape_congr (measure : Range → Nat) {operands others : List Operand}
    (hranges : operands.map Operand.range? = others.map Operand.range?) :
    shape measure operands = shape measure others := by
  have hlength := congrArg List.length hranges
  rw [List.length_map, List.length_map] at hlength
  unfold shape
  rw [hlength]
  apply bind_congr_of_ok
  intro _ hone
  rcases operands with _ | ⟨a, _ | ⟨_, rest⟩⟩ <;> rcases others with _ | ⟨b, _ | ⟨_, rest'⟩⟩ <;>
    try simp at hlength
  · rfl
  · simp only [List.map_cons, List.map_nil, List.cons.injEq, and_true] at hranges
    simp only [Operand.range, hranges]
  · rfl

theorem call_shape_congr {name : String} (hname : Registry.builtin.shapeOnly name = true)
    (g h : Grid) {operands others : List Operand}
    (hranges : operands.map Operand.range? = others.map Operand.range?) :
    g.call operands (Text.toCapitals name) = h.call others (Text.toCapitals name) := by
  rcases (Registry.shapeOnly_builtin_iff name).mp hname with hs | hs <;> rw [hs]
  · exact shape_congr Range.width hranges
  · exact shape_congr Range.height hranges

end Grid

/-! ## Expressions -/

namespace Expr

mutual

/-- The cells and ranges that the value of an expression at `home` is taken from. A range is read
only where it is written as an argument. -/
def inputs (skip : String → Bool) (home : Address) : Expr → List Dependency
  | number _ | text _ | boolean _ | error _ | range _ => []
  | cell r => ((r.resolve? home).map Dependency.cell).toList
  | binary _ left right => left.inputs skip home ++ right.inputs skip home
  | unary _ operand => operand.inputs skip home
  | paren inner => inner.inputs skip home
  | call name arguments => if skip name then [] else inputsOf skip home arguments

/-- The inputs of a list of arguments. -/
def inputsOf (skip : String → Bool) (home : Address) : List Expr → List Dependency
  | [] => []
  | x :: xs => ((x.literalRange? home).join.map Dependency.range).toList ++ x.inputs skip home
      ++ inputsOf skip home xs

end

variable {home : Address} {skip : String → Bool} {d : Dependency} {xs : List Expr}

theorem mem_inputsOf_iff : d ∈ inputsOf skip home xs ↔
    ∃ x ∈ xs, (∃ r, x.literalRange? home = some (some r) ∧ .range r = d)
      ∨ d ∈ x.inputs skip home := by
  induction xs with
  | nil => simp [inputsOf]
  | cons x xs ih =>
      rw [inputsOf, List.mem_append, List.mem_append, ih, Option.mem_toList,
        Option.map_eq_some_iff]
      simp only [Option.join_eq_some_iff, List.mem_cons, exists_eq_or_imp]

theorem dependencies_call_subset {name : String} {arguments : List Expr}
    (hskip : skip name = false) {x : Expr} (hx : x ∈ arguments) :
    x.dependencies skip home ⊆ (call name arguments).dependencies skip home := by
  intro d hd
  rw [dependencies, hskip, dependenciesOf_eq_flatMap]
  exact List.mem_flatMap.mpr ⟨x, hx, hd⟩

/-- An argument that is written as a range names that range. -/
theorem range_mem_dependencies {x : Expr} {r : Range}
    (h : x.literalRange? home = some (some r)) : .range r ∈ x.dependencies skip home := by
  cases x with
  | range ref =>
      rw [literalRange?, Option.some_inj] at h
      simp [dependencies, h]
  | _ => cases h

/-- A formula names all that it reads. -/
theorem inputs_subset (x : Expr) : x.inputs skip home ⊆ x.dependencies skip home := by
  induction x using Expr.induct with
  | number | text | boolean | error | range => exact List.nil_subset _
  | cell => exact List.Subset.refl _
  | binary op left right ihl ihr =>
      rw [inputs, dependencies]
      exact List.append_subset.mpr ⟨List.Subset.trans ihl (List.subset_append_left _ _),
        List.Subset.trans ihr (List.subset_append_right _ _)⟩
  | unary op operand ih => exact ih
  | paren inner ih => exact ih
  | call name arguments ih =>
      rw [inputs]
      cases hskip : skip name with
      | true => exact List.nil_subset _
      | false =>
          intro d hd
          obtain ⟨x, hx, ⟨r, hr, rfl⟩ | hd⟩ := mem_inputsOf_iff.mp hd
          · exact dependencies_call_subset hskip hx (range_mem_dependencies hr)
          · exact dependencies_call_subset hskip hx (ih x hx hd)

theorem inputs_call_subset {name : String} {arguments : List Expr} (hskip : skip name = false)
    {x : Expr} (hx : x ∈ arguments) :
    x.inputs skip home ⊆ (call name arguments).inputs skip home := by
  intro d hd
  rw [inputs, hskip]
  exact mem_inputsOf_iff.mpr ⟨x, hx, Or.inr hd⟩

theorem names_operandsOf (g : Grid) {name : String} {arguments : List Expr}
    (hskip : skip name = false) :
    Grid.Names ((call name arguments).inputs skip home) (operandsOf g home arguments) := by
  intro o ho r hr
  rw [operandsOf_eq_map] at ho
  obtain ⟨x, hx, rfl⟩ := List.mem_map.mp ho
  rw [inputs, hskip]
  exact mem_inputsOf_iff.mpr ⟨x, hx, Or.inl ⟨r, hr, rfl⟩⟩

/-- An expression means the same in grids that agree on what it reads. -/
theorem meaning_congr_inputs {g h : Grid} (x : Expr)
    (agree : g.AgreeOn h (x.inputs Registry.builtin.shapeOnly home)) :
    x.meaning g home = x.meaning h home := by
  induction x using Expr.induct with
  | number => rfl
  | text => rfl
  | boolean => rfl
  | error => rfl
  | range => rfl
  | cell r =>
      rw [meaning, meaning]
      cases hr : r.resolve? home with
      | none => rfl
      | some a =>
          have hmem : Dependency.cell a ∈ (cell r).inputs Registry.builtin.shapeOnly home := by
            simp [inputs, hr]
          exact agree.cell hmem
  | binary op left right ihl ihr =>
      rw [inputs] at agree
      rw [meaning, meaning, ihl (agree.mono (List.subset_append_left _ _)),
        ihr (agree.mono (List.subset_append_right _ _))]
  | unary op operand ih =>
      rw [inputs] at agree
      rw [meaning, meaning, ih agree]
  | paren inner ih =>
      rw [inputs] at agree
      rw [meaning, meaning, ih agree]
  | call name arguments ih =>
      rw [meaning, meaning]
      cases hskip : Registry.builtin.shapeOnly name with
      | true =>
          rw [Grid.call_shape_congr hskip g h]
          simp only [operandsOf_eq_map, List.map_map, Function.comp_def]
      | false =>
          have hoperands : operandsOf g home arguments = operandsOf h home arguments := by
            rw [operandsOf_eq_map, operandsOf_eq_map]
            apply List.map_congr_left
            intro x hx
            rw [ih x hx (agree.mono (inputs_call_subset hskip hx))]
          rw [hoperands, agree.call (names_operandsOf h hskip)]

/-- An expression means the same in grids that agree on what it names. -/
theorem meaning_congr {g h : Grid} (x : Expr)
    (agree : g.AgreeOn h (x.dependencies Registry.builtin.shapeOnly home)) :
    x.meaning g home = x.meaning h home :=
  x.meaning_congr_inputs (agree.mono x.inputs_subset)

end Expr

end Recalc
