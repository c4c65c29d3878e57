import Recalc.Proofs.Evaluation.Alike
import Recalc.Proofs.Expr.WellFormed

/-!
# What a lookup fetches

A lookup fetches a cell of its range. To say so of every lookup that an evaluation comes to, however
deep in a formula, the function is given a twin that fetches such cells only and falls into a trap
instead of fetching another one. An evaluation does the same with the twin, whatever the trap would
do.
-/

namespace Recalc

/-! ## Lookups -/

namespace Function

/-- The column and the row are those of the range, and the cell is in it and on the sheet. -/
structure Place.Within (p : Place) (cells : CellMap) : Prop where
  column_pos : 1 ≤ p.column
  column_lt : p.column - 1 < p.range.width
  row_lt : p.row < p.range.height
  contains : p.range.contains p.address = true
  inBounds : cells.inBounds p.address = true

instance (p : Place) (cells : CellMap) : Decidable (p.Within cells) :=
  decidable_of_iff (1 ≤ p.column ∧ p.column - 1 < p.range.width ∧ p.row < p.range.height
      ∧ p.range.contains p.address = true ∧ cells.inBounds p.address = true)
    ⟨fun ⟨h₁, h₂, h₃, h₄, h₅⟩ => ⟨h₁, h₂, h₃, h₄, h₅⟩,
      fun ⟨h₁, h₂, h₃, h₄, h₅⟩ => ⟨h₁, h₂, h₃, h₄, h₅⟩⟩

theorem Place.within {p : Place} {cells : CellMap} (hpos : 1 ≤ p.column)
    (hcolumn : p.column - 1 < p.range.width) (hrow : p.row < p.range.height)
    (hin : cells.rangeInBounds p.range = true) : p.Within cells where
  column_pos := hpos
  column_lt := hcolumn
  row_lt := hrow
  contains := by simp [Range.contains, address, Range.address, hcolumn, hrow]
  inBounds := (cells.rangeInBounds_iff p.range).mp hin _ (p.range.address_mem hcolumn hrow)

theorem one_le_of_columnChoice {width column : Nat} {x : Float} (hx : x.isNaN = false)
    (h : columnChoice width x = .ok column) : 1 ≤ column := by
  rw [columnChoice] at h
  split at h
  · split at h
    · cases h
    · split at h
      · cases h
      · obtain rfl := Except.ok.inj h
        omega
  · rw [if_neg (Bool.eq_false_iff.mp hx)] at h
    split at h <;> cases h

variable {view : View} {arguments arguments' : List Argument} {home : Address} {registered : Nat}

theorem alike_checkSorted {more more' : List Argument}
    (h : List.Forall₂ (Argument.Alike view view.FittingCaches) more more') :
    Attempt.Alike view view.FittingCaches (fun _ => True) (checkSorted more.head?)
      (checkSorted more'.head?) := by
  cases h with
  | nil => exact Attempt.alike_pure trivial
  | cons ha _ =>
      refine (Attempt.alike_eval ha.value).bind fun v _ => ?_
      cases v with
      | boolean b => exact Attempt.alike_pure trivial
      | _ => exact Attempt.alike_throw _

theorem alike_lookUpPlace (h : view.Proper)
    (hargs : List.Forall₂ (Argument.Alike view view.FittingCaches) arguments arguments') :
    Attempt.Alike view view.FittingCaches (fun p => p.Within view.cells)
      (lookUpPlace ⟨home, arguments, registered⟩)
      (lookUpPlace ⟨home, arguments', registered⟩) := by
  refine (alike_checkArity hargs 3 4).bind fun _ _ => ?_
  rcases hargs with _ | ⟨hkey, _ | ⟨hrange, _ | ⟨hindex, hsorted⟩⟩⟩
  · exact Attempt.alike_throw _
  · exact Attempt.alike_throw _
  · exact Attempt.alike_throw _
  · refine hkey.lookupKey.bind fun key _ => hrange.range.bind fun r _ => ?_
    refine hindex.indexNumber.bind fun x hx => (alike_checkSorted hsorted).bind fun _ _ => ?_
    refine (Attempt.alike_except fun _ h => h).bind fun column hcolumn => ?_
    refine (Attempt.alike_findRow h key r).bind fun found hfound => ?_
    cases found with
    | none => exact Attempt.alike_throw _
    | some row =>
        obtain ⟨hrow, hin⟩ := hfound row rfl
        exact Attempt.alike_pure (Place.within (one_le_of_columnChoice hx hcolumn)
          (lt_of_columnChoice r.width_pos hcolumn) hrow hin)

/-- Look up as `lookUpRow` does, but fetch cells of the range only. -/
def lookUpWithin (trap : Place → Eval Value) (call : Call) : Eval Value :=
  Eval.settle do
    let p ← lookUpPlace call
    let view ← read
    if p.Within view.cells then Eval.cell p.address else trap p

theorem alike_lookUpRow (h : view.Proper)
    (hargs : List.Forall₂ (Argument.Alike view view.FittingCaches) arguments arguments')
    (trap : Place → Eval Value) :
    Eval.Alike view view.FittingCaches Value.Proper (lookUpRow ⟨home, arguments, registered⟩)
      (lookUpWithin trap ⟨home, arguments', registered⟩) := by
  refine Eval.alike_settle ((alike_lookUpPlace h hargs).bind fun p hp c hc => ?_)
  refine ⟨?_, (Attempt.alike_eval (Eval.alike_cell h p.address) c hc).2⟩
  change (if p.Within view.cells then _ else _ : Attempt Value).run view c = _
  rw [if_pos hp]

/-- A lookup gives the value of the place that it comes to. -/
theorem lookUpRow_of_place {call : Call} {view : View} {c : Caches} {p : Place}
    (h : ((lookUpPlace call).run view c).1 = .ok p) :
    (lookUpRow call view c).1 = view.cellValue p.address := by
  let fetch : Place → Attempt Value := fun p => liftM (Eval.cell p.address)
  change Value.ofExcept (ExceptT.bindCont fetch ((lookUpPlace call).run view c).1 view
    ((lookUpPlace call).run view c).2).1 = _
  rw [h]
  rfl

/-- The twin of `lookUpRow` under the same name. -/
def within (trap : Place → Eval Value) : Function :=
  ⟨"VLOOKUP", "VLOOKUP", false, lookUpWithin trap⟩

theorem alike_run (hview : view.Proper) {f : Function} (hf : f ∈ builtin)
    (hname : f.name ≠ "VLOOKUP")
    (hargs : List.Forall₂ (Argument.Alike view view.FittingCaches) arguments arguments') :
    Eval.Alike view view.FittingCaches Value.Proper (f.run ⟨home, arguments, registered⟩)
      (f.run ⟨home, arguments', registered⟩) := by
  simp only [builtin, arithmetic, binary, lookup, List.cons_append, List.nil_append,
    List.mem_cons, List.not_mem_nil, or_false] at hf
  rcases hf with rfl | rfl | rfl | rfl | rfl | rfl | rfl | rfl | rfl | rfl | rfl
  · exact alike_ofNumber _ hargs
  · exact alike_sum hview hargs
  · exact alike_bitwise _ hargs
  · exact alike_bitwise _ hargs
  · exact alike_bitwise _ hargs
  · exact alike_binaryToDecimal hargs
  · exact alike_decimalToBinary hargs
  · exact absurd rfl hname
  · exact alike_matchPosition hview hargs
  · exact alike_shape Range.width hargs
  · exact alike_shape Range.height hargs

end Function

namespace Registry

/-- The functions that are always there, with the twin in place of the lookup. -/
def within (trap : Function.Place → Eval Value) : Registry := builtin.register (.within trap)

theorem find?_builtin_lookup {name : String} (h : Text.toCapitals name = "VLOOKUP") :
    builtin.find? name = some ⟨"VLOOKUP", "VLOOKUP", false, Function.lookUpRow⟩ :=
  find?_builtin_of_mem (by simp [Function.builtin, Function.lookup]) h.symm

variable (trap : Function.Place → Eval Value)

theorem find?_within (name : String) :
    (within trap).find? name =
      if Text.toCapitals name = "VLOOKUP" then some (.within trap) else builtin.find? name := by
  have hname : Text.toCapitals "VLOOKUP" = "VLOOKUP" := by decide +kernel
  rw [within, find?_register, show (Function.within trap).name = "VLOOKUP" from rfl, hname]
  simp only [eq_comm]

theorem size_within : (within trap).size = builtin.size := by
  have hname : Text.toCapitals "VLOOKUP" = "VLOOKUP" := by decide +kernel
  have hmem : Text.toCapitals "VLOOKUP" ∈ builtin.functions := by
    rw [Std.TreeMap.mem_iff_isSome_getElem?]
    exact Option.isSome_of_eq_some (find?_builtin_lookup hname)
  rw [size, within, register, Std.TreeMap.size_insert]
  exact if_pos hmem

/-- The twin reads its arguments' cells as the lookup does. -/
theorem shapeOnly_within : (within trap).shapeOnly = builtin.shapeOnly := by
  funext name
  rw [shapeOnly, shapeOnly, find?_within]
  split
  · next h =>
      rw [find?_builtin_lookup h]
      rfl
  · rfl

end Registry

namespace Expr

variable {view : View} {written home : Address} {x : Expr} {arguments : List Expr}

theorem alike_argumentsOf_of_forall {functions functions' : Registry}
    (h : ∀ x ∈ arguments, Eval.Alike view view.FittingCaches Value.Proper
      (x.evaluate functions home) (x.evaluate functions' home)) :
    List.Forall₂ (Argument.Alike view view.FittingCaches)
      (argumentsOf functions home arguments) (argumentsOf functions' home arguments) := by
  rw [argumentsOf_eq_map, argumentsOf_eq_map]
  exact List.forall₂_map_left_iff.mpr (List.forall₂_map_right_iff.mpr
    (List.forall₂_same.mpr fun x hx => ⟨rfl, h x hx⟩))

/-- Expressions that can be written have proper values, and nothing falls into the trap. -/
theorem WellFormed.alike_evaluate (hx : x.WellFormed written) (hview : view.Proper)
    (trap : Function.Place → Eval Value) (home : Address) :
    Eval.Alike view view.FittingCaches Value.Proper (x.evaluate Registry.builtin home)
      (x.evaluate (Registry.within trap) home) := by
  induction hx with
  | number _ hread =>
      exact Eval.alike_pure (p := Value.Proper) (Decimal.isNaN_of_read? hread)
  | text | boolean | error | range => exact Eval.alike_pure trivial
  | @cell r =>
      rw [evaluate, evaluate]
      cases r.resolve? home with
      | none => exact Eval.alike_pure trivial
      | some a => exact Eval.alike_cell hview a
  | @binary op _ _ _ _ _ _ ihl ihr =>
      rw [evaluate, evaluate]
      exact ihl.bind fun v _ => ihr.bind fun w _ => Eval.alike_pure (op.proper_apply v w)
  | @unary op _ _ _ ih =>
      rw [evaluate, evaluate]
      exact ih.bind fun v hv => Eval.alike_pure (op.proper_apply hv)
  | paren _ ih =>
      rw [evaluate, evaluate]
      exact ih
  | @call name arguments _ _ _ ih =>
      have hargs := alike_argumentsOf_of_forall ih
      rw [evaluate, evaluate, Registry.find?_within, Registry.size_within]
      by_cases hname : Text.toCapitals name = "VLOOKUP"
      · rw [if_pos hname, Registry.find?_builtin_lookup hname]
        exact Function.alike_lookUpRow hview hargs trap
      · rw [if_neg hname]
        cases hf : Registry.builtin.find? name with
        | none => exact Eval.alike_pure trivial
        | some f =>
            obtain ⟨hmem, hcapitals⟩ := Registry.of_find?_builtin hf
            exact Function.alike_run hview hmem (hcapitals ▸ hname) hargs

theorem alike_argumentsOf (hview : view.Proper) (trap : Function.Place → Eval Value)
    (home : Address) (h : ∀ x ∈ arguments, x.WellFormed written) :
    List.Forall₂ (Argument.Alike view view.FittingCaches)
      (argumentsOf Registry.builtin home arguments)
      (argumentsOf (Registry.within trap) home arguments) :=
  alike_argumentsOf_of_forall fun x hx => (h x hx).alike_evaluate hview trap home

/-! ## The calls in a formula -/

mutual

/-- The calls in an expression, at any depth, with their arguments. -/
def calls : Expr → List (String × List Expr)
  | number _ | text _ | boolean _ | error _ | cell _ | range _ => []
  | binary _ left right => left.calls ++ right.calls
  | unary _ operand => operand.calls
  | paren inner => inner.calls
  | call name arguments => (name, arguments) :: callsOf arguments

/-- The calls in a list of arguments. -/
def callsOf : List Expr → List (String × List Expr)
  | [] => []
  | x :: xs => x.calls ++ callsOf xs

end

theorem callsOf_eq_flatMap (xs : List Expr) : callsOf xs = xs.flatMap calls := by
  induction xs with
  | nil => rfl
  | cons x xs ih => rw [callsOf, ih, List.flatMap_cons]

theorem WellFormed.arguments_of_mem_calls (hx : x.WellFormed home) {name : String}
    (hcall : (name, arguments) ∈ x.calls) : ∀ y ∈ arguments, y.WellFormed home := by
  induction hx with
  | number | text | boolean | error | cell | range => cases hcall
  | binary _ _ _ _ ihl ihr =>
      rw [calls, List.mem_append] at hcall
      exact hcall.elim ihl ihr
  | unary _ _ ih => exact ih hcall
  | paren _ ih => exact ih hcall
  | call _ _ hargs ih =>
      rw [calls, callsOf_eq_flatMap, List.mem_cons, List.mem_flatMap] at hcall
      rcases hcall with heq | ⟨y, hy, hcall⟩
      · obtain ⟨-, rfl⟩ := Prod.mk.inj heq
        exact hargs
      · exact ih y hy hcall

end Expr

end Recalc
