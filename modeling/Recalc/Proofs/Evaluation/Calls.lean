import Recalc.Proofs.Evaluation.Caching

/-!
# Functions and expressions with caches

Every function that is always there gives its meaning if its arguments give theirs, and so does
every expression.
-/

namespace Recalc

/-- The argument gives the operand, and its range may be read. -/
structure Argument.Reads (view : View) (needed : Range → Prop) (a : Argument) (o : Operand) :
    Prop where
  range? : a.range? = o.range?
  value : Eval.Gives view (view.TrueCaches needed) a.value o.value
  needed : ∀ r, o.range? = some (some r) → needed r

section

variable {view : View} {needed : Range → Prop} {ok : Caches → Prop}

theorem Argument.range_congr {a : Argument} {o : Operand} (h : a.range? = o.range?) :
    a.range = o.range := by
  rcases hr : o.range? with _ | _ | r <;> simp only [Argument.range, Operand.range, h, hr]

namespace Attempt

variable {value : Eval Value} {o : Operand}

theorem gives_number (h : Eval.Gives view ok value o.value) :
    Gives view ok (number value) o.number := by
  apply gives_bind_eval h
  rw [Operand.number]
  cases o.value.toNumber with
  | ok x => exact gives_pure x
  | error e => exact gives_throw e

theorem gives_scalar (h : Eval.Gives view ok value o.value) :
    Gives view ok (scalar value) o.scalar := by
  apply gives_bind_eval h
  rw [Operand.scalar]
  cases o.value with
  | error e => exact gives_throw e
  | _ => exact gives_pure _

theorem gives_lookupKey (h : Eval.Gives view ok value o.value) :
    Gives view ok (Function.lookupKey value) o.key := by
  apply gives_bind_eval h
  rw [Operand.key]
  cases o.value with
  | empty => exact gives_throw _
  | error e => exact gives_throw _
  | _ => exact gives_pure _

theorem gives_indexNumber (h : Eval.Gives view ok value o.value) :
    Gives view ok (Function.indexNumber value) o.column := by
  apply gives_bind_eval h
  rw [Operand.column]
  cases o.value with
  | number x => exact gives_pure x
  | _ => exact gives_throw _

end Attempt

theorem Grid.call_eq_error (g : Grid) (operands : List Operand) {name : String}
    (hname : ∀ f ∈ Function.builtin, f.name ≠ name) :
    g.call operands name = .error .unknownName := by
  simp only [Function.builtin, Function.arithmetic, Function.binary, Function.lookup,
    List.cons_append, List.nil_append, List.forall_mem_cons] at hname
  unfold Grid.call
  split <;> simp_all

/-! ## Functions of values -/

namespace Function

variable {arguments : List Argument} {operands : List Operand} {home : Address} {registered : Nat}

theorem gives_ofNumber (f : Float → Float)
    (reads : List.Forall₂ (Argument.Reads view needed) arguments operands) :
    Eval.Gives view (view.TrueCaches needed) (ofNumber f ⟨home, arguments, registered⟩)
      (Value.ofExcept (Grid.ofNumber f operands)) := by
  apply Eval.gives_settle
  rcases reads with _ | ⟨ha, _ | ⟨_, _⟩⟩
  · exact Attempt.gives_throw _
  · exact Attempt.Gives.bind (Attempt.gives_number ha.value) fun x _ => Attempt.gives_except _
  · exact Attempt.gives_throw _

theorem gives_bitwise (f : Nat → Nat → Nat)
    (reads : List.Forall₂ (Argument.Reads view needed) arguments operands) :
    Eval.Gives view (view.TrueCaches needed) (bitwise f ⟨home, arguments, registered⟩)
      (Value.ofExcept (Grid.bitwise f operands)) := by
  apply Eval.gives_settle
  unfold Grid.bitwise
  rw [← reads.length_eq]
  apply Attempt.Gives.bind (Attempt.gives_except _)
  intro _ _
  rcases reads with _ | ⟨ha, _ | ⟨hb, _ | ⟨_, _⟩⟩⟩
  · exact Attempt.gives_throw _
  · exact Attempt.gives_throw _
  · apply Attempt.Gives.bind (Attempt.gives_number ha.value)
    intro x _
    apply Attempt.Gives.bind (Attempt.gives_except _)
    intro m _
    apply Attempt.Gives.bind (Attempt.gives_number hb.value)
    intro y _
    apply Attempt.Gives.bind (Attempt.gives_except _)
    intro n _
    exact Attempt.gives_pure _
  · exact Attempt.gives_throw _

theorem gives_binaryToDecimal
    (reads : List.Forall₂ (Argument.Reads view needed) arguments operands) :
    Eval.Gives view (view.TrueCaches needed) (binaryToDecimal ⟨home, arguments, registered⟩)
      (Value.ofExcept (Grid.binaryToDecimal operands)) := by
  apply Eval.gives_settle
  unfold Grid.binaryToDecimal
  rw [← reads.length_eq]
  apply Attempt.Gives.bind (Attempt.gives_except _)
  intro _ _
  rcases reads with _ | ⟨ha, _ | ⟨_, _⟩⟩
  · exact Attempt.gives_throw _
  · apply Attempt.Gives.bind (Attempt.gives_scalar ha.value)
    intro v _
    apply Attempt.Gives.bind (Attempt.gives_except _)
    intro digits _
    apply Attempt.Gives.bind (Attempt.gives_except _)
    intro n _
    exact Attempt.gives_pure _
  · exact Attempt.gives_throw _

theorem gives_decimalToBinary
    (reads : List.Forall₂ (Argument.Reads view needed) arguments operands) :
    Eval.Gives view (view.TrueCaches needed) (decimalToBinary ⟨home, arguments, registered⟩)
      (Value.ofExcept (Grid.decimalToBinary operands)) := by
  apply Eval.gives_settle
  unfold Grid.decimalToBinary
  rw [← reads.length_eq]
  apply Attempt.Gives.bind (Attempt.gives_except _)
  intro _ _
  rcases reads with _ | ⟨ha, hmore⟩
  · exact Attempt.gives_throw _
  · apply Attempt.Gives.bind (Attempt.gives_number ha.value)
    intro x _
    apply Attempt.Gives.bind (Attempt.gives_except _)
    intro n _
    by_cases hn : n < 0
    · simp only [hn, if_true]
      exact Attempt.gives_pure _
    · simp only [hn, if_false]
      rcases hmore with _ | ⟨hplaces, _⟩
      · exact Attempt.gives_pure _
      · apply Attempt.Gives.bind (Attempt.gives_number hplaces.value)
        intro x _
        apply Attempt.Gives.bind (Attempt.gives_except _)
        intro n _
        exact Attempt.gives_pure _

/-! ## Functions of ranges -/

theorem gives_addArgument (serves : view.Serves needed) {a : Argument} {o : Operand}
    (ha : a.Reads view needed o) (total : Float) :
    Attempt.Gives view (view.TrueCaches needed) (addArgument total a)
      (view.grid.addOperand total o) := by
  rw [addArgument, Grid.addOperand, ha.range?]
  rcases ho : o.range? with _ | _ | r
  · exact Attempt.Gives.bind (Attempt.gives_number ha.value) fun x _ => Attempt.gives_pure _
  · exact Attempt.gives_throw _
  · exact Attempt.Gives.bind (Attempt.gives_rangeValues serves (ha.needed r ho)) fun values _ =>
      Attempt.gives_except _

theorem gives_sum (serves : view.Serves needed)
    (reads : List.Forall₂ (Argument.Reads view needed) arguments operands) :
    Eval.Gives view (view.TrueCaches needed) (sum ⟨home, arguments, registered⟩)
      (Value.ofExcept (view.grid.sum operands)) := by
  have hfold : ∀ total, Attempt.Gives view (view.TrueCaches needed)
      (arguments.foldlM addArgument total) (operands.foldlM view.grid.addOperand total) := by
    induction reads with
    | nil => exact fun total => Attempt.gives_pure total
    | cons ha _ ih =>
        intro total
        exact Attempt.Gives.bind (gives_addArgument serves ha total) fun total _ => ih total
  apply Eval.gives_settle
  unfold Grid.sum
  rw [← reads.length_eq]
  apply Attempt.Gives.bind (Attempt.gives_except _)
  intro _ _
  exact Attempt.Gives.bind (hfold 0) fun total _ => Attempt.gives_except _

theorem gives_range {a : Argument} {o : Operand} (ha : a.range? = o.range?) :
    Attempt.Gives view ok (liftM a.range) o.range := by
  rw [Argument.range_congr ha]
  exact Attempt.gives_except _

theorem gives_checkSorted {more : List Argument} {others : List Operand}
    (reads : List.Forall₂ (Argument.Reads view needed) more others) :
    Attempt.Gives view (view.TrueCaches needed) (checkSorted more.head?)
      (Operand.checkBoolean others.head?) := by
  cases reads with
  | nil => exact Attempt.gives_pure _
  | @cons a o _ _ ha _ =>
      apply Attempt.gives_bind_eval ha.value
      rw [List.head?_cons, Operand.checkBoolean]
      cases o.value with
      | boolean b => exact Attempt.gives_pure _
      | _ => exact Attempt.gives_throw _

theorem gives_lookUpPlace (serves : view.Serves needed)
    (reads : List.Forall₂ (Argument.Reads view needed) arguments operands) :
    Attempt.Gives view (view.TrueCaches needed) (lookUpPlace ⟨home, arguments, registered⟩)
      (view.grid.lookUpPlace operands) := by
  unfold lookUpPlace Grid.lookUpPlace
  rw [← reads.length_eq]
  apply Attempt.Gives.bind (Attempt.gives_except _)
  intro _ _
  rcases reads with _ | ⟨hkey, _ | ⟨hrange, _ | ⟨hindex, hsorted⟩⟩⟩
  · exact Attempt.gives_throw _
  · exact Attempt.gives_throw _
  · exact Attempt.gives_throw _
  · apply Attempt.Gives.bind (Attempt.gives_lookupKey hkey.value)
    intro key _
    apply Attempt.Gives.bind (gives_range hrange.range?)
    intro r hr
    apply Attempt.Gives.bind (Attempt.gives_indexNumber hindex.value)
    intro x _
    apply Attempt.Gives.bind (gives_checkSorted hsorted)
    intro _ _
    apply Attempt.Gives.bind (Attempt.gives_except _)
    intro column _
    have hneeded := hrange.needed r (Grid.range?_of_range_eq_ok hr)
    apply Attempt.Gives.bind (Attempt.gives_findRow serves hneeded key)
    intro row _
    cases row with
    | none => exact Attempt.gives_throw _
    | some row => exact Attempt.gives_pure _

theorem gives_lookUpRow (serves : view.Serves needed)
    (reads : List.Forall₂ (Argument.Reads view needed) arguments operands) :
    Eval.Gives view (view.TrueCaches needed) (lookUpRow ⟨home, arguments, registered⟩)
      (Value.ofExcept (view.grid.lookUpRow operands)) := by
  apply Eval.gives_settle
  rw [Grid.lookUpRow_eq]
  exact Attempt.Gives.bind (gives_lookUpPlace serves reads) fun place _ =>
    Attempt.gives_eval (Eval.gives_cell _)

theorem gives_findPosition (serves : view.Serves needed) {r : Range} (hr : needed r)
    (key : Value) :
    Attempt.Gives view (view.TrueCaches needed) (findPosition key r)
      (view.grid.findPosition key r) := by
  rw [findPosition, Grid.findPosition]
  split
  · exact Attempt.gives_findRow serves hr key
  · exact Attempt.Gives.bind (Attempt.gives_rangeValues serves hr) fun values _ =>
      Attempt.gives_pure _

theorem gives_matchPosition (serves : view.Serves needed)
    (reads : List.Forall₂ (Argument.Reads view needed) arguments operands) :
    Eval.Gives view (view.TrueCaches needed) (matchPosition ⟨home, arguments, registered⟩)
      (Value.ofExcept (view.grid.matchPosition operands)) := by
  apply Eval.gives_settle
  unfold Grid.matchPosition
  rw [← reads.length_eq]
  apply Attempt.Gives.bind (Attempt.gives_except _)
  intro _ _
  rcases reads with _ | ⟨hkey, _ | ⟨hrange, _⟩⟩
  · exact Attempt.gives_throw _
  · exact Attempt.gives_throw _
  · apply Attempt.Gives.bind (Attempt.gives_lookupKey hkey.value)
    intro key _
    apply Attempt.Gives.bind (gives_range hrange.range?)
    intro r hr
    have hneeded := hrange.needed r (Grid.range?_of_range_eq_ok hr)
    apply Attempt.Gives.bind (gives_findPosition serves hneeded key)
    intro offset _
    cases offset with
    | none => exact Attempt.gives_throw _
    | some offset => exact Attempt.gives_pure _

theorem gives_shape (measure : Range → Nat)
    (ranges : List.Forall₂ (fun a o => a.range? = o.range?) arguments operands) :
    Eval.Gives view ok (shape measure ⟨home, arguments, registered⟩)
      (Value.ofExcept (Grid.shape measure operands)) := by
  apply Eval.gives_settle
  unfold Grid.shape
  rw [← ranges.length_eq]
  apply Attempt.Gives.bind (Attempt.gives_except _)
  intro _ _
  rcases ranges with _ | ⟨ha, _ | ⟨_, _⟩⟩
  · exact Attempt.gives_throw _
  · refine Attempt.Gives.bind (gives_range ha) fun r _ => Attempt.gives_pure _
  · exact Attempt.gives_throw _

/-- A function gives its meaning; one that looks at shapes only needs no values of arguments. -/
theorem gives_run (serves : view.Serves needed) {f : Function} (hf : f ∈ builtin)
    (ranges : List.Forall₂ (fun a o => a.range? = o.range?) arguments operands)
    (reads : f.shapeOnly = false →
      List.Forall₂ (Argument.Reads view needed) arguments operands) :
    Eval.Gives view (view.TrueCaches needed) (f.run ⟨home, arguments, registered⟩)
      (Value.ofExcept (view.grid.call operands f.name)) := by
  simp only [builtin, arithmetic, binary, lookup, List.cons_append, List.nil_append,
    List.mem_cons, List.not_mem_nil, or_false] at hf
  rcases hf with rfl | rfl | rfl | rfl | rfl | rfl | rfl | rfl | rfl | rfl | rfl
  · exact gives_ofNumber _ (reads rfl)
  · exact gives_sum serves (reads rfl)
  · exact gives_bitwise _ (reads rfl)
  · exact gives_bitwise _ (reads rfl)
  · exact gives_bitwise _ (reads rfl)
  · exact gives_binaryToDecimal (reads rfl)
  · exact gives_decimalToBinary (reads rfl)
  · exact gives_lookUpRow serves (reads rfl)
  · exact gives_matchPosition serves (reads rfl)
  · exact gives_shape Range.width ranges
  · exact gives_shape Range.height ranges

end Function

/-! ## Expressions -/

namespace Expr

/-- An expression whose ranges may be read gives its meaning. -/
theorem gives_evaluate (serves : view.Serves needed) (home : Address) (x : Expr)
    (hneeded : ∀ r, .range r ∈ x.dependencies Registry.builtin.shapeOnly home → needed r) :
    Eval.Gives view (view.TrueCaches needed) (x.evaluate Registry.builtin home)
      (x.meaning view.grid home) := by
  induction x using Expr.induct with
  | number => exact Eval.gives_pure _
  | text => exact Eval.gives_pure _
  | boolean => exact Eval.gives_pure _
  | error => exact Eval.gives_pure _
  | range => exact Eval.gives_pure _
  | cell r =>
      rw [evaluate, meaning]
      cases r.resolve? home with
      | none => exact Eval.gives_pure _
      | some a => exact Eval.gives_cell a
  | binary op left right ihl ihr =>
      rw [dependencies] at hneeded
      rw [evaluate, meaning]
      refine Eval.Gives.bind (ihl fun r hr => hneeded r (List.mem_append_left _ hr)) ?_
      refine Eval.Gives.bind (ihr fun r hr => hneeded r (List.mem_append_right _ hr)) ?_
      exact Eval.gives_pure _
  | unary op operand ih =>
      rw [dependencies] at hneeded
      rw [evaluate, meaning]
      exact Eval.Gives.bind (ih hneeded) (Eval.gives_pure _)
  | paren inner ih =>
      rw [dependencies] at hneeded
      rw [evaluate, meaning]
      exact ih hneeded
  | call name arguments ih =>
      rw [evaluate, meaning]
      cases hf : Registry.builtin.find? name with
      | none =>
          rw [Grid.call_eq_error _ _ (Registry.ne_of_find?_builtin hf)]
          exact Eval.gives_pure _
      | some f =>
          obtain ⟨hmem, hname⟩ := Registry.of_find?_builtin hf
          rw [← hname, argumentsOf_eq_map, operandsOf_eq_map]
          refine Function.gives_run serves hmem ?_ fun hshape => ?_
          · exact List.forall₂_map_left_iff.mpr (List.forall₂_map_right_iff.mpr
              (List.forall₂_same.mpr fun x _ => rfl))
          · have hskip : Registry.builtin.shapeOnly name = false := by
              rw [Registry.shapeOnly, hf, Option.any_some, hshape]
            refine List.forall₂_map_left_iff.mpr (List.forall₂_map_right_iff.mpr
              (List.forall₂_same.mpr fun x hx => ?_))
            have hsub := @dependencies_call_subset home _ _ _ hskip x hx
            exact ⟨rfl, ih x hx fun r hr => hneeded r (hsub hr),
              fun r hr => hneeded r (hsub (range_mem_dependencies hr))⟩

end Expr

end

end Recalc
