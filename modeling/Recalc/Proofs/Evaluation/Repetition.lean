import Recalc.Proofs.Evaluation.Caching

/-!
# Evaluating again

An evaluation fills caches with what it reads through them. Whether the caches were true or not,
whatever is evaluated next reads the same as if they had not been filled, so an expression has the
same value before other expressions are evaluated and after them.
-/

namespace Recalc

/-! ## Reading through caches -/

/-- The values of a range's cells as read through its cache. -/
def RangeCache.valuesIn (cache : RangeCache) (view : View) (r : Range) : List Value :=
  cache.values.getD (view.rangeCells r)

/-- The index of a range's first column as read through its cache. -/
def RangeCache.columnIn (cache : RangeCache) (view : View) (r : Range) : ColumnIndex :=
  cache.column.getD (ColumnIndex.ofList (firstColumn r.width (cache.valuesIn view r)))

/-- The same is read of the range through both caches. -/
structure RangeCache.SameReads (cache cache' : RangeCache) (view : View) (r : Range) : Prop where
  values : cache'.valuesIn view r = cache.valuesIn view r
  column : cache'.columnIn view r = cache.columnIn view r

/-- The same is read of every range through both caches. -/
def View.SameReads (view : View) (c c' : Caches) : Prop :=
  ∀ id r, view.vertices[id.index]? = some (.range r) → (c.get id).SameReads (c'.get id) view r

/-- The vertex that is found for a range stands for that range. -/
def View.Faithful (view : View) : Prop :=
  ∀ r id, view.rangeVertex? r = some id → view.vertices[id.index]? = some (.range r)

section

variable {view : View} {r : Range} {id : VertexId} {c c' : Caches} {cache : RangeCache}

theorem View.SameReads.refl (view : View) (c : Caches) : view.SameReads c c :=
  fun _ _ _ => ⟨rfl, rfl⟩

theorem View.SameReads.set (h : view.SameReads c c')
    (hid : view.vertices[id.index]? = some (.range r)) (hcache : (c'.get id).SameReads cache view r) :
    view.SameReads c (c'.set id cache) := by
  intro id' r' hid'
  rw [Caches.get_set]
  split
  · next heq =>
      subst heq
      obtain rfl := Vertex.range.inj (Option.some.inj (hid.symm.trans hid'))
      obtain ⟨hvalues, hcolumn⟩ := h id r hid
      exact ⟨hcache.values.trans hvalues, hcache.column.trans hcolumn⟩
  · exact h id' r' hid'

/-- What is cached is what is read. -/
theorem RangeCache.valuesOr_eq (cache : RangeCache) (view : View) (r : Range) :
    (cache.valuesOr fun _ => view.rangeCells r).1 = cache.valuesIn view r
      ∧ cache.SameReads (cache.valuesOr fun _ => view.rangeCells r).2 view r := by
  obtain ⟨_ | values, column⟩ := cache <;> exact ⟨rfl, rfl, rfl⟩

theorem RangeCache.columnOr_eq (cache : RangeCache) (view : View) (r : Range) :
    let fresh := fun _ => ColumnIndex.ofList (firstColumn r.width (cache.valuesIn view r))
    (cache.columnOr fresh).1 = cache.columnIn view r
      ∧ cache.SameReads (cache.columnOr fresh).2 view r := by
  obtain ⟨values, _ | index⟩ := cache <;> exact ⟨rfl, rfl, rfl⟩

end

/-! ## Steady computations -/

/-- From caches through which the same is read, the computation has the same result and leaves such
caches. -/
def Eval.Steady {α : Type} (view : View) (m : Eval α) : Prop :=
  ∀ c, ∃ x, Eval.Gives view (view.SameReads c) m x

/-- The same of a computation that may end with an error value. -/
def Attempt.Steady {α : Type} (view : View) (m : Attempt α) : Prop := Eval.Steady view m.run

section

variable {view : View} {α β : Type}

namespace Eval

theorem steady_pure (x : α) : Steady view (pure x) := fun _ => ⟨x, gives_pure x⟩

theorem Steady.bind {m : Eval α} {f : α → Eval β} (h : Steady view m)
    (hf : ∀ x, Steady view (f x)) : Steady view (m >>= f) := by
  intro c
  obtain ⟨x, hx⟩ := h c
  obtain ⟨y, hy⟩ := hf x c
  exact ⟨y, hx.bind hy⟩

theorem steady_cell (a : Address) : Steady view (cell a) := fun _ => ⟨_, gives_cell a⟩

theorem steady_settle {m : Attempt Value} (h : Attempt.Steady view m) : Steady view (settle m) :=
  h.bind fun _ => steady_pure _

/-- A steady computation has the same result after any other. -/
theorem Steady.result_eq {m : Eval α} {other : Eval β} (h : Steady view m)
    (hother : Steady view other) (c : Caches) :
    (m view (other view c).2).1 = (m view c).1 := by
  obtain ⟨x, hx⟩ := h c
  obtain ⟨y, hy⟩ := hother c
  have hsame := View.SameReads.refl view c
  exact (hx _ (hy c hsame).2).1.trans (hx c hsame).1.symm

end Eval

namespace Attempt

theorem steady_pure (x : α) : Steady view (pure x) := fun _ => ⟨_, gives_pure x⟩

theorem steady_throw (e : ErrorKind) : Steady view (throw e : Attempt α) :=
  fun _ => ⟨_, gives_throw e⟩

theorem steady_except (x : Except ErrorKind α) : Steady view (liftM x) :=
  fun _ => ⟨x, gives_except x⟩

theorem Steady.bind {m : Attempt α} {f : α → Attempt β} (h : Steady view m)
    (hf : ∀ v, Steady view (f v)) : Steady view (m >>= f) := by
  intro c
  obtain ⟨x, hx⟩ := h c
  cases x with
  | error e => exact ⟨_, Gives.bind_error hx⟩
  | ok v =>
      obtain ⟨y, hy⟩ := hf v c
      exact ⟨y, Gives.bind (k := fun _ => y) hx fun _ hv => Except.ok.inj hv ▸ hy⟩

theorem steady_eval {m : Eval α} (h : Eval.Steady view m) : Steady view (liftM m) := fun c => by
  obtain ⟨x, hx⟩ := h c
  exact ⟨_, gives_eval hx⟩

section Values

variable {value : Eval Value} (h : Eval.Steady view value)
include h

theorem steady_number : Steady view (number value) := by
  refine (steady_eval h).bind fun v => ?_
  cases v.toNumber with
  | ok x => exact steady_pure x
  | error e => exact steady_throw e

theorem steady_scalar : Steady view (scalar value) := by
  refine (steady_eval h).bind fun v => ?_
  cases v with
  | error e => exact steady_throw e
  | _ => exact steady_pure _

theorem steady_lookupKey : Steady view (Function.lookupKey value) := by
  refine (steady_eval h).bind fun v => ?_
  cases v with
  | empty | error => exact steady_throw _
  | _ => exact steady_pure _

theorem steady_indexNumber : Steady view (Function.indexNumber value) := by
  refine (steady_eval h).bind fun v => ?_
  cases v with
  | number x => exact steady_pure x
  | _ => exact steady_throw _

end Values

/-! ## Ranges -/

section Ranges

variable {r : Range} {id : VertexId} (hview : view.Faithful)
include hview

theorem gives_rangeValues_in (hid : view.rangeVertex? r = some id) (c : Caches) :
    Gives view (view.SameReads c) (rangeValues r) (.ok ((c.get id).valuesIn view r)) := by
  have hvertex := hview r id hid
  refine Gives.bind (x := .ok id) (k := fun _ => _) (gives_rangeVertex hid) fun _ hv c' hc => ?_
  obtain rfl := Except.ok.inj hv
  obtain ⟨hvalues, hsame⟩ := (c'.get id).valuesOr_eq view r
  exact ⟨congrArg Except.ok (hvalues.trans (hc id r hvertex).values), hc.set hvertex hsame⟩

theorem steady_rangeValues (r : Range) : Steady view (rangeValues r) := by
  intro c
  cases hid : view.rangeVertex? r with
  | none => exact ⟨_, (gives_rangeVertex_none hid).bind_error⟩
  | some id => exact ⟨_, gives_rangeValues_in hview hid c⟩

theorem steady_findRow (key : Value) (r : Range) : Steady view (findRow key r) := by
  intro c
  cases hid : view.rangeVertex? r with
  | none => exact ⟨_, (gives_rangeVertex_none hid).bind_error⟩
  | some id =>
      have hvertex := hview r id hid
      refine ⟨.ok (((c.get id).columnIn view r).find? key), ?_⟩
      refine Gives.bind (x := .ok id) (k := fun _ => _) (gives_rangeVertex hid) fun _ hv => ?_
      obtain rfl := Except.ok.inj hv
      refine Gives.bind (k := fun _ => _) (gives_rangeValues_in hview hid c)
        fun values hvalues c' hc => ?_
      -- The values are those that are read through the cache that is there by now.
      obtain rfl : (c'.get id).valuesIn view r = values :=
        (hc id r hvertex).values.trans (Except.ok.inj hvalues)
      obtain ⟨hcolumn, hsame⟩ := (c'.get id).columnOr_eq view r
      refine ⟨congrArg Except.ok ?_, hc.set hvertex hsame⟩
      exact congrArg (ColumnIndex.find? · key) (hcolumn.trans (hc id r hvertex).column)

end Ranges

end Attempt

end

/-! ## Functions -/

/-- The function is steady on steady arguments. -/
def Function.Steady (view : View) (f : Function) : Prop :=
  ∀ call : Call, (∀ a ∈ call.arguments, Eval.Steady view a.value) → Eval.Steady view (f.run call)

namespace Function

variable {view : View} {call : Call}

section

variable (h : ∀ a ∈ call.arguments, Eval.Steady view a.value)
include h

theorem steady_ofNumber (f : Float → Float) : Eval.Steady view (ofNumber f call) := by
  apply Eval.steady_settle
  obtain ⟨home, _ | ⟨a, _ | ⟨b, more⟩⟩, registered⟩ := call
  · exact Attempt.steady_throw _
  · exact (Attempt.steady_number (h a List.mem_cons_self)).bind fun x => Attempt.steady_except _
  · exact Attempt.steady_throw _

theorem steady_bitwise (f : Nat → Nat → Nat) : Eval.Steady view (bitwise f call) := by
  refine Eval.steady_settle ((Attempt.steady_except _).bind fun _ => ?_)
  obtain ⟨home, _ | ⟨a, _ | ⟨b, _ | ⟨d, more⟩⟩⟩, registered⟩ := call
  · exact Attempt.steady_throw _
  · exact Attempt.steady_throw _
  · refine (Attempt.steady_number (h a List.mem_cons_self)).bind fun x => ?_
    refine (Attempt.steady_except _).bind fun m => ?_
    refine (Attempt.steady_number (h b (List.mem_cons_of_mem _ List.mem_cons_self))).bind fun y => ?_
    exact (Attempt.steady_except _).bind fun n => Attempt.steady_pure _
  · exact Attempt.steady_throw _

theorem steady_binaryToDecimal : Eval.Steady view (binaryToDecimal call) := by
  refine Eval.steady_settle ((Attempt.steady_except _).bind fun _ => ?_)
  obtain ⟨home, _ | ⟨a, _ | ⟨b, more⟩⟩, registered⟩ := call
  · exact Attempt.steady_throw _
  · refine (Attempt.steady_scalar (h a List.mem_cons_self)).bind fun v => ?_
    refine (Attempt.steady_except _).bind fun digits => ?_
    exact (Attempt.steady_except _).bind fun n => Attempt.steady_pure _
  · exact Attempt.steady_throw _

theorem steady_decimalToBinary : Eval.Steady view (decimalToBinary call) := by
  refine Eval.steady_settle ((Attempt.steady_except _).bind fun _ => ?_)
  obtain ⟨home, _ | ⟨a, more⟩, registered⟩ := call
  · exact Attempt.steady_throw _
  · refine (Attempt.steady_number (h a List.mem_cons_self)).bind fun x => ?_
    refine (Attempt.steady_except _).bind fun n => ?_
    by_cases hn : n < 0
    · simp only [hn, if_true]
      exact Attempt.steady_pure _
    · simp only [hn, if_false]
      cases more with
      | nil => exact Attempt.steady_pure _
      | cons places _ =>
          have hplaces := h places (List.mem_cons_of_mem _ List.mem_cons_self)
          refine (Attempt.steady_number hplaces).bind fun x => ?_
          exact (Attempt.steady_except _).bind fun digits => Attempt.steady_pure _

omit h in
theorem steady_shape (measure : Range → Nat) : Eval.Steady view (shape measure call) := by
  refine Eval.steady_settle ((Attempt.steady_except _).bind fun _ => ?_)
  obtain ⟨home, _ | ⟨a, _ | ⟨b, more⟩⟩, registered⟩ := call
  · exact Attempt.steady_throw _
  · exact (Attempt.steady_except _).bind fun r => Attempt.steady_pure _
  · exact Attempt.steady_throw _

variable (hview : view.Faithful)
include hview

theorem steady_sum : Eval.Steady view (sum call) := by
  have hadd : ∀ a ∈ call.arguments, ∀ total, Attempt.Steady view (addArgument total a) := by
    intro a ha total
    unfold addArgument
    split
    · exact Attempt.steady_throw _
    · exact (Attempt.steady_rangeValues hview _).bind fun values => Attempt.steady_except _
    · exact (Attempt.steady_number (h a ha)).bind fun x => Attempt.steady_pure _
  have hfold : ∀ (arguments : List Argument), arguments ⊆ call.arguments →
      ∀ total, Attempt.Steady view (arguments.foldlM addArgument total) := by
    intro arguments
    induction arguments with
    | nil => exact fun _ total => Attempt.steady_pure total
    | cons a arguments ih =>
        intro hsub total
        obtain ⟨ha, hsub⟩ := List.cons_subset.mp hsub
        exact (hadd a ha total).bind fun total => ih hsub total
  refine Eval.steady_settle ((Attempt.steady_except _).bind fun _ => ?_)
  exact (hfold _ (List.Subset.refl _) 0).bind fun total => Attempt.steady_except _

theorem steady_lookUpRow : Eval.Steady view (lookUpRow call) := by
  refine Eval.steady_settle (Attempt.Steady.bind ?_ fun place =>
    Attempt.steady_eval (Eval.steady_cell _))
  refine (Attempt.steady_except _).bind fun _ => ?_
  obtain ⟨home, _ | ⟨key, _ | ⟨range, _ | ⟨index, sorted⟩⟩⟩, registered⟩ := call
  · exact Attempt.steady_throw _
  · exact Attempt.steady_throw _
  · exact Attempt.steady_throw _
  · have hsorted : Attempt.Steady view (checkSorted sorted.head?) := by
      cases sorted with
      | nil => exact Attempt.steady_pure _
      | cons a _ =>
          refine (Attempt.steady_eval (h a (by simp))).bind fun v => ?_
          cases v with
          | boolean b => exact Attempt.steady_pure _
          | _ => exact Attempt.steady_throw _
    refine (Attempt.steady_lookupKey (h key (by simp))).bind fun key => ?_
    refine (Attempt.steady_except _).bind fun r => ?_
    refine (Attempt.steady_indexNumber (h index (by simp))).bind fun x => ?_
    refine hsorted.bind fun _ => (Attempt.steady_except _).bind fun column => ?_
    refine (Attempt.steady_findRow hview key r).bind fun row => ?_
    cases row with
    | none => exact Attempt.steady_throw _
    | some row => exact Attempt.steady_pure _

theorem steady_matchPosition : Eval.Steady view (matchPosition call) := by
  have hfind : ∀ key r, Attempt.Steady view (findPosition key r) := by
    intro key r
    rw [findPosition]
    split
    · exact Attempt.steady_findRow hview key r
    · exact (Attempt.steady_rangeValues hview r).bind fun values => Attempt.steady_pure _
  refine Eval.steady_settle ((Attempt.steady_except _).bind fun _ => ?_)
  obtain ⟨home, _ | ⟨key, _ | ⟨range, more⟩⟩, registered⟩ := call
  · exact Attempt.steady_throw _
  · exact Attempt.steady_throw _
  · refine (Attempt.steady_lookupKey (h key (by simp))).bind fun key => ?_
    refine (Attempt.steady_except _).bind fun r => (hfind key r).bind fun offset => ?_
    cases offset with
    | none => exact Attempt.steady_throw _
    | some offset => exact Attempt.steady_pure _

end

/-- The functions that are always there are steady. -/
theorem steady_of_mem_builtin (hview : view.Faithful) {f : Function} (hf : f ∈ builtin) :
    f.Steady view := by
  intro call h
  simp only [builtin, arithmetic, binary, lookup, List.cons_append, List.nil_append,
    List.mem_cons, List.not_mem_nil, or_false] at hf
  rcases hf with rfl | rfl | rfl | rfl | rfl | rfl | rfl | rfl | rfl | rfl | rfl
  · exact steady_ofNumber h _
  · exact steady_sum h hview
  · exact steady_bitwise h _
  · exact steady_bitwise h _
  · exact steady_bitwise h _
  · exact steady_binaryToDecimal h
  · exact steady_decimalToBinary h
  · exact steady_lookUpRow h hview
  · exact steady_matchPosition h hview
  · exact steady_shape Range.width
  · exact steady_shape Range.height

end Function

/-! ## Expressions -/

/-- All functions of the registry are steady. -/
def Registry.Steady (view : View) (functions : Registry) : Prop :=
  ∀ name f, functions.find? name = some f → f.Steady view

theorem Registry.steady_builtin {view : View} (hview : view.Faithful) :
    Registry.builtin.Steady view :=
  fun _ _ hf => Function.steady_of_mem_builtin hview (Registry.of_find?_builtin hf).1

theorem Expr.steady_evaluate {view : View} {functions : Registry} (h : functions.Steady view)
    (home : Address) (x : Expr) : Eval.Steady view (x.evaluate functions home) := by
  induction x using Expr.induct with
  | number | text | boolean | error | range => exact Eval.steady_pure _
  | cell r =>
      rw [evaluate]
      cases r.resolve? home with
      | none => exact Eval.steady_pure _
      | some a => exact Eval.steady_cell a
  | binary op left right ihl ihr =>
      rw [evaluate]
      exact ihl.bind fun v => ihr.bind fun w => Eval.steady_pure _
  | unary op operand ih =>
      rw [evaluate]
      exact ih.bind fun v => Eval.steady_pure _
  | paren inner ih =>
      rw [evaluate]
      exact ih
  | call name arguments ih =>
      rw [evaluate]
      cases hf : functions.find? name with
      | none => exact Eval.steady_pure _
      | some f =>
          refine h name f hf _ fun a ha => ?_
          rw [argumentsOf_eq_map] at ha
          obtain ⟨x, hx, rfl⟩ := List.mem_map.mp ha
          exact ih x hx

end Recalc
