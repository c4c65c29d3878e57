import Recalc.Proofs.Evaluation.Caching
import Recalc.Proofs.Evaluation.Numbers

/-!
# Computations that do the same

Two computations are alike if they have the same result and leave the same caches, whatever caches
of a kind they start from. Where no cell holds a number that is none and the caches have the sizes
of their ranges, the functions give proper values, and like arguments have like results.
-/

namespace Recalc

/-! ## Computations that do the same -/

/-- From caches that are `ok`, both computations have the same result, which satisfies `post`, and
leave the same caches, which are `ok`. -/
def Eval.Alike {α : Type} (view : View) (ok : Caches → Prop) (post : α → Prop)
    (m m' : Eval α) : Prop :=
  ∀ c, ok c → m' view c = m view c ∧ post (m view c).1 ∧ ok (m view c).2

/-- The same of computations that may end with an error value. -/
def Attempt.Alike {α : Type} (view : View) (ok : Caches → Prop) (post : α → Prop)
    (m m' : Attempt α) : Prop :=
  Eval.Alike view ok (fun x => ∀ v, x = .ok v → post v) m.run m'.run

section

variable {view : View} {ok : Caches → Prop} {α β : Type} {p : α → Prop} {q : β → Prop}

namespace Eval

theorem alike_pure {x : α} (h : p x) : Alike view ok p (pure x) (pure x) :=
  fun _ hc => ⟨rfl, h, hc⟩

theorem Alike.bind {m m' : Eval α} {f f' : α → Eval β} (h : Alike view ok p m m')
    (hf : ∀ x, p x → Alike view ok q (f x) (f' x)) : Alike view ok q (m >>= f) (m' >>= f') := by
  intro c hc
  obtain ⟨heq, hx, hc'⟩ := h c hc
  have h' := hf _ hx _ hc'
  change f' (m' view c).1 view (m' view c).2 = _ ∧ _
  rw [heq]
  exact h'

theorem alike_settle {m m' : Attempt Value} (h : Attempt.Alike view ok Value.Proper m m') :
    Alike view ok Value.Proper (settle m) (settle m') :=
  h.bind fun _ hx => alike_pure (Value.proper_ofExcept hx)

end Eval

namespace Attempt

theorem alike_pure {x : α} (h : p x) : Alike view ok p (pure x) (pure x) :=
  Eval.alike_pure fun _ hv => Except.ok.inj hv ▸ h

theorem alike_throw (e : ErrorKind) : Alike view ok p (throw e) (throw e) :=
  Eval.alike_pure nofun

theorem alike_except {x : Except ErrorKind α} (h : ∀ v, x = .ok v → p v) :
    Alike view ok p (liftM x) (liftM x) := by
  cases x with
  | error e => exact alike_throw e
  | ok v => exact alike_pure (h v rfl)

theorem alike_outcome (x : Except ErrorKind α) :
    Alike view ok (fun _ => True) (liftM x) (liftM x) :=
  alike_except fun _ _ => trivial

theorem Alike.bind {m m' : Attempt α} {f f' : α → Attempt β} (h : Alike view ok p m m')
    (hf : ∀ x, p x → Alike view ok q (f x) (f' x)) : Alike view ok q (m >>= f) (m' >>= f') := by
  have hbind : ∀ (m : Attempt α) (f : α → Attempt β),
      (m >>= f).run = m.run >>= ExceptT.bindCont f := fun _ _ => rfl
  rw [Alike, hbind, hbind]
  refine Eval.Alike.bind h fun x hx => ?_
  cases x with
  | error e => exact alike_throw e
  | ok v => exact hf v (hx v rfl)

theorem Alike.mono {r : α → Prop} {m m' : Attempt α} (h : Alike view ok p m m')
    (hpost : ∀ x, p x → r x) : Alike view ok r m m' := fun c hc =>
  ⟨(h c hc).1, fun v hv => hpost v ((h c hc).2.1 v hv), (h c hc).2.2⟩

theorem alike_eval {m m' : Eval α} (h : Eval.Alike view ok p m m') :
    Alike view ok p (liftM m) (liftM m') :=
  Eval.Alike.bind h fun _ hx => alike_pure hx

end Attempt

end

/-! ## Sheets and caches in order -/

/-- What is cached has the size of the range. -/
structure RangeCache.Fits (cache : RangeCache) (r : Range) : Prop where
  length : ∀ values, cache.values = some values → values.length = r.size
  row_lt : ∀ index key row, cache.column = some index → index.find? key = some row →
    row < r.height

/-- Cells have proper values, and the vertex of a range stands for a range on the sheet. -/
structure View.Proper (view : View) : Prop where
  value : ∀ (i : Nat) (w : Vertex) (v : Value), view.vertices[i]? = some w →
    w.value? = some v → v.Proper
  range : ∀ r id, view.rangeVertex? r = some id →
    view.vertices[id.index]? = some (.range r) ∧ view.cells.rangeInBounds r = true

/-- The caches of range vertices fit their ranges. -/
def View.FittingCaches (view : View) (c : Caches) : Prop :=
  ∀ id r, view.vertices[id.index]? = some (.range r) → (c.get id).Fits r

theorem RangeCache.fits_empty (r : Range) : empty.Fits r := ⟨nofun, nofun⟩

theorem RangeCache.length_firstColumn {α : Type} {r : Range} {values : List α}
    (h : values.length = r.size) : (firstColumn r.width values).length ≤ r.height := by
  have hend : (firstColumn r.width values)[r.height]? = none := by
    rw [firstColumn, getElem?_everyNth r.width_pos, Nat.zero_add]
    exact List.getElem?_eq_none (Nat.le_of_eq (by rw [h, Range.size, Nat.mul_comm]))
  exact List.getElem?_eq_none_iff.mp hend

section

variable {view : View} {r : Range} {id : VertexId}

theorem View.Proper.cellValue (h : view.Proper) (a : Address) : (view.cellValue a).Proper := by
  rw [View.cellValue]
  split
  · trivial
  · trivial
  · next id _ =>
      cases hid : view.vertices[id.index]? with
      | none => trivial
      | some v =>
          rw [Option.bind_some]
          cases hv : v.value? with
          | none => trivial
          | some x => exact h.value _ v x hid hv

theorem View.FittingCaches.set {c : Caches} (h : view.FittingCaches c) {cache : RangeCache}
    (hid : view.vertices[id.index]? = some (.range r)) (hcache : cache.Fits r) :
    view.FittingCaches (c.set id cache) := by
  intro id' r' hid'
  rw [Caches.get_set]
  split
  · next heq =>
      subst heq
      obtain rfl := Vertex.range.inj (Option.some.inj (hid.symm.trans hid'))
      exact hcache
  · exact h id' r' hid'

theorem RangeCache.Fits.valuesOr {cache : RangeCache} (h : cache.Fits r) {fresh : List Value}
    (hfresh : fresh.length = r.size) :
    (cache.valuesOr fun _ => fresh).1.length = r.size
      ∧ (cache.valuesOr fun _ => fresh).2.Fits r := by
  rw [RangeCache.valuesOr]
  split
  · next values hvalues => exact ⟨h.length values hvalues, h⟩
  · exact ⟨hfresh, fun values hvalues => Option.some.inj hvalues ▸ hfresh, h.row_lt⟩

theorem RangeCache.Fits.columnOr {cache : RangeCache} (h : cache.Fits r) {fresh : List Value}
    (hfresh : fresh.length ≤ r.height) :
    let found := cache.columnOr fun _ => ColumnIndex.ofList fresh
    (∀ key row, found.1.find? key = some row → row < r.height) ∧ found.2.Fits r := by
  have hlt : ∀ key row, (ColumnIndex.ofList fresh).find? key = some row → row < r.height :=
    fun key row hrow => Nat.lt_of_lt_of_le (ColumnIndex.lt_of_find?_ofList hrow) hfresh
  rw [RangeCache.columnOr]
  split
  · next index hindex => exact ⟨fun key row => h.row_lt index key row hindex, h⟩
  · refine ⟨hlt, h.length, fun index key row hindex => ?_⟩
    obtain rfl := Option.some.inj hindex
    exact hlt key row

end

/-! ## Reading cells and ranges -/

namespace Attempt

variable {view : View} {r : Range}

theorem alike_rangeVertex {ok : Caches → Prop} (h : view.Proper) (r : Range) :
    Alike view ok
      (fun id => view.vertices[id.index]? = some (.range r) ∧ view.cells.rangeInBounds r = true)
      (rangeVertex r) (rangeVertex r) := by
  have hread : Eval.Alike view ok (· = view) read read := fun _ hc => ⟨rfl, rfl, hc⟩
  refine (alike_eval hread).bind fun _ hview => ?_
  rw [hview]
  cases hid : view.rangeVertex? r with
  | none => exact alike_throw _
  | some id => exact alike_pure (h.range r id hid)

theorem alike_rangeValues (h : view.Proper) (r : Range) :
    Alike view view.FittingCaches (fun values => values.length = r.size)
      (rangeValues r) (rangeValues r) := by
  have hfresh : (view.rangeCells r).length = r.size := by
    rw [View.rangeCells, List.length_map, r.length_addresses]
  refine (alike_rangeVertex h r).bind fun id hid c hc => ?_
  obtain ⟨hlength, hcache⟩ := (hc id r hid.1).valuesOr hfresh
  exact ⟨rfl, fun _ hv => Except.ok.inj hv ▸ hlength, hc.set hid.1 hcache⟩

/-- A row that is found is a row of a range on the sheet. -/
theorem alike_findRow (h : view.Proper) (key : Value) (r : Range) :
    Alike view view.FittingCaches
      (fun found => ∀ row, found = some row →
        row < r.height ∧ view.cells.rangeInBounds r = true)
      (findRow key r) (findRow key r) := by
  refine (alike_rangeVertex h r).bind fun id hid => ?_
  refine (alike_rangeValues h r).bind fun values hvalues c hc => ?_
  obtain ⟨hrow, hcache⟩ := (hc id r hid.1).columnOr (RangeCache.length_firstColumn hvalues)
  refine ⟨rfl, fun found hv row hfound => ⟨hrow key row ?_, hid.2⟩, hc.set hid.1 hcache⟩
  exact (Except.ok.inj hv).trans hfound

end Attempt

theorem Eval.alike_cell {view : View} {ok : Caches → Prop} (h : view.Proper) (a : Address) :
    Eval.Alike view ok Value.Proper (Eval.cell a) (Eval.cell a) :=
  fun _ hc => ⟨rfl, h.cellValue a, hc⟩

/-! ## Arguments -/

/-- The arguments are written as the same range, if as one, and give the same proper value. -/
structure Argument.Alike (view : View) (ok : Caches → Prop) (a a' : Argument) : Prop where
  range? : a'.range? = a.range?
  value : Eval.Alike view ok Value.Proper a.value a'.value

section

variable {view : View} {ok : Caches → Prop} {a a' : Argument}

theorem Argument.Alike.number (h : a.Alike view ok a') :
    Attempt.Alike view ok (fun x => x.isNaN = false) (Attempt.number a.value)
      (Attempt.number a'.value) := by
  refine (Attempt.alike_eval h.value).bind fun v hv => ?_
  cases hx : v.toNumber with
  | ok x => exact Attempt.alike_pure (hv.isNaN_of_toNumber hx)
  | error e => exact Attempt.alike_throw e

theorem Argument.Alike.scalar (h : a.Alike view ok a') :
    Attempt.Alike view ok Value.Proper (Attempt.scalar a.value) (Attempt.scalar a'.value) := by
  refine (Attempt.alike_eval h.value).bind fun v hv => ?_
  cases v with
  | error e => exact Attempt.alike_throw e
  | _ => exact Attempt.alike_pure hv

theorem Argument.Alike.range (h : a.Alike view ok a') :
    Attempt.Alike view ok (fun _ => True) (liftM a.range) (liftM a'.range) := by
  have heq : a'.range = a.range := by rw [Argument.range, Argument.range, h.range?]
  rw [heq]
  exact Attempt.alike_outcome _

theorem Argument.Alike.lookupKey (h : a.Alike view ok a') :
    Attempt.Alike view ok (fun _ => True) (Function.lookupKey a.value)
      (Function.lookupKey a'.value) := by
  refine (Attempt.alike_eval h.value).bind fun v hv => ?_
  cases v with
  | empty => exact Attempt.alike_throw _
  | error e => exact Attempt.alike_throw _
  | _ => exact Attempt.alike_pure trivial

theorem Argument.Alike.indexNumber (h : a.Alike view ok a') :
    Attempt.Alike view ok (fun x => x.isNaN = false) (Function.indexNumber a.value)
      (Function.indexNumber a'.value) := by
  refine (Attempt.alike_eval h.value).bind fun v hv => ?_
  cases v with
  | number x => exact Attempt.alike_pure hv
  | _ => exact Attempt.alike_throw _

end

/-! ## Functions -/

namespace Function

variable {view : View} {ok : Caches → Prop} {arguments arguments' : List Argument} {home : Address}
  {registered : Nat}

theorem alike_checkArity (h : List.Forall₂ (Argument.Alike view ok) arguments arguments')
    (least most : Nat) :
    Attempt.Alike view ok (fun _ => True) (liftM (checkArity arguments.length least most))
      (liftM (checkArity arguments'.length least most)) := by
  rw [h.length_eq]
  exact Attempt.alike_outcome _

theorem alike_ofNumber (f : Float → Float)
    (h : List.Forall₂ (Argument.Alike view ok) arguments arguments') :
    Eval.Alike view ok Value.Proper (ofNumber f ⟨home, arguments, registered⟩)
      (ofNumber f ⟨home, arguments', registered⟩) := by
  apply Eval.alike_settle
  rcases h with _ | ⟨ha, _ | ⟨_, _⟩⟩
  · exact Attempt.alike_throw _
  · exact ha.number.bind fun x _ => Attempt.alike_except fun _ => Value.proper_of_ofFinite
  · exact Attempt.alike_throw _

theorem alike_bitwise (f : Nat → Nat → Nat)
    (h : List.Forall₂ (Argument.Alike view ok) arguments arguments') :
    Eval.Alike view ok Value.Proper (bitwise f ⟨home, arguments, registered⟩)
      (bitwise f ⟨home, arguments', registered⟩) := by
  apply Eval.alike_settle
  refine (alike_checkArity h 2 2).bind fun _ _ => ?_
  rcases h with _ | ⟨ha, _ | ⟨hb, _ | ⟨_, _⟩⟩⟩
  · exact Attempt.alike_throw _
  · exact Attempt.alike_throw _
  · refine ha.number.bind fun x _ => ?_
    refine (Attempt.alike_outcome _).bind fun m _ => ?_
    refine hb.number.bind fun y _ => ?_
    refine (Attempt.alike_outcome _).bind fun n _ => ?_
    exact Attempt.alike_pure (Value.proper_ofNat _)
  · exact Attempt.alike_throw _

theorem alike_binaryToDecimal (h : List.Forall₂ (Argument.Alike view ok) arguments arguments') :
    Eval.Alike view ok Value.Proper (binaryToDecimal ⟨home, arguments, registered⟩)
      (binaryToDecimal ⟨home, arguments', registered⟩) := by
  apply Eval.alike_settle
  refine (alike_checkArity h 1 1).bind fun _ _ => ?_
  rcases h with _ | ⟨ha, _ | ⟨_, _⟩⟩
  · exact Attempt.alike_throw _
  · refine ha.scalar.bind fun v _ => ?_
    refine (Attempt.alike_outcome _).bind fun digits _ => ?_
    refine (Attempt.alike_outcome _).bind fun n _ => ?_
    exact Attempt.alike_pure (Value.proper_ofInt n)
  · exact Attempt.alike_throw _

theorem alike_decimalToBinary (h : List.Forall₂ (Argument.Alike view ok) arguments arguments') :
    Eval.Alike view ok Value.Proper (decimalToBinary ⟨home, arguments, registered⟩)
      (decimalToBinary ⟨home, arguments', registered⟩) := by
  apply Eval.alike_settle
  refine (alike_checkArity h 1 2).bind fun _ _ => ?_
  rcases h with _ | ⟨ha, hmore⟩
  · exact Attempt.alike_throw _
  · refine ha.number.bind fun x _ => ?_
    refine (Attempt.alike_outcome _).bind fun n _ => ?_
    by_cases hn : n < 0
    · simp only [hn, if_true]
      exact Attempt.alike_pure trivial
    · simp only [hn, if_false]
      rcases hmore with _ | ⟨hplaces, _⟩
      · exact Attempt.alike_pure trivial
      · refine hplaces.number.bind fun y _ => ?_
        refine (Attempt.alike_outcome _).bind fun ds _ => ?_
        exact Attempt.alike_pure trivial

theorem alike_shape (measure : Range → Nat)
    (h : List.Forall₂ (Argument.Alike view ok) arguments arguments') :
    Eval.Alike view ok Value.Proper (shape measure ⟨home, arguments, registered⟩)
      (shape measure ⟨home, arguments', registered⟩) := by
  apply Eval.alike_settle
  refine (alike_checkArity h 1 1).bind fun _ _ => ?_
  rcases h with _ | ⟨ha, _ | ⟨_, _⟩⟩
  · exact Attempt.alike_throw _
  · exact ha.range.bind fun r _ => Attempt.alike_pure (Value.proper_ofNat _)
  · exact Attempt.alike_throw _

theorem alike_addArgument (hview : view.Proper) {a a' : Argument}
    (h : a.Alike view view.FittingCaches a') (total : Float) :
    Attempt.Alike view view.FittingCaches (fun _ => True) (addArgument total a)
      (addArgument total a') := by
  rw [addArgument, addArgument, h.range?]
  rcases a.range? with _ | _ | r
  · exact h.number.bind fun x _ => Attempt.alike_pure trivial
  · exact Attempt.alike_throw _
  · exact (Attempt.alike_rangeValues hview r).bind fun values _ =>
      Attempt.alike_outcome _

theorem alike_sum (hview : view.Proper)
    (h : List.Forall₂ (Argument.Alike view view.FittingCaches) arguments arguments') :
    Eval.Alike view view.FittingCaches Value.Proper (sum ⟨home, arguments, registered⟩)
      (sum ⟨home, arguments', registered⟩) := by
  have hfold : ∀ total, Attempt.Alike view view.FittingCaches (fun _ => True)
      (arguments.foldlM addArgument total) (arguments'.foldlM addArgument total) := by
    induction h with
    | nil => exact fun total => Attempt.alike_pure trivial
    | cons ha _ ih =>
        exact fun total => (alike_addArgument hview ha total).bind fun total _ => ih total
  apply Eval.alike_settle
  refine (alike_checkArity h 1 255).bind fun _ _ => (hfold 0).bind fun total _ => ?_
  exact Attempt.alike_except fun _ => Value.proper_of_ofFinite

theorem alike_matchPosition (hview : view.Proper)
    (h : List.Forall₂ (Argument.Alike view view.FittingCaches) arguments arguments') :
    Eval.Alike view view.FittingCaches Value.Proper (matchPosition ⟨home, arguments, registered⟩)
      (matchPosition ⟨home, arguments', registered⟩) := by
  apply Eval.alike_settle
  refine (alike_checkArity h 2 3).bind fun _ _ => ?_
  rcases h with _ | ⟨hkey, _ | ⟨hrange, _⟩⟩
  · exact Attempt.alike_throw _
  · exact Attempt.alike_throw _
  · refine hkey.lookupKey.bind fun key _ => hrange.range.bind fun r _ => ?_
    have hfind : Attempt.Alike view view.FittingCaches (fun _ => True) (findPosition key r)
        (findPosition key r) := by
      rw [findPosition]
      split
      · exact (Attempt.alike_findRow hview key r).mono fun _ _ => trivial
      · exact (Attempt.alike_rangeValues hview r).bind fun _ _ => Attempt.alike_pure trivial
    refine hfind.bind fun found _ => ?_
    cases found with
    | none => exact Attempt.alike_throw _
    | some offset => exact Attempt.alike_pure (Value.proper_ofNat _)

end Function

end Recalc
