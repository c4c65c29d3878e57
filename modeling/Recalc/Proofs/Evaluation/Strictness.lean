import Recalc.Proofs.Evaluation.Calls
import Recalc.Proofs.Evaluation.Dependence
import Recalc.Proofs.Outcome

/-!
# Strict expressions

An operator hands on the errors of its operands. So do the functions that use each of their
arguments, and a name that is no function's is an error itself. An expression made of these has an
error for its value if one of the cells that it refers to has.
-/

namespace Recalc

/-! ## References -/

namespace Expr

mutual

/-- The cells that an expression at `home` refers to, by themselves or in ranges, and nothing in
place of those that there are not. -/
def references (home : Address) : Expr → List (Option Address)
  | number _ | text _ | boolean _ | error _ => []
  | cell r => [r.resolve? home]
  | range r =>
      match r.resolve? home with
      | some covered => covered.addresses.map some
      | none => [none]
  | binary _ left right => left.references home ++ right.references home
  | unary _ operand => operand.references home
  | paren inner => inner.references home
  | call _ arguments => referencesOf home arguments

/-- The references of a list of arguments. -/
def referencesOf (home : Address) : List Expr → List (Option Address)
  | [] => []
  | x :: xs => x.references home ++ referencesOf home xs

end

/-- The functions that use all of their arguments. -/
def strictFunctions : List String := ["ABS", "SUM", "BITAND", "BITOR", "BITXOR", "BIN2DEC"]

/-- A function that uses all of its arguments, or none that is known. -/
def isStrictName (name : String) : Bool :=
  strictFunctions.contains (Text.toCapitals name) || !Registry.builtin.contains name

mutual

/-- All functions that are called use all of their arguments, or are not known. -/
def isStrict : Expr → Bool
  | number _ | text _ | boolean _ | error _ | cell _ | range _ => true
  | binary _ left right => left.isStrict && right.isStrict
  | unary _ operand => operand.isStrict
  | paren inner => inner.isStrict
  | call name arguments => isStrictName name && areStrict arguments

def areStrict : List Expr → Bool
  | [] => true
  | x :: xs => x.isStrict && areStrict xs

end

@[simp] theorem referencesOf_eq_flatMap (home : Address) (xs : List Expr) :
    referencesOf home xs = xs.flatMap (references home) := by
  induction xs with
  | nil => rfl
  | cons x xs ih => simp [referencesOf, ih]

@[simp] theorem areStrict_eq_all (xs : List Expr) : areStrict xs = xs.all isStrict := by
  induction xs with
  | nil => rfl
  | cons x xs ih => simp [areStrict, ih]

theorem isStrictName_iff (name : String) : isStrictName name = true ↔
    Text.toCapitals name ∈ strictFunctions ∨ Registry.builtin.find? name = none := by
  simp [isStrictName, Registry.contains]

end Expr

/-- The value that a reference reads, an error if it leads nowhere. -/
def Grid.read (g : Grid) : Option Address → Value
  | some a => g.cell a
  | none => .error .badReference

/-! ## Operators -/

namespace Value

variable {v : Value}

theorem isError_iff : v.isError = true ↔ ∃ e, v = .error e := by
  cases v with
  | error e => exact iff_of_true rfl ⟨e, rfl⟩
  | _ => exact iff_of_false nofun nofun

theorem isError_ofExcept {outcome : Except ErrorKind Value} (h : ∃ e, outcome = .error e) :
    (ofExcept outcome).isError = true := by
  obtain ⟨e, rfl⟩ := h
  rfl

theorem toNumber_of_isError (h : v.isError = true) : ∃ e, v.toNumber = .error e := by
  obtain ⟨e, rfl⟩ := isError_iff.mp h
  exact ⟨e, rfl⟩

end Value

theorem BinaryOp.isError_apply (op : BinaryOp) {left right : Value}
    (h : left.isError = true ∨ right.isError = true) : (op.apply left right).isError = true := by
  rcases h with h | h
  · obtain ⟨e, rfl⟩ := Value.isError_iff.mp h
    rfl
  · obtain ⟨e, rfl⟩ := Value.isError_iff.mp h
    cases left <;> rfl

theorem UnaryOp.isError_apply (op : UnaryOp) {v : Value} (h : v.isError = true) :
    (op.apply v).isError = true := by
  obtain ⟨e, rfl⟩ := Value.isError_iff.mp h
  rfl

/-! ## Functions -/

/-- The value of an operand is an error, and so is that of a cell of its range if it is written
as one. -/
structure Operand.Fails (g : Grid) (o : Operand) : Prop where
  value : o.value.isError = true
  covers : ∀ r, o.range? = some (some r) → ∃ a ∈ r.addresses, (g.cell a).isError = true

theorem Operand.Fails.number {g : Grid} {o : Operand} (h : o.Fails g) :
    ∃ e, o.number = .error e := Value.toNumber_of_isError h.value

theorem Function.addCells_of_isError {values : List Value} {v : Value} (hv : v ∈ values)
    (herror : v.isError = true) (total : Float) : ∃ e, addCells total values = .error e := by
  induction values generalizing total with
  | nil => cases hv
  | cons w values ih =>
      rcases List.mem_cons.mp hv with rfl | hrest
      · obtain ⟨e, rfl⟩ := Value.isError_iff.mp herror
        exact ⟨e, rfl⟩
      · cases w with
        | error e => exact ⟨e, rfl⟩
        | number x => exact ih hrest (total + x)
        | _ => exact ih hrest total

namespace Grid

variable {g : Grid} {o : Operand} {operands : List Operand}

/-- A range cannot be read, or what a reference to one of its cells reads is among its values. -/
theorem range_cases {r : Range} {a : Address} (ha : a ∈ r.addresses) :
    (∃ e, g.range r = .error e) ∨ ∃ values, g.range r = .ok values ∧ g.cell a ∈ values := by
  rw [range]
  split
  · next hall =>
      refine Or.inr ⟨_, rfl, ?_⟩
      rw [cell, if_pos (List.all_eq_true.mp hall a ha)]
      exact List.mem_map_of_mem ha
  · exact Or.inl ⟨_, rfl⟩

theorem addOperand_of_fails (h : o.Fails g) (total : Float) :
    ∃ e, g.addOperand total o = .error e := by
  rw [addOperand]
  split
  · exact ⟨_, rfl⟩
  · next r hr =>
      obtain ⟨a, ha, herror⟩ := h.covers r hr
      rcases range_cases ha with hfail | ⟨values, hvalues, hmem⟩
      · exact exists_error_bind hfail
      · rw [hvalues]
        exact Function.addCells_of_isError hmem herror total
  · exact exists_error_bind h.number

theorem sum_of_fails (ho : o ∈ operands) (h : o.Fails g) : ∃ e, g.sum operands = .error e :=
  exists_error_of_forall fun _ => exists_error_bind (exists_error_foldlM ho (addOperand_of_fails h) 0)

theorem ofNumber_of_fails (f : Float → Float) (ho : o ∈ operands) (h : o.Fails g) :
    ∃ e, ofNumber f operands = .error e := by
  rcases operands with _ | ⟨a, _ | ⟨b, rest⟩⟩
  · exact ⟨_, rfl⟩
  · obtain rfl := List.mem_singleton.mp ho
    exact exists_error_bind h.number
  · exact ⟨_, rfl⟩

theorem bitwise_of_fails (f : Nat → Nat → Nat) (ho : o ∈ operands) (h : o.Fails g) :
    ∃ e, bitwise f operands = .error e := by
  refine exists_error_of_forall fun _ => ?_
  rcases operands with _ | ⟨a, _ | ⟨b, _ | ⟨c, rest⟩⟩⟩
  · exact ⟨_, rfl⟩
  · exact ⟨_, rfl⟩
  · rcases List.mem_cons.mp ho with rfl | ho
    · exact exists_error_bind h.number
    · obtain rfl := List.mem_singleton.mp ho
      exact exists_error_of_forall fun _ => exists_error_of_forall fun _ =>
        exists_error_bind h.number
  · exact ⟨_, rfl⟩

theorem binaryToDecimal_of_fails (ho : o ∈ operands) (h : o.Fails g) :
    ∃ e, binaryToDecimal operands = .error e := by
  refine exists_error_of_forall fun _ => ?_
  rcases operands with _ | ⟨a, _ | ⟨b, rest⟩⟩
  · exact ⟨_, rfl⟩
  · obtain rfl := List.mem_singleton.mp ho
    refine exists_error_bind ?_
    obtain ⟨e, he⟩ := Value.isError_iff.mp h.value
    exact ⟨e, by rw [Operand.scalar, he]⟩
  · exact ⟨_, rfl⟩

/-- A function that uses all of its arguments fails if one of them does. -/
theorem call_of_fails {name : String} (hname : Expr.isStrictName name = true)
    (ho : o ∈ operands) (h : o.Fails g) :
    ∃ e, g.call operands (Text.toCapitals name) = .error e := by
  rcases (Expr.isStrictName_iff name).mp hname with hname | hname
  · generalize Text.toCapitals name = capitals at hname
    simp only [Expr.strictFunctions, List.mem_cons, List.not_mem_nil, or_false] at hname
    rcases hname with rfl | rfl | rfl | rfl | rfl | rfl
    · exact ofNumber_of_fails Float.abs ho h
    · exact sum_of_fails ho h
    · exact bitwise_of_fails Nat.land ho h
    · exact bitwise_of_fails Nat.lor ho h
    · exact bitwise_of_fails Nat.xor ho h
    · exact binaryToDecimal_of_fails ho h
  · exact ⟨_, g.call_eq_error operands (Registry.ne_of_find?_builtin hname)⟩

end Grid

/-! ## Expressions -/

namespace Expr

variable {g : Grid} {home : Address} {x : Expr} {target : Option Address}

/-- A range is an error where a value is asked for, and it refers to the cells in it. -/
theorem operand_fails (hx : (x.meaning g home).isError = true) (htarget : target ∈ x.references home)
    (herror : (g.read target).isError = true) :
    (⟨x.literalRange? home, x.meaning g home⟩ : Operand).Fails g where
  value := hx
  covers r hr := by
    cases x with
    | range ref =>
        rw [literalRange?, Option.some_inj] at hr
        rw [references, hr] at htarget
        obtain ⟨a, ha, rfl⟩ := List.mem_map.mp htarget
        exact ⟨a, ha, herror⟩
    | _ => cases hr

/-- A strict expression that refers to an error is an error. -/
theorem isError_meaning (hx : x.isStrict = true) (htarget : target ∈ x.references home)
    (herror : (g.read target).isError = true) : (x.meaning g home).isError = true := by
  induction x using Expr.induct with
  | number | text | boolean | error => cases htarget
  | cell r =>
      obtain rfl := List.mem_singleton.mp htarget
      rw [meaning]
      cases hr : r.resolve? home with
      | none => rfl
      | some a => rwa [hr] at herror
  | range r => rfl
  | binary op left right ihl ihr =>
      obtain ⟨hleft, hright⟩ := Bool.and_eq_true_iff.mp hx
      refine op.isError_apply ?_
      rcases List.mem_append.mp htarget with htarget | htarget
      · exact Or.inl (ihl hleft htarget)
      · exact Or.inr (ihr hright htarget)
  | unary op operand ih => exact op.isError_apply (ih hx htarget)
  | paren inner ih => exact ih hx htarget
  | call name arguments ih =>
      obtain ⟨hname, harguments⟩ := Bool.and_eq_true_iff.mp hx
      rw [areStrict_eq_all, List.all_eq_true] at harguments
      rw [references, referencesOf_eq_flatMap] at htarget
      obtain ⟨y, hy, htarget⟩ := List.mem_flatMap.mp htarget
      have hfails := operand_fails (ih y hy (harguments y hy) htarget) htarget herror
      rw [meaning, operandsOf_eq_map]
      exact Value.isError_ofExcept (Grid.call_of_fails hname (List.mem_map_of_mem hy) hfails)

theorem shapeOnly_of_isStrictName {name : String} (hname : isStrictName name = true) :
    Registry.builtin.shapeOnly name = false := by
  rw [Bool.eq_false_iff, ne_eq, Registry.shapeOnly_builtin_iff]
  rcases (isStrictName_iff name).mp hname with hstrict | hnone
  · rintro (hshape | hshape) <;> rw [hshape] at hstrict <;> exact absurd hstrict (by decide)
  · rw [← Registry.shapeOnly_builtin_iff, Registry.shapeOnly, hnone]
    exact Bool.false_ne_true

/-- A cell that a strict expression refers to is in a dependency, to all of which it refers. -/
theorem exists_dependency {b : Address} (hx : x.isStrict = true)
    (hb : some b ∈ x.references home) :
    ∃ d ∈ x.dependencies Registry.builtin.shapeOnly home, b ∈ d.addresses
      ∧ ∀ c ∈ d.addresses, some c ∈ x.references home := by
  induction x using Expr.induct with
  | number | text | boolean | error => cases hb
  | cell r =>
      have hr := List.mem_singleton.mp hb
      refine ⟨.cell b, by simp [dependencies, ← hr], List.mem_cons_self, fun c hc => ?_⟩
      rwa [List.mem_singleton.mp hc]
  | range r =>
      rw [references] at hb ⊢
      cases hr : r.resolve? home with
      | none =>
          rw [hr] at hb
          cases List.mem_singleton.mp hb
      | some covered =>
          rw [hr] at hb
          obtain ⟨a, ha, heq⟩ := List.mem_map.mp hb
          obtain rfl := Option.some.inj heq
          exact ⟨.range covered, by simp [dependencies, hr], ha, fun c hc => List.mem_map_of_mem hc⟩
  | binary op left right ihl ihr =>
      obtain ⟨hleft, hright⟩ := Bool.and_eq_true_iff.mp hx
      rcases List.mem_append.mp hb with hb | hb
      · obtain ⟨d, hd, hmem, hall⟩ := ihl hleft hb
        exact ⟨d, List.mem_append_left _ hd, hmem, fun c hc => List.mem_append_left _ (hall c hc)⟩
      · obtain ⟨d, hd, hmem, hall⟩ := ihr hright hb
        exact ⟨d, List.mem_append_right _ hd, hmem,
          fun c hc => List.mem_append_right _ (hall c hc)⟩
  | unary op operand ih => exact ih hx hb
  | paren inner ih => exact ih hx hb
  | call name arguments ih =>
      obtain ⟨hname, harguments⟩ := Bool.and_eq_true_iff.mp hx
      rw [areStrict_eq_all, List.all_eq_true] at harguments
      rw [references, referencesOf_eq_flatMap] at hb ⊢
      obtain ⟨y, hy, hb⟩ := List.mem_flatMap.mp hb
      obtain ⟨d, hd, hmem, hall⟩ := ih y hy (harguments y hy) hb
      exact ⟨d, dependencies_call_subset (shapeOnly_of_isStrictName hname) hy hd, hmem,
        fun c hc => List.mem_flatMap.mpr ⟨y, hy, hall c hc⟩⟩

end Expr

end Recalc
