import Recalc.Evaluation.Operators
import Recalc.Proofs.Double.Order

/-!
# Comparison of values

The six comparisons of two operands agree with each other, blanks and numbers that are none among
the operands. Without these, operands are compared as keys in one line: numbers by size, then texts
by their small letters, then booleans.
-/

namespace Recalc

open Sum (inlₗ inrₗ)

/-! ## The comparisons -/

namespace BinaryOp

/-- The operator gives TRUE for the operands. -/
def Holds (op : BinaryOp) (left right : Value) : Prop := op.apply left right = .boolean true

/-- Which outcomes of a comparison the operator asks for, if it compares its operands. -/
def test? : BinaryOp → Option (Ordering → Bool)
  | equal => some Ordering.isEq
  | notEqual => some Ordering.isNe
  | lessThan => some Ordering.isLT
  | lessEqual => some Ordering.isLE
  | greaterThan => some Ordering.isGT
  | greaterEqual => some Ordering.isGE
  | add | subtract | multiply | divide | power | concat => none

variable {op : BinaryOp} {test : Ordering → Bool} {left right : Value}

theorem apply_eq_applyTo (hleft : left.isError = false) (hright : right.isError = false) :
    op.apply left right = op.applyTo left right := by
  cases left with
  | error => cases hleft
  | _ =>
      cases right with
      | error => cases hright
      | _ => rfl

theorem apply_of_test? (h : op.test? = some test) (hleft : left.isError = false)
    (hright : right.isError = false) :
    op.apply left right = .boolean (test (Value.compareValues left right)) := by
  rw [apply_eq_applyTo hleft hright]
  cases op with
  | add | subtract | multiply | divide | power | concat => cases h
  | _ =>
      obtain rfl := Option.some.inj h
      rfl

theorem holds_iff (h : op.test? = some test) (hleft : left.isError = false)
    (hright : right.isError = false) :
    op.Holds left right ↔ test (Value.compareValues left right) = true := by
  rw [Holds, apply_of_test? h hleft hright, Value.boolean.injEq]

end BinaryOp

namespace Value

variable {a b c : Value}

/-! ## The operands change places -/

theorem compareNumbers_swap (x y : Float) : compareNumbers y x = (compareNumbers x y).swap := by
  rw [compareNumbers, compareNumbers]
  by_cases hxy : x < y
  · rw [if_neg (Double.not_lt_of_lt hxy), if_pos hxy, if_pos hxy]
    rfl
  · by_cases hyx : y < x
    · rw [if_pos hyx, if_neg hxy, if_pos hyx]
      rfl
    · rw [if_neg hyx, if_neg hxy, if_neg hxy, if_neg hyx]
      rfl

theorem compareNumbers_self (x : Float) : compareNumbers x x = .eq := by
  have h : ¬ x < x := fun h => Double.not_lt_of_lt h h
  rw [compareNumbers, if_neg h, if_neg h]

theorem compareFilled_swap (a b : Value) : compareFilled b a = (compareFilled a b).swap := by
  have hrank : ∀ m n : Nat, compare n m = (compare m n).swap := fun _ _ =>
    Std.OrientedCmp.eq_swap
  cases a with
  | number x =>
      cases b with
      | number y => exact compareNumbers_swap x y
      | _ => exact hrank _ _
  | text s =>
      cases b with
      | text t =>
          have hkeys : ∀ k l : String, compare l k = (compare k l).swap := fun _ _ =>
            Std.OrientedCmp.eq_swap
          exact hkeys _ _
      | _ => exact hrank _ _
  | boolean p =>
      cases b with
      | boolean q => cases p <;> cases q <;> rfl
      | _ => exact hrank _ _
  | _ => cases b <;> exact hrank _ _

/-- What an operand counts as beside another one. -/
def beside : Value → Value → Value
  | empty, other => other.blankFor
  | v, _ => v

theorem compareValues_eq (a b : Value) :
    compareValues a b = compareFilled (a.beside b) (b.beside a) := by
  cases a with
  | empty =>
      cases b with
      | empty => exact (compareNumbers_self 0).symm
      | _ => rfl
  | _ => cases b <;> rfl

theorem compareValues_swap (a b : Value) : compareValues b a = (compareValues a b).swap := by
  rw [compareValues_eq, compareValues_eq, compareFilled_swap]

/-! ## Keys -/

/-- The line on which operands are compared. -/
abbrev Key : Type := Double.Extended ⊕ₗ (String ⊕ₗ Bool)

/-- The place of a value that is neither blank nor an error nor a number that is none. -/
def key? : Value → Option Key
  | number x => (Double.position? x).map inlₗ
  | text s => some (inrₗ (inlₗ (Text.toSmalls s)))
  | boolean b => some (inrₗ (inrₗ b))
  | empty | error _ => none

variable {u v : Key}

theorem compareNumbers_eq_lt_iff {x y : Float} : compareNumbers x y = .lt ↔ x < y := by
  rw [compareNumbers]
  by_cases h : x < y
  · rw [if_pos h]
    exact iff_of_true rfl h
  · rw [if_neg h]
    refine iff_of_false ?_ h
    split <;> decide

theorem compareFilled_eq_lt_iff (ha : a.key? = some u) (hb : b.key? = some v) :
    compareFilled a b = .lt ↔ u < v := by
  cases a with
  | empty | error => cases ha
  | number x =>
      obtain ⟨p, hp, rfl⟩ := Option.map_eq_some_iff.mp ha
      cases b with
      | empty | error => cases hb
      | number y =>
          obtain ⟨q, hq, rfl⟩ := Option.map_eq_some_iff.mp hb
          rw [compareFilled, compareNumbers_eq_lt_iff, Double.lt_iff hp hq]
          exact Sum.Lex.inl_lt_inl_iff.symm
      | _ =>
          obtain rfl := Option.some.inj hb
          exact iff_of_true rfl (Sum.Lex.inl_lt_inr _ _)
  | text s =>
      obtain rfl := Option.some.inj ha
      cases b with
      | empty | error => cases hb
      | number y =>
          obtain ⟨q, hq, rfl⟩ := Option.map_eq_some_iff.mp hb
          exact iff_of_false nofun Sum.Lex.not_inr_lt_inl
      | text t =>
          obtain rfl := Option.some.inj hb
          rw [compareFilled, compareTexts, compare_lt_iff_lt]
          exact (Sum.Lex.inr_lt_inr_iff.trans Sum.Lex.inl_lt_inl_iff).symm
      | boolean q =>
          obtain rfl := Option.some.inj hb
          exact iff_of_true rfl (Sum.Lex.inr_lt_inr_iff.mpr (Sum.Lex.inl_lt_inr _ _))
  | boolean p =>
      obtain rfl := Option.some.inj ha
      cases b with
      | empty | error => cases hb
      | number y =>
          obtain ⟨q, hq, rfl⟩ := Option.map_eq_some_iff.mp hb
          exact iff_of_false nofun Sum.Lex.not_inr_lt_inl
      | text t =>
          obtain rfl := Option.some.inj hb
          exact iff_of_false nofun fun h => Sum.Lex.not_inr_lt_inl (Sum.Lex.inr_lt_inr_iff.mp h)
      | boolean q =>
          obtain rfl := Option.some.inj hb
          refine Iff.trans ?_ (Sum.Lex.inr_lt_inr_iff.trans Sum.Lex.inr_lt_inr_iff).symm
          clear ha hb
          revert p q
          decide

/-- Neither blank nor an error nor a number that is none. -/
def IsOrdered : Value → Prop
  | number x => x.isNaN = false
  | text _ | boolean _ => True
  | empty | error _ => False

theorem IsOrdered.exists_key? (h : a.IsOrdered) : ∃ u, a.key? = some u := by
  cases a with
  | empty | error => exact h.elim
  | text | boolean => exact ⟨_, rfl⟩
  | number x =>
      obtain ⟨p, hp⟩ := Double.exists_position?_iff.mpr h
      exact ⟨inlₗ p, by rw [key?, hp, Option.map_some]⟩

theorem IsOrdered.isError (h : a.IsOrdered) : a.isError = false := by
  cases a with
  | error => exact h.elim
  | _ => rfl

theorem compareValues_of_key? (ha : a.key? = some u) (hb : b.key? = some v) :
    compareValues a b = compareFilled a b := by
  cases a with
  | empty | error => cases ha
  | _ =>
      cases b with
      | empty | error => cases hb
      | _ => rfl

end Value

namespace BinaryOp

variable {a b c : Value}

/-- Operands are in order as their keys are. -/
theorem lessEqual_holds_iff {u v : Value.Key} (ha : a.IsOrdered) (hb : b.IsOrdered)
    (hu : a.key? = some u) (hv : b.key? = some v) : lessEqual.Holds a b ↔ u ≤ v := by
  calc lessEqual.Holds a b
      ↔ (Value.compareValues a b).isLE = true := holds_iff rfl ha.isError hb.isError
    _ ↔ ¬ Value.compareValues b a = .lt := by
        rw [Value.compareValues_swap a b]
        cases Value.compareValues a b <;> decide
    _ ↔ ¬ v < u := by
        rw [Value.compareValues_of_key? hv hu, Value.compareFilled_eq_lt_iff hv hu]
    _ ↔ u ≤ v := not_lt

theorem lessEqual_trans (ha : a.IsOrdered) (hb : b.IsOrdered) (hc : c.IsOrdered)
    (hab : lessEqual.Holds a b) (hbc : lessEqual.Holds b c) : lessEqual.Holds a c := by
  obtain ⟨u, hu⟩ := ha.exists_key?
  obtain ⟨v, hv⟩ := hb.exists_key?
  obtain ⟨w, hw⟩ := hc.exists_key?
  rw [lessEqual_holds_iff ha hb hu hv] at hab
  rw [lessEqual_holds_iff hb hc hv hw] at hbc
  rw [lessEqual_holds_iff ha hc hu hw]
  exact hab.trans hbc

theorem lessEqual_total (ha : a.IsOrdered) (hb : b.IsOrdered) :
    lessEqual.Holds a b ∨ lessEqual.Holds b a := by
  obtain ⟨u, hu⟩ := ha.exists_key?
  obtain ⟨v, hv⟩ := hb.exists_key?
  rw [lessEqual_holds_iff ha hb hu hv, lessEqual_holds_iff hb ha hv hu]
  exact le_total u v

/-- The comparison that asks for an outcome and no other. -/
def asking : Ordering → BinaryOp
  | .lt => lessThan
  | .eq => equal
  | .gt => greaterThan

theorem holds_iff_asking (ha : a.isError = false) (hb : b.isError = false) {op : BinaryOp}
    (hop : op ∈ [lessThan, equal, greaterThan]) :
    op.Holds a b ↔ op = asking (Value.compareValues a b) := by
  have htest : op.test? = some fun outcome => decide (op = asking outcome) := by
    simp only [List.mem_cons, List.not_mem_nil, or_false] at hop
    rcases hop with rfl | rfl | rfl
    all_goals
      refine congrArg some (funext fun outcome => ?_)
      cases outcome <;> rfl
  rw [holds_iff htest ha hb, decide_eq_true_iff]

/-- Exactly one of "less", "equal" and "greater" is true. -/
theorem existsUnique_holds (ha : a.isError = false) (hb : b.isError = false) :
    ∃! op, op ∈ [lessThan, equal, greaterThan] ∧ op.Holds a b := by
  have hmem : asking (Value.compareValues a b) ∈ [lessThan, equal, greaterThan] := by
    cases Value.compareValues a b <;> decide
  refine ⟨asking (Value.compareValues a b), ⟨hmem, (holds_iff_asking ha hb hmem).mpr rfl⟩, ?_⟩
  intro op ⟨hop, hholds⟩
  exact (holds_iff_asking ha hb hop).mp hholds

theorem lessThan_iff_greaterThan (ha : a.isError = false) (hb : b.isError = false) :
    lessThan.Holds a b ↔ greaterThan.Holds b a := by
  rw [holds_iff rfl ha hb, holds_iff rfl hb ha, Value.compareValues_swap a b]
  cases Value.compareValues a b <;> decide

/-- Numbers are compared by size. -/
theorem lessThan_numbers_iff {x y : Float} {p q : Double.Extended}
    (hx : Double.position? x = some p) (hy : Double.position? y = some q) :
    lessThan.Holds (.number x) (.number y) ↔ p < q := by
  rw [holds_iff rfl rfl rfl, Ordering.isLT_iff_eq_lt, ← Double.lt_iff hx hy]
  exact Value.compareNumbers_eq_lt_iff

theorem equal_texts_iff (s t : String) :
    equal.Holds (.text s) (.text t) ↔ Text.toSmalls s = Text.toSmalls t := by
  rw [holds_iff rfl rfl rfl, Ordering.isEq_iff_eq_eq]
  exact compare_eq_iff_eq

/-- Of two operands that are no errors, the first is less than the second, equal to it or greater,
and the other comparisons say what follows. Where neither is blank or a number that is none, "less
or equal" is a total preorder: of numbers by size, then of texts by their small letters, then of
booleans. -/
theorem comparisons_agree :
    (∀ a b : Value, a.isError = false → b.isError = false →
      (∃! op, op ∈ [lessThan, equal, greaterThan] ∧ op.Holds a b)
        ∧ (lessEqual.Holds a b ↔ lessThan.Holds a b ∨ equal.Holds a b)
        ∧ (greaterEqual.Holds a b ↔ greaterThan.Holds a b ∨ equal.Holds a b)
        ∧ (notEqual.Holds a b ↔ ¬ equal.Holds a b)
        ∧ (lessThan.Holds a b ↔ greaterThan.Holds b a)
        ∧ ∀ op : BinaryOp, op.test?.isSome → ∃ holds, op.apply a b = .boolean holds)
      ∧ (∀ a b c : Value, a.IsOrdered → b.IsOrdered → c.IsOrdered →
        lessEqual.Holds a b → lessEqual.Holds b c → lessEqual.Holds a c)
      ∧ (∀ a b : Value, a.IsOrdered → b.IsOrdered → lessEqual.Holds a b ∨ lessEqual.Holds b a)
      ∧ (∀ x s b, lessThan.Holds (.number x) (.text s) ∧ lessThan.Holds (.text s) (.boolean b)
        ∧ lessThan.Holds (.number x) (.boolean b))
      ∧ (∀ s t, equal.Holds (.text s) (.text t) ↔ Text.toSmalls s = Text.toSmalls t)
      ∧ ∀ x y p q, Double.position? x = some p → Double.position? y = some q →
        (lessThan.Holds (.number x) (.number y) ↔ p < q) := by
  refine ⟨fun a b ha hb => ?_, fun a b c => lessEqual_trans, fun a b => lessEqual_total,
    fun x s b => ⟨rfl, rfl, rfl⟩, equal_texts_iff, fun x y p q => lessThan_numbers_iff⟩
  refine ⟨existsUnique_holds ha hb, ?_, ?_, ?_, lessThan_iff_greaterThan ha hb, fun op hop => ?_⟩
  · rw [holds_iff rfl ha hb, holds_iff rfl ha hb, holds_iff rfl ha hb]
    cases Value.compareValues a b <;> decide
  · rw [holds_iff rfl ha hb, holds_iff rfl ha hb, holds_iff rfl ha hb]
    cases Value.compareValues a b <;> decide
  · rw [holds_iff rfl ha hb, holds_iff rfl ha hb]
    cases Value.compareValues a b <;> decide
  · obtain ⟨test, htest⟩ := Option.isSome_iff_exists.mp hop
    exact ⟨_, apply_of_test? htest ha hb⟩

/-- A blank is compared with a text, and a number, a text and a boolean are put in order. -/
theorem comparisons_agree_mixed :
    (∃! op, op ∈ [lessThan, equal, greaterThan] ∧ op.Holds .empty (.text "É"))
      ∧ (lessThan.Holds .empty (.text "É") ↔ greaterThan.Holds (.text "É") .empty)
      ∧ lessEqual.Holds (.number 2) (.boolean false)
      ∧ (lessEqual.Holds (.text "É") (.number 2) ∨ lessEqual.Holds (.number 2) (.text "É")) := by
  obtain ⟨hall, htrans, htotal, -⟩ := comparisons_agree
  obtain ⟨hunique, -, -, -, hcomm, -⟩ := hall .empty (.text "É") rfl rfl
  have htwo : (Value.number 2).IsOrdered := (by decide : (2 : Float).isNaN = false)
  exact ⟨hunique, hcomm, htrans (.number 2) (.text "É") (.boolean false) htwo trivial trivial rfl rfl,
    htotal (.text "É") (.number 2) trivial htwo⟩

end BinaryOp

end Recalc
