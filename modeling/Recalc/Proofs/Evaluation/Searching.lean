import Recalc.Proofs.Double.Equality
import Recalc.Proofs.Double.Truncation
import Recalc.Proofs.Evaluation.Dependence
import Recalc.Proofs.Evaluation.Numbers

/-!
# Searching by looking

Where no cell holds a number that is none, a search by an index and a search cell by cell both find
the first value of the key's type with the key's content. The functions that search check their
other arguments first.
-/

namespace Recalc

/-! ## Values that are the same -/

namespace Value

/-- The values are numbers, texts or booleans with the same content. The two zeros are one
number. -/
def Same : Value → Value → Prop
  | number x, number y => x = y ∨ Double.IsZero x ∧ Double.IsZero y
  | text s, text t => s = t
  | boolean a, boolean b => a = b
  | _, _ => False

instance : DecidableRel Same := fun v w => by
  unfold Same
  split <;> infer_instance

/-- The place of the first value that is the same as a key. -/
def firstSame (key : Value) (values : List Value) : Option Nat :=
  values.findIdx? fun v => v.Same key

variable {key v : Value}

theorem lookupEqual_eq (hv : v.Proper) (key : Value) :
    Function.lookupEqual v key = decide (v.Same key) := by
  rw [Bool.eq_iff_iff, decide_eq_true_iff]
  cases v <;> cases key <;> simp only [Function.lookupEqual, Same, beq_iff_eq, Bool.false_eq_true]
  exact Double.beq_iff hv

end Value

/-- Tests that agree on the elements of a list find the same place. -/
theorem findIdx?_congr {α : Type} {p q : α → Bool} {xs : List α} (h : ∀ x ∈ xs, p x = q x) :
    xs.findIdx? p = xs.findIdx? q := by
  induction xs with
  | nil => rfl
  | cons x xs ih =>
      rw [List.findIdx?_cons, List.findIdx?_cons, h x List.mem_cons_self,
        ih fun y hy => h y (List.mem_cons_of_mem x hy)]

/-! ## Indexes -/

theorem LookupKey.ofValue?_eq_some_iff {key v : Value} {k : LookupKey} (hv : v.Proper)
    (hkey : key.Proper) (hk : ofValue? key = some k) : ofValue? v = some k ↔ v.Same key := by
  rw [← hk]
  cases key with
  | empty | error => cases hk
  | number y =>
      cases v with
      | number x => simpa [ofValue?, Value.Same] using Double.lookupBits_eq_iff hv hkey
      | _ => simp [ofValue?, Value.Same]
  | text t => cases v <;> simp [ofValue?, Value.Same]
  | boolean b => cases v <;> simp [ofValue?, Value.Same]

namespace ColumnIndex

theorem getElem?_insert (index : ColumnIndex) (row : Nat) (v : Value) (k : LookupKey) :
    (index.insert row v).rows[k]?
      = (index.rows[k]?).or (if LookupKey.ofValue? v = some k then some row else none) := by
  rw [insert]
  cases hv : LookupKey.ofValue? v with
  | none => simp
  | some k' =>
      dsimp only
      rw [Std.TreeMap.getElem?_insertIfNew]
      simp only [Std.LawfulEqOrd.compare_eq_iff_eq, Option.some.injEq]
      by_cases hk : k' = k
      · subst hk
        cases hrow : index.rows[k']? with
        | none => simp [Std.TreeMap.mem_iff_isSome_getElem?, hrow]
        | some r => simp [Std.TreeMap.mem_iff_isSome_getElem?, hrow]
      · simp [hk]

theorem getElem?_extend (index : ColumnIndex) (first : Nat) (values : List Value)
    (k : LookupKey) :
    (index.extend first values).rows[k]? = (index.rows[k]?).or
      ((values.findIdx? fun v => LookupKey.ofValue? v = some k).map (· + first)) := by
  induction values generalizing index first with
  | nil => simp [extend]
  | cons v values ih =>
      rw [extend, ih, getElem?_insert, Option.or_assoc, List.findIdx?_cons]
      by_cases hv : LookupKey.ofValue? v = some k
      · simp [hv]
      · simp [hv, Function.comp_def, Nat.add_assoc, Nat.add_comm 1]

/-- An index finds the first row of the column that holds the key. -/
theorem find?_ofList {key : Value} {column : List Value} (hkey : key.Proper)
    (hsought : (LookupKey.ofValue? key).isSome) (hcolumn : ∀ v ∈ column, v.Proper) :
    (ofList column).find? key = key.firstSame column := by
  obtain ⟨k, hk⟩ := Option.isSome_iff_exists.mp hsought
  have hsame : ∀ v ∈ column, decide (LookupKey.ofValue? v = some k) = decide (v.Same key) :=
    fun v hv => decide_eq_decide.mpr (LookupKey.ofValue?_eq_some_iff (hcolumn v hv) hkey hk)
  rw [find?, hk, Option.bind_some, ofList, getElem?_extend, Value.firstSame, ← findIdx?_congr hsame]
  simp [empty]

end ColumnIndex

/-! ## Searches on a grid -/

theorem Range.addresses_of_width_eq_one {r : Range} (h : r.width = 1) :
    r.addresses = (List.range r.height).map (r.address 0) := by
  rw [addresses, size, h, Nat.one_mul]
  refine List.map_congr_left fun row _ => ?_
  rw [nth, h, Nat.mod_one, Nat.div_one]

namespace Grid

variable {g : Grid} {key : Value} {r : Range}

section

variable (hg : ∀ a, (g.stored a).Proper) (hr : g.Covers (.range r)) (hkey : key.Proper)
  (hsought : (LookupKey.ofValue? key).isSome)
include hg hr hkey hsought

/-- A row is found by looking through the first column. -/
theorem findRow_eq : g.findRow key r
    = .ok (key.firstSame ((List.range r.height).map fun row => g.stored (r.address 0 row))) := by
  have hcolumn : ∀ v ∈ (List.range r.height).map fun row => g.stored (r.address 0 row),
      v.Proper := by
    intro v hv
    obtain ⟨row, -, rfl⟩ := List.mem_map.mp hv
    exact hg _
  rw [findRow, range_of_covers hr, ← ColumnIndex.find?_ofList hkey hsought hcolumn]
  rfl

/-- A place is found by looking through the range row by row, whichever way it is searched. -/
theorem findPosition_eq :
    g.findPosition key r = .ok (key.firstSame (r.addresses.map g.stored)) := by
  rw [findPosition]
  split
  · next hwidth =>
      rw [findRow_eq hg hr hkey hsought, Range.addresses_of_width_eq_one hwidth, List.map_map]
      rfl
  · have hsame : ∀ v ∈ r.addresses.map g.stored,
        Function.lookupEqual v key = decide (v.Same key) := by
      intro v hv
      obtain ⟨a, -, rfl⟩ := List.mem_map.mp hv
      exact Value.lookupEqual_eq (hg a) key
    rw [range_of_covers hr]
    exact congrArg Except.ok (findIdx?_congr hsame)

end

end Grid

/-! ## Functions that search -/

namespace Function

/-- The column that a number picks out, by the number without its fraction. -/
theorem columnChoice_eq {width : Nat} (hwidth : 0 < width) {x : Float} (hx : x.isNaN = false) :
    (Double.trunc x < 1 → columnChoice width x = .error .badValue)
      ∧ (((width : ℤ) : WithTop ℤ) < Double.trunc x → columnChoice width x = .error .badReference)
      ∧ ∀ n : ℕ, Double.trunc x = ((n : ℤ) : WithTop ℤ) → 1 ≤ n → n ≤ width →
        columnChoice width x = .ok n := by
  rw [columnChoice]
  cases hn : Double.integerPart? x with
  | some n =>
      rw [Double.trunc_of_integerPart? hn]
      dsimp only
      refine ⟨fun h => ?_, fun h => ?_, fun m h hpos hle => ?_⟩
      · have hlt : n < 1 := by exact_mod_cast h
        rw [if_pos hlt]
      · have hlt : (width : ℤ) < n := by exact_mod_cast h
        rw [if_neg (by omega), if_pos hlt]
      · obtain rfl : n = m := by exact_mod_cast h
        rw [if_neg (by omega), if_neg (by omega), Int.toNat_natCast]
  | none =>
      dsimp only
      rw [if_neg (Bool.eq_false_iff.mp hx)]
      rcases Double.trunc_of_integerPart?_eq_none hx hn with ⟨htrunc, hlt⟩ | ⟨htrunc, hlt⟩
      · rw [htrunc, if_pos hlt]
        simp
      · rw [htrunc, if_neg hlt]
        simp

end Function

theorem Operand.key_eq {o : Operand} (h : (LookupKey.ofValue? o.value).isSome) :
    o.key = .ok o.value := by
  rw [key]
  cases hv : o.value with
  | empty | error => rw [hv] at h; cases h
  | _ => rfl

namespace Grid

variable {g : Grid} {r : Range} {key range index : Operand}

section

variable (hg : ∀ a, (g.stored a).Proper) (hr : g.Covers (.range r)) (hkey : key.value.Proper)
  (hsought : (LookupKey.ofValue? key.value).isSome) (hrange : range.range? = some (some r))
include hg hr hkey hsought hrange

/-- The place of a key is the one found by looking through the range, whatever a third operand
is. -/
theorem matchPosition_eq {more : List Operand} (hmore : more.length ≤ 1) :
    Value.ofExcept (g.matchPosition (key :: range :: more))
      = match key.value.firstSame (r.addresses.map g.stored) with
        | some offset => .number (Double.ofNat (offset + 1))
        | none => .error .notAvailable := by
  have harity : Function.checkArity (key :: range :: more).length 2 3 = .ok () :=
    Function.checkArity_eq_ok_iff.mpr (by simp only [List.length_cons]; omega)
  have hrange' : range.range = .ok r := by rw [Operand.range, hrange]
  unfold matchPosition
  rw [harity]
  simp only [bind, Except.bind, Operand.key_eq hsought, hrange',
    findPosition_eq hg hr hkey hsought]
  cases key.value.firstSame (r.addresses.map g.stored) <;> rfl

/-- A lookup goes to the chosen column of the row found by looking through the first column. -/
theorem lookUpRow_eq_search {x : Float} {sorted : List Operand} (hindex : index.value = .number x)
    (hsorted : sorted.length ≤ 1) (hboolean : Operand.checkBoolean sorted.head? = .ok ()) :
    let found := key.value.firstSame
      ((List.range r.height).map fun row => g.stored (r.address 0 row))
    g.lookUpRow (key :: range :: index :: sorted) = (do
      let column ← Function.columnChoice r.width x
      match found with
      | some row => .ok (g.cell (r.address (column - 1) row))
      | none => .error .notAvailable) := by
  intro found
  have harity : Function.checkArity (key :: range :: index :: sorted).length 3 4 = .ok () :=
    Function.checkArity_eq_ok_iff.mpr (by simp only [List.length_cons]; omega)
  have hrange' : range.range = .ok r := by rw [Operand.range, hrange]
  have hcolumn : index.column = .ok x := by rw [Operand.column, hindex]
  unfold lookUpRow
  rw [harity]
  simp only [bind, Except.bind, Operand.key_eq hsought, hrange', hcolumn, hboolean,
    findRow_eq hg hr hkey hsought]
  rfl

end

end Grid

end Recalc
