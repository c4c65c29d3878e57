import Recalc.Value
import Std.Data.TreeMap

/-!
# Exact-match index of a column

The index keeps, for each number, text and boolean of a column, the first row that holds it.
Equality is by type: texts are compared with their case, and the two zeros are one number. Blanks
and errors are never found.
-/

namespace Recalc

/-- A value that can be looked up. -/
inductive LookupKey where
  | number (bits : UInt64)
  | text (s : String)
  | boolean (b : Bool)
  deriving DecidableEq

namespace LookupKey

/-- The key of a value, if it can be looked up. -/
def ofValue? : Value → Option LookupKey
  | .number x => some (number (if x == 0 then 0 else x.toBits))
  | .text s => some (text s)
  | .boolean b => some (boolean b)
  | .empty | .error _ => none

/-- Numbers stand before texts and texts before booleans. -/
def rank : LookupKey → Nat
  | number _ => 0
  | text _ => 1
  | boolean false => 2
  | boolean true => 3

def bits : LookupKey → Nat
  | number bits => bits.toNat
  | _ => 0

def string : LookupKey → String
  | text s => s
  | _ => ""

instance : Ord LookupKey where
  compare := compareLex (compareOn rank) (compareLex (compareOn bits) (compareOn string))

theorem compare_def (a b : LookupKey) :
    compare a b = (compare a.rank b.rank).then
      ((compare a.bits b.bits).then (compare a.string b.string)) := rfl

instance : Std.TransOrd LookupKey :=
  inferInstanceAs (Std.TransCmp
    (compareLex (compareOn rank) (compareLex (compareOn bits) (compareOn string))))

theorem eq_of_parts {a b : LookupKey} (hr : a.rank = b.rank) (hb : a.bits = b.bits)
    (hs : a.string = b.string) : a = b := by
  rcases a with m | s | ⟨_ | _⟩ <;> rcases b with n | t | ⟨_ | _⟩ <;> simp [rank] at hr ⊢
  · exact UInt64.toNat_inj.1 hb
  · exact hs

instance : Std.LawfulEqOrd LookupKey where
  compare_self := by simp
  eq_of_compare {a b} h := by
    simp only [compare_def, Ordering.then_eq_eq, Std.LawfulEqOrd.compare_eq_iff_eq] at h
    exact eq_of_parts h.1 h.2.1 h.2.2

end LookupKey

structure ColumnIndex where
  rows : Std.TreeMap LookupKey Nat

namespace ColumnIndex

def empty : ColumnIndex := ⟨∅⟩

/-- Enter the value of a row, unless an equal one is already entered. -/
def insert (index : ColumnIndex) (row : Nat) (v : Value) : ColumnIndex :=
  match LookupKey.ofValue? v with
  | some key => ⟨index.rows.insertIfNew key row⟩
  | none => index

/-- Enter a column whose first value stands in `row`. -/
def extend (index : ColumnIndex) (row : Nat) : List Value → ColumnIndex
  | [] => index
  | v :: rest => (index.insert row v).extend (row + 1) rest

/-- The index of a column given from top to bottom. -/
def ofList (column : List Value) : ColumnIndex := empty.extend 0 column

/-- The first row that holds a value. -/
def find? (index : ColumnIndex) (v : Value) : Option Nat :=
  (LookupKey.ofValue? v).bind fun key => index.rows[key]?

/-- The number of different values. -/
def size (index : ColumnIndex) : Nat := index.rows.size

@[simp] theorem find?_empty (v : Value) : empty.find? v = none := by
  cases h : LookupKey.ofValue? v <;> simp [find?, empty, h]

end ColumnIndex

end Recalc
