import Recalc.Proofs.Evaluation.Searching
import Recalc.Proofs.Graph.Counting

/-!
# An index in place of a scan

A column's index finds what a scan of the column finds, and holds one entry for each class of equal
values. Blanks and errors equal nothing, not even themselves, so no class has them.
-/

namespace Recalc

namespace Value

/-- Whether a value equals values of its own type, itself among them. -/
def IsSought : Value → Prop
  | number _ | text _ | boolean _ => True
  | empty | error _ => False

variable {key v : Value}

theorem isSought_iff : v.IsSought ↔ ∃ k, LookupKey.ofValue? v = some k := by
  cases v <;> simp [IsSought, LookupKey.ofValue?]

/-- Equal values are entered under one key. -/
theorem lookupEqual_iff (hv : v.Proper) (hkey : key.Proper) :
    Function.lookupEqual v key = true ↔
      ∃ k, LookupKey.ofValue? v = some k ∧ LookupKey.ofValue? key = some k := by
  rw [lookupEqual_eq hv, decide_eq_true_iff]
  constructor
  · intro hsame
    have hsought : key.IsSought := by
      cases v <;> cases key <;> trivial
    obtain ⟨k, hk⟩ := isSought_iff.1 hsought
    exact ⟨k, (LookupKey.ofValue?_eq_some_iff hv hkey hk).2 hsame, hk⟩
  · rintro ⟨k, hvk, hk⟩
    exact (LookupKey.ofValue?_eq_some_iff hv hkey hk).1 hvk

theorem lookupEqual_of_not_isSought (hkey : ¬ key.IsSought) (v : Value) :
    Function.lookupEqual v key = false := by
  cases key with
  | empty | error => cases v <;> rfl
  | _ => exact absurd trivial hkey

/-- The classes of equal values among the numbers, texts and booleans of a column. -/
def classes (column : List Value) : Set (Set Value) :=
  {c | ∃ key ∈ column, key.IsSought ∧ c = {v | v ∈ column ∧ Function.lookupEqual v key = true}}

end Value

namespace ColumnIndex

variable {column : List Value} {key : Value}

theorem find?_of_not_isSought (hkey : ¬ key.IsSought) (index : ColumnIndex) :
    index.find? key = none := by
  cases key with
  | empty | error => rfl
  | _ => exact absurd trivial hkey

/-- The entries of an index are the keys of the column's values. -/
theorem mem_rows_ofList_iff (column : List Value) (k : LookupKey) :
    k ∈ (ofList column).rows ↔ ∃ v ∈ column, LookupKey.ofValue? v = some k := by
  rw [Std.TreeMap.mem_iff_isSome_getElem?, ofList, getElem?_extend]
  simp [empty]

theorem size_eq_ncard (index : ColumnIndex) : index.size = {k | k ∈ index.rows}.ncard := by
  calc
    index.size = index.rows.keys.length := Std.TreeMap.length_keys.symm
    _ = {k | k ∈ index.rows.keys}.ncard := (ncard_eq_length Std.TreeMap.nodup_keys).symm
    _ = {k | k ∈ index.rows}.ncard := by simp only [Std.TreeMap.mem_keys]

/-- Each entry of an index stands for one class of equal values. -/
theorem ncard_classes (hcolumn : ∀ v ∈ column, v.Proper) :
    {k | k ∈ (ofList column).rows}.ncard = (Value.classes column).ncard := by
  have hclass : ∀ key ∈ column, ∀ k, LookupKey.ofValue? key = some k →
      {v | v ∈ column ∧ Function.lookupEqual v key = true}
        = {v | v ∈ column ∧ LookupKey.ofValue? v = some k} := by
    intro key hkey k hk
    ext v
    refine and_congr_right fun hv => ?_
    rw [Value.lookupEqual_iff (hcolumn v hv) (hcolumn key hkey), hk]
    simp
  apply ncard_eq_of_pairs fun k c =>
    (∃ v ∈ column, LookupKey.ofValue? v = some k)
      ∧ c = {v | v ∈ column ∧ LookupKey.ofValue? v = some k}
  · intro k hk
    obtain ⟨v, hv, hvk⟩ := (mem_rows_ofList_iff column k).1 hk
    exact ⟨_, ⟨v, hv, Value.isSought_iff.2 ⟨k, hvk⟩, rfl⟩, ⟨v, hv, hvk⟩, hclass v hv k hvk⟩
  · rintro c ⟨v, hv, hsought, rfl⟩
    obtain ⟨k, hvk⟩ := Value.isSought_iff.1 hsought
    have hmem : ∃ v ∈ column, LookupKey.ofValue? v = some k := ⟨v, hv, hvk⟩
    exact ⟨k, (mem_rows_ofList_iff column k).2 hmem, hmem, hclass v hv k hvk⟩
  · rintro k c c' ⟨-, hc⟩ ⟨-, hc'⟩
    exact hc.trans hc'.symm
  · rintro k k' c ⟨⟨v, hv, hvk⟩, hc⟩ ⟨-, hc'⟩
    -- A value that has one of the keys is in the class, and so has the other.
    have hmem : v ∈ c := hc ▸ ⟨hv, hvk⟩
    rw [hc'] at hmem
    exact Option.some.inj (hvk.symm.trans hmem.2)

theorem find?_ofList_eq_findIdx? (hcolumn : ∀ v ∈ column, v.Proper) (hkey : key.Proper) :
    (ofList column).find? key = column.findIdx? fun v => Function.lookupEqual v key := by
  by_cases hsought : key.IsSought
  · have hsome : (LookupKey.ofValue? key).isSome :=
      Option.isSome_iff_exists.2 (Value.isSought_iff.1 hsought)
    rw [find?_ofList hkey hsome hcolumn, Value.firstSame]
    exact findIdx?_congr fun v hv => (Value.lookupEqual_eq (hcolumn v hv) key).symm
  · rw [find?_of_not_isSought hsought, eq_comm, List.findIdx?_eq_none_iff]
    exact fun v _ => Value.lookupEqual_of_not_isSought hsought v

/-- Where no number is not one, the index of a column finds for each key the first value that equals
it, and so nothing for a blank or an error, and it has as many entries as there are classes of equal
numbers, texts and booleans. -/
theorem ofList_eq_scan (hcolumn : ∀ v ∈ column, v.Proper) (hkey : key.Proper) :
    (ofList column).find? key = (column.findIdx? fun v => Function.lookupEqual v key)
      ∧ (¬ key.IsSought → (ofList column).find? key = none)
      ∧ (ofList column).size = (Value.classes column).ncard := by
  refine ⟨find?_ofList_eq_findIdx? hcolumn hkey, fun h => find?_of_not_isSought h _, ?_⟩
  rw [size_eq_ncard, ncard_classes hcolumn]

/-- A column with both zeros, a text in two cases and a repeated one, a blank and an error. -/
theorem ofList_eq_scan_zeros :
    let column : List Value := [.empty, .number (-0), .text "a", .number 0, .text "A",
      .error .notAvailable, .boolean true, .text "a"]
    (∀ v ∈ column, v.Proper) ∧ Value.Proper (.number 0)
      ∧ (ofList column).find? (.number 0) = some 1 ∧ (ofList column).find? .empty = none
      ∧ (Value.classes column).ncard = 4 := by
  intro column
  have hcolumn : ∀ v ∈ column, v.Proper := by
    simp only [column, List.forall_mem_cons]
    exact ⟨trivial, rfl, trivial, rfl, trivial, trivial, trivial, trivial, List.forall_mem_nil _⟩
  have hzero := @ofList_eq_scan column (.number 0) hcolumn rfl
  have hempty := @ofList_eq_scan column .empty hcolumn trivial
  refine ⟨hcolumn, rfl, hzero.1.trans ?_, hempty.2.1 id, hzero.2.2.symm.trans ?_⟩
  · decide +kernel
  · decide +kernel

end ColumnIndex

end Recalc
