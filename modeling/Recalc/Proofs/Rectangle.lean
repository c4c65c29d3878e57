import Recalc.Range
import Recalc.Sheet.CellMap
import Recalc.Sheet.RangeCache

/-!
# The cells of a range

A range lists exactly the cells of its rectangle, every `width`-th of which is in its first column,
and all of them are on a sheet when its two corners are.
-/

namespace Recalc

namespace Range

theorem nth_add_mul (r : Range) {col : Nat} (row : Nat) (hcol : col < r.width) :
    r.nth (col + row * r.width) = r.address col row := by
  rw [nth, Nat.add_mul_mod_self_right, Nat.mod_eq_of_lt hcol,
    Nat.add_mul_div_right _ _ r.width_pos, Nat.div_eq_of_lt hcol, Nat.zero_add]

theorem mem_addresses_iff (r : Range) (a : Address) :
    a ∈ r.addresses ↔ ∃ col row, col < r.width ∧ row < r.height ∧ r.address col row = a := by
  simp only [addresses, List.mem_map, List.mem_range, size]
  constructor
  · rintro ⟨i, hi, rfl⟩
    exact ⟨i % r.width, i / r.width, Nat.mod_lt _ r.width_pos,
      Nat.div_lt_of_lt_mul hi, rfl⟩
  · rintro ⟨col, row, hcol, hrow, rfl⟩
    refine ⟨col + row * r.width, ?_, r.nth_add_mul row hcol⟩
    calc col + row * r.width < r.width + row * r.width := Nat.add_lt_add_right hcol _
      _ = (row + 1) * r.width := by rw [Nat.add_mul, Nat.one_mul, Nat.add_comm]
      _ ≤ r.height * r.width := Nat.mul_le_mul_right _ hrow
      _ = r.width * r.height := Nat.mul_comm _ _

theorem address_mem (r : Range) {col row : Nat} (hcol : col < r.width) (hrow : row < r.height) :
    r.address col row ∈ r.addresses :=
  (r.mem_addresses_iff _).mpr ⟨col, row, hcol, hrow, rfl⟩

theorem start_mem (r : Range) : r.start ∈ r.addresses := r.address_mem r.width_pos r.height_pos

theorem last_mem (r : Range) : r.last ∈ r.addresses :=
  r.address_mem (Nat.sub_lt r.width_pos Nat.one_pos) (Nat.sub_lt r.height_pos Nat.one_pos)

theorem addresses_firstColumn (r : Range) :
    r.firstColumn.addresses = (List.range r.height).map (r.address 0) := by
  have hwidth : r.firstColumn.width = 1 := Nat.max_self 1
  have hheight : r.firstColumn.height = r.height := Nat.max_eq_left r.height_pos
  rw [addresses, size, hwidth, hheight, Nat.one_mul]
  apply List.map_congr_left
  intro row _
  rw [nth, hwidth, Nat.mod_one, Nat.div_one]
  rfl

theorem addresses_firstColumn_subset (r : Range) : r.firstColumn.addresses ⊆ r.addresses := by
  intro a ha
  rw [addresses_firstColumn] at ha
  obtain ⟨row, hrow, rfl⟩ := List.mem_map.mp ha
  exact r.address_mem r.width_pos (List.mem_range.mp hrow)

end Range

/-- The two corners of a range decide whether all of it is on the sheet. -/
theorem CellMap.rangeInBounds_iff (m : CellMap) (r : Range) :
    m.rangeInBounds r = true ↔ ∀ a ∈ r.addresses, m.inBounds a = true := by
  rw [rangeInBounds, Bool.and_eq_true]
  constructor
  · rintro ⟨hstart, hlast⟩ a ha
    obtain ⟨col, row, hcol, hrow, rfl⟩ := (r.mem_addresses_iff a).mp ha
    rw [inBounds_iff] at hstart hlast ⊢
    obtain ⟨-, hcols, hrows⟩ := hlast
    simp only [Range.last, Range.address] at hcols hrows ⊢
    exact ⟨hstart.1, by omega, by omega⟩
  · intro h
    exact ⟨h _ r.start_mem, h _ r.last_mem⟩

namespace RangeCache

theorem getElem?_everyNth {α : Type} {width : Nat} (hwidth : 0 < width) (ahead : Nat)
    (values : List α) (i : Nat) :
    (everyNth width ahead values)[i]? = values[ahead + i * width]? := by
  induction values generalizing ahead i with
  | nil => simp [everyNth]
  | cons v values ih =>
      cases ahead with
      | succ ahead =>
          rw [everyNth, ih, Nat.add_right_comm, List.getElem?_cons_succ]
      | zero =>
          cases i with
          | zero => simp [everyNth]
          | succ i =>
              have hindex : 0 + (i + 1) * width = width - 1 + i * width + 1 := by
                rw [Nat.succ_mul]
                omega
              rw [everyNth, List.getElem?_cons_succ, ih, hindex, List.getElem?_cons_succ]

/-- The first column of a range that is read row by row. -/
theorem firstColumn_map_addresses {α : Type} (r : Range) (f : Address → α) :
    firstColumn r.width (r.addresses.map f)
      = (List.range r.height).map fun row => f (r.address 0 row) := by
  apply List.ext_getElem?
  intro i
  rw [firstColumn, getElem?_everyNth r.width_pos, Nat.zero_add, Range.addresses, List.map_map,
    List.getElem?_map, List.getElem?_map]
  by_cases hi : i < r.height
  · have hi' : i * r.width < r.size := by
      rw [Range.size, Nat.mul_comm r.width]
      exact Nat.mul_lt_mul_of_pos_right hi r.width_pos
    rw [List.getElem?_range hi, List.getElem?_range hi']
    have := r.nth_add_mul i r.width_pos
    rw [Nat.zero_add] at this
    simp [this]
  · have hi' : r.size ≤ i * r.width := by
      rw [Range.size, Nat.mul_comm r.width]
      exact Nat.mul_le_mul_right _ (Nat.le_of_not_lt hi)
    rw [List.getElem?_eq_none (by simpa using hi'), List.getElem?_eq_none (by simpa using hi)]
    rfl

end RangeCache

end Recalc
