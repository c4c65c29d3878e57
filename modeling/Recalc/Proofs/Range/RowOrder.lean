import Mathlib.Data.Sym.Sym2
import Recalc.Proofs.Rectangle

/-!
# Walking a range row by row

A range is the rectangle between two opposite corners, whichever two are named. The walk over it
meets each of its cells once, row by row, and knows how many are still ahead.
-/

namespace Recalc

/-- Row by row, and in a row from left to right. -/
def Address.Precedes (a b : Address) : Prop := a.row < b.row ∨ a.row = b.row ∧ a.col < b.col

theorem Address.Precedes.ne {a b : Address} (h : a.Precedes b) : a ≠ b := by
  rintro rfl
  obtain h | ⟨-, h⟩ := h <;> exact absurd h (Nat.lt_irrefl _)

namespace Range

variable {r : Range} {a b : Address}

theorem nth_precedes {i j : Nat} (h : i < j) : (r.nth i).Precedes (r.nth j) := by
  have hrows : i / r.width ≤ j / r.width := Nat.div_le_div_right (Nat.le_of_lt h)
  obtain hrow | hrow := Nat.lt_or_eq_of_le hrows
  · exact .inl (Nat.add_lt_add_left hrow _)
  · refine .inr ⟨congrArg (r.start.row + ·) hrow, Nat.add_lt_add_left ?_ _⟩
    -- In one row, the positions differ as the columns do.
    have hi := Nat.div_add_mod i r.width
    have hj := Nat.div_add_mod j r.width
    rw [hrow] at hi
    omega

theorem pairwise_addresses (r : Range) : r.addresses.Pairwise Address.Precedes :=
  List.pairwise_map.mpr (List.pairwise_lt_range.imp nth_precedes)

theorem nodup_addresses (r : Range) : r.addresses.Nodup :=
  r.pairwise_addresses.imp Address.Precedes.ne

theorem contains_iff : r.contains a = true ↔ a.sheet = r.start.sheet
    ∧ (r.start.col ≤ a.col ∧ a.col < r.start.col + r.width)
    ∧ r.start.row ≤ a.row ∧ a.row < r.start.row + r.height := by
  have hwidth := r.width_pos
  have hheight := r.height_pos
  simp only [contains, Bool.and_eq_true, beq_iff_eq, decide_eq_true_eq]
  omega

theorem mem_addresses_iff_contains (r : Range) (a : Address) :
    a ∈ r.addresses ↔ r.contains a = true := by
  rw [mem_addresses_iff, contains_iff]
  constructor
  · rintro ⟨col, row, hcol, hrow, rfl⟩
    exact ⟨rfl, ⟨Nat.le_add_right _ _, Nat.add_lt_add_left hcol _⟩, Nat.le_add_right _ _,
      Nat.add_lt_add_left hrow _⟩
  · rintro ⟨hsheet, ⟨hcol, hcol'⟩, hrow, hrow'⟩
    refine ⟨a.col - r.start.col, a.row - r.start.row, by omega, by omega, ?_⟩
    rw [address, Nat.add_sub_of_le hcol, Nat.add_sub_of_le hrow, ← hsheet]

/-- Every `width`-th cell, from the first on, is one of the first column. -/
theorem firstColumn_addresses (r : Range) :
    RangeCache.firstColumn r.width r.addresses = r.firstColumn.addresses := by
  have hread := RangeCache.firstColumn_map_addresses r id
  rw [List.map_id] at hread
  exact hread.trans r.addresses_firstColumn.symm

/-! ## Rows above and below -/

/-- The first `k` rows. -/
def topRows (r : Range) (k : Nat) : Range := spanning r.start r.width k

/-- The rows that are left without the first `k`. -/
def rowsFrom (r : Range) (k : Nat) : Range := spanning (r.address 0 k) r.width (r.height - k)

theorem address_rowsFrom (r : Range) (k col row : Nat) :
    (r.rowsFrom k).address col row = r.address col (k + row) :=
  congrArg (Address.mk r.start.sheet (r.start.col + col)) (Nat.add_assoc r.start.row k row)

theorem width_spanning (r : Range) (a : Address) (height : Nat) :
    (spanning a r.width height).width = r.width := Nat.max_eq_left r.width_pos

theorem size_spanning (r : Range) (a : Address) {height : Nat} (h : 0 < height) :
    (spanning a r.width height).size = r.width * height :=
  congrArg₂ (· * ·) (r.width_spanning a height) (Nat.max_eq_left h)

/-- Row by row, a range is read as its first rows and then the others. -/
theorem addresses_eq_append (r : Range) {k : Nat} (hpos : 0 < k) (hlt : k < r.height) :
    r.addresses = (r.topRows k).addresses ++ (r.rowsFrom k).addresses := by
  have htop : (r.topRows k).size = r.width * k := r.size_spanning _ hpos
  have hbelow : (r.rowsFrom k).size = r.width * (r.height - k) :=
    r.size_spanning _ (Nat.sub_pos_of_lt hlt)
  have hsize : r.size = (r.topRows k).size + (r.rowsFrom k).size := by
    rw [htop, hbelow, ← Nat.mul_add, Nat.add_sub_of_le (Nat.le_of_lt hlt), size]
  rw [addresses, hsize, List.range_add, List.map_append, List.map_map]
  refine congrArg₂ (· ++ ·) (List.map_congr_left fun i _ => ?_) (List.map_congr_left fun i _ => ?_)
  · rw [nth, nth, topRows, width_spanning]
    rfl
  · rw [Function.comp_apply, nth, nth, htop, Nat.mul_add_mod, Nat.mul_add_div r.width_pos,
      ← address_rowsFrom, rowsFrom, width_spanning]

/-! ## The walk -/

namespace Cursor

theorem next?_of_lt {position : Nat} (h : position < r.size) :
    (⟨r, position⟩ : Cursor).next? = some (r.nth position, ⟨r, position + 1⟩) := if_pos h

theorem next?_size : (⟨r, r.size⟩ : Cursor).next? = none := if_neg (Nat.lt_irrefl _)

/-- A walk of some steps yields the cells at the positions it goes through and stops at the end. -/
theorem take_eq (steps : Nat) {position : Nat} (h : position ≤ r.size) :
    (⟨r, position⟩ : Cursor).take steps
      = ((r.addresses.drop position).take steps, ⟨r, min (position + steps) r.size⟩) := by
  induction steps generalizing position with
  | zero => rw [take, List.take_zero, Nat.add_zero, Nat.min_eq_left h]
  | succ steps ih =>
      obtain hlt | rfl := Nat.lt_or_eq_of_le h
      · have hahead : r.addresses.drop position
            = r.nth position :: r.addresses.drop (position + 1) := by
          rw [List.drop_eq_getElem_cons (by rwa [length_addresses])]
          simp [addresses]
        have hstep : position + 1 + steps = position + (steps + 1) := by
          rw [Nat.add_assoc, Nat.add_comm 1]
        rw [take, next?_of_lt hlt]
        dsimp only
        rw [ih hlt, hahead, List.take_succ_cons, Nat.succ_eq_add_one, hstep]
      · rw [take, next?_size, List.drop_of_length_le (Nat.le_of_eq r.length_addresses),
          List.take_nil, Nat.min_eq_right (Nat.le_add_right _ _)]

theorem take_cursor (r : Range) (steps : Nat) :
    r.cursor.take steps = (r.addresses.take steps, ⟨r, min steps r.size⟩) := by
  rw [cursor, take_eq steps (Nat.zero_le _), List.drop_zero, Nat.zero_add]

theorem remaining_take_cursor (r : Range) (steps : Nat) :
    (r.cursor.take steps).2.remaining = r.size - steps := by
  rw [take_cursor, remaining]
  dsimp only
  omega

end Cursor

/-- Which two opposite corners are named, and in which order, makes no difference. -/
theorem ofCorners_eq {c d : Address} (hsheet : c.sheet = a.sheet)
    (hcols : s(c.col, d.col) = s(a.col, b.col)) (hrows : s(c.row, d.row) = s(a.row, b.row)) :
    ofCorners c d = ofCorners a b := by
  have hcol : min c.col d.col = min a.col b.col ∧ max c.col d.col = max a.col b.col := by
    obtain ⟨hc, hd⟩ | ⟨hc, hd⟩ := Sym2.eq_iff.mp hcols <;> omega
  have hrow : min c.row d.row = min a.row b.row ∧ max c.row d.row = max a.row b.row := by
    obtain ⟨hc, hd⟩ | ⟨hc, hd⟩ := Sym2.eq_iff.mp hrows <;> omega
  simp only [ofCorners, hsheet, hcol, hrow]

theorem contains_ofCorners_iff {x : Address} : (ofCorners a b).contains x = true ↔
    x.sheet = a.sheet ∧ (min a.col b.col ≤ x.col ∧ x.col ≤ max a.col b.col)
      ∧ min a.row b.row ≤ x.row ∧ x.row ≤ max a.row b.row := by
  rw [contains_iff]
  simp only [ofCorners]
  omega

/-- No number that is computed on the way is too large for a 32-bit coordinate, or the number of
cells for 64 bits. -/
theorem ofCorners_fits (hcol : max a.col b.col + 1 < Address.coordinateLimit)
    (hrow : max a.row b.row + 1 < Address.coordinateLimit) :
    (ofCorners a b).start.col + (ofCorners a b).width < Address.coordinateLimit
      ∧ (ofCorners a b).start.row + (ofCorners a b).height < Address.coordinateLimit
      ∧ (ofCorners a b).size < Nat.pow 2 64 := by
  have hwidth : (ofCorners a b).start.col + (ofCorners a b).width = max a.col b.col + 1 := by
    simp only [ofCorners]
    omega
  have hheight : (ofCorners a b).start.row + (ofCorners a b).height = max a.row b.row + 1 := by
    simp only [ofCorners]
    omega
  refine ⟨hwidth ▸ hcol, hheight ▸ hrow, ?_⟩
  calc (ofCorners a b).width * (ofCorners a b).height
      < Address.coordinateLimit * Address.coordinateLimit :=
        Nat.mul_lt_mul'' (by omega) (by omega)
    _ = Nat.pow 2 64 := by decide

/-- The range between two cells of one sheet is their rectangle. Any two opposite corners name it.
It is walked row by row, each cell once, with a count of the cells ahead; the cells walked are those
it contains, every `width`-th of them is in its first column, and all are on a sheet when its
corners are. Where the corners are within the coordinates, so is all that is computed. -/
theorem ofCorners_rectangle (hsheet : b.sheet = a.sheet) :
    (∀ c d : Address, c.sheet = a.sheet → d.sheet = a.sheet → s(c.col, d.col) = s(a.col, b.col) →
        s(c.row, d.row) = s(a.row, b.row) → ofCorners c d = ofCorners a b)
      ∧ ((ofCorners a b).addresses.length = (ofCorners a b).size
        ∧ (ofCorners a b).size = (ofCorners a b).width * (ofCorners a b).height)
      ∧ ((ofCorners a b).addresses.Pairwise Address.Precedes ∧ (ofCorners a b).addresses.Nodup)
      ∧ (∀ steps, ((ofCorners a b).cursor.take steps).1 = (ofCorners a b).addresses.take steps
        ∧ ((ofCorners a b).cursor.take steps).2.remaining = (ofCorners a b).size - steps)
      ∧ (∀ x, (x ∈ (ofCorners a b).addresses ↔ (ofCorners a b).contains x = true)
        ∧ ((ofCorners a b).contains x = true ↔ x.sheet = a.sheet ∧ x.sheet = b.sheet
          ∧ (min a.col b.col ≤ x.col ∧ x.col ≤ max a.col b.col)
          ∧ min a.row b.row ≤ x.row ∧ x.row ≤ max a.row b.row))
      ∧ RangeCache.firstColumn (ofCorners a b).width (ofCorners a b).addresses
        = (ofCorners a b).firstColumn.addresses
      ∧ (∀ m : CellMap, m.rangeInBounds (ofCorners a b) = true ↔
        ∀ x ∈ (ofCorners a b).addresses, m.inBounds x = true)
      ∧ (max a.col b.col + 1 < Address.coordinateLimit →
        max a.row b.row + 1 < Address.coordinateLimit →
        (ofCorners a b).start.col + (ofCorners a b).width < Address.coordinateLimit
          ∧ (ofCorners a b).start.row + (ofCorners a b).height < Address.coordinateLimit
          ∧ (ofCorners a b).size < Nat.pow 2 64) := by
  refine ⟨fun c d hc _ => ofCorners_eq hc, ⟨length_addresses _, rfl⟩,
    ⟨pairwise_addresses _, nodup_addresses _⟩,
    fun steps => ⟨?_, Cursor.remaining_take_cursor _ steps⟩,
    fun x => ⟨mem_addresses_iff_contains _ x, ?_⟩, firstColumn_addresses _,
    fun m => m.rangeInBounds_iff _, ofCorners_fits⟩
  · rw [Cursor.take_cursor]
  · rw [contains_ofCorners_iff, hsheet, and_self_left]

/-- The corners at the lower left and the upper right of three columns and two rows. -/
theorem ofCorners_rectangle_threeByTwo :
    ofCorners ⟨0, 4, 1⟩ ⟨0, 2, 2⟩ = ofCorners ⟨0, 2, 1⟩ ⟨0, 4, 2⟩
      ∧ ((ofCorners ⟨0, 2, 1⟩ ⟨0, 4, 2⟩).cursor.take 4).2.remaining = 6 - 4
      ∧ RangeCache.firstColumn 3 (ofCorners ⟨0, 2, 1⟩ ⟨0, 4, 2⟩).addresses
        = [⟨0, 2, 1⟩, ⟨0, 2, 2⟩] := by
  obtain ⟨hcorners, -, -, hwalk, -, hcolumn, -⟩ :=
    ofCorners_rectangle (a := ⟨0, 2, 1⟩) (b := ⟨0, 4, 2⟩) rfl
  refine ⟨hcorners ⟨0, 4, 1⟩ ⟨0, 2, 2⟩ rfl rfl Sym2.eq_swap rfl, (hwalk 4).2, ?_⟩
  calc RangeCache.firstColumn 3 (ofCorners ⟨0, 2, 1⟩ ⟨0, 4, 2⟩).addresses
      = (ofCorners ⟨0, 2, 1⟩ ⟨0, 4, 2⟩).firstColumn.addresses := hcolumn
    _ = [⟨0, 2, 1⟩, ⟨0, 2, 2⟩] := by decide

end Range

end Recalc
