import Recalc.Proofs.Sheet.Contents
import Recalc.Proofs.Sheet.Solution

/-!
# Retyping cells

Content is put into the rows that a sheet is built from, and a row that is too short is lengthened
with blanks. An edit of the sheet is followed by the rows: the sheet holds what is typed in them.
-/

namespace Recalc

/-- The content typed into a cell, blank where nothing is typed. -/
def contentAt (rows : List (List String)) (a : Address) : String :=
  (Sheet.typedAt 0 rows a).getD ""

/-- Put content into a row, which is lengthened if it is too short. -/
def retypeRow (x : Nat) (content : String) (row : List String) : List String :=
  (row.rightpad (x + 1) "").set x content

/-- Put content into a cell. -/
def retype (rows : List (List String)) (a : Address) (content : String) : List (List String) :=
  rows.modify a.row (retypeRow a.col content)

/-- Put contents into cells, one after the other. -/
def retypeAll (rows : List (List String)) (edits : List (Address × String)) :
    List (List String) := edits.foldl (fun rows edit => retype rows edit.1 edit.2) rows

theorem length_retypeRow (x : Nat) (content : String) (row : List String) :
    (retypeRow x content row).length = max row.length (x + 1) := by
  simp only [retypeRow, List.length_set, List.rightpad, List.length_append, List.length_replicate]
  omega

theorem getElem?_retypeRow (x : Nat) (content : String) (row : List String) (y : Nat) :
    ((retypeRow x content row)[y]?).getD "" = if y = x then content else (row[y]?).getD "" := by
  have hlength : x < (row.rightpad (x + 1) "").length := by
    simp only [List.rightpad, List.length_append, List.length_replicate]
    omega
  rw [retypeRow, List.getElem?_set]
  by_cases hy : y = x
  · rw [if_pos hy.symm, if_pos hy, if_pos hlength, Option.getD_some]
  · rw [if_neg (Ne.symm hy), if_neg hy, List.rightpad, List.getElem?_append]
    split
    · rfl
    · next hlt =>
        rw [List.getElem?_eq_none (Nat.le_of_not_lt hlt), List.getElem?_replicate]
        split <;> rfl

theorem contentAt_retype {rows : List (List String)} {a : Address} (hsheet : a.sheet = 0)
    (hrow : a.row < rows.length) (content : String) (b : Address) :
    contentAt (retype rows a content) b = if b = a then content else contentAt rows b := by
  obtain ⟨k, x, y⟩ := a
  obtain ⟨k', x', y'⟩ := b
  obtain rfl : k = 0 := hsheet
  simp only [contentAt, Sheet.typedAt, retype, Address.mk.injEq]
  by_cases hk : k' = 0
  · rw [if_pos hk, if_pos hk]
    by_cases hy : y' = y
    · obtain ⟨row, hrow⟩ : ∃ row, rows[y]? = some row := ⟨_, List.getElem?_eq_getElem hrow⟩
      rw [hy, List.getElem?_modify_eq, hrow]
      simp only [Option.map_eq_map, Option.map_some, Option.bind_some, getElem?_retypeRow, hk,
        true_and, and_true]
    · rw [List.getElem?_modify_ne _ _ (Ne.symm hy), if_neg fun heq => hy heq.2.2]
  · rw [if_neg hk, if_neg hk, if_neg fun heq => hk heq.1]

theorem foldl_max_modify (ns : List Nat) (i k m : Nat) (hk : k ≤ ns.foldl max m) :
    (ns.modify i (max · k)).foldl max m = ns.foldl max m := by
  induction ns generalizing i m with
  | nil => rw [List.modify_nil]
  | cons n ns ih =>
      cases i with
      | zero =>
          rw [List.modify_zero_cons, List.foldl_cons, List.foldl_cons, ← Nat.max_assoc,
            Nat.max_comm, List.foldl_assoc]
          exact Nat.max_eq_right hk
      | succ i => exact ih i (max m n) hk

/-- Retyping a cell of the sheet leaves its size as it is. -/
theorem dimensions_retype {rows : List (List String)} {a : Address}
    (hcol : a.col < (Sheet.dimensions rows).1) (content : String) :
    Sheet.dimensions (retype rows a content) = Sheet.dimensions rows := by
  have hlengths : (retype rows a content).map List.length
      = (rows.map List.length).modify a.row (max · (a.col + 1)) := by
    apply List.ext_getElem?
    intro i
    rw [retype, List.getElem?_map, List.getElem?_modify, List.getElem?_modify, List.getElem?_map]
    cases rows[i]? with
    | none => rfl
    | some row =>
        by_cases hi : a.row = i
        · simp [hi, length_retypeRow]
        · simp [hi]
  rw [Sheet.dimensions, Sheet.dimensions, hlengths, foldl_max_modify _ _ _ _ hcol, retype,
    List.length_modify]

theorem length_retypeAll (rows : List (List String)) (edits : List (Address × String)) :
    (retypeAll rows edits).length = rows.length := by
  induction edits generalizing rows with
  | nil => rfl
  | cons edit edits ih => exact (ih _).trans (List.length_modify ..)

theorem retypeAll_concat (rows : List (List String)) (edits : List (Address × String))
    (edit : Address × String) :
    retypeAll rows (edits ++ [edit]) = retype (retypeAll rows edits) edit.1 edit.2 :=
  List.foldl_append

theorem dimensions_retypeAll {rows : List (List String)} {edits : List (Address × String)}
    (h : ∀ edit ∈ edits, edit.1.col < (Sheet.dimensions rows).1) :
    Sheet.dimensions (retypeAll rows edits) = Sheet.dimensions rows := by
  induction edits using List.reverseRecOn with
  | nil => rfl
  | append_singleton edits edit ih =>
      have hdimensions := ih fun p hp => h p (List.mem_append_left _ hp)
      have hcol := h edit (List.mem_append_right _ (List.mem_singleton.mpr rfl))
      rw [retypeAll_concat, dimensions_retype (hdimensions ▸ hcol), hdimensions]

/-- A cell has the last content that has been put into it. -/
theorem contentAt_retypeAll {rows : List (List String)} {edits : List (Address × String)}
    (h : ∀ edit ∈ edits, edit.1.sheet = 0 ∧ edit.1.row < rows.length) (a : Address) :
    contentAt (retypeAll rows edits) a
      = (((edits.filter (·.1 = a)).getLast?).map Prod.snd).getD (contentAt rows a) := by
  induction edits using List.reverseRecOn with
  | nil => rfl
  | append_singleton edits edit ih =>
      have hedits := fun p hp => h p (List.mem_append_left _ hp)
      obtain ⟨hsheet, hrow⟩ := h edit (List.mem_append_right _ (List.mem_singleton.mpr rfl))
      have hlength : (retypeAll rows edits).length = rows.length := length_retypeAll rows edits
      rw [retypeAll_concat, contentAt_retype hsheet (hlength ▸ hrow), ih hedits,
        List.filter_append]
      by_cases ha : a = edit.1
      · simp [ha]
      · simp [ha, Ne.symm ha]

namespace Sheet

/-- The sheet holds what is typed in the rows. -/
structure Holding (s : Sheet) (rows : List (List String)) : Prop where
  sheet : s.cells.sheet = 0
  size : (s.cells.width, s.cells.height) = dimensions rows
  formulaAt : ∀ a, s.formulaAt a = formulaOf? a (contentAt rows a)
  constantAt : ∀ a, s.constantAt a = constantOf (contentAt rows a)

variable {s t : Sheet} {rows : List (List String)} {a : Address} {content : String}

theorem formulaOf?_eq_none (a : Address) (hcontent : Expr.isFormula content = false) :
    formulaOf? a content = none := by
  rw [formulaOf?, vertexOf?, if_neg (Bool.eq_false_iff.mp hcontent)]
  cases Value.ofContent content <;> rfl

theorem constantOf_eq_ofContent (hcontent : Expr.isFormula content = false) :
    constantOf content = Value.ofContent content := if_neg (Bool.eq_false_iff.mp hcontent)

theorem isFormula_blank : Expr.isFormula "" = false := by decide +kernel

theorem ofContent_blank : Value.ofContent "" = .empty := by
  have htrim : (Text.trim "".toList).isEmpty = true := by decide +kernel
  rw [Value.ofContent]
  exact if_pos htrim

/-- A sheet can be built from any rows, and it holds them. -/
theorem exists_holding (functions : Registry) (rows : List (List String)) :
    ∃ s, ofRows functions 0 rows = .ok s ∧ s.Wired (s.Reads functions) ∧ s.Holding rows := by
  obtain ⟨s, hs, hwired, hsheet, hsize, hcells⟩ := exists_ofRows functions 0 rows
  refine ⟨s, hs, hwired, hsheet, hsize, fun a => ?_, fun a => ?_⟩
  · rw [(hcells a).1, contentAt]
    cases typedAt 0 rows a with
    | none => exact (formulaOf?_eq_none a isFormula_blank).symm
    | some raw => rfl
  · rw [(hcells a).2, contentAt]
    cases typedAt 0 rows a with
    | none => exact ((constantOf_eq_ofContent isFormula_blank).trans ofContent_blank).symm
    | some raw => rfl

namespace Holding

theorem of_inBounds (h : s.Holding rows) (ha : s.cells.inBounds a = true) :
    a.sheet = 0 ∧ a.col < (dimensions rows).1 ∧ a.row < rows.length := by
  obtain ⟨hsheet, hcol, hrow⟩ := CellMap.inBounds_iff.mp ha
  have hwidth : s.cells.width = (dimensions rows).1 := congrArg Prod.fst h.size
  have hheight : s.cells.height = rows.length := congrArg Prod.snd h.size
  exact ⟨hsheet.trans h.sheet, hwidth ▸ hcol, hheight ▸ hrow⟩

/-- The rows follow an edit of the sheet. -/
theorem edited (h : s.Holding rows) (hcontent : Expr.isFormula content = false)
    (hedit : s.Edited a (Value.ofContent content) t) : t.Holding (retype rows a content) := by
  obtain ⟨hsheet, hcol, hrow⟩ := h.of_inBounds hedit.inBounds
  have hat := contentAt_retype hsheet hrow content
  refine ⟨hedit.sheet.trans h.sheet, ?_, fun b => ?_, fun b => ?_⟩
  · rw [hedit.width, hedit.height, dimensions_retype hcol, h.size]
  · rw [hedit.formulaAt, hat]
    by_cases hb : b = a
    · rw [if_pos hb, formulaOf?_eq_none b hcontent, hb, hedit.free]
    · rw [if_neg hb, h.formulaAt]
  · rw [hedit.constantAt, hat]
    by_cases hb : b = a
    · rw [if_pos hb, if_pos hb, constantOf_eq_ofContent hcontent]
    · rw [if_neg hb, if_neg hb, h.constantAt]

theorem reshown (h : s.Holding rows) (hs : s.Labelled) (hshown : s.Reshown t) : t.Holding rows where
  sheet := hshown.cells ▸ h.sheet
  size := hshown.cells ▸ h.size
  formulaAt a := (hshown.toSameOutline.formulaAt hs a).trans (h.formulaAt a)
  constantAt a := (hshown.constantAt a).trans (h.constantAt a)

/-- Sheets that hold the same contents in the same size have the same contents. -/
theorem sameContents {rows' : List (List String)} (hs : s.Holding rows) (ht : t.Holding rows')
    (hsize : dimensions rows' = dimensions rows)
    (hcontents : ∀ a, contentAt rows' a = contentAt rows a) : s.SameContents t := by
  have hboth : (t.cells.width, t.cells.height) = (s.cells.width, s.cells.height) := by
    rw [ht.size, hs.size, hsize]
  refine ⟨⟨ht.sheet.trans hs.sheet.symm, (Prod.mk.inj hboth).1, (Prod.mk.inj hboth).2,
    fun a => ?_⟩, fun a => ?_⟩
  · rw [ht.formulaAt, hs.formulaAt, hcontents]
  · rw [ht.constantAt, hs.constantAt, hcontents]

end Holding

end Sheet

end Recalc
