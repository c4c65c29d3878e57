import Mathlib.Data.List.Nodup
import Recalc.Proofs.Sheet.Wiring

/-!
# Building a sheet

A sheet can be built from any rows. Its formulas and values are those of the typed contents, and its
arrows are those of its formulas.
-/

namespace Recalc.Sheet

/-- The content typed into a cell. -/
def typedAt (sheet : Nat) (rows : List (List String)) (a : Address) : Option String :=
  if a.sheet = sheet then (rows[a.row]?).bind (·[a.col]?) else none

theorem mem_contents_iff (sheet : Nat) (rows : List (List String)) (a : Address) (raw : String) :
    (a, raw) ∈ contents sheet rows ↔ typedAt sheet rows a = some raw := by
  simp only [contents, List.mem_flatMap, List.mem_map, Prod.exists, Prod.mk.injEq,
    List.mem_zipIdx_iff_getElem?, typedAt, Option.ite_none_right_eq_some, Option.bind_eq_some_iff]
  constructor
  · rintro ⟨row, y, hrow, raw', x, hraw, rfl, rfl⟩
    exact ⟨rfl, row, hrow, hraw⟩
  · rintro ⟨rfl, row, hrow, hraw⟩
    exact ⟨row, a.row, hrow, raw, a.col, hraw, rfl, rfl⟩

theorem nodup_contents (sheet : Nat) (rows : List (List String)) :
    ((contents sheet rows).map Prod.fst).Nodup := by
  have hindex : ∀ {α : Type} (xs : List α), xs.zipIdx.Pairwise fun p q => p.2 ≠ q.2 := by
    intro α xs
    rw [← List.pairwise_map (f := Prod.snd), List.zipIdx_map_snd]
    exact List.nodup_range'
  rw [contents, List.map_flatMap, List.nodup_flatMap]
  refine ⟨fun row _ => ?_, (hindex rows).imp fun {p q} hpq => ?_⟩
  · rw [List.map_map]
    refine List.pairwise_map.mpr ((hindex row.1).imp fun {p q} hne heq => ?_)
    exact hne (congrArg Address.col heq)
  · intro a ha hb
    simp only [List.map_map, List.mem_map] at ha hb
    obtain ⟨_, -, rfl⟩ := ha
    obtain ⟨_, -, heq⟩ := hb
    exact hpq (congrArg Address.row heq).symm

theorem le_foldl_max (ns : List Nat) (m : Nat) :
    m ≤ ns.foldl max m ∧ ∀ n ∈ ns, n ≤ ns.foldl max m := by
  induction ns generalizing m with
  | nil => exact ⟨Nat.le_refl m, nofun⟩
  | cons n ns ih =>
      obtain ⟨hmax, hall⟩ := ih (max m n)
      refine ⟨(Nat.le_max_left m n).trans hmax, fun k hk => ?_⟩
      rcases List.mem_cons.mp hk with rfl | hk
      · exact (Nat.le_max_right m k).trans hmax
      · exact hall k hk

/-- Typed contents lie on the sheet. -/
theorem of_typedAt {sheet : Nat} {rows : List (List String)} {a : Address} {raw : String}
    (h : typedAt sheet rows a = some raw) :
    a.sheet = sheet ∧ a.col < (dimensions rows).1 ∧ a.row < (dimensions rows).2 := by
  rw [typedAt, Option.ite_none_right_eq_some, Option.bind_eq_some_iff] at h
  obtain ⟨hsheet, row, hrow, hraw⟩ := h
  obtain ⟨hlt, rfl⟩ := List.getElem?_eq_some_iff.mp hrow
  obtain ⟨hlt', -⟩ := List.getElem?_eq_some_iff.mp hraw
  refine ⟨hsheet, hlt'.trans_le ?_, hlt⟩
  exact (le_foldl_max _ 0).2 _ (List.mem_map_of_mem (List.getElem_mem hlt))

theorem fits_of_vertexOf? {a : Address} {raw : String} {v : Vertex}
    (h : vertexOf? a raw = some v) : (Dependency.cell a).Fits v := by
  rw [vertexOf?] at h
  split at h
  · obtain rfl := Option.some.inj h
    rfl
  · split at h
    · cases h
    · obtain rfl := Option.some.inj h
      trivial

theorem find?_blank (sheet width height : Nat) (d : Dependency) :
    (blank sheet width height).find? d = none := by
  cases d <;> simp [blank, find?, CellMap.empty]

theorem labelled_blank (sheet width height : Nat) : (blank sheet width height).Labelled := by
  have hnone : ∀ d id, (blank sheet width height).find? d ≠ some id := by
    intro d id
    rw [find?_blank]
    exact (Option.some_ne_none id).symm
  constructor
  case graph => exact Graph.wellFormed_empty
  case contains_iff =>
    simp [blank, Graph.empty, Graph.contains, Graph.number?, Store.empty, Store.size]
  case covers => exact fun d id hd => absurd hd (hnone d id)
  case fits => exact fun d id hd => absurd hd (hnone d id)
  case inj => exact fun d _ id hd => absurd hd (hnone d id)
  case label => exact fun _ hid => absurd hid (Nat.not_lt_zero _)

/-- A sheet on which nothing has been wired, with the vertices of some typed contents. -/
structure Holds (s : Sheet) (entries : List (Address × String)) : Prop where
  wired : s.Wired fun _ _ => False
  vertexAt_eq_some_iff : ∀ a v, s.vertexAt a = some v ↔
    ∃ raw, (a, raw) ∈ entries ∧ vertexOf? a raw = some v

theorem holds_blank (sheet width height : Nat) : (blank sheet width height).Holds [] := by
  refine ⟨⟨⟨labelled_blank sheet width height, fun _ _ h => h.elim, fun _ _ h => h.elim,
    fun u v => ?_⟩, fun r id hid => ?_⟩, fun a v => ?_⟩
  · simp [blank, Graph.Edge, Graph.hasEdge, Graph.number?, Graph.empty]
  · rw [find?_blank] at hid
    cases hid
  · simp [vertexAt, find?_blank]

variable {s : Sheet} {a : Address} {raw : String}

/-- Typed content can be entered into a cell that has none yet. -/
theorem Holds.enter {entries : List (Address × String)} (h : s.Holds entries)
    (ha : s.cells.inBounds a = true) (hnew : a ∉ entries.map Prod.fst) :
    ∃ t, s.enter a raw = .ok t ∧ t.Holds (entries ++ [(a, raw)])
      ∧ t.cells.sheet = s.cells.sheet ∧ t.cells.width = s.cells.width
      ∧ t.cells.height = s.cells.height := by
  have hempty : s.vertexAt a = none := by
    rw [Option.eq_none_iff_forall_ne_some]
    intro v hv
    obtain ⟨raw', hmem, -⟩ := (h.vertexAt_eq_some_iff a v).mp hv
    exact hnew (List.mem_map_of_mem hmem)
  rw [Sheet.enter]
  cases hv : vertexOf? a raw with
  | none =>
      refine ⟨s, rfl, ⟨h.wired, fun b w => ?_⟩, rfl, rfl, rfl⟩
      rw [h.vertexAt_eq_some_iff]
      refine exists_congr fun raw' => and_congr_left fun hw => ?_
      rw [List.mem_append, List.mem_singleton]
      refine (or_iff_left fun heq => ?_).symm
      obtain ⟨rfl, rfl⟩ := Prod.mk.inj heq
      exact absurd (hv.symm.trans hw) nofun
  | some v =>
      have hfind := h.wired.labelled.find?_eq_none hempty
      have hlinked := h.wired.toLinked.grow (d := .cell a) ha (fits_of_vertexOf? hv) hfind
      refine ⟨s.grow (.cell a) v, addCell_eq_grow ha v,
        ⟨hlinked.wired h.wired rfl fun _ _ h => h, fun b w => ?_⟩, rfl, rfl, rfl⟩
      rw [vertexAt_grow h.wired.labelled]
      simp only [List.mem_append, List.mem_singleton, Prod.mk.injEq, or_and_right, exists_or]
      by_cases hb : b = a
      · subst hb
        have hnone : ¬ ∃ raw', (b, raw') ∈ entries ∧ vertexOf? b raw' = some w :=
          fun ⟨raw', hmem, _⟩ => hnew (List.mem_map_of_mem hmem)
        rw [if_pos rfl, or_iff_right hnone, ← hv]
        exact ⟨fun hw => ⟨raw, ⟨rfl, rfl⟩, hw⟩, fun ⟨_, ⟨_, heq⟩, hw⟩ => heq ▸ hw⟩
      · rw [if_neg hb, h.vertexAt_eq_some_iff]
        exact (or_iff_left fun ⟨_, heq, _⟩ => hb heq.1).symm

/-- The vertices of typed contents can be made. -/
theorem exists_ofContents (sheet : Nat) (rows : List (List String)) :
    ∃ s, ofContents sheet rows = .ok s ∧ s.Holds (contents sheet rows) ∧ s.cells.sheet = sheet
      ∧ (s.cells.width, s.cells.height) = dimensions rows := by
  obtain ⟨s, hs, hholds, hsheet, hwidth, hheight⟩ := exists_foldlM
    (f := fun (s : Sheet) (entry : Address × String) => s.enter entry.1 entry.2)
    (p := fun done t => t.Holds done ∧ t.cells.sheet = sheet
      ∧ t.cells.width = (dimensions rows).1 ∧ t.cells.height = (dimensions rows).2)
    (contents sheet rows) (fun done entry rest t hcut hdone => by
      obtain ⟨hholds, hsheet, hwidth, hheight⟩ := hdone
      obtain ⟨a, raw⟩ := entry
      have hmem : (a, raw) ∈ contents sheet rows :=
        hcut ▸ List.mem_append_right _ List.mem_cons_self
      obtain ⟨hsheet', hcol, hrow⟩ := of_typedAt ((mem_contents_iff sheet rows a raw).mp hmem)
      have hnew : a ∉ done.map Prod.fst := by
        have hnodup := nodup_contents sheet rows
        rw [← hcut, List.map_append, List.map_cons] at hnodup
        exact fun hold =>
          (List.nodup_append.mp hnodup).2.2 a hold a List.mem_cons_self rfl
      have hin : t.cells.inBounds a = true := by
        rw [CellMap.inBounds_iff, hsheet, hwidth, hheight]
        exact ⟨hsheet', hcol, hrow⟩
      obtain ⟨u, hu, hholds', hs, hw, hh⟩ := hholds.enter hin hnew
      exact ⟨u, hu, hholds', hs.trans hsheet, hw.trans hwidth, hh.trans hheight⟩)
    (s := blank sheet (dimensions rows).1 (dimensions rows).2)
    ⟨holds_blank sheet _ _, rfl, rfl, rfl⟩
  exact ⟨s, hs, hholds, hsheet, Prod.ext hwidth hheight⟩

theorem Holds.vertexAt_eq {sheet : Nat} {rows : List (List String)}
    (h : s.Holds (contents sheet rows)) (a : Address) :
    s.vertexAt a = (typedAt sheet rows a).bind (vertexOf? a) := by
  apply Option.ext
  intro v
  rw [h.vertexAt_eq_some_iff, Option.bind_eq_some_iff]
  simp only [mem_contents_iff]

/-- The formula that typed content is. -/
def formulaOf? (a : Address) (raw : String) : Option Expr :=
  match vertexOf? a raw with
  | some (.formula x _ _) => some x
  | _ => none

/-- The value that typed content is, blank if it is a formula. -/
def constantOf (raw : String) : Value :=
  if Expr.isFormula raw then .empty else Value.ofContent raw

theorem constantOf_eq (a : Address) (raw : String) :
    constantOf raw = match vertexOf? a raw with
      | some (.value v) => v
      | _ => .empty := by
  rw [constantOf, vertexOf?]
  split
  · rfl
  · cases Value.ofContent raw <;> rfl

section Extends

variable {sheet : Nat} {rows : List (List String)} {t : Sheet}
  (h : s.Holds (contents sheet rows)) (ht : t.Labelled) (hext : s.Extends t)
include h ht hext

theorem Holds.formulaAt_of_extends (a : Address) :
    t.formulaAt a = (typedAt sheet rows a).bind (formulaOf? a) := by
  rw [h.wired.labelled.formulaAt_of_extends ht hext, formulaAt, h.vertexAt_eq]
  cases typedAt sheet rows a <;> rfl

theorem Holds.constantAt_of_extends (a : Address) :
    t.constantAt a = ((typedAt sheet rows a).map constantOf).getD .empty := by
  rw [h.wired.labelled.constantAt_of_extends ht hext, constantAt, h.vertexAt_eq]
  cases typedAt sheet rows a with
  | none => rfl
  | some raw => exact (constantOf_eq a raw).symm

end Extends

/-- The typed contents of any rows can be entered, and then their formulas can be wired. -/
theorem exists_wired (functions : Registry) (sheet : Nat) (rows : List (List String)) :
    ∃ s t : Sheet, ofContents sheet rows = .ok s ∧ s.Holds (contents sheet rows)
      ∧ s.store.toList.foldlM (wireFormula functions) s = .ok t
      ∧ t.Wired (t.Reads functions) ∧ s.Extends t
      ∧ t.cells.sheet = sheet ∧ (t.cells.width, t.cells.height) = dimensions rows := by
  obtain ⟨s, hs, hholds, hsheet, hsize⟩ := exists_ofContents sheet rows
  obtain ⟨t, ht, hwired, hext⟩ := hholds.wired.wireAll functions
  refine ⟨s, t, hs, hholds, ht, hwired, hext, hext.sheet.trans hsheet, ?_⟩
  rw [hext.width, hext.height, hsize]

/-- A sheet can be built from any rows, and it has what is typed in them. -/
theorem exists_ofRows (functions : Registry) (sheet : Nat) (rows : List (List String)) :
    ∃ s, ofRows functions sheet rows = .ok s ∧ s.Wired (s.Reads functions)
      ∧ s.cells.sheet = sheet ∧ (s.cells.width, s.cells.height) = dimensions rows
      ∧ ∀ a, s.formulaAt a = (typedAt sheet rows a).bind (formulaOf? a)
        ∧ s.constantAt a = ((typedAt sheet rows a).map constantOf).getD .empty := by
  obtain ⟨s, t, hs, hholds, ht, hwired, hext, hsheet, hsize⟩ := exists_wired functions sheet rows
  refine ⟨t, ?_, hwired, hsheet, hsize, fun a => ?_⟩
  · rw [ofRows, hs]
    exact ht
  · exact ⟨hholds.formulaAt_of_extends hwired.labelled hext a,
      hholds.constantAt_of_extends hwired.labelled hext a⟩

end Recalc.Sheet
