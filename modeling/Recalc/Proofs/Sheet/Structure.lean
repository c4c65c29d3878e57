import Recalc.Proofs.Sheet.Counting
import Recalc.Proofs.Sheet.Growth

/-!
# What typed contents are built into

Rows of typed content say which vertices a sheet has and between which of them there are arrows.
Building a sheet never fails, and it makes these vertices and arrows and no others, whatever the
order in which the formulas come and however often they name the same cells and ranges.
-/

namespace Recalc

/-- The expression of a typed formula. One that cannot be read is an error literal. -/
def Expr.ofContent (home : Address) (raw : String) : Expr :=
  match Expr.ofFormula home raw with
  | .ok x => x
  | .error _ => .error .unreadable

/-- The arrows that come with what the formulas of cells name: from each cell or range that is named
to the cell of the formula, and from each cell of a range that is named to the range. -/
inductive Arrow (names : Address → Dependency → Prop) : Dependency → Dependency → Prop where
  | named {a : Address} {d : Dependency} (name : names a d) : Arrow names d (.cell a)
  | covered {a b : Address} {r : Range} (name : names a (.range r)) (mem : b ∈ r.addresses) :
      Arrow names (.cell b) (.range r)

/-- A cell or range reads another one, against the arrow. -/
abbrev Reading (names : Address → Dependency → Prop) (e d : Dependency) : Prop := Arrow names d e

theorem arrow_iff_brings {names : Address → Dependency → Prop} {d e : Dependency} :
    Arrow names d e ↔ ∃ a f, names a f ∧ Dependency.Brings a f e d := by
  constructor
  · rintro (hname | ⟨hname, hmem⟩)
    · exact ⟨_, _, hname, .formula⟩
    · exact ⟨_, _, hname, .cells rfl hmem⟩
  · rintro ⟨a, f, hname, _ | ⟨rfl, hmem⟩⟩
    · exact .named hname
    · exact .covered hname hmem

namespace Sheet

/-! ## What typed contents say -/

section Typed

variable (functions : Registry) (sheet : Nat) (rows : List (List String))

/-- An address of the sheet with these rows. -/
def OnSheet (a : Address) : Prop :=
  a.sheet = sheet ∧ a.col < (dimensions rows).1 ∧ a.row < (dimensions rows).2

/-- The formula typed into a cell names a cell or a range, all of which is on the sheet, outside the
arguments of functions that look at shapes only. -/
def TypedNames (a : Address) (d : Dependency) : Prop :=
  ∃ raw, typedAt sheet rows a = some raw ∧ Expr.isFormula raw = true
    ∧ d ∈ (Expr.ofContent a raw).dependencies functions.shapeOnly a
    ∧ ∀ b ∈ d.addresses, OnSheet sheet rows b

/-- Nothing but blanks is typed into a cell. -/
def Unoccupied (a : Address) : Prop :=
  ∀ raw, typedAt sheet rows a = some raw → Expr.isFormula raw = false
    ∧ Value.ofContent raw = .empty

/-- The cells and ranges that get a vertex, and which. -/
inductive Demands : Dependency → Vertex → Prop where
  | formula {a : Address} {raw : String} (typed : typedAt sheet rows a = some raw)
      (isFormula : Expr.isFormula raw = true) :
      Demands (.cell a) (.formula (Expr.ofContent a raw) a .empty)
  | value {a : Address} {raw : String} (typed : typedAt sheet rows a = some raw)
      (isFormula : Expr.isFormula raw = false) (occupied : Value.ofContent raw ≠ .empty) :
      Demands (.cell a) (.value (Value.ofContent raw))
  | blank {a b : Address} {d : Dependency} (unoccupied : Unoccupied sheet rows a)
      (name : TypedNames functions sheet rows b d) (mem : a ∈ d.addresses) :
      Demands (.cell a) .blank
  | range {a : Address} {r : Range} (name : TypedNames functions sheet rows a (.range r)) :
      Demands (.range r) (.range r)

/-- A sheet has the vertices and the arrows that typed contents ask for, each of them once, and no
others. -/
structure Represents (s : Sheet) : Prop where
  bounds : s.cells.sheet = sheet ∧ (s.cells.width, s.cells.height) = dimensions rows
  nodes : s.graph.toList = s.store.toList.map Prod.fst
  bounded : ∀ d id, s.find? d = some id → id.index < s.store.size
  /-- Each vertex stands for one cell or range, and no two for the same one. -/
  label : ∀ id : VertexId, id.index < s.store.size → ∃! d, s.find? d = some id
  vertex_iff : ∀ d v, (s.find? d).bind s.store.get? = some v ↔ Demands functions sheet rows d v
  arrow : ∀ d e, Arrow (TypedNames functions sheet rows) d e →
    ∃ u v, s.find? d = some u ∧ s.find? e = some v ∧ s.graph.hasEdge u v = true
  edge : ∀ u v, s.graph.hasEdge u v = true →
    ∃ d e, Arrow (TypedNames functions sheet rows) d e ∧ s.find? d = some u ∧ s.find? e = some v
  /-- No arrow is there twice. -/
  edgeCount : s.graph.edgeCount =
    {p : Dependency × Dependency | Arrow (TypedNames functions sheet rows) p.1 p.2}.ncard

end Typed

variable {functions : Registry} {sheet : Nat} {rows : List (List String)} {s t : Sheet}
  {a : Address} {d e : Dependency} {raw : String} {v : Vertex} {x : Expr}

/-! ## Formulas and values -/

theorem vertexOf?_eq_some_iff : vertexOf? a raw = some v ↔
    Expr.isFormula raw = true ∧ v = .formula (Expr.ofContent a raw) a .empty
      ∨ Expr.isFormula raw = false ∧ Value.ofContent raw ≠ .empty
        ∧ v = .value (Value.ofContent raw) := by
  rw [vertexOf?]
  cases hformula : Expr.isFormula raw with
  | true =>
      rw [if_pos rfl, Option.some.injEq, eq_comm]
      simp only [true_and, Bool.true_eq_false, false_and, or_false]
      rfl
  | false =>
      rw [if_neg Bool.false_ne_true]
      cases hvalue : Value.ofContent raw <;> simp [eq_comm]

theorem vertexOf?_eq_none_iff : vertexOf? a raw = none ↔
    Expr.isFormula raw = false ∧ Value.ofContent raw = .empty := by
  rw [vertexOf?]
  cases hformula : Expr.isFormula raw with
  | true => simp
  | false =>
      rw [if_neg Bool.false_ne_true]
      cases hvalue : Value.ofContent raw <;> simp

theorem formulaOf?_eq_some_iff : formulaOf? a raw = some x ↔
    Expr.isFormula raw = true ∧ x = Expr.ofContent a raw := by
  rw [formulaOf?]
  cases hv : vertexOf? a raw with
  | none =>
      obtain ⟨hconstant, -⟩ := vertexOf?_eq_none_iff.mp hv
      simp [hconstant]
  | some v =>
      rcases vertexOf?_eq_some_iff.mp hv with ⟨hformula, rfl⟩ | ⟨hconstant, -, rfl⟩
      · simp [hformula, eq_comm]
      · simp [hconstant]

/-! ## What is read -/

theorem covers_iff_onSheet (hsheet : s.cells.sheet = sheet)
    (hsize : (s.cells.width, s.cells.height) = dimensions rows) (d : Dependency) :
    s.Covers d ↔ ∀ b ∈ d.addresses, OnSheet sheet rows b := by
  rw [← grid_covers_iff]
  refine forall₂_congr fun b _ => (CellMap.inBounds_iff (m := s.cells)).trans ?_
  rw [hsheet, OnSheet, ← hsize]

/-- The arrows of a sheet with the formulas that are typed in the rows. -/
theorem reads_eq_reading (functions : Registry) (hsheet : s.cells.sheet = sheet)
    (hsize : (s.cells.width, s.cells.height) = dimensions rows)
    (hformula : ∀ a, s.formulaAt a = (typedAt sheet rows a).bind (formulaOf? a)) :
    s.Reads functions = Reading (TypedNames functions sheet rows) := by
  funext e d
  rw [Reading, arrow_iff_brings]
  apply propext
  constructor
  · rintro ⟨a, x, hx, f, hf, hcovers, hbrings⟩
    rw [hformula, Option.bind_eq_some_iff] at hx
    obtain ⟨raw, hraw, hx⟩ := hx
    obtain ⟨hraw', rfl⟩ := formulaOf?_eq_some_iff.mp hx
    exact ⟨a, f, ⟨raw, hraw, hraw', hf, (covers_iff_onSheet hsheet hsize f).mp hcovers⟩, hbrings⟩
  · rintro ⟨a, f, ⟨raw, hraw, hraw', hf, hon⟩, hbrings⟩
    refine ⟨a, Expr.ofContent a raw, ?_, f, hf, (covers_iff_onSheet hsheet hsize f).mpr hon,
      hbrings⟩
    rw [hformula, Option.bind_eq_some_iff]
    exact ⟨raw, hraw, formulaOf?_eq_some_iff.mpr ⟨hraw', rfl⟩⟩

/-! ## Vertices -/

theorem Holds.vertexAt_eq_none_iff (h : s.Holds (contents sheet rows)) (a : Address) :
    s.vertexAt a = none ↔ Unoccupied sheet rows a := by
  rw [h.vertexAt_eq, Option.bind_eq_none_iff]
  exact forall₂_congr fun raw _ => vertexOf?_eq_none_iff

theorem Holds.demands (h : s.Holds (contents sheet rows)) (hv : s.vertexAt a = some v) :
    Demands functions sheet rows (.cell a) v := by
  rw [h.vertexAt_eq, Option.bind_eq_some_iff] at hv
  obtain ⟨raw, hraw, hv⟩ := hv
  rcases vertexOf?_eq_some_iff.mp hv with ⟨hformula, rfl⟩ | ⟨hconstant, hoccupied, rfl⟩
  · exact .formula hraw hformula
  · exact .value hraw hconstant hoccupied

theorem Holds.find?_range (h : s.Holds (contents sheet rows)) (r : Range) :
    s.find? (.range r) = none := by
  rw [Option.eq_none_iff_forall_ne_some]
  exact fun id hid => h.wired.fed r id hid r.start r.start_mem

/-- A cell with an arrow to a formula or a range is named. -/
theorem exists_names_of_arrow {names : Address → Dependency → Prop}
    (h : Arrow names (.cell a) e) : ∃ b d, names b d ∧ a ∈ d.addresses := by
  cases h with
  | named hname => exact ⟨_, _, hname, List.mem_cons_self⟩
  | covered hname hmem => exact ⟨_, _, hname, hmem⟩

theorem exists_arrow_of_names {names : Address → Dependency → Prop} {b : Address}
    (hname : names b d) (hmem : a ∈ d.addresses) : ∃ e, Arrow names (.cell a) e := by
  cases d with
  | cell c =>
      obtain rfl := List.mem_singleton.mp hmem
      exact ⟨_, .named hname⟩
  | range r => exact ⟨_, .covered hname hmem⟩

section Wiring

variable (h : s.Holds (contents sheet rows)) (hext : s.Extends t)
include h hext

/-- A vertex that wiring adds to typed contents is for a blank cell or a range that is named. -/
theorem Holds.demands_of_found (ht : t.Labelled)
    (hgrows : s.Grows t fun f => ∃ e, Arrow (TypedNames functions sheet rows) f e)
    {id : VertexId} (hid : t.find? d = some id) (hv : t.store.get? id = some v) :
    Demands functions sheet rows d v := by
  have hlabelled := h.wired.labelled
  cases d with
  | cell a =>
      have hvertex : t.vertexAt a = some v := by rw [vertexAt, hid, Option.bind_some, hv]
      -- Wiring leaves what is typed as it is: a cell that is new is blank, and it is named.
      rcases hlabelled.vertexAt_of_extends ht hext a with heq | ⟨hnone, hblank⟩
      · exact h.demands (heq ▸ hvertex)
      · obtain rfl := Option.some.inj (hblank.symm.trans hvertex)
        have hnew : s.find? (.cell a) ≠ some id := by
          rw [hlabelled.find?_eq_none hnone]
          exact (Option.some_ne_none id).symm
        obtain ⟨e, harrow⟩ := (hgrows.found _ id hid).resolve_left hnew
        obtain ⟨b, f, hname, hmem⟩ := exists_names_of_arrow harrow
        exact .blank ((h.vertexAt_eq_none_iff a).mp hnone) hname hmem
  | range r =>
      obtain rfl := Option.some.inj ((ht.get?_range hid).symm.trans hv)
      have hnew : s.find? (.range r) ≠ some id := by
        rw [h.find?_range]
        exact (Option.some_ne_none id).symm
      obtain ⟨e, harrow⟩ := (hgrows.found _ id hid).resolve_left hnew
      cases harrow with
      | named hname => exact .range hname

/-- What is demanded of wired contents is there. -/
theorem Holds.found_of_demands (ht : t.Labelled)
    (hsource : ∀ f e, Arrow (TypedNames functions sheet rows) f e → ∃ id, t.find? f = some id)
    (hdemands : Demands functions sheet rows d v) :
    (t.find? d).bind t.store.get? = some v := by
  have hkept : ∀ {a raw w}, typedAt sheet rows a = some raw → vertexOf? a raw = some w →
      t.vertexAt a = some w := by
    intro a raw w hraw hw
    have hs : s.vertexAt a = some w := by rw [h.vertexAt_eq, hraw, Option.bind_some, hw]
    rcases h.wired.labelled.vertexAt_of_extends ht hext a with heq | ⟨hnone, -⟩
    · rw [heq, hs]
    · exact absurd (hnone.symm.trans hs) nofun
  cases hdemands with
  | formula htyped hformula =>
      exact hkept htyped (vertexOf?_eq_some_iff.mpr (Or.inl ⟨hformula, rfl⟩))
  | value htyped hconstant hoccupied =>
      exact hkept htyped (vertexOf?_eq_some_iff.mpr (Or.inr ⟨hconstant, hoccupied, rfl⟩))
  | @blank a b f hunoccupied hname hmem =>
      obtain ⟨e, harrow⟩ := exists_arrow_of_names hname hmem
      obtain ⟨id, hid⟩ := hsource _ e harrow
      have hnone := (h.vertexAt_eq_none_iff a).mpr hunoccupied
      rcases h.wired.labelled.vertexAt_of_extends ht hext a with heq | ⟨-, hblank⟩
      · exact absurd ((ht.find?_eq_none (heq.trans hnone)).symm.trans hid) nofun
      · exact hblank
  | range hname =>
      obtain ⟨id, hid⟩ := hsource _ _ (.named hname)
      rw [hid, Option.bind_some, ht.get?_range hid]

/-- Wiring adds vertices for what is named only. -/
theorem Holds.grows_of_wired (hwired : t.Wired (Reading (TypedNames functions sheet rows)))
    (hreads : t.Reads functions = Reading (TypedNames functions sheet rows))
    (ht : s.store.toList.foldlM (wireFormula functions) s = .ok t) :
    s.Grows t fun f => ∃ e, Arrow (TypedNames functions sheet rows) f e := by
  refine (grows_wireAll ht).mono fun f hmore => ?_
  obtain ⟨e, hbrings⟩ := hmore
  have hlabelled := h.wired.labelled
  have hread : t.Reads functions e f := by
    rwa [hlabelled.reads_of_extends hwired.labelled hext, hlabelled.reads_iff]
  rw [hreads] at hread
  exact ⟨e, hread⟩

end Wiring

/-- Every sheet can be built, and it has exactly the vertices and arrows that its typed contents ask
for. -/
theorem ofRows_represents (functions : Registry) (sheet : Nat) (rows : List (List String)) :
    ∃ s, ofRows functions sheet rows = .ok s ∧ Represents functions sheet rows s := by
  obtain ⟨s, t, hs, hholds, ht, hwired, hext, hsheet, hsize⟩ := exists_wired functions sheet rows
  have hlabelled := hwired.labelled
  have hreads := reads_eq_reading functions hsheet hsize
    (hholds.formulaAt_of_extends hlabelled hext)
  rw [hreads] at hwired
  have hgrows := hholds.grows_of_wired hext hwired hreads ht
  have hbuilt : ofRows functions sheet rows = .ok t := by
    rw [ofRows, hs]
    exact ht
  refine ⟨t, hbuilt, ?_⟩
  constructor
  case bounds => exact ⟨hsheet, hsize⟩
  case nodes => exact (numbered_ofRows hbuilt).toList
  case bounded => exact fun d id hid => hlabelled.lt_size hid
  case label =>
    intro id hlt
    obtain ⟨d, hd⟩ := hlabelled.label id hlt
    exact ⟨d, hd, fun e he => hlabelled.inj e d id he hd⟩
  case vertex_iff =>
    intro d v
    constructor
    · intro hv
      obtain ⟨id, hid, hget⟩ := Option.bind_eq_some_iff.mp hv
      exact hholds.demands_of_found hext hlabelled hgrows hid hget
    · exact hholds.found_of_demands hext hlabelled fun f e harrow => hwired.source e f harrow
  case arrow =>
    intro d e harrow
    obtain ⟨v, hv⟩ := hwired.reader e d harrow
    obtain ⟨u, hu, hedge⟩ := hwired.exists_edge harrow hv
    exact ⟨u, v, hu, hv, hedge⟩
  case edge =>
    intro u v hedge
    obtain ⟨e, d, harrow, hv, hu⟩ := (hwired.edge_iff u v).mp hedge
    exact ⟨d, e, harrow, hu, hv⟩
  case edgeCount =>
    rw [hwired.edgeCount_eq, ← Set.ncard_image_of_injective _ Prod.swap_injective,
      Set.image_swap_eq_preimage_swap]
    rfl

end Sheet

end Recalc
