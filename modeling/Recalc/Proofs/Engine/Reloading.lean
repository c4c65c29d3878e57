import Recalc.Proofs.Engine.Solution
import Recalc.Proofs.Sheet.Counting

/-!
# Editing is reloading

After any edits of a loaded sheet an engine shows what a new engine shows that loads the rows with
the edited contents in them, although the two build different vertices, arrows and orders. Only the
last content of a cell counts, and cells can be edited in any order.
-/

namespace Recalc

namespace LoadedSheet

variable {l m : LoadedSheet}

/-- The sheets have the same values and the same counts. -/
structure SameResults (l m : LoadedSheet) : Prop where
  values : ∃ grid, l.sheet.values = .ok grid ∧ m.sheet.values = .ok grid
  width : m.sheet.cells.width = l.sheet.cells.width
  height : m.sheet.cells.height = l.sheet.cells.height
  edges : m.sheet.graph.edgeCount = l.sheet.graph.edgeCount
  formulas : m.sheet.store.formulaCount = l.sheet.store.formulaCount
  cycled : m.order.cycled.length = l.order.cycled.length

/-- The contents of a solved sheet determine its results. -/
theorem Consistent.sameResults (hl : l.Consistent) (hm : m.Consistent)
    (hsame : l.sheet.SameContents m.sheet) : l.SameResults m where
  values := by
    refine ⟨_, hl.labelled.values_eq, ?_⟩
    rw [hm.labelled.values_eq, hsame.height, hsame.width, hsame.sheet]
    simp only [stored_eq hl hm hsame]
  width := hsame.width
  height := hsame.height
  edges := by
    rw [hm.passable.wired.edgeCount_eq, hl.passable.wired.edgeCount_eq,
      hsame.toSameFormulas.reads_eq]
  formulas := by
    rw [hm.labelled.formulaCount_eq, hl.labelled.formulaCount_eq]
    simp only [hsame.formulaAt]
  cycled := by
    rw [hm.passable.length_cycled, hl.passable.length_cycled, hsame.toSameFormulas.reads_eq]

end LoadedSheet

namespace Engine

/-- Type contents into cells, one after the other, as long as none is refused. -/
def setAll (e : Engine) : List (Address × String) → Except Failure Engine
  | [] => .ok e
  | (a, content) :: edits =>
      match e.setAt a content with
      | (.ok (), e) => e.setAll edits
      | (.error failure, _) => .error failure

/-- The engines show the same values, dimensions and counts. -/
structure SameResults (e f : Engine) : Prop where
  values : ∃ grid, e.values = .ok grid ∧ f.values = .ok grid
  dimensions : f.dimensions = e.dimensions
  edges : ∀ spent, (f.report spent).edges = (e.report spent).edges
  formulas : ∀ spent, (f.report spent).formulas = (e.report spent).formulas
  cycled : ∀ spent, (f.report spent).cycled = (e.report spent).cycled

variable {e f : Engine} {l m : LoadedSheet}

theorem sameResults_of_sheets (hl : e.sheet = some l) (hm : f.sheet = some m)
    (h : l.SameResults m) : e.SameResults f where
  values := by
    obtain ⟨grid, hvalues, hvalues'⟩ := h.values
    exact ⟨grid, (values_of_sheet hl).trans hvalues, (values_of_sheet hm).trans hvalues'⟩
  dimensions := by simp only [Engine.dimensions, hl, hm, h.width, h.height]
  edges spent := by simp only [report, hl, hm, h.edges]
  formulas spent := by simp only [report, hl, hm, h.formulas]
  cycled spent := by simp only [report, hl, hm, h.cycled]

/-- Edits succeed if each of them is accepted at the start, and then the sheet holds the rows with
the contents in them. -/
theorem Sound.exists_setAll (h : e.Sound) (hl : e.sheet = some l) {rows : List (List String)}
    (hrows : l.sheet.Holding rows) {edits : List (Address × String)}
    (haccepts : ∀ edit ∈ edits, l.sheet.Accepts edit.1 edit.2) :
    ∃ f m, e.setAll edits = .ok f ∧ f.sheet = some m ∧ m.Consistent
      ∧ m.sheet.Holding (retypeAll rows edits) := by
  induction edits generalizing e l rows with
  | nil => exact ⟨e, l, rfl, hl, h.sheet l hl, hrows⟩
  | cons edit edits ih =>
      obtain ⟨hthis, hrest⟩ := List.forall_mem_cons.mp haccepts
      obtain ⟨-, l', hset, hedited, hconsistent⟩ | ⟨hnot, -⟩ := h.setAt_cases hl edit.1 edit.2
      · have hsound := h.setAt edit.1 edit.2
        rw [hset] at hsound
        obtain ⟨f, m, hall, hf⟩ := ih hsound rfl (hrows.edited hthis.content hedited)
          fun p hp => (hedited.accepts_iff p.1 p.2).mpr (hrest p hp)
        refine ⟨f, m, ?_, hf⟩
        rw [setAll, hset]
        exact hall
      · exact absurd hthis hnot

/-- If no edit is refused, each of them is accepted at the start. -/
theorem Sound.accepts_of_setAll (h : e.Sound) (hl : e.sheet = some l)
    {edits : List (Address × String)} (hset : e.setAll edits = .ok f) :
    ∀ edit ∈ edits, l.sheet.Accepts edit.1 edit.2 := by
  induction edits generalizing e l with
  | nil => exact nofun
  | cons edit edits ih =>
      rw [setAll] at hset
      obtain ⟨haccepts, l', heq, hedited, -⟩ | ⟨-, failure, heq⟩ :=
        h.setAt_cases hl edit.1 edit.2
      · have hsound := h.setAt edit.1 edit.2
        rw [heq] at hset hsound
        refine List.forall_mem_cons.mpr ⟨haccepts, fun p hp => ?_⟩
        exact (hedited.accepts_iff p.1 p.2).mp (ih hsound rfl hset p hp)
      · rw [heq] at hset
        cases hset

/-- Loading the rows that a solved sheet holds succeeds, with the results of the sheet. -/
theorem exists_load_of_holding (hm : m.Consistent) {rows : List (List String)}
    (hrows : m.sheet.Holding rows) (he : e.functions = Registry.builtin) :
    ∃ l, e.load rows = (.ok (), { e with sheet := some l, passes := 1 }) ∧ m.SameResults l := by
  obtain ⟨s, hwired, hholding, hnot, -⟩ | ⟨l, hload, hholding, hconsistent⟩ := load_cases he rows
  · have hsame := hrows.sameContents hholding rfl fun _ => rfl
    exact absurd (hsame.toSameFormulas.passable hm.passable hwired) hnot
  · have hsame := hrows.sameContents hholding rfl fun _ => rfl
    exact ⟨l, hload, hm.sameResults hconsistent hsame⟩

/-- It does not matter which cells are edited first, if each cell gets its contents in the same
order. -/
theorem sameContents_of_filter {rows : List (List String)} {edits edits' : List (Address × String)}
    (hl : l.sheet.Holding rows) (haccepts : ∀ edit ∈ edits, l.sheet.Accepts edit.1 edit.2)
    (haccepts' : ∀ edit ∈ edits', l.sheet.Accepts edit.1 edit.2)
    (hfilter : ∀ a, edits'.filter (·.1 = a) = edits.filter (·.1 = a)) {s t : Sheet}
    (hs : s.Holding (retypeAll rows edits)) (ht : t.Holding (retypeAll rows edits')) :
    s.SameContents t := by
  have hbounds := fun edit hmem => hl.of_inBounds (haccepts edit hmem).inBounds
  have hbounds' := fun edit hmem => hl.of_inBounds (haccepts' edit hmem).inBounds
  refine hs.sameContents ht ?_ fun a => ?_
  · rw [dimensions_retypeAll fun p hp => (hbounds p hp).2.1,
      dimensions_retypeAll fun p hp => (hbounds' p hp).2.1]
  · rw [contentAt_retypeAll fun p hp => ⟨(hbounds p hp).1, (hbounds p hp).2.2⟩,
      contentAt_retypeAll fun p hp => ⟨(hbounds' p hp).1, (hbounds' p hp).2.2⟩, hfilter]

/-- Editing a loaded sheet gives what loading the edited rows gives, and so does editing it in any
order that keeps the order of the contents of each cell. -/
theorem setAll_eq_load (he : e.functions = Registry.builtin) {rows : List (List String)}
    {loaded edited : Engine} (hload : e.load rows = (.ok (), loaded))
    {edits : List (Address × String)} (hset : loaded.setAll edits = .ok edited)
    (csv : Csv.ReadOptions) :
    (∃ reloaded, (ofConfig ⟨[], csv⟩).load (retypeAll rows edits) = (.ok (), reloaded)
      ∧ edited.SameResults reloaded)
    ∧ ∀ edits' : List (Address × String),
      (∀ a, edits'.filter (·.1 = a) = edits.filter (·.1 = a)) →
      ∃ edited', loaded.setAll edits' = .ok edited' ∧ edited.SameResults edited' := by
  obtain ⟨-, -, -, -, failure, hfail⟩ | ⟨l, hok, hrows, hconsistent⟩ := load_cases he rows
  · cases hload.symm.trans hfail
  obtain rfl : _ = loaded := (Prod.mk.inj (hok.symm.trans hload)).2
  have hsound : Sound { e with sheet := some l, passes := 1 } := sound_some he hconsistent 1
  have haccepts := hsound.accepts_of_setAll rfl hset
  obtain ⟨f, m, hf, hm, hmconsistent, hmrows⟩ := hsound.exists_setAll rfl hrows haccepts
  obtain rfl : f = edited := Except.ok.inj (hf.symm.trans hset)
  constructor
  · obtain ⟨l', hload', hsame⟩ :=
      exists_load_of_holding (e := ofConfig ⟨[], csv⟩) hmconsistent hmrows rfl
    exact ⟨_, hload', sameResults_of_sheets hm rfl hsame⟩
  · intro edits' hfilter
    have haccepts' : ∀ edit ∈ edits', l.sheet.Accepts edit.1 edit.2 := by
      intro edit hmem
      have hmem' : edit ∈ edits'.filter (·.1 = edit.1) :=
        List.mem_filter.mpr ⟨hmem, decide_eq_true rfl⟩
      rw [hfilter] at hmem'
      exact haccepts edit (List.mem_filter.mp hmem').1
    obtain ⟨f', m', hf', hm', hmconsistent', hmrows'⟩ :=
      hsound.exists_setAll rfl hrows haccepts'
    have hcontents := sameContents_of_filter hrows haccepts haccepts' hfilter hmrows hmrows'
    exact ⟨f', hf', sameResults_of_sheets hm hm'
      (hmconsistent.sameResults hmconsistent' hcontents)⟩

/-- A cell is edited twice, and another one beyond the end of its row. -/
theorem setAll_eq_load_padded :
    let rows := [["p", "=A1&C2", "=B2"], ["=A1"]]
    let edits := [(⟨0, 0, 0⟩, "q"), (⟨0, 2, 1⟩, "y"), (⟨0, 0, 0⟩, "r")]
    let edits' := [(⟨0, 2, 1⟩, "y"), (⟨0, 0, 0⟩, "q"), (⟨0, 0, 0⟩, "r")]
    retypeAll rows edits = [["r", "=A1&C2", "=B2"], ["=A1", "", "y"]]
      ∧ ∃ loaded edited reloaded edited', standard.load rows = (.ok (), loaded)
        ∧ loaded.setAll edits = .ok edited
        ∧ ((edited.get "B1").toOption.bind Value.text?) = some "ry"
        ∧ standard.load (retypeAll rows edits) = (.ok (), reloaded) ∧ edited.SameResults reloaded
        ∧ loaded.setAll edits' = .ok edited' ∧ edited.SameResults edited' := by
  intro rows edits edits'
  refine ⟨by decide +kernel, ?_⟩
  have hshown : ((standard.load rows).1.toOption.bind fun _ =>
      ((standard.load rows).2.setAll edits).toOption.bind fun edited =>
        (edited.get "B1").toOption.bind Value.text?) = some "ry" := by
    decide +kernel
  have hfilter : ∀ a, edits'.filter (·.1 = a) = edits.filter (·.1 = a) := by
    intro a
    by_cases ha : a = ⟨0, 2, 1⟩
    · rw [ha]
      decide
    · simp [edits, edits', List.filter_cons, Ne.symm ha]
  cases hload : standard.load rows with
  | mk outcome loaded =>
      rw [hload] at hshown
      obtain ⟨_, houtcome, hshown⟩ := Option.bind_eq_some_iff.mp hshown
      obtain ⟨edited, hset, htext⟩ := Option.bind_eq_some_iff.mp hshown
      obtain rfl := eq_ok_of_toOption houtcome
      have hset' := eq_ok_of_toOption hset
      obtain ⟨⟨reloaded, hreload, hsame⟩, horder⟩ :=
        setAll_eq_load rfl hload hset' Csv.ReadOptions.standard
      obtain ⟨edited', hedited', hsame'⟩ := horder edits' hfilter
      exact ⟨loaded, edited, reloaded, edited', rfl, hset', htext, hreload, hsame, hedited', hsame'⟩

end Engine

end Recalc
