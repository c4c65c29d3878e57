import Recalc.Proofs.Engine.Representation

/-!
# Edits are all or nothing

A request to type content either is refused before anything is changed, or it changes one cell and
is followed by a pass that succeeds, since no load, edit or pass brings anything but formulas onto
a cycle.
-/

namespace Recalc

namespace LoadedSheet

variable {functions : Registry} {l : LoadedSheet} {a : Address} {v : Value}

theorem edit_of_outOfBounds (l : LoadedSheet) (ha : l.sheet.cells.inBounds a = false) (v : Value) :
    l.edit a v = .error (.outOfBounds a l.sheet.cells.width l.sheet.cells.height) := by
  rw [edit, CellMap.get, if_neg (Bool.eq_false_iff.mp ha)]
  rfl

theorem Ready.edit_of_formula (h : l.Ready functions) (ha : l.sheet.cells.inBounds a = true)
    {x : Expr} (hx : l.sheet.formulaAt a = some x) (v : Value) :
    l.edit a v = .error (.refusedEdit a .formulaCell) := by
  have hlabelled := h.passable.wired.labelled
  obtain ⟨id, shown, hid⟩ := hlabelled.formulaAt_eq_some_iff.mp hx
  have hfind : l.sheet.cells.vertices[a]? = some id := hlabelled.find?_home hid
  rw [edit, CellMap.get, if_pos ha, hfind]
  simp only [bind, Except.bind, hid]
  rfl

end LoadedSheet

namespace Engine

/-- Why content cannot be typed into a cell: the first complaint of those that are checked. -/
def complaint? (e : Engine) (a : Address) (content : String) : Option Failure :=
  if Expr.isFormula content then some (.refusedEdit a .formulaContent)
  else match e.sheet with
    | none => some .notLoaded
    | some l =>
        if !l.sheet.cells.inBounds a then
          some (.outOfBounds a l.sheet.cells.width l.sheet.cells.height)
        else (l.sheet.formulaAt a).map fun _ => .refusedEdit a .formulaCell

/-- What a request may lead to: one pass more, or a failure that leaves the engine as it was. -/
inductive AllOrNothing (e : Engine) : Except Failure Unit × Engine → Prop
  | passed (l : LoadedSheet) :
      AllOrNothing e (.ok (), { e with sheet := some l, passes := e.passes + 1 })
  | refused (failure : Failure) : AllOrNothing e (.error failure, e)

variable {functions : Registry} {e : Engine} {a : Address} {content : String}

theorem complaint?_eq_none_iff :
    e.complaint? a content = none ↔ ∃ l, e.sheet = some l ∧ l.sheet.Accepts a content := by
  rw [complaint?]
  constructor
  · intro h
    split at h
    · cases h
    · next hcontent =>
        split at h
        · cases h
        · next l hl =>
            split at h
            · cases h
            · next ha =>
                refine ⟨l, hl, Bool.eq_false_iff.mpr hcontent, ?_, Option.map_eq_none_iff.mp h⟩
                simpa using ha
  · rintro ⟨l, hl, haccepts⟩
    rw [if_neg (Bool.eq_false_iff.mp haccepts.content), hl]
    simp [haccepts.inBounds, haccepts.free]

/-- A pass over the sheet of an engine in order succeeds. -/
theorem InOrder.exists_recompute (h : e.InOrder functions) {l : LoadedSheet}
    (hl : e.sheet = some l) :
    ∃ m, e.recompute = (.ok (), { e with sheet := some m, passes := e.passes + 1 }) := by
  obtain ⟨t, ht, -⟩ := (h.loaded l hl).1.exists_pass
  exact ⟨_, recompute_of_pass hl (h.registry ▸ ht)⟩

theorem InOrder.recompute_allOrNothing (h : e.InOrder functions) :
    e.AllOrNothing e.recompute := by
  cases hl : e.sheet with
  | none => exact recompute_of_none hl ▸ .refused _
  | some l =>
      obtain ⟨m, hm⟩ := h.exists_recompute hl
      exact hm ▸ .passed m

/-- Content is typed in if nothing speaks against it; otherwise the first complaint is the answer,
and the engine stays as it is. -/
theorem InOrder.setAt_eq (h : e.InOrder functions) (a : Address) (content : String) :
    (e.complaint? a content = none ∧ ∃ m,
        e.setAt a content = (.ok (), { e with sheet := some m, passes := e.passes + 1 }))
      ∨ ∃ failure, e.complaint? a content = some failure
        ∧ e.setAt a content = (.error failure, e) := by
  have refused : ∀ failure, e.complaint? a content = some failure →
      e.typed a content = .error failure →
      ∃ failure, e.complaint? a content = some failure
        ∧ e.setAt a content = (.error failure, e) := by
    intro failure hcomplaint htyped
    exact ⟨failure, hcomplaint, by rw [Engine.setAt, htyped]⟩
  by_cases hcontent : Expr.isFormula content = true
  · exact Or.inr (refused _ (by rw [complaint?, if_pos hcontent]) (by rw [typed, if_pos hcontent]))
  cases hl : e.sheet with
  | none =>
      refine Or.inr (refused .notLoaded ?_ ?_)
      · rw [complaint?, if_neg hcontent, hl]
      · rw [typed, if_neg hcontent, Engine.loaded, hl]
        rfl
  | some l =>
      have htyped : e.typed a content = l.edit a (Value.ofContent content) := by
        rw [typed, if_neg hcontent, Engine.loaded, hl]
        rfl
      have hready := (h.loaded l hl).1
      rcases hready.edit_cases a (Value.ofContent content) with
        ⟨m, hedit, hm, hedited⟩ | ⟨-, hnot⟩
      · have hcomplaint : e.complaint? a content = none := complaint?_eq_none_iff.mpr
          ⟨l, hl, Bool.eq_false_iff.mpr hcontent, hedited.inBounds, hedited.free⟩
        obtain ⟨t, ht, -⟩ := hm.exists_pass
        refine Or.inl ⟨hcomplaint, ⟨t, m.order⟩, ?_⟩
        rw [Engine.setAt, htyped, hedit]
        exact recompute_of_pass rfl (h.registry ▸ ht)
      · by_cases ha : l.sheet.cells.inBounds a = true
        · obtain ⟨x, hx⟩ := Option.ne_none_iff_exists'.mp fun hfree => hnot ⟨ha, hfree⟩
          refine Or.inr (refused (.refusedEdit a .formulaCell) ?_ ?_)
          · rw [complaint?, if_neg hcontent, hl]
            simp [ha, hx]
          · rw [htyped, hready.edit_of_formula ha hx]
        · rw [Bool.not_eq_true] at ha
          refine Or.inr (refused (.outOfBounds a l.sheet.cells.width l.sheet.cells.height) ?_ ?_)
          · rw [complaint?, if_neg hcontent, hl]
            simp [ha]
          · rw [htyped, l.edit_of_outOfBounds ha]

theorem InOrder.setAt_allOrNothing (h : e.InOrder functions) (a : Address) (content : String) :
    e.AllOrNothing (e.setAt a content) := by
  obtain ⟨-, m, hm⟩ | ⟨failure, -, hfail⟩ := h.setAt_eq a content
  · exact hm ▸ .passed m
  · exact hfail ▸ .refused failure

theorem InOrder.setAt_eq_ok_iff (h : e.InOrder functions) :
    (e.setAt a content).1 = .ok () ↔ e.complaint? a content = none := by
  obtain ⟨hnone, m, hm⟩ | ⟨failure, hsome, hfail⟩ := h.setAt_eq a content
  · exact iff_of_true (congrArg Prod.fst hm) hnone
  · rw [hfail, hsome]
    exact iff_of_false nofun nofun

theorem inOrder_run (config : Config) (requests : List Request) :
    ((ofConfig config).run requests).InOrder (ofConfig config).functions :=
  run_invariant (p := InOrder (ofConfig config).functions) (fun _ rows h => h.load rows)
    (fun _ a content h => h.setAt a content) (fun _ h => h.recompute) (inOrder_ofConfig config)
    requests

/-- Whatever an engine has been asked: a pass succeeds if and only if a sheet is loaded, an edit if
and only if it puts other content than a formula into a cell of the sheet without one. Each success
counts one pass more, and each failure leaves everything as it was. -/
theorem run_all_or_nothing (config : Config) (requests : List Request) :
    let e := (ofConfig config).run requests
    (e.recompute.1 = .ok () ↔ e.isLoaded = true)
      ∧ (∀ a content, (e.setAt a content).1 = .ok ()
          ↔ ∃ l, e.sheet = some l ∧ l.sheet.Accepts a content)
      ∧ e.AllOrNothing e.recompute
      ∧ (∀ a content, e.AllOrNothing (e.setAt a content))
      ∧ ∀ cell content, e.AllOrNothing (e.set cell content) := by
  intro e
  have h : e.InOrder _ := inOrder_run config requests
  refine ⟨?_, fun a content => ?_, h.recompute_allOrNothing, h.setAt_allOrNothing,
    fun cell content => ?_⟩
  · rw [isLoaded]
    cases hl : e.sheet with
    | none =>
        rw [recompute_of_none hl]
        exact iff_of_false nofun nofun
    | some l =>
        obtain ⟨m, hm⟩ := h.exists_recompute hl
        rw [hm]
        exact iff_of_true rfl rfl
  · rw [h.setAt_eq_ok_iff, complaint?_eq_none_iff]
  · rw [set]
    cases cellAddress cell with
    | ok a => exact h.setAt_allOrNothing a content
    | error failure => exact .refused failure

end Engine

end Recalc
