import Recalc.Proofs.Engine.Loading
import Recalc.Proofs.Sheet.Retyping

/-!
# Engines solve their sheets

Whatever is loaded, typed and recomputed in whatever order, the sheet of an engine is solved: the
formulas on cycles show the cycle error, and every other formula shows its meaning over the values
that the cells hold now.
-/

namespace Recalc

namespace Engine

/-- An engine with the functions that are always there, whose sheet is solved. -/
structure Sound (e : Engine) : Prop where
  functions : e.functions = Registry.builtin
  sheet : ∀ l, e.sheet = some l → l.Consistent

variable {e : Engine} {l : LoadedSheet}

theorem sound_unload (h : e.functions = Registry.builtin) : e.unload.Sound := ⟨h, nofun⟩

theorem sound_some (h : e.functions = Registry.builtin) (hl : l.Consistent) (passes : Nat) :
    Sound { e with sheet := some l, passes } := ⟨h, fun _ hm => Option.some.inj hm ▸ hl⟩

theorem getAt_of_sheet (hl : e.sheet = some l) (a : Address) : e.getAt a = l.sheet.valueAt a := by
  rw [getAt, loaded, hl]
  rfl

theorem values_of_sheet (hl : e.sheet = some l) : e.values = l.sheet.values := by
  rw [values, loaded, hl]
  rfl

/-- A load is refused if what is no formula is on a cycle; otherwise it solves the sheet. -/
theorem load_cases (h : e.functions = Registry.builtin) (rows : List (List String)) :
    (∃ s : Sheet, s.Wired (s.Reads Registry.builtin) ∧ s.Holding rows
      ∧ ¬ s.Passable Registry.builtin s.order ∧ ∃ failure, e.load rows = (.error failure, e.unload))
    ∨ ∃ l, e.load rows = (.ok (), { e with sheet := some l, passes := 1 })
      ∧ l.sheet.Holding rows ∧ l.Consistent := by
  obtain ⟨s, hs, hwired, hholding⟩ := Sheet.exists_holding Registry.builtin rows
  have hload : e.load rows = e.unload.adopt ⟨s, s.order⟩ := by rw [load, h, hs]
  by_cases hpassable : s.Passable Registry.builtin s.order
  · obtain ⟨t, ht, hshown, hsolved, hcoherent⟩ := hpassable.exists_pass
    have hpass : LoadedSheet.pass e.unload.functions ⟨s, s.order⟩ = _ := h ▸ ht
    have hready : LoadedSheet.Ready Registry.builtin ⟨s, s.order⟩ := ⟨hpassable, rfl⟩
    refine Or.inr ⟨⟨t, s.order⟩, ?_, hholding.reshown hwired.labelled hshown,
      ⟨hready.reshown hshown, hsolved, hcoherent⟩⟩
    rw [hload, adopt, hpass]
    rfl
  · rw [← h] at hs hwired hpassable
    rcases e.load_built hs hwired with ⟨id, -, hfail⟩ | ⟨hpassable', -⟩
    · exact Or.inl ⟨s, h ▸ hwired, hholding, h ▸ hpassable, _, hfail⟩
    · exact absurd hpassable' hpassable

theorem Sound.load (h : e.Sound) (rows : List (List String)) : (e.load rows).2.Sound := by
  obtain ⟨s, -, -, -, failure, hfail⟩ | ⟨l, hload, -, hconsistent⟩ := load_cases h.functions rows
  · rw [hfail]
    exact sound_unload h.functions
  · rw [hload]
    exact sound_some h.functions hconsistent _

theorem recompute_of_none (hnone : e.sheet = none) : e.recompute = (.error .notLoaded, e) := by
  rw [recompute, hnone]

theorem recompute_of_pass (hl : e.sheet = some l) {m : LoadedSheet}
    (hpass : l.pass e.functions = (.ok (), m)) :
    e.recompute = (.ok (), { e with sheet := some m, passes := e.passes + 1 }) := by
  simp only [recompute, hl, hpass]

/-- A pass over a sheet that is ready succeeds. -/
theorem recompute_eq_ok (h : e.functions = Registry.builtin) (hl : e.sheet = some l)
    (ready : l.Ready Registry.builtin) :
    ∃ t, e.recompute
        = (.ok (), { e with sheet := some ⟨t, l.order⟩, passes := e.passes + 1 })
      ∧ l.sheet.Reshown t ∧ (⟨t, l.order⟩ : LoadedSheet).Consistent := by
  obtain ⟨t, ht, hshown, hdone⟩ := ready.passable.exists_pass
  exact ⟨t, recompute_of_pass hl (h ▸ ht), hshown, ready.reshown hshown, hdone.1, hdone.2⟩

theorem Sound.recompute (h : e.Sound) : e.recompute.2.Sound := by
  cases hl : e.sheet with
  | none => rwa [recompute_of_none hl]
  | some l =>
      obtain ⟨t, ht, -, hconsistent⟩ := recompute_eq_ok h.functions hl (h.sheet l hl).toReady
      rw [ht]
      exact sound_some h.functions hconsistent _

/-- Typing edits the sheet and recomputes it, or it is refused and changes nothing. -/
theorem Sound.setAt_cases (h : e.Sound) (hl : e.sheet = some l) (a : Address) (content : String) :
    (l.sheet.Accepts a content ∧ ∃ l' : LoadedSheet,
        e.setAt a content = (.ok (), { e with sheet := some l', passes := e.passes + 1 })
        ∧ l.sheet.Edited a (Value.ofContent content) l'.sheet ∧ l'.Consistent)
      ∨ ¬ l.sheet.Accepts a content ∧ ∃ failure, e.setAt a content = (.error failure, e) := by
  have htyped : e.typed a content = if Expr.isFormula content then
      .error (.refusedEdit a .formulaContent) else l.edit a (Value.ofContent content) := by
    rw [typed, loaded, hl]
    rfl
  by_cases hcontent : Expr.isFormula content = true
  · refine Or.inr ⟨fun haccepts => ?_, _, by rw [setAt, htyped, if_pos hcontent]⟩
    exact absurd hcontent (Bool.eq_false_iff.mp haccepts.content)
  rw [if_neg hcontent] at htyped
  obtain ⟨edited, hedit, ready, hedited⟩ | ⟨⟨failure, hfail⟩, hnot⟩ :=
    (h.sheet l hl).toReady.edit_cases a (Value.ofContent content)
  · obtain ⟨t, ht, hshown, hconsistent⟩ :=
      recompute_eq_ok (e := { e with sheet := some edited }) h.functions rfl ready
    refine Or.inl ⟨⟨Bool.eq_false_iff.mpr hcontent, hedited.inBounds, hedited.free⟩, _, ?_,
      hedited.reshown ready.passable.wired.labelled hshown, hconsistent⟩
    rw [setAt, htyped, hedit]
    exact ht
  · refine Or.inr ⟨fun haccepts => hnot ⟨haccepts.inBounds, haccepts.free⟩, failure, ?_⟩
    rw [setAt, htyped, hfail]

theorem setAt_of_none (hnone : e.sheet = none) (a : Address) (content : String) :
    ∃ failure, e.setAt a content = (.error failure, e) := by
  obtain ⟨failure, hfail⟩ : ∃ failure, e.typed a content = .error failure := by
    rw [typed, loaded, hnone]
    split
    · exact ⟨_, rfl⟩
    · exact ⟨_, rfl⟩
  exact ⟨failure, by rw [setAt, hfail]⟩

theorem Sound.setAt (h : e.Sound) (a : Address) (content : String) :
    (e.setAt a content).2.Sound := by
  cases hl : e.sheet with
  | none =>
      obtain ⟨failure, hfail⟩ := setAt_of_none hl a content
      rwa [hfail]
  | some l =>
      obtain ⟨-, l', hset, -, hconsistent⟩ | ⟨-, failure, hfail⟩ := h.setAt_cases hl a content
      · rw [hset]
        exact sound_some h.functions hconsistent _
      · rwa [hfail]

/-! ## Requests -/

/-- What an engine can be asked to do to its sheet. -/
inductive Request where
  | load (rows : List (List String))
  | loadCsv (bytes : List UInt8)
  | set (cell content : String)
  | setAt (a : Address) (content : String)
  | recompute

/-- The engine after a request, also where it is refused. -/
def perform (e : Engine) : Request → Engine
  | .load rows => (e.load rows).2
  | .loadCsv bytes => (e.loadCsv bytes).2
  | .set cell content => (e.set cell content).2
  | .setAt a content => (e.setAt a content).2
  | .recompute => e.recompute.2

def run (e : Engine) (requests : List Request) : Engine := requests.foldl perform e

section Invariants

variable {p : Engine → Prop} (load : ∀ e rows, p e → p (e.load rows).2)
  (setAt : ∀ e a content, p e → p (e.setAt a content).2) (recompute : ∀ e, p e → p e.recompute.2)
include load setAt recompute

theorem perform_invariant (h : p e) (request : Request) : p (e.perform request) := by
  cases request with
  | load rows => exact load e rows h
  | loadCsv bytes =>
      rw [perform, loadCsv]
      split
      · exact h
      · next rows _ => exact load e rows h
  | set cell content =>
      rw [perform, set]
      split
      · next a _ => exact setAt e a content h
      · exact h
  | setAt a content => exact setAt e a content h
  | recompute => exact recompute e h

/-- What loads, edits and passes keep is kept whatever an engine is asked. -/
theorem run_invariant (h : p e) (requests : List Request) : p (e.run requests) := by
  induction requests generalizing e with
  | nil => exact h
  | cons request requests ih => exact ih (perform_invariant load setAt recompute h request)

end Invariants

theorem Sound.run (h : e.Sound) (requests : List Request) : (e.run requests).Sound :=
  run_invariant (fun _ rows h => h.load rows) (fun _ a content h => h.setAt a content)
    (fun _ h => h.recompute) h requests

theorem sound_ofConfig (csv : Csv.ReadOptions) : (ofConfig ⟨[], csv⟩).Sound := ⟨rfl, nofun⟩

/-- Whatever an engine without plugins has been asked, a formula on a cycle shows the cycle error
and any other formula shows its meaning over the values that the cells hold. -/
theorem run_shown_eq (csv : Csv.ReadOptions) (requests : List Request) {l : LoadedSheet}
    (hl : ((ofConfig ⟨[], csv⟩).run requests).sheet = some l)
    {id : VertexId} {x : Expr} {home : Address} {shown : Value}
    (hid : l.sheet.store.get? id = some (.formula x home shown)) :
    shown = if id ∈ l.order.cycled then .error .cycle else x.meaning l.sheet.grid home := by
  have hl' : l.Consistent := ((sound_ofConfig csv).run requests).sheet l hl
  obtain ⟨hcycled, hshown⟩ := hl'.solved id x home shown hid
  by_cases hcyc : id ∈ l.order.cycled
  · rw [if_pos hcyc]
    exact hcycled hcyc
  · rw [if_neg hcyc, hshown hcyc]
    exact hl'.passable.wired.labelled.meaning_grid x home

/-- A formula that refers to itself and others are loaded, and the cell that they read is edited. -/
theorem run_shown_eq_edited :
    let requests := [.load [["p", "=A1&A1"], ["=A2", "=A2&A1"]], .setAt ⟨0, 0, 0⟩ "q", .recompute]
    let e := (ofConfig ⟨[], Csv.ReadOptions.standard⟩).run requests
    ∃ l x home shown, e.sheet = some l
      ∧ l.sheet.store.get? ⟨1⟩ = some (.formula x home shown) ∧ shown.text? = some "qq"
      ∧ shown = if ⟨1⟩ ∈ l.order.cycled then .error .cycle else x.meaning l.sheet.grid home := by
  intro requests e
  have htext : (e.sheet.bind fun l => ((l.sheet.store.get? ⟨1⟩).filter Vertex.isFormula).bind
      fun v => v.value?.bind Value.text?) = some "qq" := by decide +kernel
  obtain ⟨l, hl, htext⟩ := Option.bind_eq_some_iff.mp htext
  obtain ⟨v, hv, htext⟩ := Option.bind_eq_some_iff.mp htext
  obtain ⟨hv, hformula⟩ := Option.filter_eq_some_iff.mp hv
  cases v with
  | formula x home shown =>
      exact ⟨l, x, home, shown, hl, hv, htext, run_shown_eq Csv.ReadOptions.standard requests hl hv⟩
  | _ => cases hformula

end Engine

end Recalc
