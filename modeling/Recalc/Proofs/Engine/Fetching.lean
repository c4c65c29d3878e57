import Recalc.Proofs.Engine.Representation
import Recalc.Proofs.Sheet.Numbers

/-!
# Lookups stay in their ranges

However a lookup comes to be evaluated, in a cell or deep in a formula, in the middle of a pass or
on a sheet at rest, the cell that it fetches is in its range and on the sheet. No number of a column
gets past the checks that is none, since no sheet holds one and no evaluation gives one.
-/

namespace Recalc

namespace Engine

/-- An engine without plugins whose sheet has proper values. -/
structure Proper (e : Engine) : Prop extends e.Sound where
  proper : ∀ l, e.sheet = some l → l.sheet.Proper

/-- The engine with the twin in place of the lookup. -/
def trapped (trap : Function.Place → Eval Value) (e : Engine) : Engine :=
  { e with config := { e.config with plugins := [[.within trap]] }
           functions := Registry.within trap }

theorem ofConfig_within (csv : Csv.ReadOptions) (trap : Function.Place → Eval Value) :
    ofConfig ⟨[[.within trap]], csv⟩ = (ofConfig ⟨[], csv⟩).trapped trap := rfl

variable {e : Engine} (trap : Function.Place → Eval Value)

/-- A load goes the same way with the twin. -/
theorem Proper.load (h : e.Proper) (rows : List (List String)) :
    (e.trapped trap).load rows = ((e.load rows).1, (e.load rows).2.trapped trap)
      ∧ (e.load rows).2.Proper := by
  obtain ⟨s, hs, hwired, -⟩ := Sheet.exists_ofRows Registry.builtin 0 rows
  have hsound := h.toSound.load rows
  have hs' : Sheet.ofRows (Registry.within trap) 0 rows = .ok s :=
    (Sheet.ofRows_congr (Registry.shapeOnly_within trap) 0 rows).trans hs
  obtain ⟨heq, hproper⟩ := (Sheet.proper_ofRows hs).pass (l := ⟨s, s.order⟩) hwired.labelled trap
  have hload : e.load rows = e.unload.adopt ⟨s, s.order⟩ := by rw [Engine.load, h.functions, hs]
  have hload' : (e.trapped trap).load rows = (e.trapped trap).unload.adopt ⟨s, s.order⟩ := by
    rw [Engine.load, show (e.trapped trap).functions = Registry.within trap from rfl, hs']
  rw [hload] at hsound ⊢
  rw [hload', adopt, adopt, show e.unload.functions = Registry.builtin from h.functions,
    show (e.trapped trap).unload.functions = Registry.within trap from rfl, heq]
  rw [adopt, show e.unload.functions = Registry.builtin from h.functions] at hsound
  cases hpass : LoadedSheet.pass Registry.builtin ⟨s, s.order⟩ with
  | mk outcome m =>
      rw [hpass] at hproper hsound
      cases outcome with
      | error failure => exact ⟨rfl, hsound, fun l hl => by cases hl⟩
      | ok => exact ⟨rfl, hsound, fun l hl => Option.some.inj hl ▸ hproper⟩

/-- A pass over a sheet with proper values goes the same way with the twin. -/
theorem recompute_trapped (h : e.functions = Registry.builtin) {l : LoadedSheet}
    (hl : e.sheet = some l) (hs : l.sheet.Labelled) (hproper : l.sheet.Proper) :
    (e.trapped trap).recompute = (e.recompute.1, e.recompute.2.trapped trap)
      ∧ ∀ m, e.recompute.2.sheet = some m → m.sheet.Proper := by
  obtain ⟨heq, hdone⟩ := hproper.pass hs trap
  have hl' : (e.trapped trap).sheet = some l := hl
  rw [Engine.recompute, Engine.recompute, hl, hl',
    show (e.trapped trap).functions = Registry.within trap from rfl, h]
  dsimp only
  rw [heq]
  cases hpass : l.pass Registry.builtin with
  | mk outcome m =>
      rw [hpass] at hdone
      cases outcome with
      | error failure => exact ⟨rfl, fun _ hm => Option.some.inj hm ▸ hdone⟩
      | ok => exact ⟨rfl, fun _ hm => Option.some.inj hm ▸ hdone⟩

theorem Proper.recompute (h : e.Proper) :
    (e.trapped trap).recompute = (e.recompute.1, e.recompute.2.trapped trap)
      ∧ e.recompute.2.Proper := by
  cases hl : e.sheet with
  | none =>
      rw [recompute_of_none hl, recompute_of_none (e := e.trapped trap) hl]
      exact ⟨rfl, h⟩
  | some l =>
      obtain ⟨heq, hproper⟩ :=
        recompute_trapped trap h.functions hl (h.sheet l hl).labelled (h.proper l hl)
      exact ⟨heq, h.toSound.recompute, hproper⟩

theorem Proper.setAt (h : e.Proper) (a : Address) (content : String) :
    (e.trapped trap).setAt a content
        = ((e.setAt a content).1, (e.setAt a content).2.trapped trap)
      ∧ (e.setAt a content).2.Proper := by
  have hsound := h.toSound.setAt a content
  have htyped : (e.trapped trap).typed a content = e.typed a content := rfl
  rw [Engine.setAt] at hsound ⊢
  rw [Engine.setAt, htyped]
  cases hedit : e.typed a content with
  | error failure => exact ⟨rfl, h⟩
  | ok m =>
      rw [hedit] at hsound
      obtain ⟨l, hl, hm⟩ := edit_of_typed hedit
      have hready := (h.sheet l hl).toReady.of_edit hm
      have hproper := (h.proper l hl).edit (Value.proper_ofContent content) hm
      obtain ⟨heq, hproper⟩ := recompute_trapped (e := { e with sheet := some m }) trap
        h.functions rfl hready.passable.wired.labelled hproper
      exact ⟨heq, hsound, hproper⟩

theorem Proper.perform (h : e.Proper) (request : Request) :
    (e.trapped trap).perform request = (e.perform request).trapped trap
      ∧ (e.perform request).Proper := by
  have hload := fun rows => h.load trap rows
  have hset := fun a content => h.setAt trap a content
  cases request with
  | load rows => exact ⟨congrArg Prod.snd (hload rows).1, (hload rows).2⟩
  | loadCsv bytes =>
      rw [Engine.perform, Engine.perform, Engine.loadCsv, Engine.loadCsv,
        show (e.trapped trap).config.csv = e.config.csv from rfl]
      cases Csv.read e.config.csv bytes with
      | error cause => exact ⟨rfl, h⟩
      | ok rows => exact ⟨congrArg Prod.snd (hload rows).1, (hload rows).2⟩
  | set cell content =>
      rw [Engine.perform, Engine.perform, Engine.set, Engine.set]
      cases cellAddress cell with
      | error failure => exact ⟨rfl, h⟩
      | ok a => exact ⟨congrArg Prod.snd (hset a content).1, (hset a content).2⟩
  | setAt a content => exact ⟨congrArg Prod.snd (hset a content).1, (hset a content).2⟩
  | recompute => exact ⟨congrArg Prod.snd (h.recompute trap).1, (h.recompute trap).2⟩

/-- Whatever is asked, an engine with the twin goes the same way. -/
theorem Proper.run (h : e.Proper) (requests : List Request) :
    (e.trapped trap).run requests = (e.run requests).trapped trap ∧ (e.run requests).Proper := by
  induction requests generalizing e with
  | nil => exact ⟨rfl, h⟩
  | cons request requests ih =>
      obtain ⟨heq, hproper⟩ := h.perform trap request
      obtain ⟨hrun, hdone⟩ := ih hproper
      refine ⟨?_, hdone⟩
      change ((e.trapped trap).perform request).run requests = _
      rw [heq]
      exact hrun

theorem proper_ofConfig (csv : Csv.ReadOptions) : (ofConfig ⟨[], csv⟩).Proper :=
  ⟨sound_ofConfig csv, nofun⟩

/-- Whatever is asked, no cell comes to hold a number that is none. -/
theorem proper_run (csv : Csv.ReadOptions) (requests : List Request) :
    ((ofConfig ⟨[], csv⟩).run requests).Proper :=
  ((proper_ofConfig csv).run (fun p => Eval.cell p.address) requests).2

/-- Whatever an engine without plugins has been asked, nothing would have been different if a lookup
could fetch cells of its range on the sheet only and did anything else instead of fetching another
one. And where a lookup in a formula of the sheet comes to a place, the column counts from one, it
is one of the range's, and so is the row; the cell there is in the range and on the sheet, and the
lookup gives its value. -/
theorem run_lookUp_within (csv : Csv.ReadOptions) (requests : List Request) :
    let e := (ofConfig ⟨[], csv⟩).run requests
    (∀ trap, let e' := (ofConfig ⟨[[.within trap]], csv⟩).run requests
        e'.sheet = e.sheet ∧ e'.passes = e.passes)
      ∧ ∀ l, e.sheet = some l →
        ∀ id x home shown, l.sheet.store.get? id = some (.formula x home shown) →
        ∀ name arguments, (name, arguments) ∈ x.calls → Text.toCapitals name = "VLOOKUP" →
        ∀ p, (l.sheet.evaluate (Function.lookUpPlace ⟨home,
            Expr.argumentsOf Registry.builtin home arguments, Registry.builtin.size⟩).run).1
          = .ok p →
        p.Within l.sheet.cells
          ∧ (l.sheet.evaluate ((Expr.call name arguments).evaluate Registry.builtin home)).1
            = l.sheet.view.cellValue p.address := by
  intro e
  refine ⟨fun trap => ?_, fun l hl id x home shown hid name arguments hcall hname p hp => ?_⟩
  · rw [ofConfig_within, ((proper_ofConfig csv).run trap requests).1]
    exact ⟨rfl, rfl⟩
  · have h : e.Proper := proper_run csv requests
    have hview := (h.proper l hl).view (h.sheet l hl).labelled
    have hproper := ((h.proper l hl).vertex id _ hid).1.arguments_of_mem_calls hcall
    have hargs := Expr.alike_argumentsOf hview (fun _ => Eval.cell home) home hproper
    refine ⟨?_, ?_⟩
    · have halike : Attempt.Alike l.sheet.view l.sheet.view.FittingCaches
          (fun p => p.Within l.sheet.cells) (Function.lookUpPlace ⟨home,
            Expr.argumentsOf Registry.builtin home arguments, Registry.builtin.size⟩) _ :=
        Function.alike_lookUpPlace hview hargs
      exact (halike _ (h.proper l hl).caches).2.1 p hp
    · rw [Expr.evaluate, Registry.find?_builtin_lookup hname]
      exact Function.lookUpRow_of_place hp

/-- The second row of a range is found by a lookup inside another operation. -/
theorem run_lookUp_within_secondRow :
    let requests := [.load [["p", "q"], ["r", "s", "=C1&VLOOKUP(A2,A1:B2,2,TRUE)"]],
      .setAt ⟨0, 0, 0⟩ "t"]
    let e := (ofConfig ⟨[], Csv.ReadOptions.standard⟩).run requests
    ∃ l id x home shown name arguments, ∃ p : Function.Place, e.sheet = some l
      ∧ l.sheet.store.get? id = some (.formula x home shown) ∧ (name, arguments) ∈ x.calls
      ∧ p.column = 2 ∧ p.row = 1 ∧ p.Within l.sheet.cells
      ∧ (l.sheet.evaluate ((Expr.call name arguments).evaluate Registry.builtin home)).1
        = l.sheet.view.cellValue p.address := by
  intro requests e
  let home : Address := ⟨0, 2, 1⟩
  have hfacts : (e.sheet.any fun l => (l.sheet.formulaAt home).any fun x => x.calls.any fun call =>
      Text.toCapitals call.1 = "VLOOKUP"
        ∧ ((l.sheet.evaluate (Function.lookUpPlace ⟨home,
            Expr.argumentsOf Registry.builtin home call.2, Registry.builtin.size⟩).run).1
          ).toOption.any fun p => p.column = 2 ∧ p.row = 1) = true := by decide +kernel
  obtain ⟨l, hl, hfacts⟩ := (Option.any_eq_true _ _).mp hfacts
  obtain ⟨x, hx, hfacts⟩ := (Option.any_eq_true _ _).mp hfacts
  obtain ⟨⟨name, arguments⟩, hcall, hfacts⟩ := List.any_eq_true.mp hfacts
  obtain ⟨hname, hplace⟩ := of_decide_eq_true hfacts
  obtain ⟨p, hp, hfacts⟩ := (Option.any_eq_true _ _).mp hplace
  obtain ⟨hcolumn, hrow⟩ := of_decide_eq_true hfacts
  have hlabelled := (((sound_ofConfig Csv.ReadOptions.standard).run requests).sheet l hl).labelled
  obtain ⟨id, shown, hid⟩ := hlabelled.formulaAt_eq_some_iff.mp hx
  obtain ⟨hwithin, hvalue⟩ := (run_lookUp_within Csv.ReadOptions.standard requests).2 l hl id
    x home shown hid name arguments hcall hname p (eq_ok_of_toOption hp)
  exact ⟨l, id, x, home, shown, name, arguments, p, hl, hid, hcall, hcolumn, hrow, hwithin, hvalue⟩

end Engine

end Recalc
