import Recalc.Proofs.Engine.Fetching
import Recalc.Proofs.Evaluation.Searching

/-!
# Searches find the first match

On a loaded sheet the functions that search a range show what looking through it cell by cell finds,
by an index or without one, from caches or from cells. No cell has to be assumed to hold a number:
none holds anything else that is given as one.
-/

namespace Recalc

namespace LoadedSheet.Consistent

variable {l : LoadedSheet} {id : VertexId} {name : String} {arguments : List Expr} {home : Address}
  {shown : Value}

/-- On a sheet at rest an argument of a formula's call gives its meaning. -/
theorem evaluate_argument (h : l.Consistent)
    (hid : l.sheet.store.get? id = some (.formula (.call name arguments) home shown))
    (hname : Text.toCapitals name = "MATCH" ∨ Text.toCapitals name = "VLOOKUP") {x : Expr}
    (hx : x ∈ arguments) :
    (l.sheet.evaluate (x.evaluate Registry.builtin home)).1 = x.meaning l.sheet.view.grid home := by
  have hskip : Registry.builtin.shapeOnly name = false := by
    rw [Bool.eq_false_iff, ne_eq, Registry.shapeOnly_builtin_iff]
    rcases hname with hname | hname <;> rw [hname] <;> decide
  have hneeded : ∀ r, .range r ∈ x.dependencies Registry.builtin.shapeOnly home →
      l.sheet.Readable l.order.sorted r := by
    intro r hr
    by_cases hcovers : l.sheet.Covers (.range r)
    · obtain ⟨u, hu, -⟩ :=
        h.passable.edge_of_names hid (Expr.dependencies_call_subset hskip hx hr) hcovers
      exact Or.inl ⟨u, h.passable.sorted_of_range hu, hu⟩
    · exact Or.inr hcovers
  have htrue : l.sheet.view.TrueCaches (l.sheet.Readable l.order.sorted) l.sheet.store.caches :=
    fun r id _ hget _ => h.coherent r id hget
  exact (Expr.gives_evaluate (h.labelled.serves _) home x hneeded _ htrue).1

theorem proper_evaluate_argument (h : l.Consistent) (hproper : l.sheet.Proper)
    (hid : l.sheet.store.get? id = some (.formula (.call name arguments) home shown))
    {x : Expr} (hx : x ∈ arguments) :
    (l.sheet.evaluate (x.evaluate Registry.builtin home)).1.Proper := by
  obtain ⟨hwritten, -⟩ := hproper.vertex id _ hid
  cases hwritten with
  | call _ _ harguments =>
      exact ((harguments x hx).alike_evaluate (hproper.view h.labelled)
        (fun _ => Eval.cell home) home _ hproper.caches).2.1

section Searches

variable {key : Expr} {written : RangeReference} {more : List Expr} {r : Range}
  (h : l.Consistent) (hproper : l.sheet.Proper)
  (hid : l.sheet.store.get? id
    = some (.formula (.call name (key :: .range written :: more)) home shown))
  (hcycled : id ∉ l.order.cycled) (hr : written.resolve? home = some r)
  (hin : l.sheet.cells.rangeInBounds r = true)
  (hsought : (LookupKey.ofValue?
    (l.sheet.evaluate (key.evaluate Registry.builtin home)).1).isSome)
include h hproper hid hcycled hr hin hsought

theorem shown_match (hname : Text.toCapitals name = "MATCH") (hmore : more.length ≤ 1) :
    shown = match (l.sheet.evaluate (key.evaluate Registry.builtin home)).1.firstSame
        (l.sheet.view.rangeCells r) with
      | some offset => .number (Double.ofNat (offset + 1))
      | none => .error .notAvailable := by
  have hkey := h.evaluate_argument hid (.inl hname) List.mem_cons_self
  have hkeyProper := h.proper_evaluate_argument hproper hid List.mem_cons_self
  rw [hkey] at hsought hkeyProper ⊢
  rw [(h.solved id _ home shown hid).2 hcycled, Expr.meaning, hname, Expr.operandsOf_eq_map]
  exact Grid.matchPosition_eq (fun a => (hproper.view h.labelled).cellValue a)
    ((l.sheet.grid_covers_iff (.range r)).mpr hin) hkeyProper hsought (congrArg some hr)
    (by simpa using hmore)

theorem shown_lookUp (hname : Text.toCapitals name = "VLOOKUP") {index : Expr}
    {sorted : List Expr} {x : Float} (hmore : more = index :: sorted)
    (hindex : (l.sheet.evaluate (index.evaluate Registry.builtin home)).1 = .number x)
    (hsorted : sorted = [] ∨ ∃ s b, sorted = [s]
      ∧ (l.sheet.evaluate (s.evaluate Registry.builtin home)).1 = .boolean b) :
    x.isNaN = false ∧ shown = Value.ofExcept (do
      let column ← Function.columnChoice r.width x
      match (l.sheet.evaluate (key.evaluate Registry.builtin home)).1.firstSame
          ((List.range r.height).map fun row => l.sheet.view.cellValue (r.address 0 row)) with
      | some row => .ok (l.sheet.view.cellValue (r.address (column - 1) row))
      | none => .error .notAvailable) := by
  have hkey := h.evaluate_argument hid (.inr hname) List.mem_cons_self
  have hkeyProper := h.proper_evaluate_argument hproper hid List.mem_cons_self
  subst hmore
  have hindexMem : index ∈ key :: .range written :: index :: sorted := by simp
  have hindexProper := h.proper_evaluate_argument hproper hid hindexMem
  rw [hindex] at hindexProper
  rw [h.evaluate_argument hid (.inr hname) hindexMem] at hindex
  have hlength : (Expr.operandsOf l.sheet.view.grid home sorted).length ≤ 1 := by
    rcases hsorted with rfl | ⟨s, b, rfl, -⟩ <;> simp
  have hboolean : Operand.checkBoolean (Expr.operandsOf l.sheet.view.grid home sorted).head?
      = .ok () := by
    rcases hsorted with rfl | ⟨s, b, rfl, hs⟩
    · rfl
    · rw [h.evaluate_argument hid (.inr hname) (by simp)] at hs
      simp [Operand.checkBoolean, hs]
  rw [hkey] at hsought hkeyProper ⊢
  refine ⟨hindexProper, ?_⟩
  rw [(h.solved id _ home shown hid).2 hcycled, Expr.meaning, hname, Expr.operandsOf,
    Expr.operandsOf, Expr.operandsOf]
  refine congrArg Value.ofExcept ((Grid.lookUpRow_eq_search
    (fun a => (hproper.view h.labelled).cellValue a)
    ((l.sheet.grid_covers_iff (.range r)).mpr hin) hkeyProper hsought (congrArg some hr) hindex
    hlength hboolean).trans ?_)
  simp only [View.grid_cell]
  rfl

end Searches

end LoadedSheet.Consistent

theorem Value.eq_of_boolean? {v : Value} {b : Bool} (h : v.boolean? = some b) : v = .boolean b := by
  cases v with
  | boolean c => exact congrArg boolean (Option.some.inj h)
  | _ => cases h

namespace Expr

/-- What a call looks for, where, and with which further arguments. -/
structure Search where
  name : String
  key : Expr
  range : RangeReference
  more : List Expr

/-- The call of an expression, if it is one that has a range for its second argument. -/
def search? : Expr → Option Search
  | call name (key :: .range written :: more) => some ⟨name, key, written, more⟩
  | _ => none

theorem eq_of_search? {x : Expr} {s : Search} (h : x.search? = some s) :
    x = call s.name (s.key :: .range s.range :: s.more) := by
  unfold search? at h
  split at h
  · exact Option.some.inj h ▸ rfl
  · cases h

end Expr

namespace Engine

/-- Whatever an engine without plugins has been asked, a search on no cycle shows the place of the
first cell of its range with the key's type and content, counted from one and row by row, whatever
the third argument is. A lookup on no cycle shows whether its column lies before or behind the
range, also where the key does not occur; otherwise it shows the value in the column of the first
row that starts with the key. -/
theorem run_search_eq (csv : Csv.ReadOptions) (requests : List Request) {l : LoadedSheet}
    (hl : ((ofConfig ⟨[], csv⟩).run requests).sheet = some l)
    {id : VertexId} {name : String} {key : Expr} {written : RangeReference} {more : List Expr}
    {home : Address} {shown : Value}
    (hid : l.sheet.store.get? id
      = some (.formula (.call name (key :: .range written :: more)) home shown))
    (hcycle : ¬ l.sheet.graph.OnCycle id) {r : Range} (hr : written.resolve? home = some r)
    (hin : l.sheet.cells.rangeInBounds r = true) :
    let value := fun x : Expr => (l.sheet.evaluate (x.evaluate Registry.builtin home)).1
    let firstColumn := (List.range r.height).map fun row => l.sheet.view.cellValue (r.address 0 row)
    (value key).isEmpty = false → (value key).isError = false →
    (Text.toCapitals name = "MATCH" → more.length ≤ 1 →
        shown = match (value key).firstSame (l.sheet.view.rangeCells r) with
          | some offset => .number (Double.ofNat (offset + 1))
          | none => .error .notAvailable)
      ∧ (Text.toCapitals name = "VLOOKUP" → ∀ index sorted x, more = index :: sorted →
          value index = .number x → (sorted = [] ∨ ∃ s b, sorted = [s] ∧ value s = .boolean b) →
          (Double.trunc x < 1 → shown = .error .badValue)
            ∧ (((r.width : ℤ) : WithTop ℤ) < Double.trunc x → shown = .error .badReference)
            ∧ ∀ column : ℕ, Double.trunc x = ((column : ℤ) : WithTop ℤ) → 1 ≤ column →
              column ≤ r.width →
              shown = match (value key).firstSame firstColumn with
                | some row => l.sheet.view.cellValue (r.address (column - 1) row)
                | none => .error .notAvailable) := by
  intro value firstColumn hempty herror
  have h := proper_run csv requests
  have hl' := h.sheet l hl
  have hproper := h.proper l hl
  have hcycled : id ∉ l.order.cycled := (hl'.passable.arranges.mem_cycled_iff id).not.mpr hcycle
  have hsought : (LookupKey.ofValue? (value key)).isSome := by
    cases hkey : value key with
    | empty => rw [hkey] at hempty; cases hempty
    | error => rw [hkey] at herror; cases herror
    | _ => rfl
  refine ⟨hl'.shown_match hproper hid hcycled hr hin hsought, ?_⟩
  intro hname index sorted x hmore hindex hsorted
  obtain ⟨hx, hshown⟩ :=
    hl'.shown_lookUp hproper hid hcycled hr hin hsought hname hmore hindex hsorted
  obtain ⟨hbefore, hbehind, hwithin⟩ := Function.columnChoice_eq r.width_pos hx
  refine ⟨fun hlt => ?_, fun hlt => ?_, fun column htrunc hpos hle => ?_⟩
  · rw [hshown, hbefore hlt]
    rfl
  · rw [hshown, hbehind hlt]
    rfl
  · rw [hshown, hwithin column htrunc hpos hle]
    change Value.ofExcept (match (value key).firstSame firstColumn with
      | some row => .ok _
      | none => .error _) = _
    cases (value key).firstSame firstColumn <;> rfl

/-- A key in the second row is found without an index, and with one. -/
theorem run_search_eq_secondRow :
    let requests :=
      [.load [["p", "x"], ["q", "y", "=MATCH(A2,A1:B2,0)", "=VLOOKUP(A2,A1:B2,2,FALSE)"]]]
    let e := (ofConfig ⟨[], Csv.ReadOptions.standard⟩).run requests
    ∃ l id x home shown id' x' home' shown', e.sheet = some l
      ∧ l.sheet.store.get? id = some (.formula x home shown) ∧ shown = .number (Double.ofNat 3)
      ∧ l.sheet.store.get? id' = some (.formula x' home' shown') ∧ shown'.text? = some "y" := by
  intro requests e
  let home : Address := ⟨0, 2, 1⟩
  let home' : Address := ⟨0, 3, 1⟩
  have hfacts : (e.sheet.any fun l =>
      let value := fun x : Expr => (l.sheet.evaluate (x.evaluate Registry.builtin home)).1
      let value' := fun x : Expr => (l.sheet.evaluate (x.evaluate Registry.builtin home')).1
      l.order.cycled = []
      ∧ (((l.sheet.formulaAt home).bind Expr.search?).any fun s =>
          Text.toCapitals s.name = "MATCH" ∧ s.more.length ≤ 1 ∧ (value s.key).isEmpty = false
          ∧ (value s.key).isError = false ∧ (s.range.resolve? home).any fun r =>
            l.sheet.cells.rangeInBounds r = true
              ∧ (value s.key).firstSame (l.sheet.view.rangeCells r) = some 2)
      ∧ (((l.sheet.formulaAt home').bind Expr.search?).any fun s =>
          Text.toCapitals s.name = "VLOOKUP" ∧ s.more.length = 2
          ∧ (value' s.key).isEmpty = false ∧ (value' s.key).isError = false
          ∧ (s.more[0]?.any fun index =>
            (value' index).number?.any fun x => Double.integerPart? x = some 2)
          ∧ (s.more[1]?.any fun sorted => (value' sorted).boolean?.isSome)
          ∧ (s.range.resolve? home').any fun r =>
            l.sheet.cells.rangeInBounds r = true ∧ r.width = 2
              ∧ ((value' s.key).firstSame ((List.range r.height).map fun row =>
                l.sheet.view.cellValue (r.address 0 row))) = some 1
              ∧ (l.sheet.view.cellValue (r.address 1 1)).text? = some "y")) = true := by
    decide +kernel
  obtain ⟨l, hl, hfacts⟩ := (Option.any_eq_true _ _).mp hfacts
  obtain ⟨hcycled, hmatch, hlookUp⟩ := of_decide_eq_true hfacts
  have hl' := ((sound_ofConfig Csv.ReadOptions.standard).run requests).sheet l hl
  have hlabelled := hl'.labelled
  have hnot : ∀ id, ¬ l.sheet.graph.OnCycle id := fun id hid => by
    rw [← hl'.passable.arranges.mem_cycled_iff, hcycled] at hid
    cases hid
  obtain ⟨s, hs, hmatch⟩ := (Option.any_eq_true _ _).mp hmatch
  obtain ⟨x, hx, hs⟩ := Option.bind_eq_some_iff.mp hs
  obtain ⟨id, shown, hid⟩ := hlabelled.formulaAt_eq_some_iff.mp hx
  obtain ⟨hname, hmore, hempty, herror, hfound⟩ := of_decide_eq_true hmatch
  obtain ⟨r, hr, hfound⟩ := (Option.any_eq_true _ _).mp hfound
  obtain ⟨hin, hfirst⟩ := of_decide_eq_true hfound
  have hshown := (run_search_eq Csv.ReadOptions.standard requests hl (Expr.eq_of_search? hs ▸ hid)
    (hnot _) hr hin hempty herror).1 hname hmore
  rw [hfirst] at hshown
  obtain ⟨s', hs', hlookUp⟩ := (Option.any_eq_true _ _).mp hlookUp
  obtain ⟨x', hx', hs'⟩ := Option.bind_eq_some_iff.mp hs'
  obtain ⟨id', shown', hid'⟩ := hlabelled.formulaAt_eq_some_iff.mp hx'
  obtain ⟨hname', hmore', hempty', herror', hcolumn, hsorted, hfound'⟩ := of_decide_eq_true hlookUp
  obtain ⟨index, sorted, hmore'⟩ := List.length_eq_two.mp hmore'
  rw [hmore', List.getElem?_cons_zero, Option.any_some] at hcolumn
  rw [hmore', List.getElem?_cons_succ, List.getElem?_cons_zero, Option.any_some] at hsorted
  obtain ⟨i, hi, hcolumn⟩ := (Option.any_eq_true _ _).mp hcolumn
  obtain ⟨b, hb⟩ := Option.isSome_iff_exists.mp hsorted
  obtain ⟨r', hr', hfound'⟩ := (Option.any_eq_true _ _).mp hfound'
  obtain ⟨hin', hwidth, hfirst', htext⟩ := of_decide_eq_true hfound'
  have hshown' := ((run_search_eq Csv.ReadOptions.standard requests hl
    (Expr.eq_of_search? hs' ▸ hid') (hnot _) hr' hin' hempty' herror').2 hname' index [sorted] i
    hmore' (Value.eq_of_number? hi) (Or.inr ⟨sorted, b, rfl, Value.eq_of_boolean? hb⟩)).2.2 2
    (Double.trunc_of_integerPart? (of_decide_eq_true hcolumn)) (by decide) hwidth.ge
  rw [hfirst'] at hshown'
  exact ⟨l, id, x, home, shown, id', x', home', shown', hl, hid, hshown, hid', hshown' ▸ htext⟩

end Engine

end Recalc
