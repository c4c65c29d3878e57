import Recalc.Proofs.Evaluation.Fetching
import Recalc.Proofs.Expr.Roundtrip
import Recalc.Proofs.Sheet.Refusal

/-!
# Sheets of proper values

No number that is none comes onto a sheet: not by typed content, and not by an evaluation. The
caches of ranges have the sizes of their ranges at every step of a pass, also before they are true
again. So a pass goes the same way if lookups fetch cells of their ranges only.
-/

namespace Recalc

/-- The values and the expression of a vertex are proper. -/
def Vertex.Proper : Vertex → Prop
  | value v => v.Proper
  | formula x home shown => x.WellFormed home ∧ shown.Proper
  | range _ | blank => True

namespace Sheet

/-- Vertices are proper, and caches fit their ranges. -/
structure Proper (s : Sheet) : Prop where
  vertex : ∀ id v, s.store.get? id = some v → v.Proper
  caches : s.view.FittingCaches s.store.caches

variable {s t : Sheet} {id : VertexId} {a home : Address} {x : Expr} {shown v : Value}
  {l m : LoadedSheet}

theorem Proper.view (h : s.Proper) (hs : s.Labelled) : s.view.Proper where
  value i w v hw hv := by
    have hproper := h.vertex ⟨i⟩ w hw
    cases w with
    | value v' => exact Option.some.inj hv ▸ hproper
    | formula x home shown => exact Option.some.inj hv ▸ hproper.2
    | range r => cases hv
    | blank => exact Option.some.inj hv ▸ trivial
  range r id hid := by
    obtain ⟨hfind, -⟩ := Option.filter_eq_some_iff.mp hid
    exact ⟨hs.get?_range hfind, hs.covers (.range r) id hfind⟩

/-- New vertices that stand for no range leave caches that fit. -/
theorem Proper.of_vertices (h : s.Proper) (hcaches : t.store.caches = s.store.caches)
    (hvertex : ∀ id w, t.store.get? id = some w →
      s.store.get? id = some w ∨ w.Proper ∧ w.range? = none) : t.Proper where
  vertex id w hw := (hvertex id w hw).elim (h.vertex id w) And.left
  caches id r hid := by
    rw [hcaches]
    rcases hvertex id (.range r) hid with hold | ⟨-, hnone⟩
    · exact h.caches id r hold
    · cases hnone

/-! ## Building -/

theorem proper_of_vertexOf? {raw : String} {w : Vertex} (h : vertexOf? a raw = some w) :
    w.Proper := by
  rw [vertexOf?] at h
  split at h
  · obtain rfl := Option.some.inj h
    refine ⟨?_, trivial⟩
    split
    · next hx => exact Expr.wellFormed_of_ofFormula hx
    · exact .error _
  · split at h
    · cases h
    · obtain rfl := Option.some.inj h
      exact Value.proper_ofContent raw

theorem proper_ofContents {sheet : Nat} {rows : List (List String)}
    (h : ofContents sheet rows = .ok s) :
    (∀ id w, s.store.get? id = some w → w.Proper) ∧ s.store.caches = Caches.empty := by
  refine of_foldlM (fun s : Sheet => (∀ id w, s.store.get? id = some w → w.Proper)
    ∧ s.store.caches = Caches.empty) (fun entry _ s₁ s₂ h₁ h₂ => ?_)
    ⟨fun _ _ hw => by simp [blank, Store.empty, Store.get?] at hw, rfl⟩ h
  change s₁.enter entry.1 entry.2 = .ok s₂ at h₂
  rw [enter] at h₂
  split at h₂
  · next w hw =>
      rw [eq_grow_of_addCell h₂, store_grow]
      refine ⟨fun id w' hw' => ?_, h₁.2⟩
      rw [Store.get?_insert] at hw'
      split at hw'
      · exact Option.some.inj hw' ▸ proper_of_vertexOf? hw
      · exact h₁.1 id w' hw'
  · exact Except.ok.inj h₂ ▸ h₁

theorem proper_ofRows {functions : Registry} {sheet : Nat} {rows : List (List String)}
    (h : ofRows functions sheet rows = .ok s) : s.Proper := by
  rw [ofRows] at h
  obtain ⟨u, hu, h⟩ := exists_of_bind_eq_ok h
  obtain ⟨hvertex, hcaches⟩ := proper_ofContents hu
  have hgrows := grows_wireAll h
  refine ⟨fun id w hw => ?_, fun id r _ => ?_⟩
  · rcases hgrows.vertex id w hw with hold | hkind
    · exact hvertex id w hold
    · cases w with
      | range | blank => trivial
      | _ => rcases hkind with hkind | hkind <;> cases hkind
  · rw [hgrows.caches, hcaches, Caches.get_empty]
    exact RangeCache.fits_empty r

/-- Of the functions, only which look at shapes decides what is built. -/
theorem ofRows_congr {functions functions' : Registry}
    (h : functions'.shapeOnly = functions.shapeOnly) (sheet : Nat) (rows : List (List String)) :
    ofRows functions' sheet rows = ofRows functions sheet rows := by
  have hwire : wireFormula functions' = wireFormula functions := by
    funext s entry
    rw [wireFormula, wireFormula, h]
  rw [ofRows, ofRows, hwire]

/-! ## Edits -/

theorem Proper.edit (h : l.sheet.Proper) (hv : v.Proper) (hedit : l.edit a v = .ok m) :
    m.sheet.Proper := by
  rw [LoadedSheet.edit] at hedit
  obtain ⟨found, -, hedit⟩ := exists_of_bind_eq_ok hedit
  cases found with
  | some id =>
      have hreplace : ∀ w, l.sheet.store.get? id = some w →
          ({ l.sheet with store := l.sheet.store.replace id (.value v) } : Sheet).Proper := by
        intro w hw
        refine h.of_vertices rfl fun j w' hw' => ?_
        rw [Store.get?_replace _ ((Store.lt_size_iff _ _).mpr ⟨w, hw⟩)] at hw'
        split at hw'
        · exact Or.inr (Option.some.inj hw' ▸ ⟨hv, rfl⟩)
        · exact Or.inl hw'
      dsimp only at hedit
      split at hedit
      · next w hw => exact Except.ok.inj hedit ▸ hreplace _ hw
      · next hw => exact Except.ok.inj hedit ▸ hreplace _ hw
      · cases hedit
      · cases hedit
      · cases hedit
  | none =>
      dsimp only at hedit
      split at hedit
      · exact Except.ok.inj hedit ▸ h
      · obtain ⟨t, ht, hedit⟩ := exists_of_bind_eq_ok hedit
        obtain rfl := Except.ok.inj hedit
        obtain rfl := eq_grow_of_addCell ht
        refine h.of_vertices (by rw [store_grow]; rfl) fun j w hw => ?_
        rw [store_grow, Store.get?_insert] at hw
        split at hw
        · exact Or.inr (Option.some.inj hw ▸ ⟨hv, rfl⟩)
        · exact Or.inl hw

/-! ## Passes -/

theorem Proper.setValue (h : s.Proper) (hid : s.store.get? id = some (.formula x home shown))
    (hv : v.Proper) : (s.setValue id v).Proper := by
  refine h.of_vertices (s.caches_setValue id v) fun j w hw => ?_
  rw [get?_setValue hid] at hw
  split at hw
  · exact Or.inr (Option.some.inj hw ▸ ⟨⟨(h.vertex id _ hid).1, hv⟩, rfl⟩)
  · exact Or.inl hw

/-- A step of a pass goes the same way with the twin, and keeps a sheet proper. -/
theorem Proper.recompute (h : s.Proper) (hs : s.Labelled)
    (trap : Function.Place → Eval Value) (id : VertexId) :
    s.recompute (Registry.within trap) id = s.recompute Registry.builtin id
      ∧ ∀ t, s.recompute Registry.builtin id = .ok t → t.Proper := by
  rw [Sheet.recompute, Sheet.recompute]
  cases hid : s.store.get? id with
  | none => exact ⟨rfl, fun t ht => by cases ht⟩
  | some w =>
      cases w with
      | formula x home shown =>
          obtain ⟨heq, hproper, hcaches⟩ := (h.vertex id _ hid).1.alike_evaluate (h.view hs) trap
            home s.store.caches h.caches
          dsimp only [evaluate]
          rw [heq]
          refine ⟨rfl, fun t ht => ?_⟩
          have hfilled : ({ s with store := { s.store with
              caches := (x.evaluate Registry.builtin home s.view s.store.caches).2 } } :
              Sheet).Proper := ⟨h.vertex, hcaches⟩
          exact Except.ok.inj ht ▸ hfilled.setValue hid hproper
      | range r =>
          refine ⟨rfl, fun t ht => Except.ok.inj ht ▸ ⟨h.vertex, fun id' r' hid' => ?_⟩⟩
          change ((s.store.caches.clear id).get id').Fits r'
          rw [Caches.get_clear]
          split
          · exact RangeCache.fits_empty r'
          · exact h.caches id' r' hid'
      | value | blank => exact ⟨rfl, fun t ht => Except.ok.inj ht ▸ h⟩

theorem Labelled.recompute {functions : Registry} (hs : s.Labelled)
    (h : s.recompute functions id = .ok t) : t.Labelled := by
  have hid : id.index < s.store.size := by
    rw [Store.lt_size_iff, ← Option.isSome_iff_exists]
    cases hid : s.store.get? id with
    | some w => rfl
    | none =>
        rw [Sheet.recompute, hid] at h
        cases h
  obtain ⟨t', ht', hshown, -⟩ := exists_recompute functions hid
  obtain rfl := Except.ok.inj (ht'.symm.trans h)
  exact hshown.toSameOutline.labelled hs

theorem Proper.recomputeAll (h : s.Proper) (hs : s.Labelled)
    (trap : Function.Place → Eval Value) (ids : List VertexId) :
    LoadedSheet.recomputeAll (Registry.within trap) s ids
        = LoadedSheet.recomputeAll Registry.builtin s ids
      ∧ (LoadedSheet.recomputeAll Registry.builtin s ids).2.Proper := by
  induction ids generalizing s with
  | nil => exact ⟨by rw [LoadedSheet.recomputeAll, LoadedSheet.recomputeAll], h⟩
  | cons id ids ih =>
      obtain ⟨heq, hproper⟩ := h.recompute hs trap id
      rw [LoadedSheet.recomputeAll, LoadedSheet.recomputeAll, heq]
      cases hstep : s.recompute Registry.builtin id with
      | error failure => exact ⟨rfl, h⟩
      | ok t => exact ih (hproper t hstep) (hs.recompute hstep)

theorem Proper.markCycles (h : s.Proper) (hs : s.Labelled) (ids : List VertexId) :
    (LoadedSheet.markCycles s ids).2.Proper ∧ (LoadedSheet.markCycles s ids).2.Labelled := by
  induction ids generalizing s with
  | nil => exact ⟨h, hs⟩
  | cons id ids ih =>
      rw [LoadedSheet.markCycles]
      split
      · next hid =>
          exact ih (h.setValue hid trivial) ((reshown_setValue hid _).toSameOutline.labelled hs)
      · exact ⟨h, hs⟩
      · exact ⟨h, hs⟩

/-- A pass goes the same way with the twin, and keeps a sheet proper. -/
theorem Proper.pass (h : l.sheet.Proper) (hs : l.sheet.Labelled)
    (trap : Function.Place → Eval Value) :
    l.pass (Registry.within trap) = l.pass Registry.builtin
      ∧ (l.pass Registry.builtin).2.sheet.Proper := by
  obtain ⟨hmarked, hlabelled⟩ := h.markCycles hs l.order.cycled
  rw [LoadedSheet.pass, LoadedSheet.pass]
  cases hmark : LoadedSheet.markCycles l.sheet l.order.cycled with
  | mk outcome marked =>
      rw [hmark] at hmarked hlabelled
      cases outcome with
      | error failure => exact ⟨rfl, hmarked⟩
      | ok =>
          obtain ⟨heq, hproper⟩ := hmarked.recomputeAll hlabelled trap l.order.sorted
          dsimp only
          rw [heq]
          exact ⟨rfl, hproper⟩

end Sheet

end Recalc
