import Recalc.Proofs.Engine.Solution
import Recalc.Proofs.Sheet.Refusal

/-!
# Caches that tell the truth

The caches of ranges outlive the passes that fill them. Whenever an engine comes to rest they are
true all the same: a cache that is filled holds what the cells of its range hold.
-/

namespace Recalc

namespace LoadedSheet.Consistent

variable {l : LoadedSheet} {id : VertexId} {r : Range}

theorem mapM_valueAt (h : l.Consistent) {cells : List Address}
    (hin : ∀ a ∈ cells, l.sheet.cells.inBounds a = true) :
    cells.mapM l.sheet.valueAt = .ok (cells.map l.sheet.view.cellValue) := by
  refine mapM_eq_ok fun a ha => ?_
  rw [h.labelled.valueAt_eq (hin a ha), h.labelled.cellValue_eq_stored (hin a ha)]

variable (h : l.Consistent) (hid : l.sheet.store.get? id = some (.range r))
include h hid

theorem inBounds_of_range : ∀ a ∈ r.addresses, l.sheet.cells.inBounds a = true :=
  (l.sheet.cells.rangeInBounds_iff r).mp
    (h.labelled.covers (.range r) id (h.labelled.find?_of_range hid))

theorem cached_values {values : List Value}
    (hvalues : (l.sheet.store.caches.get id).values = some values) :
    r.addresses.mapM l.sheet.valueAt = .ok values := by
  rw [h.mapM_valueAt (h.inBounds_of_range hid)]
  exact congrArg Except.ok
    ((h.coherent r id (h.labelled.find?_of_range hid)).values values hvalues).symm

theorem cached_column {index : ColumnIndex}
    (hindex : (l.sheet.store.caches.get id).column = some index) :
    ∃ column, r.firstColumn.addresses.mapM l.sheet.valueAt = .ok column
      ∧ index = ColumnIndex.ofList column := by
  refine ⟨_, h.mapM_valueAt fun a ha =>
    h.inBounds_of_range hid a (r.addresses_firstColumn_subset ha), ?_⟩
  rw [(h.coherent r id (h.labelled.find?_of_range hid)).column index hindex,
    r.addresses_firstColumn, List.map_map, View.rangeCells, RangeCache.firstColumn_map_addresses]
  rfl

end LoadedSheet.Consistent

namespace Engine

/-- Whatever an engine without plugins has been asked, the cached values of a range are those of its
cells, row by row, and the cached index is the one of its first column. -/
theorem run_caches_true (csv : Csv.ReadOptions) (requests : List Request) {l : LoadedSheet}
    (hl : ((ofConfig ⟨[], csv⟩).run requests).sheet = some l) {id : VertexId} {r : Range}
    (hid : l.sheet.store.get? id = some (.range r)) :
    let cache := l.sheet.store.caches.get id
    (∀ values, cache.values = some values → r.addresses.mapM l.sheet.valueAt = .ok values)
      ∧ ∀ index, cache.column = some index →
        ∃ column, r.firstColumn.addresses.mapM l.sheet.valueAt = .ok column
          ∧ index = ColumnIndex.ofList column := by
  have hl' : l.Consistent := ((sound_ofConfig csv).run requests).sheet l hl
  exact ⟨fun values hvalues => hl'.cached_values hid hvalues,
    fun index hindex => hl'.cached_column hid hindex⟩

/-- A search in a column that has been typed into fills the values and the index. -/
theorem run_caches_true_searched :
    let requests := [.load [["p", "=MATCH(B2,A1:A2)"], ["q", "=A1"]], .setAt ⟨0, 0, 0⟩ "r"]
    let e := (ofConfig ⟨[], Csv.ReadOptions.standard⟩).run requests
    ∃ l r values index column, e.sheet = some l
      ∧ l.sheet.store.get? ⟨4⟩ = some (.range r)
      ∧ (l.sheet.store.caches.get ⟨4⟩).values = some values
      ∧ values.map Value.text? = [some "r", some "q"]
      ∧ (l.sheet.store.caches.get ⟨4⟩).column = some index
      ∧ r.addresses.mapM l.sheet.valueAt = .ok values
      ∧ r.firstColumn.addresses.mapM l.sheet.valueAt = .ok column
      ∧ index = ColumnIndex.ofList column := by
  intro requests e
  have hfacts : (e.sheet.any fun l =>
      ((l.sheet.store.get? ⟨4⟩).bind Vertex.range?).isSome
      ∧ ((l.sheet.store.caches.get ⟨4⟩).values.any fun values =>
        values.map Value.text? = [some "r", some "q"])
      ∧ (l.sheet.store.caches.get ⟨4⟩).column.isSome) = true := by decide +kernel
  obtain ⟨l, hl, hfacts⟩ := (Option.any_eq_true _ _).mp hfacts
  obtain ⟨hrange, hvalues, hcolumn⟩ := of_decide_eq_true hfacts
  obtain ⟨r, hr⟩ := Option.isSome_iff_exists.mp hrange
  obtain ⟨values, hvalues, htexts⟩ := (Option.any_eq_true _ _).mp hvalues
  obtain ⟨index, hindex⟩ := Option.isSome_iff_exists.mp hcolumn
  have hid := Vertex.eq_of_range? hr
  obtain ⟨htrue, hbuilt⟩ := run_caches_true Csv.ReadOptions.standard requests hl hid
  obtain ⟨column, hcolumn, hindexed⟩ := hbuilt index hindex
  exact ⟨l, r, values, index, column, hl, hid, hvalues, of_decide_eq_true htexts, hindex,
    htrue values hvalues, hcolumn, hindexed⟩

end Engine

end Recalc
