import Mathlib.Data.List.Dedup
import Mathlib.Data.List.Induction
import Mathlib.Data.String.Basic
import Recalc.Evaluation
import Recalc.Expr.Dependency

/-!
# Functions that are registered again

A name in either case stands for the last function that was registered under it, and the functions
of a registry are the last ones of their names. So a call skips its arguments' cells if and only if
that function does, and it is that function that is run.
-/

namespace Recalc

namespace Registry

open Text

/-- Whether a function is the last of a list whose name in capitals is `key`. -/
def IsLast (fs : List Function) (key : String) (f : Function) : Prop :=
  ∃ before after, fs = before ++ f :: after ∧ toCapitals f.name = key
    ∧ ∀ g ∈ after, toCapitals g.name ≠ key

section IsLast

variable {fs : List Function} {f g : Function} {key : String}

theorem IsLast.name_eq (h : IsLast fs key f) : toCapitals f.name = key := by
  obtain ⟨-, -, -, hkey, -⟩ := h
  exact hkey

theorem not_isLast_nil : ¬ IsLast [] key f := by
  rintro ⟨before, after, h, -⟩
  simp at h

theorem isLast_append_singleton :
    IsLast (fs ++ [g]) key f ↔
      if toCapitals g.name = key then g = f else IsLast fs key f := by
  constructor
  · rintro ⟨before, after, hfs, hkey, hafter⟩
    rcases after.eq_nil_or_concat with rfl | ⟨front, last, rfl⟩
    · obtain ⟨-, hlast⟩ := List.append_inj' hfs rfl
      cases hlast
      rw [if_pos hkey]
    · rw [List.concat_eq_append, ← List.cons_append, ← List.append_assoc] at hfs
      obtain ⟨rfl, hlast⟩ := List.append_inj' hfs rfl
      cases hlast
      rw [if_neg (hafter g (by simp))]
      exact ⟨before, front, rfl, hkey, fun h hh => hafter h (by simp [hh])⟩
  · intro h
    split at h
    · next hkey =>
        subst h
        exact ⟨fs, [], rfl, hkey, List.forall_mem_nil _⟩
    · next hkey =>
        obtain ⟨before, after, rfl, hf, hafter⟩ := h
        refine ⟨before, after ++ [g], by simp, hf, ?_⟩
        exact List.forall_mem_append.2 ⟨hafter, List.forall_mem_singleton.2 hkey⟩

theorem exists_isLast_iff :
    (∃ f, IsLast fs key f) ↔ ∃ f ∈ fs, toCapitals f.name = key := by
  constructor
  · rintro ⟨f, before, after, rfl, hkey, -⟩
    exact ⟨f, by simp, hkey⟩
  · induction fs using List.reverseRecOn with
    | nil => simp
    | append_singleton fs g ih =>
        rintro ⟨f, hf, hkey⟩
        simp only [isLast_append_singleton]
        split
        · exact ⟨g, rfl⟩
        · next hg =>
            refine ih ⟨f, (List.mem_append.1 hf).resolve_right fun h => ?_, hkey⟩
            exact hg (List.mem_singleton.1 h ▸ hkey)

end IsLast

/-! ## The entries of a registry -/

section Entries

variable {fs : List Function} {f : Function} {key : String}

/-- Each key has the last function of its name. -/
theorem getElem?_registerAll :
    (empty.registerAll fs).functions[key]? = some f ↔ IsLast fs key f := by
  induction fs using List.reverseRecOn with
  | nil => simp [registerAll, empty, not_isLast_nil]
  | append_singleton fs g ih =>
      have hlast : empty.registerAll (fs ++ [g]) = (empty.registerAll fs).register g := by
        rw [registerAll, List.foldl_append]
        rfl
      rw [hlast, register, Std.TreeMap.getElem?_insert, isLast_append_singleton]
      simp only [Std.LawfulEqCmp.compare_eq_iff_eq]
      split
      · exact Option.some_inj
      · exact ih

theorem find?_registerAll {name : String} :
    (empty.registerAll fs).find? name = some f ↔ IsLast fs (toCapitals name) f :=
  getElem?_registerAll

theorem mem_keys_registerAll :
    key ∈ (empty.registerAll fs).functions.keys ↔ ∃ f ∈ fs, toCapitals f.name = key := by
  rw [Std.TreeMap.mem_keys, Std.TreeMap.mem_iff_isSome_getElem?, Option.isSome_iff_exists,
    ← exists_isLast_iff]
  exact exists_congr fun f => getElem?_registerAll

/-- A registry has as many functions as names in capitals have been registered. -/
theorem size_registerAll :
    (empty.registerAll fs).size = (fs.map fun f => toCapitals f.name).dedup.length := by
  have hnodup : (empty.registerAll fs).functions.keys.Nodup :=
    Std.TreeMap.nodup_keys
  rw [size, ← Std.TreeMap.length_keys]
  refine ((List.perm_ext_iff_of_nodup hnodup (List.nodup_dedup _)).2 fun key => ?_).length_eq
  rw [mem_keys_registerAll, List.mem_dedup, List.mem_map]

theorem values_eq (r : Registry) : r.functions.values = r.functions.toList.map Prod.snd := by
  have hfold : r.functions.values = r.functions.foldr (fun _ f fs => f :: fs) [] := rfl
  rw [hfold, Std.TreeMap.foldr_eq_foldr_toList, List.map_eq_foldr]

/-- The functions of a registry have different names in capitals. -/
theorem pairwise_values_registerAll (fs : List Function) :
    (empty.registerAll fs).functions.values.Pairwise
      fun f g => toCapitals f.name ≠ toCapitals g.name := by
  rw [values_eq, List.pairwise_map]
  refine Std.TreeMap.distinct_keys_toList.imp_of_mem fun {p q} hp hq hne heq => hne ?_
  have hp := (getElem?_registerAll.1 (Std.TreeMap.mem_toList_iff_getElem?_eq_some.1 hp)).name_eq
  have hq := (getElem?_registerAll.1 (Std.TreeMap.mem_toList_iff_getElem?_eq_some.1 hq)).name_eq
  rw [← hp, ← hq, heq, Std.LawfulEqCmp.compare_eq_iff_eq]

theorem mem_definitions_registerAll :
    f ∈ (empty.registerAll fs).definitions ↔ IsLast fs (toCapitals f.name) f := by
  rw [definitions, (List.mergeSort_perm _ _).mem_iff, values_eq, List.mem_map]
  constructor
  · rintro ⟨⟨key, f⟩, hmem, rfl⟩
    have hlast := getElem?_registerAll.1 (Std.TreeMap.mem_toList_iff_getElem?_eq_some.1 hmem)
    exact hlast.name_eq ▸ hlast
  · intro hlast
    exact ⟨(toCapitals f.name, f),
      Std.TreeMap.mem_toList_iff_getElem?_eq_some.2 (getElem?_registerAll.2 hlast), rfl⟩

/-- The functions are listed in the strict order of their names as spelled. -/
theorem pairwise_definitions_registerAll :
    (empty.registerAll fs).definitions.Pairwise fun f g => f.name < g.name := by
  have hle : (empty.registerAll fs).definitions.Pairwise fun f g => f.name ≤ g.name := by
    have hsorted : (empty.registerAll fs).definitions.Pairwise
        fun f g => decide (f.name ≤ g.name) = true :=
      List.pairwise_mergeSort (fun f g h => by simpa using String.le_trans)
        (fun f g => by simpa using String.le_total f.name g.name) _
    simpa using hsorted
  have hne : (empty.registerAll fs).definitions.Pairwise fun f g => f.name ≠ g.name := by
    have hvalues := (pairwise_values_registerAll fs).imp fun hne heq =>
      hne (congrArg toCapitals heq)
    exact (List.mergeSort_perm _ _).symm.pairwise hvalues fun hne => hne.symm
  exact hle.imp₂ (fun f g => lt_of_le_of_ne) hne

end Entries

/-- Whatever tables of functions are registered, on no functions or on those that are always there:
a name in either case stands for the last function of that name, which decides whether a call reads
its arguments' cells and is what the call runs; there are as many functions as names in capitals;
and the last function of each of them is listed once, in the strict order of the names as
spelled. -/
theorem registered_last {start : Registry} {first : List Function}
    (hstart : start = empty ∧ first = []
      ∨ start = builtin ∧ first = Function.arithmetic ++ Function.binary ++ Function.lookup)
    (tables : List (List Function)) :
    let r := tables.foldl registerAll start
    let all := first ++ tables.flatten
    (∀ name, r.contains name = true ↔ ∃ f ∈ all, toCapitals f.name = toCapitals name)
      ∧ (∀ name f, r.find? name = some f ↔ IsLast all (toCapitals name) f)
      ∧ (∀ name f, IsLast all (toCapitals name) f → ∀ home arguments,
          (Expr.call name arguments).dependencies r.shapeOnly home
            = (if f.shapeOnly then []
              else arguments.flatMap (Expr.dependencies r.shapeOnly home))
          ∧ (Expr.call name arguments).evaluate r home
            = f.run ⟨home, Expr.argumentsOf r home arguments, r.size⟩)
      ∧ r.size = (all.map fun f => toCapitals f.name).dedup.length
      ∧ (∀ f, f ∈ r.definitions ↔ IsLast all (toCapitals f.name) f)
      ∧ r.definitions.Pairwise fun f g => f.name < g.name := by
  intro r all
  have hr : r = empty.registerAll all := by
    have hfirst : start = empty.registerAll first := by
      obtain ⟨rfl, rfl⟩ | ⟨rfl, rfl⟩ := hstart
      · rfl
      · rfl
    rw [registerAll, List.foldl_append, List.foldl_flatten, ← registerAll, ← hfirst]
    rfl
  rw [hr]
  refine ⟨fun name => ?_, fun name f => find?_registerAll, fun name f hlast home arguments => ?_,
    size_registerAll, fun f => mem_definitions_registerAll, pairwise_definitions_registerAll⟩
  · rw [contains, Option.isSome_iff_exists, ← exists_isLast_iff]
    exact exists_congr fun f => find?_registerAll
  · have hfind := find?_registerAll.2 hlast
    constructor
    · simp [Expr.dependencies, shapeOnly, hfind]
    · simp [Expr.evaluate, hfind]

/-- A function of a registry that is registered again in small letters and then reads no cells, and
a new one that is registered twice. -/
def respelled : List (List Function) :=
  [[⟨"Twice", "TWICE", true, Function.sum⟩, ⟨"sum", "COUNT", true, fun _ => return .number 1⟩],
    [⟨"twice", "DOUBLE", false, Function.ofNumber fun x => x + x⟩]]

theorem registered_last_respelled :
    let r := respelled.foldl registerAll builtin
    (∃ f, r.find? "Sum" = some f ∧ f.name = "sum" ∧ f.key = "COUNT"
        ∧ (Expr.call "SUM" [.cell ⟨0, 0⟩]).dependencies r.shapeOnly ⟨0, 1, 1⟩ = [])
      ∧ (∃ f, r.find? "TWICE" = some f ∧ f.name = "twice" ∧ f.key = "DOUBLE")
      ∧ r.contains "Thrice" = false ∧ r.size = 12 := by
  intro r
  obtain ⟨contains, find, call, size, -, -⟩ := registered_last (.inr ⟨rfl, rfl⟩) respelled
  have hsum : IsLast (Function.arithmetic ++ Function.binary ++ Function.lookup
      ++ respelled.flatten) (toCapitals "Sum") ⟨"sum", "COUNT", true, fun _ => return .number 1⟩ :=
    ⟨_, [_], (List.append_assoc (Function.arithmetic ++ Function.binary ++ Function.lookup)
      [⟨"Twice", "TWICE", true, Function.sum⟩] _).symm, by decide +kernel, by decide +kernel⟩
  have htwice : IsLast (Function.arithmetic ++ Function.binary ++ Function.lookup
      ++ respelled.flatten) (toCapitals "TWICE")
        ⟨"twice", "DOUBLE", false, Function.ofNumber fun x => x + x⟩ :=
    ⟨_, [], (List.append_assoc (Function.arithmetic ++ Function.binary ++ Function.lookup)
      [_, _] _).symm, by decide +kernel, by decide +kernel⟩
  have hcase : toCapitals "SUM" = toCapitals "Sum" := by decide +kernel
  have hreads := (call "SUM" _ (by rw [hcase]; exact hsum) ⟨0, 1, 1⟩ [.cell ⟨0, 0⟩]).1
  refine ⟨⟨_, (find _ _).2 hsum, rfl, rfl, hreads.trans (if_pos rfl)⟩,
    ⟨_, (find _ _).2 htwice, rfl, rfl⟩, ?_, size.trans (by decide +kernel)⟩
  rw [Bool.eq_false_iff, ne_eq, contains]
  decide +kernel

end Registry

end Recalc
