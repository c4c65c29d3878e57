import Recalc.Proofs.Sheet.Structure

/-!
# Circular names

A sheet has vertices for ranges between the cells that are in them and the formulas that name them.
Whether such a vertex is on a cycle, and which formulas are on cycles without one, can be said of
the formulas alone.
-/

namespace Recalc

open Relation

variable {names : Address → Dependency → Prop} {a b : Address} {d e : Dependency} {r : Range}

/-- The formula in a cell names another cell or a range around it. -/
def DependsOn (names : Address → Dependency → Prop) (a b : Address) : Prop :=
  ∃ d, names a d ∧ b ∈ d.addresses

/-- The formula in a cell names another cell by itself. -/
def RefersTo (names : Address → Dependency → Prop) (a b : Address) : Prop := names a (.cell b)

/-- Some formula names a range around its own cell, or around a cell that depends on it. -/
def Circular (names : Address → Dependency → Prop) : Prop :=
  ∃ a r, names a (.range r) ∧ ∃ b ∈ r.addresses, ReflTransGen (DependsOn names) b a

/-- What is on a path of reading from a cell: cells that it depends on and ranges that they name. -/
def ReachedFrom (names : Address → Dependency → Prop) (a : Address) : Dependency → Prop
  | .cell b => ReflTransGen (DependsOn names) a b
  | .range r => ∃ b, ReflTransGen (DependsOn names) a b ∧ names b (.range r)

theorem DependsOn.path (h : DependsOn names a b) :
    ReflTransGen (Reading names) (.cell a) (.cell b) := by
  obtain ⟨d, hname, hmem⟩ := h
  cases d with
  | cell c =>
      obtain rfl := List.mem_singleton.mp hmem
      exact .single (Arrow.named hname)
  | range r => exact .tail (.single (Arrow.named hname)) (Arrow.covered hname hmem)

theorem path_of_dependsOn (h : ReflTransGen (DependsOn names) a b) :
    ReflTransGen (Reading names) (.cell a) (.cell b) :=
  ReflTransGen.lift' Dependency.cell (fun _ _ hstep => DependsOn.path hstep) _ _ h

theorem reachedFrom_of_path (h : ReflTransGen (Reading names) (.cell a) e) :
    ReachedFrom names a e := by
  induction h with
  | refl => exact .refl
  | @tail _ d _ hstep ih =>
      cases hstep with
      | @named c _ hname =>
          cases d with
          | cell b => exact ih.tail ⟨_, hname, List.mem_cons_self⟩
          | range r => exact ⟨c, ih, hname⟩
      | covered _ hmem =>
          obtain ⟨c, hpath, hname⟩ := ih
          exact hpath.tail ⟨_, hname, hmem⟩

/-- Formulas are circular if and only if a range is read by way of itself. -/
theorem circular_iff :
    Circular names ↔ ∃ r, TransGen (Reading names) (.range r) (.range r) := by
  constructor
  · rintro ⟨a, r, hname, b, hmem, hpath⟩
    have hreach := (path_of_dependsOn hpath).tail (Arrow.named hname)
    exact ⟨r, .head' (Arrow.covered hname hmem) hreach⟩
  · rintro ⟨r, hcycle⟩
    obtain ⟨e, hstep, hpath⟩ := TransGen.head'_iff.mp hcycle
    cases hstep with
    | @covered _ b _ _ hmem =>
        obtain ⟨a, hreach, hname⟩ := reachedFrom_of_path hpath
        exact ⟨a, r, hname, b, hmem, hreach⟩

/-- A path of reading from a cell goes through cells only, or it goes through a range. -/
theorem path_cases (h : TransGen (Reading names) (.cell a) e) :
    (∃ b, e = .cell b ∧ TransGen (RefersTo names) a b)
      ∨ ∃ r, ReflTransGen (Reading names) (.cell a) (.range r)
        ∧ ReflTransGen (Reading names) (.range r) e := by
  induction h with
  | @single d hstep =>
      cases hstep with
      | named hname =>
          cases d with
          | cell b => exact Or.inl ⟨b, rfl, .single hname⟩
          | range r => exact Or.inr ⟨r, .single (Arrow.named hname), .refl⟩
  | @tail _ d hpath hstep ih =>
      rcases ih with ⟨b, rfl, hrefers⟩ | ⟨r, hto, hfrom⟩
      -- Up to here the path went through cells only, so a range that comes now is the first one.
      · cases hstep with
        | named hname =>
            cases d with
            | cell c => exact Or.inl ⟨c, rfl, hrefers.tail hname⟩
            | range r => exact Or.inr ⟨r, (hpath.tail (Arrow.named hname)).to_reflTransGen, .refl⟩
      · exact Or.inr ⟨r, hto, hfrom.tail hstep⟩

/-- Where no formulas are circular, what reads itself does so by way of cells that are named. -/
theorem transGen_refersTo_iff (h : ¬ Circular names) (a : Address) :
    TransGen (Reading names) (.cell a) (.cell a) ↔ TransGen (RefersTo names) a a := by
  constructor
  · intro hcycle
    rcases path_cases hcycle with ⟨b, heq, hrefers⟩ | ⟨r, hto, hfrom⟩
    · obtain rfl := Dependency.cell.inj heq
      exact hrefers
    · obtain ⟨d, hstep, hpath⟩ := (ReflTransGen.cases_head hfrom).resolve_left nofun
      exact absurd (circular_iff.mpr ⟨r, .head' hstep (hpath.trans hto)⟩) h
  · exact TransGen.lift (p := Reading names) Dependency.cell
      (fun _ _ hname => Arrow.named hname) a a

end Recalc
