/-!
# Timing of phases

A stopwatch adds up the time spent in each phase of the engine. Times are nanoseconds of a clock
that the caller reads.
-/

namespace Recalc

inductive Phase where
  /-- Loading a sheet as a whole. -/
  | overall
  /-- Building vertices and arrows. -/
  | graphBuild
  /-- Sorting the graph. -/
  | topSort
  /-- Evaluation passes. -/
  | evaluation
  deriving DecidableEq, Repr

namespace Phase

def all : List Phase := [overall, graphBuild, topSort, evaluation]

def name : Phase → String
  | overall => "OVERALL"
  | graphBuild => "GRAPH_BUILD"
  | topSort => "TOP_SORT"
  | evaluation => "EVALUATION"

end Phase

structure Stopwatch where
  /-- The time added up so far. -/
  spent : Phase → Nat
  /-- When a phase was started that has not been ended. -/
  started : Phase → Option Nat

namespace Stopwatch

/-- A stopwatch that has measured nothing. -/
def reset : Stopwatch := ⟨fun _ => 0, fun _ => none⟩

/-- Start a phase, forgetting an earlier start that has not been ended. -/
def start (w : Stopwatch) (phase : Phase) (now : Nat) : Stopwatch :=
  { w with started := fun p => if p = phase then some now else w.started p }

/-- Add the time of a phase. -/
def add (w : Stopwatch) (phase : Phase) (nanoseconds : Nat) : Stopwatch :=
  { w with spent := fun p => if p = phase then w.spent p + nanoseconds else w.spent p }

/-- End a phase and add its time; a phase that was not started adds nothing. -/
def stop (w : Stopwatch) (phase : Phase) (now : Nat) : Stopwatch :=
  match w.started phase with
  | none => w
  | some begun =>
      { w.add phase (now - begun) with
        started := fun p => if p = phase then none else w.started p }

/-- The phases that have taken time. -/
def timed (w : Stopwatch) : List Phase := Phase.all.filter fun p => w.spent p != 0

end Stopwatch

end Recalc
