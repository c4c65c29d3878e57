import Recalc.Timing

/-!
# Reports on a loaded sheet

Durations are shown in the largest unit of which they hold at least one, with as many decimals as
they need.
-/

namespace Recalc

namespace Duration

/-- The decimals of `rest` out of `unit`, without zeros at the end. -/
def decimals (rest unit : Nat) : List Char :=
  let digits := (Nat.toDigits 10 (unit + rest)).tail
  (digits.reverse.dropWhile (· = '0')).reverse

/-- A duration in units of `unit` nanoseconds. -/
def inUnit (nanoseconds unit : Nat) (mark : String) : String :=
  let fraction := decimals (nanoseconds % unit) unit
  let whole := toString (nanoseconds / unit)
  if fraction.isEmpty then whole ++ mark else whole ++ "." ++ String.ofList fraction ++ mark

def render (nanoseconds : Nat) : String :=
  if 1000000000 ≤ nanoseconds then inUnit nanoseconds 1000000000 "s"
  else if 1000000 ≤ nanoseconds then inUnit nanoseconds 1000000 "ms"
  else if 1000 ≤ nanoseconds then inUnit nanoseconds 1000 "µs"
  else toString nanoseconds ++ "ns"

end Duration

structure Report where
  /-- Nanoseconds spent in each phase. -/
  spent : Phase → Nat
  vertices : Nat
  edges : Nat
  formulas : Nat
  cycled : Nat
  passes : Nat

namespace Report

/-- A label and what it stands for, in two columns. -/
def line (label value : String) : String :=
  label ++ String.ofList (List.replicate (13 - label.length) ' ') ++ value

def timingLine (r : Report) (phase : Phase) : String :=
  line phase.name (Duration.render (r.spent phase))

def countLines (r : Report) : List String :=
  [line "vertices" (toString r.vertices), line "edges" (toString r.edges),
    line "formulas" (toString r.formulas), line "cycled" (toString r.cycled),
    line "passes" (toString r.passes)]

/-- The report as lines without a line end behind the last. -/
def render (r : Report) : String :=
  "\n".intercalate (Phase.all.map r.timingLine ++ r.countLines)

end Report

end Recalc
