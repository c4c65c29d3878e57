import Recalc.Csv.Error

/-!
# What the command line needs from its surroundings

Files are read and written as a whole, and the time that a computation takes can be asked for. A
host may be the operating system or a set of files held in memory.
-/

namespace Recalc.Cli

structure Host (m : Type → Type) where
  readFile : String → m (Except Csv.Error (List UInt8))
  writeFile : String → List UInt8 → m (Except Csv.Error Unit)
  /-- Run a computation and tell how many nanoseconds it took. -/
  timed : {α : Type} → (Unit → α) → m (α × Nat)

end Recalc.Cli
