/-!
# Options of comma-separated files
-/

namespace Recalc.Csv

structure ReadOptions where
  delimiter : UInt8
  quote : UInt8
  /-- Leave out the first record. -/
  header : Bool
  /-- Drop blanks around every field. -/
  trim : Bool
  deriving DecidableEq, Repr

/-- Commas and double quotes. -/
def ReadOptions.standard : ReadOptions := ⟨44, 34, false, false⟩

/-- What ends a record. -/
inductive Terminator where
  | lineFeed
  | returnLineFeed
  | carriageReturn
  deriving DecidableEq, Repr

def Terminator.bytes : Terminator → List UInt8
  | lineFeed => [10]
  | returnLineFeed => [13, 10]
  | carriageReturn => [13]

structure WriteOptions where
  delimiter : UInt8
  quote : UInt8
  terminator : Terminator
  deriving DecidableEq, Repr

/-- Commas, double quotes and line feeds. -/
def WriteOptions.standard : WriteOptions := ⟨44, 34, .lineFeed⟩

end Recalc.Csv
