import Recalc.Csv.Error
import Recalc.Report
import Recalc.Sheet.Pass

/-!
# The engine

An engine holds at most one sheet. Loading a sheet replaces the one before, also where it is
refused; an edit of a cell that holds no formula is followed by a full evaluation pass.
-/

namespace Recalc

/-- Why a sheet could not be loaded from a file. -/
inductive LoadError where
  | csv (cause : Csv.Error)
  | engine (cause : Failure)
  deriving DecidableEq, Repr

namespace LoadError

def message : LoadError → String
  | csv cause => "CSV error: " ++ cause.message
  | engine cause => "Engine error: " ++ cause.message

/-- What led to the error, from the nearest cause to the first. -/
def causes : LoadError → List String
  | csv cause => cause.message :: cause.causes
  | engine cause => [cause.message]

end LoadError

structure Config where
  /-- Functions registered after the built-in ones, table by table. -/
  plugins : List (List Function)
  csv : Csv.ReadOptions

def Config.standard : Config := ⟨[], Csv.ReadOptions.standard⟩

structure Engine where
  config : Config
  functions : Registry
  sheet : Option LoadedSheet
  /-- The number of evaluation passes since the sheet was loaded. -/
  passes : Nat

namespace Engine

/-- An engine without a sheet. -/
def ofConfig (config : Config) : Engine :=
  { config
    functions := config.plugins.foldl Registry.registerAll Registry.builtin
    sheet := none
    passes := 0 }

def standard : Engine := ofConfig Config.standard

def isLoaded (e : Engine) : Bool := e.sheet.isSome

def unload (e : Engine) : Engine := { e with sheet := none, passes := 0 }

/-- Take a sheet in and run its first pass. -/
def adopt (e : Engine) (s : LoadedSheet) : Except Failure Unit × Engine :=
  match s.pass e.functions with
  | (.ok (), s) => (.ok (), { e with sheet := some s, passes := 1 })
  | (.error failure, _) => (.error failure, e.unload)

/-- Load rows of typed content. -/
def load (e : Engine) (rows : List (List String)) : Except Failure Unit × Engine :=
  match Sheet.ofRows e.functions 0 rows with
  | .ok s => e.unload.adopt ⟨s, s.order⟩
  | .error failure => (.error failure, e.unload)

/-- Load a comma-separated file. A file that cannot be read leaves the engine as it is. -/
def loadCsv (e : Engine) (bytes : List UInt8) : Except LoadError Unit × Engine :=
  match Csv.read e.config.csv bytes with
  | .error cause => (.error (.csv (.notText cause)), e)
  | .ok rows =>
      let (outcome, e) := e.load rows
      (outcome.mapError .engine, e)

/-- The sheet, which has to be there. -/
def loaded (e : Engine) : Except Failure LoadedSheet :=
  match e.sheet with
  | some s => .ok s
  | none => .error .notLoaded

/-- The value at an address. -/
def getAt (e : Engine) (a : Address) : Except Failure Value := do
  (← e.loaded).sheet.valueAt a

/-- The address of a cell in A1 notation. -/
def cellAddress (cell : String) : Except Failure Address :=
  (Address.ofA1 0 cell).mapError .badAddress

/-- The value of a cell in A1 notation. -/
def get (e : Engine) (cell : String) : Except Failure Value := do
  e.getAt (← cellAddress cell)

/-- Run a pass over the loaded sheet. -/
def recompute (e : Engine) : Except Failure Unit × Engine :=
  match e.sheet with
  | none => (.error .notLoaded, e)
  | some s =>
      let (outcome, s) := s.pass e.functions
      let e := { e with sheet := some s }
      match outcome with
      | .ok () => (.ok (), { e with passes := e.passes + 1 })
      | .error failure => (.error failure, e)

/-- The sheet with content typed into a cell, before anything is recomputed. -/
def typed (e : Engine) (a : Address) (content : String) : Except Failure LoadedSheet :=
  if Expr.isFormula content then .error (.refusedEdit a .formulaContent)
  else do (← e.loaded).edit a (Value.ofContent content)

/-- Type content that is not a formula into a cell, and recompute. -/
def setAt (e : Engine) (a : Address) (content : String) : Except Failure Unit × Engine :=
  match e.typed a content with
  | .ok s => { e with sheet := some s }.recompute
  | .error failure => (.error failure, e)

/-- Type content into a cell in A1 notation, and recompute. -/
def set (e : Engine) (cell content : String) : Except Failure Unit × Engine :=
  match cellAddress cell with
  | .ok a => e.setAt a content
  | .error failure => (.error failure, e)

/-- Width and height of the loaded sheet. -/
def dimensions (e : Engine) : Nat × Nat :=
  match e.sheet with
  | some s => (s.sheet.cells.width, s.sheet.cells.height)
  | none => (0, 0)

/-- All values, row by row. -/
def values (e : Engine) : Except Failure (List (List Value)) := do
  (← e.loaded).sheet.values

/-- Counts of the loaded sheet, with the time that was spent on it. -/
def report (e : Engine) (spent : Phase → Nat) : Report :=
  match e.sheet with
  | some s =>
      { spent
        vertices := s.sheet.store.size
        edges := s.sheet.graph.edgeCount
        formulas := s.sheet.store.formulaCount
        cycled := s.order.cycled.length
        passes := e.passes }
  | none =>
      { spent, vertices := 0, edges := 0, formulas := 0, cycled := 0, passes := e.passes }

end Engine

end Recalc
