import Recalc.Cli.Arguments
import Recalc.Cli.Host
import Recalc.Csv.Writer
import Recalc.Engine

/-!
# The command line

Each command loads one sheet. What it prints and how it ends is an outcome; nothing is written to a
file unless the sheet was loaded and every assignment accepted.
-/

namespace Recalc.Cli

/-- What a command has to say about a failure, with its causes from the nearest to the first. -/
structure Trouble where
  context : String
  causes : List String

namespace Trouble

/-- A text whose further lines are set in by `width` blanks. -/
def setIn (width : Nat) (s : String) : String :=
  String.ofList (s.toList.flatMap fun c =>
    if c = '\n' then c :: List.replicate width ' ' else [c])

/-- Several causes are numbered. -/
def causeLines : List String → List String
  | [] => []
  | [cause] => ["    " ++ setIn 4 cause]
  | causes => causes.zipIdx.map fun (cause, n) =>
      let number := toString n
      String.ofList (List.replicate (5 - number.length) ' ') ++ number ++ ": " ++ setIn 7 cause

def message (t : Trouble) : String :=
  let lines := match t.causes with
    | [] => []
    | causes => "" :: "Caused by:" :: causeLines causes
  String.join (("Error: " ++ t.context) :: lines.map ("\n" ++ ·)) ++ "\n"

end Trouble

/-- A piece of what a command prints. -/
inductive Output where
  | text (s : String)
  /-- A line with the time that a phase took. -/
  | timing (phase : Phase) (nanoseconds : Nat)

structure Outcome where
  exit : Nat
  output : List Output
  errors : String

namespace Outcome

def success (output : List Output) : Outcome := ⟨0, output, ""⟩

def failure (t : Trouble) : Outcome := ⟨1, [], t.message⟩

end Outcome

/-- The byte of a delimiter. -/
def delimiterByte (delimiter : Char) : Except Trouble UInt8 :=
  if delimiter.toNat < 0x80 then .ok delimiter.toNat.toUInt8
  else .error ⟨s!"Delimiter must be a single ASCII character, got '{delimiter}'", []⟩

/-- An engine that reads files with a delimiter. -/
def engineFor (delimiter : UInt8) : Engine :=
  Engine.ofConfig ⟨[], { Csv.ReadOptions.standard with delimiter }⟩

def loadTrouble (input : String) (e : LoadError) : Trouble :=
  ⟨s!"Failed to load '{input}'", e.message :: e.causes⟩

/-- Load the bytes of a file. -/
def loadBytes (input : String) (delimiter : UInt8) (bytes : Except Csv.Error (List UInt8)) :
    Except Trouble Engine :=
  match bytes with
  | .error e => .error (loadTrouble input (.csv e))
  | .ok bytes =>
      match (engineFor delimiter).loadCsv bytes with
      | (.ok (), e) => .ok e
      | (.error e, _) => .error (loadTrouble input e)

variable {m : Type → Type} [Monad m]

/-- Load a file, which is not opened if the delimiter is refused. -/
def load (host : Host m) (input : String) (delimiter : Char) : m (Except Trouble Engine) := do
  match delimiterByte delimiter with
  | .error t => return .error t
  | .ok byte => return loadBytes input byte (← host.readFile input)

/-- Type contents into cells, one after the other. -/
def assignAll (e : Engine) : List (String × String) → Except Trouble Engine
  | [] => .ok e
  | (cell, content) :: rest =>
      match e.set cell content with
      | (.ok (), e) => assignAll e rest
      | (.error failure, _) =>
          .error ⟨s!"Failed to set {cell} to '{content}'", [failure.message]⟩

/-- The values of a sheet after typing contents into cells, and how to write them. -/
def finalValues (e : Engine) (assignments : List (String × String)) (delimiter : Char) :
    Except Trouble (Csv.WriteOptions × List (List Value)) := do
  let e ← assignAll e assignments
  let values ← e.values.mapError fun failure => ⟨failure.message, []⟩
  let byte ← delimiterByte delimiter
  return ({ Csv.WriteOptions.standard with delimiter := byte }, values)

def runEval (host : Host m) (input : String) (assignments : List (String × String))
    (output : Option String) (delimiter : Char) : m Outcome := do
  match (← load host input delimiter).bind fun e => finalValues e assignments delimiter with
  | .error t => return Outcome.failure t
  | .ok (options, values) =>
      match output with
      | none => return Outcome.success [.text (Csv.write options values)]
      | some path =>
          match ← host.writeFile path (Csv.writeBytes options values) with
          | .ok () =>
              return { Outcome.success [] with
                errors := s!"Wrote {values.length} rows to '{path}'\n" }
          | .error e =>
              return Outcome.failure ⟨s!"Failed to write '{path}'", e.message :: e.causes⟩

/-- The lines of cells up to the first that cannot be read. -/
def cellLines (e : Engine) : List String → List Output × Option Trouble
  | [] => ([], none)
  | cell :: rest =>
      match e.get cell with
      | .ok v =>
          let (lines, trouble) := cellLines e rest
          (.text s!"{cell}\t{v}\n" :: lines, trouble)
      | .error failure => ([], some ⟨s!"Failed to read {cell}", [failure.message]⟩)

def runGet (host : Host m) (input : String) (cells : List String) (delimiter : Char) :
    m Outcome := do
  match ← load host input delimiter with
  | .error t => return Outcome.failure t
  | .ok e =>
      match cellLines e cells with
      | (lines, none) => return Outcome.success lines
      | (lines, some t) => return { Outcome.failure t with output := lines }

/-- The time that each phase of loading a file takes, found by going through them. -/
def measure (host : Host m) (e : Engine) (bytes : List UInt8) : m (Phase → Nat) := do
  match Csv.read e.config.csv bytes with
  | .error _ => return fun _ => 0
  | .ok rows =>
      let (built, build) ← host.timed fun _ => Sheet.ofRows e.functions 0 rows
      match built with
      | .error _ => return fun _ => 0
      | .ok s =>
          let (order, sort) ← host.timed fun _ => s.order
          let (_, evaluation) ← host.timed fun _ => e.adopt ⟨s, order⟩
          return fun
            | .overall => build + sort + evaluation
            | .graphBuild => build
            | .topSort => sort
            | .evaluation => evaluation

def runStats (host : Host m) (input : String) (delimiter : Char) : m Outcome := do
  match ← load host input delimiter with
  | .error t => return Outcome.failure t
  | .ok e =>
      let spent ← match ← host.readFile input with
        | .ok bytes => measure host e bytes
        | .error _ => pure fun _ => 0
      let (width, height) := e.dimensions
      let report := e.report spent
      return Outcome.success <|
        [.text s!"File: {input}\nSize: {width} columns x {height} rows\n"]
          ++ Phase.all.map (fun p => .timing p (report.spent p))
          ++ report.countLines.map fun line => .text (line ++ "\n")

def runFunctions : Outcome :=
  Outcome.success <| Engine.standard.functions.definitions.map fun f =>
    .text s!"{f.name}\t{f.key}\n"

def execute (host : Host m) : Command → m Outcome
  | .eval input assignments output delimiter => runEval host input assignments output delimiter
  | .get input cells delimiter => runGet host input cells delimiter
  | .stats input delimiter => runStats host input delimiter
  | .functions => return runFunctions
  | .version => return Outcome.success [.text "cellflow 0.1.0\n"]
  | .help topic => return Outcome.success [.text topic.text]

/-- Run a command line. -/
def run (host : Host m) (arguments : List String) : m Outcome := do
  match Command.ofArguments arguments with
  | .ok command => execute host command
  | .error e => return ⟨2, [], s!"error: {e.message}\n"⟩

end Recalc.Cli
