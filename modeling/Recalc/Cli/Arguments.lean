import Recalc.Cli.Help
import Recalc.Text.Blank

/-!
# Command lines

A command line is flags, a command and its arguments. An option takes its value from the same word
or from the next one, which then must not look like an option. Behind `--` every word is a plain
argument.
-/

namespace Recalc.Cli

inductive Command where
  /-- Print the values of a sheet, or write them to a file, after typing contents into cells. -/
  | eval (input : String) (assignments : List (String × String)) (output : Option String)
      (delimiter : Char)
  /-- Print the values of cells. -/
  | get (input : String) (cells : List String) (delimiter : Char)
  /-- Report on a sheet. -/
  | stats (input : String) (delimiter : Char)
  /-- List the functions. -/
  | functions
  | version
  | help (topic : Topic)
  deriving DecidableEq, Repr

/-- Options with a value. -/
inductive OptionName where
  | set
  | output
  | delimiter
  deriving DecidableEq, Repr

namespace OptionName

/-- The long spelling of an option. -/
def long : OptionName → String
  | set => "set"
  | output => "output"
  | delimiter => "delimiter"

def ofLetter? : Char → Option OptionName
  | 's' => some set
  | 'o' => some output
  | 'd' => some delimiter
  | _ => none

/-- The option of a long spelling. -/
def ofLong? (s : String) : Option OptionName :=
  [set, output, delimiter].find? fun name => name.long = s

end OptionName

inductive UsageError where
  | noCommand
  | unknownCommand (name : String)
  | unexpected (argument : String)
  | missingValue (name : OptionName)
  | badValue (name : OptionName) (value : String)
  | repeated (name : OptionName)
  | missingArgument (argument : String)
  | emptyArgument (argument : String)
  deriving DecidableEq, Repr

def UsageError.message : UsageError → String
  | noCommand => "a command is required"
  | unknownCommand name => s!"unrecognized command '{name}'"
  | unexpected argument => s!"unexpected argument '{argument}' found"
  | missingValue name => s!"a value is required for '--{name.long}'"
  | badValue name value => s!"invalid value '{value}' for '--{name.long}'"
  | repeated name => s!"the option '--{name.long}' cannot be used multiple times"
  | missingArgument argument => s!"the argument '{argument}' is required"
  | emptyArgument argument => s!"a value is required for '{argument}'"

/-- The cell and the content of `CELL=VALUE`. The cell may stand between blanks. -/
def assignment? (s : String) : Option (String × String) :=
  let cell := Text.trim (s.toList.takeWhile (· != '='))
  match s.toList.dropWhile (· != '=') with
  | _ :: content =>
      if cell.isEmpty then none else some (String.ofList cell, String.ofList content)
  | [] => none

/-- What has been collected from the arguments of a command. -/
structure Collected where
  plain : List String
  assignments : List (String × String)
  output : Option String
  delimiter : Option Char

namespace Collected

def empty : Collected := ⟨[], [], none, none⟩

/-- Enter the value of an option. Only assignments may be repeated. -/
def enter (c : Collected) (name : OptionName) (value : String) : Except UsageError Collected :=
  match name with
  | .set =>
      match assignment? value with
      | some pair => .ok { c with assignments := c.assignments ++ [pair] }
      | none => .error (.badValue .set value)
  | .output =>
      if c.output.isSome then .error (.repeated .output)
      else if value.isEmpty then .error (.badValue .output value)
      else .ok { c with output := some value }
  | .delimiter =>
      if c.delimiter.isSome then .error (.repeated .delimiter)
      else match value.toList with
        | [d] => .ok { c with delimiter := some d }
        | _ => .error (.badValue .delimiter value)

/-- The delimiter, a comma unless another one was given. -/
def delimiterChar (c : Collected) : Char := c.delimiter.getD ','

end Collected

/-- What a word of the command line is. -/
inductive Word where
  | plain
  /-- Flags that change nothing in the output. -/
  | quiet
  | help
  | version
  | option (name : OptionName) (value : Option String)
  | unknown

namespace Word

/-- The word made of single letters behind a dash. An equals sign before a value is dropped. -/
def ofLetters : List Char → Word
  | [] => quiet
  | 'v' :: rest => ofLetters rest
  | 'h' :: _ => help
  | 'V' :: _ => version
  | c :: rest =>
      match OptionName.ofLetter? c, rest with
      | none, _ => unknown
      | some name, [] => option name none
      | some name, '=' :: value => option name (some (String.ofList value))
      | some name, value => option name (some (String.ofList value))

/-- The word behind two dashes, with an option's value behind an equals sign. -/
def ofLong (s : List Char) : Word :=
  let spelling := String.ofList (s.takeWhile (· != '='))
  match OptionName.ofLong? spelling, s.dropWhile (· != '=') with
  | some name, [] => option name none
  | some name, _ :: value => option name (some (String.ofList value))
  | none, _ :: _ => unknown
  | none, [] =>
      if spelling = "verbose" then quiet
      else if spelling = "help" then help
      else if spelling = "version" then version
      else unknown

/-- A dash alone is a plain argument. -/
def ofString (s : String) : Word :=
  match s.toList with
  | '-' :: '-' :: rest => ofLong rest
  | ['-'] => plain
  | '-' :: rest => ofLetters rest
  | _ => plain

end Word

/-- Whether a word can be the value of the option before it. -/
def canBeValue (s : String) : Bool := !s.startsWith "-" || s == "-"

/-- What a command takes: its topic, its options, and how many plain arguments at most. -/
structure Accepts where
  topic : Topic
  options : List OptionName
  most : Option Nat

namespace Accepts

/-- Enter a plain argument. The first one names a file. -/
def enterPlain (a : Accepts) (c : Collected) (s : String) : Except UsageError Collected :=
  if a.most.any (· ≤ c.plain.length) then .error (.unexpected s)
  else if c.plain.isEmpty && s.isEmpty then .error (.emptyArgument "<INPUT>")
  else .ok { c with plain := c.plain ++ [s] }

/-- Go through the arguments of a command from the left. There is nothing to collect where help is
asked for. -/
def collect (a : Accepts) : Collected → List String → Except UsageError (Option Collected)
  | c, [] => .ok (some c)
  | c, word :: rest =>
      if word = "--" then (rest.foldlM a.enterPlain c).map some
      else match Word.ofString word with
        | .plain => do a.collect (← a.enterPlain c word) rest
        | .quiet => a.collect c rest
        | .help => .ok none
        | .version | .unknown => .error (.unexpected word)
        | .option name value =>
            if !a.options.contains name then .error (.unexpected word)
            else match value with
              | some value => do a.collect (← c.enter name value) rest
              | none =>
                  match rest with
                  | [] => .error (.missingValue name)
                  | value :: rest =>
                      if canBeValue value then do a.collect (← c.enter name value) rest
                      else .error (.missingValue name)

/-- The command that is built from what its arguments say. -/
def command (a : Accepts) (build : Collected → Except UsageError Command) (words : List String) :
    Except UsageError Command := do
  match ← a.collect Collected.empty words with
  | some c => build c
  | none => return .help a.topic

end Accepts

/-- The arguments of `eval`. -/
def evalCommand : List String → Except UsageError Command :=
  Accepts.command ⟨.eval, [.set, .output, .delimiter], some 1⟩ fun c =>
    match c.plain with
    | [] => .error (.missingArgument "<INPUT>")
    | input :: _ => .ok (.eval input c.assignments c.output c.delimiterChar)

/-- The arguments of `get`. -/
def getCommand : List String → Except UsageError Command :=
  Accepts.command ⟨.get, [.delimiter], none⟩ fun c =>
    match c.plain with
    | [] => .error (.missingArgument "<INPUT>")
    | [_] => .error (.missingArgument "<CELLS>...")
    | input :: cells => .ok (.get input cells c.delimiterChar)

/-- The arguments of `stats`. -/
def statsCommand : List String → Except UsageError Command :=
  Accepts.command ⟨.stats, [.delimiter], some 1⟩ fun c =>
    match c.plain with
    | [] => .error (.missingArgument "<INPUT>")
    | input :: _ => .ok (.stats input c.delimiterChar)

/-- The arguments of `functions`, of which there are none. -/
def functionsCommand : List String → Except UsageError Command :=
  Accepts.command ⟨.functions, [], some 0⟩ fun _ => .ok .functions

/-- The arguments of `help`. No command has commands of its own. -/
def helpCommand : List String → Except UsageError Command
  | [] => .ok (.help .program)
  | name :: rest =>
      match Topic.ofName? name, rest with
      | none, _ => .error (.unknownCommand name)
      | some topic, [] => .ok (.help topic)
      | some _, next :: _ => .error (.unknownCommand next)

/-- Read a command line. -/
def Command.ofArguments : List String → Except UsageError Command
  | [] => .error .noCommand
  | word :: rest =>
      if word = "--" then
        match rest with
        | [] => .error .noCommand
        | word :: _ => .error (.unexpected word)
      else match Word.ofString word with
        | .quiet => ofArguments rest
        | .help => .ok (.help .program)
        | .version => .ok .version
        | .unknown | .option .. => .error (.unexpected word)
        | .plain =>
            match Topic.ofName? word with
            | some .eval => evalCommand rest
            | some .get => getCommand rest
            | some .stats => statsCommand rest
            | some .functions => functionsCommand rest
            | some .help => helpCommand rest
            | some .program | none => .error (.unknownCommand word)

end Recalc.Cli
