/-!
# Help texts

One text for the program and one for each of its commands.
-/

namespace Recalc.Cli

inductive Topic where
  | program
  | eval
  | get
  | stats
  | functions
  | help
  deriving DecidableEq, Repr

namespace Topic

/-- The topic of a command. -/
def ofName? : String → Option Topic
  | "eval" => some eval
  | "get" => some get
  | "stats" => some stats
  | "functions" => some functions
  | "help" => some help
  | _ => none

/-- What the program or the command does. -/
def about : Topic → String
  | program => "Evaluate spreadsheet formulas in CSV files"
  | eval => "Evaluate a sheet and print its computed values as CSV"
  | get => "Print the computed value of individual cells"
  | stats => "Show graph and timing statistics for a sheet"
  | functions => "List the functions formulas can call"
  | help => "Print this message or the help of the given subcommand(s)"

def usage : Topic → String
  | program => "cellflow [OPTIONS] <COMMAND>"
  | eval => "cellflow eval [OPTIONS] <INPUT>"
  | get => "cellflow get [OPTIONS] <INPUT> <CELLS>..."
  | stats => "cellflow stats [OPTIONS] <INPUT>"
  | functions => "cellflow functions [OPTIONS]"
  | help => "cellflow help [COMMAND]..."

/-- Terms and what they stand for, in two columns. -/
def columns (rows : List (String × String)) : List String :=
  let width := rows.foldl (fun w row => max w row.1.length) 0
  rows.map fun (term, meaning) =>
    "  " ++ term ++ String.ofList (List.replicate (width + 2 - term.length) ' ') ++ meaning

/-- A block of a help text, which is left out if it is empty. -/
def block (title : String) (rows : List (String × String)) : List String :=
  if rows.isEmpty then [] else "" :: (title ++ ":") :: columns rows

/-- The commands of the program. -/
def commandRows : Topic → List (String × String)
  | program =>
      [("eval", eval.about), ("get", get.about), ("stats", stats.about),
        ("functions", functions.about), ("help", help.about)]
  | _ => []

def argumentRows : Topic → List (String × String)
  | eval => [("<INPUT>", "Input CSV file; cells starting with `=` are formulas")]
  | get => [("<INPUT>", "Input CSV file"), ("<CELLS>...", "Cells in A1 notation")]
  | stats => [("<INPUT>", "Input CSV file")]
  | help => [("[COMMAND]...", "Print help for the subcommand(s)")]
  | program | functions => []

def verboseRow : String × String :=
  ("-v, --verbose...", "Increase log verbosity (-v info, -vv debug); RUST_LOG overrides")

def helpRow : String × String := ("-h, --help", "Print help")

def delimiterRow (meaning : String) : String × String :=
  ("-d, --delimiter <DELIMITER>", meaning ++ " [default: ,]")

def optionRows : Topic → List (String × String)
  | program => [verboseRow, helpRow, ("-V, --version", "Print version")]
  | eval =>
      [("-s, --set <CELL=VALUE>",
          "Set a value cell before printing, e.g. `--set A1=5` (repeatable)"),
        verboseRow, ("-o, --output <OUTPUT>", "Output CSV file (default: stdout)"),
        delimiterRow "Field delimiter for input and output", helpRow]
  | get | stats => [delimiterRow "Field delimiter", verboseRow, helpRow]
  | functions => [verboseRow, helpRow]
  | help => []

def text (t : Topic) : String :=
  let lines := [t.about, "", "Usage: " ++ t.usage] ++ block "Commands" t.commandRows
    ++ block "Arguments" t.argumentRows ++ block "Options" t.optionRows
  String.join (lines.map (· ++ "\n"))

end Topic

end Recalc.Cli
