import GoToSymbol.Config.File
import GoToSymbol.Log.Event
import GoToSymbol.Text.Terminal

namespace GoToSymbol.CommandLine

/-- Faults of the input that end a run without a message of its own. -/
inductive Fault where
  | settings (e : Settings.ReadError)
  /-- A file is no text. -/
  | undecodable
  /-- A list or an object where values are told apart. -/
  | timestamp (v : Value)

/-- How a run ends. -/
inductive Ending where
  | success (output : String)
  /-- The arguments make no sense. -/
  | usage
  /-- A message for the user; `traced` asks for all that is known about the failure. -/
  | failure (message : String) (traced : Bool)
  | fault (f : Fault)

def Ending.exitCode : Ending → Nat
  | success _ => 0
  | usage => 2
  | failure _ _ | fault _ => 1

/-- What a run shows: how it ends, how its log is set up if it comes so far, and what it logs. -/
structure Report where
  ending : Ending
  logging : Option LoggingConfig
  events : List Log.Event

def versionText : String := "symbol-index, version 0.1.0\n"

def helpText : String := String.join [
  "Usage: symbol-index [OPTIONS] COMMAND [ARGS]...\n\nOptions:\n",
  "  --version\n  -v, --verbose\n  -q, --quiet\n  -c, --config FILE\n  -d, --index-dir DIRECTORY\n",
  "  --help\n\nCommands:\n  index SYMBOLS_FILE [--boost]\n  remove FILES...\n",
  "  classes QUERY [--max N] [--format text|json]\n",
  "  search TERMS... [--max N] [--format text|json]\n  stats\n"]

/-- A message that a control sequence cannot colour. -/
def failureOf (message : String) (traced : Bool) : Ending :=
  .failure (Text.withoutSequences message) traced

/-- How a run ends whose settings cannot be read from a file. -/
def Ending.ofFileError (e : Settings.FileError) : Ending :=
  match e, e.text? with
  | _, some text =>
    failureOf ("Error: " ++ text ++ "\nSuggestion: Check YAML syntax and setting names\n") false
  | .read e, none => .fault (.settings e)
  | _, none => .fault .undecodable

/-- How a run ends whose command fails. -/
def Ending.ofFailure (verbose : Bool) : Failure → Ending
  | .index e => failureOf ("Index error: " ++ e.text ++ "\n") false
  | f =>
    failureOf ("Unexpected error: " ++ f.text ++ "\n"
      ++ if verbose then "" else "Run with --verbose for detailed error information\n") verbose

end GoToSymbol.CommandLine
