import GoToSymbol.CommandLine.Arguments
import GoToSymbol.CommandLine.Report
import GoToSymbol.CommandLine.Workspace

namespace GoToSymbol.CommandLine

/-- The settings of a run, and how much it is to say. -/
structure Preferences where
  settings : Settings
  verbose : Bool
  quiet : Bool

namespace Preferences

/-- Loudness decides before the settings which log lines are kept. -/
def level (p : Preferences) : String :=
  if p.verbose then "DEBUG" else if p.quiet then "ERROR" else p.settings.logging.level

def logging (p : Preferences) : LoggingConfig := { p.settings.logging with level := p.level }

/-- A message that quiet runs leave out. -/
def say (p : Preferences) (s : String) : String := if p.quiet then "" else s

/-- Reads the settings, from a file if one is named, by any readers of files. -/
def readSettingsBy (r : Settings.Readers) (w : Workspace) (env : Config.Environment)
    (file? : Option String) : Except Ending Settings :=
  (match file? with
    | none => r.ofMembers env w.dotenv []
    | some file =>
      r.ofFile env w.dotenv (String.ofList (File.Path.ofText file.toList).text) (w.look file)).mapError
    .ofFileError

def readSettings : Workspace → Config.Environment → Option String → Except Ending Settings :=
  readSettingsBy Settings.readers

/-- Puts the index into a directory named by an argument; an empty one names none. -/
def overrideDirectory (cwd : File.Path) (s : Settings) : Option String → Settings
  | none => s
  | some directory =>
    if directory.isEmpty then s
    else
      let path := cwd.join (.ofText directory.toList)
      { s with index := { s.index with directory := String.ofList path.text } }

/-- Whether the paths among the main options can stand: the file of settings must be there, and the
directory of the index must not be a file. -/
def arePathsSound (w : Workspace) (p : Parsed) : Bool :=
  ((p.value? "config").map fun file => (w.look file).isThere).getD true
    && !((p.value? "index-dir").map fun directory => (w.look directory).isFile).getD false

/-- The preferences that the main options stand for. -/
def ofOptions (w : Workspace) (env : Config.Environment) (p : Parsed) : Except Ending Preferences := do
  let quiet := p.has "quiet"
  if !arePathsSound w p || (p.has "verbose" && quiet) then throw .usage
  let settings ← readSettings w env (p.value? "config")
  return {
    settings := overrideDirectory w.cwd settings (p.value? "index-dir")
    verbose := p.has "verbose" || (settings.debug && !quiet)
    quiet := quiet }

end Preferences

end GoToSymbol.CommandLine
