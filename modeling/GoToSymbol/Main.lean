import GoToSymbol.CommandLine.Job
import GoToSymbol.Log.Line
import GoToSymbol.Store.Archive

namespace GoToSymbol.CommandLine

/-- The file in the directory of an index that holds it. -/
def archiveName : String := "symbols.json"

def locationText (l : File.Location) : String := "/" ++ String.ofList (Text.joinWith '/' l)

def readContent (path : String) : IO File.Content := do
  try
    match String.fromUTF8? (← IO.FS.readBinFile path) with
    | some s => return .text s
    | none => return .undecodable
  catch
    | .inappropriateType none _ _ => return .directory
    | _ => return .missing

/-- Notes what lies at a place. -/
def survey (w : Workspace) (l : File.Location) : IO Workspace := do
  match ← readContent (locationText l) with
  | .missing => return w
  | .directory => return { w with directories := l :: w.directories }
  | found => return { w with files := (l, found) :: w.files }

/-- Notes what lies along a path. -/
def surveyPath (w : Workspace) (p : File.Path) : IO Workspace :=
  let (way, last) := w.walk p
  (way ++ [last]).foldlM survey w

/-- The texts in an argument that may be paths: all of it, and what follows an equals sign or a
letter. -/
def pathsIn (arg : String) : List String :=
  let cs := arg.toList
  [arg, String.ofList (cs.drop 2), String.ofList ((cs.dropWhile (· != '=')).drop 1)]

def variableNames : List String :=
  Settings.fieldNames ++ LoggingConfig.fieldNames.map ("log_" ++ ·)
    ++ IndexConfig.fieldNames.map ("symbol_index_" ++ ·)

/-- The variables that settings are read from, in small or in capital letters, and those that a file
of variables refers to. -/
def readEnvironment (file : File.Content) : IO Config.Environment := do
  let referred := match file with
    | .text s => Config.Environment.referredNames s.toList
    | _ => []
  let names := variableNames ++ variableNames.map String.toUpper ++ referred
  return (← names.mapM fun name => return (← IO.getEnv name).map fun v => (name, v)).filterMap id

def readIndex (w : Workspace) (j : Job) : IO Workspace := do
  let l := (w.walk j.path).2
  let path := String.ofList j.path.text
  match ← readContent (locationText (l ++ [archiveName.toList])) with
  | .missing | .directory => return w
  | .undecodable => return w.setIndex l (.ofCatalogue path .garbled)
  | .text s =>
    let c := match Json.read? s.toList with
      | some v => .ofArchive v
      | none => .garbled
    return w.setIndex l (.ofCatalogue path c)

def writeIndex (w : Workspace) (j : Job) : IO Unit := do
  let l := (w.walk j.path).2
  match (w.indexes.lookup l).bind fun d => d.catalogue.archive? with
  | none => return
  | some v =>
    IO.FS.createDirAll (locationText l)
    IO.FS.writeFile (locationText (l ++ [archiveName.toList])) (Json.compact v ++ "\n")

def logLine (o : Log.Options) (e : Log.Event) : String :=
  let l : Log.Line := ⟨"symbol-index", e⟩
  if o.json then Json.compact (.object l.members) else l.console

/-- Opens the log file, if there is to be one, with the directories above it. -/
def openLog (cwd : File.Path) (c : LoggingConfig) : IO (Option IO.FS.Handle) := do
  if !Log.canBeLevel c.level then throw (IO.userError ("no level: " ++ c.level))
  match c.filePath with
  | none | some "" => return none
  | some file =>
    let path := cwd.join (.ofText file.toList)
    IO.FS.createDirAll (locationText path.components.dropLast)
    some <$> IO.FS.Handle.mk (locationText path.components) .append

/-- Writes the events that are kept to the standard error and to the log file. -/
def writeLog (c : LoggingConfig) (h? : Option IO.FS.Handle) (events : List Log.Event) : IO Unit := do
  let o : Log.Options := ⟨c.level, c.json, c.performance⟩
  let text := String.join ((events.filter o.keeps).map fun e => logLine o e ++ "\n")
  IO.eprint text
  match h? with
  | none => return
  | some h => h.putStr text

def showEnding : Ending → IO Unit
  | .success output => IO.print output
  | .usage => IO.eprint helpText
  | .failure message _ => IO.eprint message
  | .fault (.settings (.fields errors)) =>
    IO.eprint (String.join (errors.map fun e =>
      ".".intercalate e.location ++ ": " ++ e.violation.message ++ "\n"))
  | .fault (.settings (.notJson name)) => IO.eprintln (name ++ ": invalid JSON in the environment")
  | .fault (.settings .nameNotText) => IO.eprintln "names of settings must be texts"
  | .fault .undecodable => IO.eprintln "invalid UTF-8"
  | .fault (.timestamp v) => IO.eprintln ("no timestamp: " ++ v.literal)

def showReport (h? : Option IO.FS.Handle) (r : Report) : IO UInt32 := do
  match r.logging with
  | some c => writeLog c h? r.events
  | none => pure ()
  showEnding r.ending
  return r.ending.exitCode.toUInt32

end GoToSymbol.CommandLine

open GoToSymbol GoToSymbol.CommandLine in
/-- Runs a command on the index of a directory. The log is set up before anything is run. -/
def main (args : List String) : IO UInt32 := do
  let cwd := File.Path.ofText (← IO.currentDir).toString.toList
  let paths := (".env" :: args.flatMap pathsIn).map fun s => File.Path.ofText s.toList
  let w ← paths.foldlM surveyPath ⟨cwd, [], [], []⟩
  match Job.ofArguments w (← readEnvironment w.dotenv) args with
  | .error r =>
    let h? ← match r.logging with
      | some c => openLog cwd c
      | none => pure none
    showReport h? r
  | .ok j =>
    let h? ← openLog cwd j.preferences.logging
    let w ← readIndex (← surveyPath w j.path) j
    let (w, r) := j.run w
    writeIndex w j
    showReport h? r
