import GoToSymbol.CommandLine.Preferences
import GoToSymbol.CommandLine.Results
import GoToSymbol.Store.Engine
import GoToSymbol.Symbol.Dump

namespace GoToSymbol.CommandLine

/-- The distinct files of symbols, each where it stands first; timestamps must be scalars. -/
def distinctFiles (seen : List File.Check) : List File.Check → Except Ending (List File.Check)
  | [] => .ok []
  | f :: fs =>
    if f.timestamp.scalarKey?.isNone then .error (.fault (.timestamp f.timestamp))
    else if seen.any fun g => Entry.sameFile (some f) (some g) then distinctFiles seen fs
    else (distinctFiles (f :: seen) fs).map (f :: ·)

section Command

variable {σ : Type}

/-- Replaces the entries of all files that a dump names. -/
def indexing (p : Preferences) (s : Service σ) (prioritized : Bool) (symbols : List Symbol) :
    Except Ending (Action σ String) := do
  let files ← distinctFiles [] (symbols.map (·.file))
  return do
    s.reindex (files.map .check) (symbols.map .symbol) prioritized
    return p.say (indexedText symbols.length files.length)

/-- What a command does on a service, and what it prints. -/
def Command.action (w : Workspace) (p : Preferences) (s : Service σ) :
    Command → Except Ending (Action σ String)
  | .index file prioritized =>
    match w.look file with
    | .text content => indexing p s prioritized (Dump.read content).symbols
    | .undecodable => .error (.fault .undecodable)
    | .missing | .directory => .error .usage
  | .remove files => .ok do
    let removed ← s.remove (files.map .text)
    s.commit
    return p.say (removedText removed)
  | .classes query max format => .ok do
    return showEntries (← s.searchClasses query max) format
  | .search terms max format => .ok do
    return showEntries (← s.searchClassesMethods terms max) format
  | .stats => .ok do return showFigures (← s.stats)
  | .help => .error (.success helpText)

end Command

/-- A command ready to run on an index. -/
structure Job where
  preferences : Preferences
  service : Service Store.Session
  action : Action Store.Session String

namespace Job

/-- Where the index lies. -/
def path (j : Job) : File.Path := j.preferences.settings.indexPath

/-- Makes a job of a verb and its arguments. -/
def ofVerb (w : Workspace) (p : Preferences) (v : Verb) (args : List String) : Except Ending Job := do
  let service : Service Store.Session := ⟨w.cwd, Store.engine, p.settings.index⟩
  match v.command? args with
  | none => throw .usage
  | some command => return ⟨p, service, ← command.action w p service⟩

/-- Reads arguments up to the point where the index is needed, or to the end of the run. -/
def ofArguments (w : Workspace) (env : Config.Environment) (args : List String) :
    Except Report Job := do
  let early (e : Ending) : Report := ⟨e, none, []⟩
  match parse mainOptions false args with
  | none => throw (early .usage)
  | some p =>
    match p.first? ["version", "help"], p.others with
    | some "version", _ => throw (early (.success versionText))
    | some _, _ => throw (early (.success helpText))
    | none, [] => throw (early .usage)
    | none, name :: rest =>
      match Verb.ofName? name with
      | none => throw (early .usage)
      | some v => do
        let preferences ← (Preferences.ofOptions w env p).mapError early
        (ofVerb w preferences v rest).mapError fun e => ⟨e, some preferences.logging, []⟩

def report (j : Job) (ending : Ending) (events : List Log.Event) : Report :=
  ⟨ending, some j.preferences.logging, events⟩

/-- The end of a run on the index of a directory; the service is shut down in any case. -/
def perform (j : Job) (d : Store.Directory) : Store.Directory × Report :=
  let o := j.action.ensure j.service.shutdown (.start d)
  let ending := match o.result with
    | .ok output => .success (Text.withoutSequences output)
    | .error f => .ofFailure j.preferences.verbose f
  (o.state.directory, j.report ending o.events)

/-- Finds the directory of the index, makes it if need be, and runs. -/
def run (j : Job) (w : Workspace) : Workspace × Report :=
  match w.makeDirectory j.path with
  | .error f => (w, j.report (.ofFailure j.preferences.verbose f) [])
  | .ok (w, l) =>
    let (d, r) := j.perform (w.indexAt l (String.ofList j.path.text))
    (w.setIndex l d, r)

end Job

/-- One run of the program. -/
def run (w : Workspace) (env : Config.Environment) (args : List String) : Workspace × Report :=
  match Job.ofArguments w env args with
  | .error r => (w, r)
  | .ok j => j.run w

theorem run_eq_self_of_error {w : Workspace} {env : Config.Environment} {args : List String}
    {r : Report} (h : Job.ofArguments w env args = .error r) : run w env args = (w, r) := by
  simp [run, h]

end GoToSymbol.CommandLine
