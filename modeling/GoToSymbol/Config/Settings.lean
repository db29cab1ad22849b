import GoToSymbol.Config.Environment
import GoToSymbol.File.Path
import GoToSymbol.Json.Reader
import GoToSymbol.Relevance

namespace GoToSymbol

open Config

/-- The settings of an index. -/
structure IndexConfig where
  directory : String
  policy : Relevance.Policy
  maxResults : Int
  workers : Int

/-- The settings of the log. -/
structure LoggingConfig where
  level : String
  filePath : Option String
  json : Bool
  performance : Bool
deriving Repr, DecidableEq

/-- All settings. -/
structure Settings where
  logging : LoggingConfig
  index : IndexConfig
  debug : Bool
  dataDirectory : String

namespace IndexConfig

def default : IndexConfig := ⟨"./symbol_index", .default, 50, 2⟩

def fieldNames : List String :=
  ["index_directory", "penalty_step", "priority_bonus", "default_max_results", "worker_threads"]

def source (env : Environment) (givens : Givens) : Source := ⟨givens, env, "symbol_index_"⟩

/-- Reads the settings of an index; the errors come in the order of the fields. -/
def read (env : Environment) (givens : Givens) : Except (List FieldError) IndexConfig :=
  let s := source env givens
  let directory := s.field "index_directory" default.directory readText
  let step := s.field "penalty_step" default.policy.penaltyStep readFraction
  let bonus := s.field "priority_bonus" default.policy.priorityBonus readNonNegative
  let results := s.field "default_max_results" default.maxResults readPositive
  let workers := s.field "worker_threads" default.workers readAtLeastOne
  settle (errorsOf directory ++ errorsOf step ++ errorsOf bonus ++ errorsOf results
      ++ errorsOf workers ++ s.unknown fieldNames)
    (do return ⟨← directory.toOption, ⟨← step.toOption, ← bonus.toOption⟩, ← results.toOption,
      ← workers.toOption⟩)

/-- Where the index lies; an absolute directory ignores the data directory. -/
def path (c : IndexConfig) (data : String) : File.Path :=
  (File.Path.ofText data.toList).join (.ofText c.directory.toList)

end IndexConfig

namespace LoggingConfig

def default : LoggingConfig := ⟨"INFO", none, true, true⟩

def fieldNames : List String := ["level", "file_path", "json_format", "enable_performance"]

def source (env : Environment) (givens : Givens) : Source := ⟨givens, env, "log_"⟩

/-- Reads the settings of the log; the errors come in the order of the fields. -/
def read (env : Environment) (givens : Givens) : Except (List FieldError) LoggingConfig :=
  let s := source env givens
  let level := s.field "level" default.level readText
  let filePath := s.field "file_path" default.filePath readOptionalText
  let json := s.field "json_format" default.json readBool
  let performance := s.field "enable_performance" default.performance readBool
  settle (errorsOf level ++ errorsOf filePath ++ errorsOf json ++ errorsOf performance
      ++ s.unknown fieldNames)
    (do return ⟨← level.toOption, ← filePath.toOption, ← json.toOption, ← performance.toOption⟩)

end LoggingConfig

namespace Settings

/-- Why settings cannot be read. -/
inductive ReadError where
  | fields (errors : List FieldError)
  /-- A section in the environment is no JSON. -/
  | notJson (name : String)
  /-- A name is no text. -/
  | nameNotText
deriving Repr, DecidableEq

/-- Spells a name in a section as the field it means. -/
def fieldName (names : List String) (name : String) : String :=
  (names.find? fun n => n == Environment.foldCase name).getD name

/-- A section as it stands in the environment, in JSON. -/
def environmentSection (env : Environment) (name : String) (fields : List String) :
    Except ReadError (Option Setting) :=
  match env.get? name with
  | none => .ok none
  | some text =>
    match Json.read? text.toList with
    | none => .error (.notJson name)
    | some .null => .ok none
    | some (.object members) =>
      .ok (some (.ofValue (.object (Value.ofPairs (members.map fun m => (fieldName fields m.1, m.2))))))
    | some v => .ok (some (.ofValue v))

/-- A given section on top of the one in the environment, member by member if both are mappings. -/
def combine : Option Setting → Option Setting → Option Setting
  | some (.mapping base), some (.mapping top) =>
    match Givens.ofMembers? base, Givens.ofMembers? top with
    | some b, some t => some (.mapping ((b.merge t).map fun m => (some m.1, m.2)))
    | _, _ => some (.mapping top)
  | base, none => base
  | _, some top => some top

/-- Reads a section. Where it is missing altogether, its errors end the reading of all settings; else
they are collected under its name. -/
def readSection {α : Type} (name typeName : String) (section? : Option Setting)
    (read : Givens → Except (List FieldError) α) :
    Except ReadError (Except (List FieldError) α) :=
  match section? with
  | none => (read []).mapError .fields |>.map .ok
  | some (.mapping members) =>
    match Givens.ofMembers? members with
    | none => .error .nameNotText
    | some givens => .ok ((read givens).mapError fun es =>
        es.map fun e => { e with location := name :: e.location })
  | some _ => .ok (.error [⟨[name], .notSection typeName⟩])

def fieldNames : List String := ["logging", "index", "debug", "data_dir"]

/-- The variables of a file that no setting reads, nor the sections by parts of their names. They
count as given. -/
def strays (file : Environment) : Givens :=
  (file.foldl (fun g v => Givens.set (Environment.foldCase v.1) (.text v.2) g) []).filter fun g =>
    g.2.isTruthy && !fieldNames.contains g.1 &&
      !(["logging", "index"].any fun name => name.toList.isPrefixOf g.1.toList)

/-- Reads all settings: the log, the index, then the rest. The variables of a file count after those
of the environment. -/
def readOver (file env : Environment) (givens : Givens) : Except ReadError Settings := do
  let loggingTop ← environmentSection env "logging" LoggingConfig.fieldNames
  let indexTop ← environmentSection env "index" IndexConfig.fieldNames
  let loggingBase ← environmentSection file "logging" LoggingConfig.fieldNames
  let indexBase ← environmentSection file "index" IndexConfig.fieldNames
  let logging ← readSection "logging" "LoggingConfig"
    (combine (combine loggingBase loggingTop) (givens.get? "logging")) (LoggingConfig.read env)
  let index ← readSection "index" "IndexConfig"
    (combine (combine indexBase indexTop) (givens.get? "index")) (IndexConfig.read env)
  let s : Source := ⟨(strays file).merge givens, file ++ env, ""⟩
  let debug := s.field "debug" false readBool
  let data := s.field "data_dir" "data" readText
  (settle (errorsOf logging ++ errorsOf index ++ errorsOf debug ++ errorsOf data
      ++ s.unknown fieldNames)
    (do return ⟨← logging.toOption, ← index.toOption, ← debug.toOption, ← data.toOption⟩)).mapError
      .fields

/-- Reads all settings where there is no file of variables. -/
def read (env : Environment) (givens : Givens) : Except ReadError Settings := readOver [] env givens

def indexPath (s : Settings) : File.Path := s.index.path s.dataDirectory

/-- The path of the log file; an empty one stands for none. -/
def logPath (s : Settings) : Option File.Path :=
  match s.logging.filePath with
  | some p => if p.isEmpty then none else some (.ofText p.toList)
  | none => none

end Settings

end GoToSymbol
