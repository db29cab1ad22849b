import GoToSymbol.Config.Reading
import GoToSymbol.Config.Settings
import GoToSymbol.Config.Variables
import GoToSymbol.File.Content
import GoToSymbol.Index.Failure

namespace GoToSymbol.Settings

/-- The system's words for a path that cannot be opened as a file. -/
def openFailure? (path : String) : File.Content → Option String
  | .missing => some ("[Errno 2] No such file or directory: " ++ Text.quoted path)
  | .directory => some ("[Errno 21] Is a directory: " ++ Text.quoted path)
  | .text _ | .undecodable => none

/-- Why a file holds no settings. -/
inductive FileError where
  /-- The file cannot be opened, for the reason given, or its text cannot be parsed. -/
  | unreadable (path : String) (reason : Option String)
  | undecodable
  | notAMapping (path : String)
  | invalid (path : String) (errors : List Config.FieldError)
  /-- What is given or read besides the file is at fault. -/
  | read (e : ReadError)

namespace FileError

/-- The message of an error that names the file. -/
def message? : FileError → Option String
  | unreadable path _ => some ("Cannot read configuration file " ++ path)
  | notAMapping path => some ("Configuration file " ++ path ++ " must contain a mapping")
  | invalid path _ => some ("Invalid configuration in " ++ path)
  | undecodable | read _ => none

def details : FileError → List (String × Value)
  | unreadable _ (some reason) => [("error", .text reason)]
  | invalid _ errors => [("errors", .list (errors.map fun e => .text e.violation.message))]
  | _ => []

/-- The error of a file in which values are refused. -/
def inFile (path : String) : FileError → FileError
  | read (.fields errors) => invalid path errors
  | e => e

/-- The message with its details. -/
def text? (e : FileError) : Option String :=
  e.message?.map fun m => IndexError.withDetails m e.details

end FileError

/-- Line ends of all kinds as line feeds. -/
def unifyBreaks : List Char → List Char
  | '\r' :: '\n' :: rest => '\n' :: unifyBreaks rest
  | '\r' :: rest => '\n' :: unifyBreaks rest
  | c :: rest => c :: unifyBreaks rest
  | [] => []

/-- Why a reader of markup gives no setting. -/
inductive MarkupError where
  /-- The file is no markup or cannot be read to its end, for the reason given. -/
  | refused (reason : Option String)
  | undecodable
deriving Repr, DecidableEq

/-- Readers of files: of the markup in a file that could be opened, and of a file of variables, in
which other variables may stand. Bytes that are no text set no variables. -/
structure Readers where
  markup : File.Content → Except MarkupError Setting
  dotenv : Config.Environment → File.Content → Option Config.Environment

/-- The readers of the markup and the variables described in this library. -/
def readers : Readers where
  markup
    | .text s => match Setting.ofText? (unifyBreaks s.toList) with
      | some setting => .ok setting
      | none => .error (.refused none)
    | _ => .error .undecodable
  dotenv env
    | .text s => some (Config.Environment.ofText env (unifyBreaks s.toList))
    | _ => none

namespace Readers

variable (r : Readers)

/-- The variables in a file; one that is not there sets none. -/
def variablesIn (env : Config.Environment) (content : File.Content) : Option Config.Environment :=
  if content.isFile then r.dotenv env content else some []

/-- Reads settings whose names may be no texts, where a file of variables may lie. -/
def ofMembers (env : Config.Environment) (dotenv : File.Content)
    (members : List (Option String × Setting)) : Except FileError Settings :=
  match Givens.ofMembers? members, r.variablesIn env dotenv with
  | none, _ => .error (.read .nameNotText)
  | some _, none => .error .undecodable
  | some givens, some file => (readOver file env givens).mapError .read

/-- Reads the settings in a file. Markup that stands for nothing counts as an empty mapping. -/
def ofFile (env : Config.Environment) (dotenv : File.Content) (path : String)
    (content : File.Content) : Except FileError Settings :=
  match openFailure? path content with
  | some reason => .error (.unreadable path (some reason))
  | none =>
    match r.markup content with
    | .error (.refused reason) => .error (.unreadable path reason)
    | .error .undecodable => .error .undecodable
    | .ok setting =>
      match setting.topMembers? with
      | some members => (r.ofMembers env dotenv members).mapError (.inFile path)
      | none => .error (.notAMapping path)

end Readers

/-- Reads the settings in a file by themselves. -/
def ofFile (env : Config.Environment) (path : String) (content : File.Content) :
    Except FileError Settings := readers.ofFile env .missing path content

end GoToSymbol.Settings
