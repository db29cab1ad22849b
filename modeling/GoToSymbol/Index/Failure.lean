import GoToSymbol.Relevance
import GoToSymbol.Symbol.Record

namespace GoToSymbol

/-- Errors of the index itself: a message with details, a stored tag that names no variant, or an
operation the storage could not carry out. -/
inductive IndexError where
  | general (message : String) (details : List (String × Value))
  | corruption (tag fqn : Value)
  | operation (name cause : String)

namespace IndexError

def message : IndexError → String
  | general message _ => message
  | corruption tag _ => "Unrecognized document type tag: " ++ tag.literal
  | operation name cause => "Index " ++ name ++ " failed: " ++ cause

def details : IndexError → List (String × Value)
  | general _ details => details
  | corruption tag fqn => [("tag", tag), ("fqn", fqn)]
  | operation name _ => [("operation", .text name)]

/-- A message followed by its details, if there are any. -/
def withDetails (message : String) (details : List (String × Value)) : String :=
  if details.isEmpty then message
  else message ++ " (Details: " ++ (Value.object details).literal ++ ")"

def text (e : IndexError) : String := withDetails e.message e.details

end IndexError

/-- Why an operation fails. -/
inductive Failure where
  /-- A file that the operation needs is gone. -/
  | missing
  | index (e : IndexError)
  /-- Another writer holds the directory. -/
  | locked
  /-- The table of contents cannot be read. -/
  | unreadable
  /-- The directory holds no index. -/
  | noIndex (directory : String)
  /-- The workers were stopped. -/
  | stopped
  | unknownField (name : String)
  | notText (v : Value)
  /-- A component of the path is a file. -/
  | notADirectory (path : String)
  | fileExists (path : String)
  /-- A value was passed where a symbol is expected. -/
  | unsupported (v : Value)
  | badRecord (e : Symbol.DecodeError)
  | nonPositiveBoost (field : String) (boost : Float)
  | missingFile (type : String) (fqn : Value)
  | step (e : Relevance.StepError)
  /-- A failure known by its text alone. -/
  | other (text : String)

namespace Failure

/-- The text of a failure, as far as it is stable. -/
def text : Failure → String
  | missing => "No such file or directory"
  | index e => e.text
  | locked => ""
  | unreadable => "Failed to open/create search index"
  | noIndex directory =>
    "Index 'MAIN' does not exist in FileStorage(" ++ Text.quoted directory ++ ")"
  | stopped => "cannot schedule new futures after shutdown"
  | unknownField name => "No field named " ++ Text.quoted name
  | notText v => v.literal ++ " is not unicode or sequence"
  | notADirectory path => "[Errno 20] Not a directory: " ++ Text.quoted path
  | fileExists path => "[Errno 17] File exists: " ++ Text.quoted path
  | unsupported v => "Unsupported symbol record: " ++ v.literal
  | badRecord e => e.message
  | nonPositiveBoost field boost =>
    "Boost for " ++ Text.quoted field ++ " must be positive, got " ++ Decimal.floatText boost
  | missingFile type fqn =>
    type ++ "(" ++ fqn.literal ++ ") needs a file reference to be indexed"
  | step e => e.message
  | other text => text

end Failure

end GoToSymbol
