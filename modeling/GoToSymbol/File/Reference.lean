import GoToSymbol.File.Path
import GoToSymbol.Text.Percent
import GoToSymbol.Value.Basic

namespace GoToSymbol.File

open Text

/-- A source file as it was analyzed: its path, and the modification time that was seen. -/
structure Check where
  path : String
  timestamp : Value

/-- The ways a file is named: a text that may be a URI, a path, or an analyzed file. -/
inductive Reference where
  | text (s : String)
  | path (p : Path)
  | check (c : Check)

def isAsciiLetter (c : Char) : Bool := ('a' ≤ c && c ≤ 'z') || ('A' ≤ c && c ≤ 'Z')

def isSchemeChar (c : Char) : Bool :=
  isAsciiLetter c || ('0' ≤ c && c ≤ '9') || c == '+' || c == '.' || c == '-'

/-- Whether a text begins with a letter, further scheme characters and a colon. -/
def hasScheme : List Char → Bool
  | c :: rest => isAsciiLetter c && (match rest.dropWhile isSchemeChar with
      | ':' :: _ => true
      | _ => false)
  | [] => false

def pathUri (cwd : Path) (p : Path) : List Char :=
  "file://".toList ++ percentEncode (cwd.join p).text

/-- A text of more than two characters with a scheme is kept; any other names a path. -/
def textUri (cwd : Path) (s : String) : String :=
  if 2 < s.toList.length ∧ hasScheme s.toList = true then s
  else String.ofList (pathUri cwd (.ofText s.toList))

/-- The URI under which the entries of a file are kept. -/
def uri (cwd : Path) : Reference → String
  | .text s => textUri cwd s
  | .path p => String.ofList (pathUri cwd p)
  | .check c => textUri cwd c.path

end GoToSymbol.File
