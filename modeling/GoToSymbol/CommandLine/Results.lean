import GoToSymbol.CommandLine.Command
import GoToSymbol.Index.Service
import GoToSymbol.Json.Writer

namespace GoToSymbol.CommandLine

def padTo (width : Nat) (s : String) : String :=
  s ++ String.ofList (List.replicate (width - s.length) ' ')

/-- An entry on a line: its tag in twelve columns, and its name. -/
def entryLine (e : Entry) : String := padTo 12 e.variant.tag ++ " " ++ e.fqn.plain ++ "\n"

def entryValue (e : Entry) : Value := .object [("type", .text e.variant.tag), ("fqn", e.fqn)]

/-- What a search found, as it is shown. -/
def showEntries (entries : List Entry) : Format → String
  | .json => Json.indented 0 (.list (entries.map entryValue)) ++ "\n"
  | .text => if entries.isEmpty then "No matches\n" else String.join (entries.map entryLine)

def showFigures (figures : List (String × Value)) : String :=
  String.join (figures.map fun f => f.1 ++ ": " ++ f.2.plain ++ "\n")

def indexedText (symbols files : Nat) : String :=
  "Indexed " ++ toString symbols ++ " symbols from " ++ toString files ++ " files\n"

def removedText (entries : Int) : String := "Removed " ++ toString entries ++ " entries\n"

example : entryLine ⟨.classes, .text "a.B", none⟩ = "ClassIndex   a.B\n" := by decide
example : showEntries [] .json = "[]\n" := by decide

end GoToSymbol.CommandLine
