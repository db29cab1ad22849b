import GoToSymbol.Value.Basic
import GoToSymbol.Text.Quoted

namespace GoToSymbol.Value

open Text Decimal

def commaJoin : List String → String
  | [] => ""
  | [s] => s
  | s :: t :: rest => s ++ ", " ++ commaJoin (t :: rest)

mutual
/-- The literal of a value, as it stands in messages: texts are quoted. -/
def literal : Value → String
  | null => "None"
  | bool b => if b then "True" else "False"
  | int n => toString n
  | float x => floatText x
  | text s => quoted s
  | list items => "[" ++ commaJoin (literals items) ++ "]"
  | object members => "\x7b" ++ commaJoin (memberLiterals members) ++ "\x7d"

def literals : List Value → List String
  | [] => []
  | v :: vs => literal v :: literals vs

def memberLiterals : List (String × Value) → List String
  | [] => []
  | m :: ms => memberLiteral m :: memberLiterals ms

def memberLiteral : String × Value → String
  | (k, v) => quoted k ++ ": " ++ literal v
end

/-- A text stands for itself; any other value is written as its literal. -/
def plain : Value → String
  | text s => s
  | v => v.literal

example : (list [null, bool true, text "a"]).literal = "[None, True, 'a']" := by decide

end GoToSymbol.Value
