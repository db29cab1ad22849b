import GoToSymbol.CommandLine.Arguments
import GoToSymbol.Decimal.Reading
import GoToSymbol.Text.Blank
import GoToSymbol.Text.Digit

namespace GoToSymbol.CommandLine

/-- A whole number in digits of any script, with an optional sign, blanks around it and underscores
between digits. -/
def integer? (s : String) : Option Int :=
  let (negative, rest) := Decimal.splitSign ((Text.strip s.toList).map Text.plainDigit)
  match Decimal.withoutSpacing rest with
  | some (d :: ds) =>
    if (d :: ds).all Decimal.isDigit then
      let n := Decimal.natOfText (d :: ds)
      some (if negative then -(n : Int) else n)
    else none
  | _ => none

/-- How results are shown. -/
inductive Format where
  | text
  | json
deriving Repr, DecidableEq

def Format.ofName? : String → Option Format
  | "text" => some text
  | "json" => some json
  | _ => none

/-- What the program is asked to do. -/
inductive Command where
  | index (file : String) (prioritized : Bool)
  | remove (files : List String)
  | classes (query : String) (max : Option Int) (format : Format)
  | search (terms : List String) (max : Option Int) (format : Format)
  | stats
  | help
deriving Repr, DecidableEq

def helpOption : OptionSpec := ⟨"help", none, false⟩

def searchOptions : List OptionSpec :=
  [⟨"max", none, true⟩, ⟨"format", none, true⟩, helpOption]

/-- Reads the number and the form of the results. -/
def searchValues (p : Parsed) : Option (Option Int × Format) := do
  let max ← match p.value? "max" with
    | some s => (integer? s).map some
    | none => some none
  let format ← match p.value? "format" with
    | some s => Format.ofName? s
    | none => some .text
  some (max, format)

/-- The kinds of commands. -/
inductive Verb where
  | index
  | remove
  | classes
  | search
  | stats
deriving Repr, DecidableEq

def Verb.ofName? : String → Option Verb
  | "index" => some index
  | "remove" => some remove
  | "classes" => some classes
  | "search" => some search
  | "stats" => some stats
  | _ => none

def Verb.options : Verb → List OptionSpec
  | index => [⟨"boost", none, false⟩, helpOption]
  | classes | search => searchOptions
  | remove | stats => [helpOption]

/-- The command that a verb and its arguments make up. -/
def Verb.command? (v : Verb) (args : List String) : Option Command := do
  let p ← parse v.options true args
  if p.has "help" then some .help
  else match v, p.others with
    | index, [file] => some (.index file (p.has "boost"))
    | remove, f :: fs => some (.remove (f :: fs))
    | classes, [query] => (searchValues p).map fun o => .classes query o.1 o.2
    | search, t :: ts => (searchValues p).map fun o => .search (t :: ts) o.1 o.2
    | stats, [] => some .stats
    | _, _ => none

/-- The options that stand before the verb. -/
def mainOptions : List OptionSpec :=
  [⟨"version", none, false⟩, ⟨"verbose", some 'v', false⟩, ⟨"quiet", some 'q', false⟩,
    ⟨"config", some 'c', true⟩, ⟨"index-dir", some 'd', true⟩, helpOption]

example : integer? " -1_0 " = some (-10) := by decide

end GoToSymbol.CommandLine
