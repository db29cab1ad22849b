namespace GoToSymbol.CommandLine

/-- An option: its long name, its letter, and whether a value follows it. -/
structure OptionSpec where
  name : String
  letter : Option Char
  takesValue : Bool

/-- Arguments told apart: the options in order, with their values, and the other arguments. -/
structure Parsed where
  options : List (String × Option String)
  others : List String
deriving Repr, DecidableEq

namespace Parsed

def empty : Parsed := ⟨[], []⟩

def addOptions (found : List (String × Option String)) (p : Parsed) : Parsed :=
  { p with options := found ++ p.options }

def addOther (arg : String) (p : Parsed) : Parsed := { p with others := arg :: p.others }

def has (p : Parsed) (name : String) : Bool := p.options.any (·.1 == name)

/-- The value of an option; of several the last one counts. -/
def value? (p : Parsed) (name : String) : Option String :=
  ((p.options.filter (·.1 == name)).getLast?).bind (·.2)

/-- The first of some options that is given. -/
def first? (p : Parsed) (names : List String) : Option String :=
  (p.options.find? fun o => names.contains o.1).map (·.1)

end Parsed

/-- The options in one argument, and the name of the one that waits for the next argument. -/
structure Scanned where
  found : List (String × Option String)
  waiting : Option String

/-- A long option, with or without a value of its own. -/
def scanLong (specs : List OptionSpec) (body : List Char) : Option Scanned := do
  let name := String.ofList (body.takeWhile (· != '='))
  let spec ← specs.find? (·.name == name)
  match body.dropWhile (· != '='), spec.takesValue with
  | _ :: value, true => some ⟨[(name, some (String.ofList value))], none⟩
  | _ :: _, false => none
  | [], true => some ⟨[], some name⟩
  | [], false => some ⟨[(name, none)], none⟩

/-- A cluster of letters; what follows one that takes a value is that value. -/
def scanLetters (specs : List OptionSpec) : List Char → Option Scanned
  | [] => some ⟨[], none⟩
  | c :: rest => do
    let spec ← specs.find? (·.letter == some c)
    if spec.takesValue then
      if rest.isEmpty then some ⟨[], some spec.name⟩
      else some ⟨[(spec.name, some (String.ofList rest))], none⟩
    else do
      let s ← scanLetters specs rest
      some { s with found := (spec.name, none) :: s.found }

def scan (specs : List OptionSpec) : List Char → Option Scanned
  | '-' :: '-' :: body => scanLong specs body
  | _ :: letters => scanLetters specs letters
  | [] => none

/-- Whether an argument names options: a hyphen with something after it. -/
def isOption : List Char → Bool
  | '-' :: _ :: _ => true
  | _ => false

/-- Tells options and other arguments apart, where `waiting` is the option that the next argument is
the value of. Two hyphens end the options, and so does the first other argument unless they may be
`mixed`. -/
def parseFrom (specs : List OptionSpec) (mixed : Bool) : Option String → List String → Option Parsed
  | none, [] => some .empty
  | some _, [] => none
  | some name, arg :: rest =>
    (parseFrom specs mixed none rest).map (·.addOptions [(name, some arg)])
  | none, arg :: rest =>
    if arg = "--" then some ⟨[], rest⟩
    else if isOption arg.toList then
      match scan specs arg.toList with
      | none => none
      | some s => (parseFrom specs mixed s.waiting rest).map (·.addOptions s.found)
    else if mixed then (parseFrom specs mixed none rest).map (·.addOther arg)
    else some ⟨[], arg :: rest⟩

def parse (specs : List OptionSpec) (mixed : Bool) (args : List String) : Option Parsed :=
  parseFrom specs mixed none args

example : (scan [⟨"all", some 'a', false⟩, ⟨"dir", some 'd', true⟩] "-adx".toList).map Scanned.found
    = some [("all", none), ("dir", some "x")] := by decide
example : parse [] true ["-", "x"] = some ⟨[], ["-", "x"]⟩ := by decide

end GoToSymbol.CommandLine
