import GoToSymbol.Config.Environment
import GoToSymbol.Text.Blank

namespace GoToSymbol.Config.Environment

open Text

/-- A name that a file sets, to a value or to none. -/
abbrev Binding : Type := String × Option (List Char)

/-- A blank within a line. -/
def isGap (c : Char) : Bool := isBlank c && c != '\n'

def skipGap (s : List Char) : List Char := s.dropWhile isGap

def skipLine (s : List Char) : List Char := (s.dropWhile (· != '\n')).drop 1

/-- The rest of a text after the word `export` and blanks, if it begins with them. -/
def skipExport (s : List Char) : List Char :=
  let word := "export".toList
  let rest := s.drop word.length
  if word.isPrefixOf s && (rest.head?.map isGap).getD false then skipGap rest else s

/-- What stands in front of a closing quote, and the rest. A quote after a backslash closes only
where no other does. -/
def untilQuote (quote : Char) : List Char → Option (List Char × List Char)
  | [] => none
  | '\\' :: c :: rest =>
    if c = quote then
      match untilQuote quote rest with
      | some (value, after) => some ('\\' :: c :: value, after)
      | none => some (['\\'], rest)
    else (untilQuote quote (c :: rest)).map fun p => ('\\' :: p.1, p.2)
  | c :: rest =>
    if c = quote then some ([], rest) else (untilQuote quote rest).map fun p => (c :: p.1, p.2)

def singleEscapes : List (Char × Char) := [('\\', '\\'), ('\'', '\'')]

def doubleEscapes : List (Char × Char) := [
  ('\\', '\\'), ('\'', '\''), ('\x22', '\x22'), ('a', '\x07'), ('b', '\x08'), ('f', '\x0c'),
  ('n', '\n'), ('r', '\r'), ('t', '\t'), ('v', '\x0b')]

/-- A text with its escapes replaced; other backslashes stay. -/
def unescape (escapes : List (Char × Char)) : List Char → List Char
  | '\\' :: c :: rest =>
    match escapes.lookup c with
    | some d => d :: unescape escapes rest
    | none => '\\' :: unescape escapes (c :: rest)
  | c :: rest => c :: unescape escapes rest
  | [] => []

/-- A line up to a number sign after a blank. -/
def cutComment (blank : Bool) : List Char → List Char
  | [] => []
  | c :: rest => if blank && c == '#' then [] else c :: cutComment (isBlank c) rest

/-- Reads the name that a line begins with; a comment has none. An error tells where it is met. -/
def readName (s : List Char) : Except (List Char) (Option (List Char) × List Char) :=
  match s with
  | '#' :: _ => .ok (none, s)
  | '\'' :: rest =>
    match rest.takeWhile (· != '\''), rest.dropWhile (· != '\'') with
    | c :: name, _ :: after => .ok (some (c :: name), after)
    | _, _ => .error s
  | _ =>
    let name := s.takeWhile fun c => !(isBlank c || c == '=' || c == '#')
    if name.isEmpty then .error s else .ok (some name, s.drop name.length)

def readValue (s : List Char) : Except (List Char) (List Char × List Char) :=
  let quoted (quote : Char) (escapes : List (Char × Char)) (rest : List Char) :=
    match untilQuote quote rest with
    | some (value, after) => .ok (unescape escapes value, after)
    | none => .error s
  match s with
  | '\'' :: rest => quoted '\'' singleEscapes rest
  | '\x22' :: rest => quoted '\x22' doubleEscapes rest
  | _ =>
    let line := s.takeWhile (· != '\n')
    .ok (((cutComment false line).reverse.dropWhile isBlank).reverse, s.drop line.length)

/-- Reads what one line sets, with the line end. -/
def readBinding (s : List Char) : Except (List Char) (Option Binding × List Char) := do
  let (name, s) ← readName (skipExport s)
  let (value, s) ← match skipGap s with
    | '=' :: rest => (readValue (skipGap rest)).map fun p => (some p.1, p.2)
    | s => .ok (none, s)
  let binding := name.map fun name => (String.ofList name, value)
  match skipGap s with
  | [] => .ok (binding, [])
  | '\n' :: rest => .ok (binding, rest)
  | '#' :: rest => .ok (binding, skipLine rest)
  | _ => .error s

/-- What the lines of a text set; those that cannot be read are passed over. -/
def bindings : Nat → List Char → List Binding
  | 0, _ => []
  | fuel + 1, s =>
    match s.dropWhile isBlank with
    | [] => []
    | rest =>
      match readBinding rest with
      | .ok (binding, after) => binding.toList ++ bindings fuel after
      | .error place => bindings fuel (skipLine place)

/-- The name of a reference, the value it has otherwise, and the rest of the text. -/
def reference? (s : List Char) : Option (List Char × List Char × List Char) :=
  let name := s.takeWhile fun c => c != '\x7d' && c != ':'
  match s.drop name.length with
  | '\x7d' :: rest => some (name, [], rest)
  | ':' :: '-' :: rest =>
    match rest.dropWhile (· != '\x7d') with
    | _ :: after => some (name, rest.takeWhile (· != '\x7d'), after)
    | [] => none
  | _ => none

/-- The names that a text may refer to. -/
def referredNames : List Char → List String
  | '$' :: '\x7b' :: rest =>
    String.ofList (rest.takeWhile fun c => c != '\x7d' && c != ':') :: referredNames rest
  | _ :: rest => referredNames rest
  | [] => []

/-- Puts values in the place of references. -/
def expand (valueOf : List Char → Option (List Char)) : Nat → List Char → List Char
  | 0, s => s
  | _, [] => []
  | fuel + 1, '$' :: '\x7b' :: rest =>
    match reference? rest with
    | some (name, default, after) => (valueOf name).getD default ++ expand valueOf fuel after
    | none => '$' :: '\x7b' :: expand valueOf fuel rest
  | fuel + 1, c :: rest => c :: expand valueOf fuel rest

/-- The value of a name among those set before, or in the environment. A name that was set to no
value has the empty one. -/
def referred (env : Environment) (before : List Binding) (name : List Char) :
    Option (List Char) :=
  match before.reverse.lookup (String.ofList name) with
  | some value => some (value.getD [])
  | none => (env.lookup (String.ofList name)).map String.toList

/-- The variables that a text sets. A name without a value takes back what it was set to. -/
def ofText (env : Environment) (s : List Char) : Environment :=
  let expanded := (bindings (s.length + 1) s).foldl (fun (before : List Binding) b =>
    before ++ [(b.1, b.2.map fun v => expand (referred env before) v.length v)]) []
  expanded.foldl (fun known b => match b.2 with
    | some v => known ++ [(b.1, String.ofList v)]
    | none => known.filter fun v => foldCase v.1 != foldCase b.1) []

example : ofText [("HOME", "/h")]
    "export A='x#'\n# none\nB = $\x7bHOME\x7d/y # z\nC=$\x7bD:-a\x7d$\x7bB\x7d".toList =
      [("A", "x#"), ("B", "/h/y"), ("C", "a/h/y")] := by decide +kernel

end GoToSymbol.Config.Environment
