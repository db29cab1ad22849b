import GoToSymbol.Text.CaseTable

namespace GoToSymbol.Text

def isUpper (c : Char) : Bool := inRuns uppercaseRuns c.toNat

def isCased (c : Char) : Bool := inRuns casedRuns c.toNat

def isCaseIgnorable (c : Char) : Bool := inRuns caseIgnorableRuns c.toNat

/-- The ASCII capitals. -/
def isAsciiCapital (c : Char) : Bool := 'A' ≤ c && c ≤ 'Z'

def lowercaseShift : List CaseRun → Nat → Option Int
  | [], _ => none
  | r :: rs, n =>
    if n < r.run.first then none
    else if r.run.has n then some r.shift else lowercaseShift rs n

/-- Full lowercase of one character outside its context; only `İ` becomes two characters. -/
def lowerChar (c : Char) : List Char :=
  if c = '\u0130' then ['i', '\u0307']
  else match lowercaseShift lowercaseRuns c.toNat with
    | some d => [Char.ofNat (c.toNat + d).toNat]
    | none => [c]

/-- Whether the first character that is not case-ignorable is cased. -/
def meetsCased (s : List Char) : Bool :=
  match s.dropWhile isCaseIgnorable with
  | c :: _ => isCased c
  | [] => false

/-- A sigma is final when a cased character stands before it and none after it. -/
def sigmaAt (before after : List Char) : Char :=
  if meetsCased before && !meetsCased after then 'ς' else 'σ'

/-- Lowercases the rest of a text; `before` is what precedes it, nearest character first. -/
def lowerAfter (before : List Char) : List Char → List Char
  | [] => []
  | c :: rest =>
    (if c = 'Σ' then [sigmaAt before rest] else lowerChar c) ++ lowerAfter (c :: before) rest

/-- Full lowercase of a text. -/
def lower (s : List Char) : List Char := lowerAfter [] s

example : lower ['Α', 'Σ'] = ['α', 'ς'] := by decide
example : lower ['Σ', 'Α'] = ['σ', 'α'] := by decide

end GoToSymbol.Text
