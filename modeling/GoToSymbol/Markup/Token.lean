import GoToSymbol.Markup.Scalar

namespace GoToSymbol.Markup

/-- The pieces of a document. Block collections have no marks of their own: their beginnings and ends
follow from the indentation. -/
inductive Token where
  | documentStart
  | documentEnd
  | blockSequence
  | blockMapping
  | blockEnd
  | flowSequence
  | flowSequenceEnd
  | flowMapping
  | flowMappingEnd
  | entry
  | separator
  | key
  | value
  | scalar (text : List Char) (plain : Bool)
deriving Repr, DecidableEq

/-- What stands at a place where a key may begin: whether one does is known only once its colon is
found. -/
inductive Mark where
  | token (t : Token)
  /-- A key may begin here. -/
  | open
  /-- A key begins here, and a block mapping with it if `first`. -/
  | key (first : Bool)

/-- A key that was begun on a line; `place` is where its mark stands among the marks. -/
structure Candidate where
  place : Nat
  line : Nat
  column : Nat
  index : Nat
  /-- Whether the document makes no sense unless a colon follows. -/
  required : Bool

/-- The state of a scan: the marks so far, the columns of the open block collections, innermost
first, and the candidate keys of the open brackets, innermost first. -/
structure Scan where
  marks : Array Mark
  indents : List Nat
  candidates : List (Option Candidate)
  keyAllowed : Bool

namespace Scan

def start : Scan := ⟨#[], [], [none], true⟩

/-- Whether the scan is inside brackets. -/
def inFlow (s : Scan) : Bool := 1 < s.candidates.length

/-- The column of the innermost block collection, if there is one. -/
def indent (s : Scan) : Int :=
  match s.indents with
  | i :: _ => i
  | [] => -1

def push (t : Token) (s : Scan) : Scan := { s with marks := s.marks.push (.token t) }

def allowKey (allowed : Bool) (s : Scan) : Scan := { s with keyAllowed := allowed }

def candidate (s : Scan) : Option Candidate := s.candidates.head?.join

def setCandidate (c : Option Candidate) (s : Scan) : Scan :=
  { s with candidates := c :: s.candidates.drop 1 }

/-- Gives up the innermost candidate, which must not be required. -/
def dropCandidate (s : Scan) : Option Scan :=
  match s.candidate with
  | some c => if c.required then none else some (s.setCandidate none)
  | none => some s

/-- Notes that a key may begin at `g`. -/
def saveCandidate (g : Glyph) (s : Scan) : Option Scan :=
  if s.keyAllowed then do
    let s ← s.dropCandidate
    let required := !s.inFlow && s.indent == (g.column : Int)
    some { s.setCandidate (some ⟨s.marks.size, g.line, g.column, g.index, required⟩) with
      marks := s.marks.push .open }
  else some s

/-- A key ends on the line it begins on and is not longer than 1024 characters. -/
def isStale (g : Glyph) (c : Candidate) : Bool := c.line != g.line || 1024 < g.index - c.index

/-- Gives up the candidates that can no longer be keys at `g`. -/
def dropStale (g : Glyph) (s : Scan) : Option Scan := do
  let kept ← s.candidates.mapM fun c? =>
    match c? with
    | some c => if isStale g c then (if c.required then none else some none) else some (some c)
    | none => some none
  some { s with candidates := kept }

/-- Ends the block collections to the right of a column. -/
def unwindFrom (column : Int) (marks : Array Mark) : List Nat → Array Mark × List Nat
  | [] => (marks, [])
  | i :: rest =>
    if column < i then unwindFrom column (marks.push (.token .blockEnd)) rest
    else (marks, i :: rest)

def unwind (column : Int) (s : Scan) : Scan :=
  if s.inFlow then s
  else
    let (marks, indents) := unwindFrom column s.marks s.indents
    { s with marks := marks, indents := indents }

/-- Whether a block collection at this column would be a new one. -/
def isDeeper (column : Nat) (s : Scan) : Bool := s.indent < column

def openBlock (column : Nat) (s : Scan) : Scan := { s with indents := column :: s.indents }

/-- A block collection begins where its first entry stands to the right of the one around it. -/
def beginBlock (t : Token) (column : Nat) (s : Scan) : Scan :=
  if s.isDeeper column then (s.push t).openBlock column else s

/-- A line of three dashes or dots. -/
def documentMark (t : Token) (s : Scan) : Option Scan := do
  let s ← (s.unwind (-1)).dropCandidate
  some ((s.allowKey false).push t)

def openFlow (t : Token) (g : Glyph) (s : Scan) : Option Scan := do
  let s ← s.saveCandidate g
  some ({ s with candidates := none :: s.candidates }.allowKey true |>.push t)

def closeFlow (t : Token) (s : Scan) : Option Scan :=
  if s.inFlow then do
    let s ← s.dropCandidate
    some ({ s with candidates := s.candidates.drop 1 }.allowKey false |>.push t)
  else none

def flowSeparator (s : Scan) : Option Scan := do
  let s ← s.dropCandidate
  some ((s.allowKey true).push .separator)

def blockEntry (column : Nat) (s : Scan) : Option Scan :=
  if !s.inFlow && !s.keyAllowed then none
  else do
    let s := if s.inFlow then s else s.beginBlock .blockSequence column
    let s ← s.dropCandidate
    some ((s.allowKey true).push .entry)

def explicitKey (column : Nat) (s : Scan) : Option Scan :=
  if !s.inFlow && !s.keyAllowed then none
  else do
    let s := if s.inFlow then s else s.beginBlock .blockMapping column
    let s ← s.dropCandidate
    some ((s.allowKey (!s.inFlow)).push .key)

/-- A colon: it makes the candidate a key, or else it stands for a key that is empty. -/
def mappingValue (column : Nat) (s : Scan) : Option Scan :=
  match s.candidate with
  | some c =>
    let first := !s.inFlow && s.isDeeper c.column
    let marked := { s.setCandidate none with marks := s.marks.setIfInBounds c.place (.key first) }
    let opened := if first then marked.openBlock c.column else marked
    some ((opened.allowKey false).push .value)
  | none =>
    if !s.inFlow && !s.keyAllowed then none
    else
      let s := if s.inFlow then s else s.beginBlock .blockMapping column
      some ((s.allowKey (!s.inFlow)).push .value)

end Scan

/-- Skips blanks and comments up to the next token, and tells whether a line end was passed. Tabs are
no blanks here. -/
def skipToToken (broken comment : Bool) : List Glyph → Bool × List Glyph
  | [] => (broken, [])
  | g :: rest =>
    if isBreak g.char then skipToToken true false rest
    else if comment || g.char = ' ' then skipToToken broken comment rest
    else if g.char = '#' then skipToToken broken true rest
    else if g.char = '\uFEFF' ∧ g.index = 0 then skipToToken broken comment rest
    else (broken, g :: rest)

/-- Whether a character may begin a plain scalar. -/
def beginsPlain (flow : Bool) (c : Char) (rest : List Glyph) : Bool :=
  if isGap c || isBreak c then false
  else if ['-', '?', ':', ',', '[', ']', '\x7b', '\x7d', '#', '&', '*', '!', '|', '>', '\x27', '\x22',
      '%', '@', '\x60'].contains c then
    !endsWord rest && (c == '-' || (!flow && (c == '?' || c == ':')))
  else true

/-- Scans one token that begins with `g`. -/
def scanToken (s : Scan) (g : Glyph) (rest : List Glyph) : Option (Scan × List Glyph) :=
  let c := g.char
  if g.column = 0 ∧ marksDocument (g :: rest) = true then
    (s.documentMark (if c = '-' then .documentStart else .documentEnd)).map (·, rest.drop 2)
  else if g.column = 0 ∧ c = '%' then none
  else if c = '[' then (s.openFlow .flowSequence g).map (·, rest)
  else if c = '\x7b' then (s.openFlow .flowMapping g).map (·, rest)
  else if c = ']' then (s.closeFlow .flowSequenceEnd).map (·, rest)
  else if c = '\x7d' then (s.closeFlow .flowMappingEnd).map (·, rest)
  else if c = ',' then s.flowSeparator.map (·, rest)
  else if c = '-' ∧ endsWord rest = true then (s.blockEntry g.column).map (·, rest)
  else if c = '?' ∧ (s.inFlow || endsWord rest) = true then (s.explicitKey g.column).map (·, rest)
  else if c = ':' ∧ (s.inFlow || endsWord rest) = true then (s.mappingValue g.column).map (·, rest)
  else if c = '\x27' ∨ c = '\x22' then do
    let s ← s.saveCandidate g
    let (text, rest) ← quotedScalar (c == '\x22') rest
    some ((s.allowKey false).push (.scalar text false), rest)
  else if beginsPlain s.inFlow c rest then do
    let s ← s.saveCandidate g
    let p := plain s.inFlow s.indent (g :: rest)
    some ((s.allowKey p.broken).push (.scalar p.text true), p.rest)
  else none

/-- The marks of a text from some place on. -/
def scanFrom : Nat → Scan → List Glyph → Option (Array Mark)
  | 0, _, _ => none
  | fuel + 1, s, text =>
    let (broken, rest) := skipToToken false false text
    let s := if broken && !s.inFlow then s.allowKey true else s
    match rest with
    | [] => ((s.unwind (-1)).dropCandidate).map (·.marks)
    | g :: rest => do
      let s ← s.dropStale g
      let (s, rest) ← scanToken (s.unwind g.column) g rest
      scanFrom fuel s rest

def Mark.tokens : Mark → List Token
  | .token t => [t]
  | .open => []
  | .key first => if first then [.blockMapping, .key] else [.key]

/-- The tokens of a text, if it has only allowed characters and all of it can be scanned. -/
def Token.ofText? (s : List Char) : Option (List Token) :=
  if s.all isAllowed then
    (scanFrom (s.length + 1) .start (Glyph.ofText s)).map fun marks => marks.toList.flatMap Mark.tokens
  else none

end GoToSymbol.Markup
