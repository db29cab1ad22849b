import GoToSymbol.Markup.Glyph
import GoToSymbol.Decimal.Reading
import GoToSymbol.Text.Percent

namespace GoToSymbol.Markup

open Text Decimal

/-- Whether a plain scalar ends before `c`, with `rest` after it; inside brackets it also ends
before punctuation. -/
def endsPlain (flow : Bool) (c : Char) (rest : List Glyph) : Bool :=
  isGap c || isBreak c || (flow && [',', '?', '[', ']', '\x7b', '\x7d'].contains c)
    || (c == ':' && (endsWord rest || (flow && match rest with
        | g :: _ => [',', '[', ']', '\x7b', '\x7d'].contains g.char
        | [] => false)))

def plainWord (flow : Bool) : List Glyph → List Char × List Glyph
  | [] => ([], [])
  | g :: rest =>
    if endsPlain flow g.char rest then ([], g :: rest)
    else
      let (word, left) := plainWord flow rest
      (g.char :: word, left)

/-- The blank lines after a line end, each kept as a line end; nothing if a document ends there. -/
def blankLines : List Glyph → Option (List Char) × List Glyph
  | [] => (some [], [])
  | g :: rest =>
    if g.char = ' ' then blankLines rest
    else if isBreak g.char then
      if marksDocument rest then (none, rest)
      else
        let (breaks, left) := blankLines rest
        (breaks.map (breakChar g.char :: ·), left)
    else (some [], g :: rest)

/-- A single line end is read as a blank, and one before blank lines is dropped. -/
def fold (first : Char) (breaks : List Char) : List Char :=
  if breakChar first != '\n' then breakChar first :: breaks
  else if breaks.isEmpty then [' '] else breaks

/-- What lies between two words of a plain scalar: its text, unless the scalar ends here, and whether
it holds a line end. -/
structure Between where
  text : Option (List Char)
  broken : Bool
  rest : List Glyph

def between (s : List Glyph) : Between :=
  let spaces := s.takeWhile (·.char == ' ')
  match s.dropWhile (·.char == ' ') with
  | g :: rest =>
    if isBreak g.char then
      if marksDocument rest then ⟨none, true, rest⟩
      else
        let (breaks, left) := blankLines rest
        ⟨breaks.map (fold g.char), true, left⟩
    else ⟨if spaces.isEmpty then none else some (spaces.map (·.char)), false, g :: rest⟩
  | [] => ⟨if spaces.isEmpty then none else some (spaces.map (·.char)), false, []⟩

/-- A plain scalar as it was read; `broken` tells whether a line end was passed after its last
word. -/
structure Plain where
  text : List Char
  broken : Bool
  rest : List Glyph

/-- Whether a plain scalar can go on: not with a comment, and outside brackets only to the right of
the indentation. -/
def continues (flow : Bool) (indent : Int) : List Glyph → Bool
  | [] => false
  | g :: _ => g.char != '#' && (flow || indent < g.column)

/-- Reads the words of a plain scalar; `gap` is the text before the next one. -/
def plainAfter (flow : Bool) (indent : Int) : Nat → List Char → List Char → Bool → List Glyph → Plain
  | 0, done, _, broken, s => ⟨done, broken, s⟩
  | fuel + 1, done, gap, broken, s =>
    let (word, rest) := plainWord flow s
    if word.isEmpty then ⟨done, broken, s⟩
    else
      let b := between rest
      match b.text with
      | some text =>
        if continues flow indent b.rest then
          plainAfter flow indent fuel (done ++ gap ++ word) text b.broken b.rest
        else ⟨done ++ gap ++ word, b.broken, b.rest⟩
      | none => ⟨done ++ gap ++ word, b.broken, b.rest⟩

def plain (flow : Bool) (indent : Int) (s : List Glyph) : Plain :=
  plainAfter flow indent s.length [] [] false s

/-- The line ends inside a quoted scalar; blanks at both ends of a line are dropped, and no document
may end there. -/
def quotedBreaks (atStart : Bool) : List Glyph → Option (List Char × List Glyph)
  | [] => some ([], [])
  | g :: rest =>
    if atStart && marksDocument (g :: rest) then none
    else if isGap g.char then quotedBreaks false rest
    else if isBreak g.char then
      (quotedBreaks true rest).map fun p => (breakChar g.char :: p.1, p.2)
    else some ([], g :: rest)

/-- The letters that stand for one character after a backslash. -/
def escapes : List (Char × Char) := [
  ('0', '\x00'), ('a', '\x07'), ('b', '\x08'), ('t', '\t'), ('\t', '\t'), ('n', '\n'),
  ('v', '\x0b'), ('f', '\x0c'), ('r', '\r'), ('e', '\x1b'), (' ', ' '), ('\x22', '\x22'),
  ('\\', '\\'), ('/', '/'), ('N', '\u0085'), ('_', '\u00A0'), ('L', '\u2028'), ('P', '\u2029')]

/-- The letters that announce a code point, with its number of digits. -/
def codeLengths : List (Char × Nat) := [('x', 2), ('u', 4), ('U', 8)]

def codePoint? (digits : List Glyph) (length : Nat) : Option Char := do
  let values ← digits.mapM fun g => hexValue? g.char
  if values.length = length then some (Char.ofNat (natOfDigits 16 values)) else none

/-- Reads an escape after its backslash. -/
def escape : List Glyph → Option (List Char × List Glyph)
  | [] => none
  | g :: rest =>
    match escapes.lookup g.char, codeLengths.lookup g.char with
    | some c, _ => some ([c], rest)
    | none, some n => (codePoint? (rest.take n) n).map fun c => ([c], rest.drop n)
    | none, none => if isBreak g.char then quotedBreaks true rest else none

/-- Reads a quoted scalar after its opening quote. -/
def quotedAfter (double : Bool) : Nat → List Char → List Glyph → Option (List Char × List Glyph)
  | 0, _, _ => none
  | fuel + 1, done, s =>
    match s with
    | [] => none
    | g :: rest =>
      if isGap g.char || isBreak g.char then
        let gap := s.takeWhile fun h => isGap h.char
        match s.dropWhile fun h => isGap h.char with
        | [] => none
        | h :: left =>
          if isBreak h.char then do
            let (breaks, left) ← quotedBreaks true left
            quotedAfter double fuel (done ++ fold h.char breaks) left
          else quotedAfter double fuel (done ++ gap.map (·.char)) (h :: left)
      else if double then
        if g.char = '\x22' then some (done, rest)
        else if g.char = '\\' then do
          let (cs, left) ← escape rest
          quotedAfter double fuel (done ++ cs) left
        else quotedAfter double fuel (done ++ [g.char]) rest
      else if g.char = '\x27' then
        match rest with
        | h :: left =>
          if h.char = '\x27' then quotedAfter double fuel (done ++ ['\x27']) left
          else some (done, rest)
        | [] => some (done, [])
      else quotedAfter double fuel (done ++ [g.char]) rest

def quotedScalar (double : Bool) (s : List Glyph) : Option (List Char × List Glyph) :=
  quotedAfter double (s.length + 1) [] s

example : (plain false (-1) (Glyph.ofText "a b: c".toList)).text = "a b".toList := by decide +kernel
example : (plain true (-1) (Glyph.ofText "a,b".toList)).text = "a".toList := by decide +kernel

end GoToSymbol.Markup
