namespace GoToSymbol.Markup

/-- A character and where it stands: its line, its column and its place in the text. -/
structure Glyph where
  char : Char
  line : Nat
  column : Nat
  index : Nat
deriving Repr, DecidableEq

/-- The characters that end a line once carriage returns are gone. -/
def isBreak (c : Char) : Bool := c == '\n' || c == '\u0085' || c == '\u2028' || c == '\u2029'

def isGap (c : Char) : Bool := c == ' ' || c == '\t'

/-- What a line end is read as. -/
def breakChar (c : Char) : Char := if c == '\u0085' then '\n' else c

namespace Glyph

/-- Numbers the characters of a text; a byte order mark takes no column. -/
def place (line column index : Nat) : List Char → List Glyph
  | [] => []
  | c :: rest =>
    ⟨c, line, column, index⟩ ::
      (if isBreak c then place (line + 1) 0 (index + 1) rest
       else place line (if c = '\uFEFF' then column else column + 1) (index + 1) rest)

def ofText (s : List Char) : List Glyph := place 0 0 0 s

end Glyph

/-- Whether nothing, a blank or a line end follows. -/
def endsWord : List Glyph → Bool
  | [] => true
  | g :: _ => isGap g.char || isBreak g.char

/-- Whether a line of three dashes or three dots follows, alone or before a blank. -/
def marksDocument : List Glyph → Bool
  | a :: b :: c :: rest =>
    a.char == b.char && b.char == c.char && (a.char == '-' || a.char == '.') && endsWord rest
  | _ => false

/-- Characters that may stand in a text at all. -/
def isAllowed (c : Char) : Bool :=
  let n := c.toNat
  c == '\t' || c == '\n' || c == '\r' || (0x20 ≤ n && n ≤ 0x7E) || n == 0x85
    || (0xA0 ≤ n && n ≤ 0xD7FF) || (0xE000 ≤ n && n ≤ 0xFFFD) || 0x10000 ≤ n

end GoToSymbol.Markup
