import GoToSymbol.Text.Case

namespace GoToSymbol.Query

open Text

/-- A star before every capital of the text. -/
def starCapitals (s : List Char) : List Char :=
  s.flatMap fun c => if isAsciiCapital c then ['*', c] else [c]

/-- The pattern in which every ASCII capital but the first character begins a hump of its own, and
any text may follow each hump. -/
def camelPattern : List Char → List Char
  | [] => ['*']
  | c :: rest => c :: starCapitals rest ++ ['*']

/-- One part of a pattern: any text, any character, a character from or outside a set of ranges, or
the character itself. -/
inductive Part where
  | anyText
  | anyChar
  | oneOf (negated : Bool) (ranges : List (Char × Char))
  | literal (c : Char)
deriving Repr, DecidableEq

def Part.admits : Part → Char → Bool
  | .anyText, _ => false
  | .anyChar, _ => true
  | .oneOf negated ranges, c => ranges.any (fun r => r.1 ≤ c && c ≤ r.2) != negated
  | .literal d, c => c == d

def anySuffix (f : List Char → Bool) : List Char → Bool
  | [] => f []
  | c :: rest => f (c :: rest) || anySuffix f rest

/-- Whether the parts make up the whole of a text. -/
def matchesParts : List Part → List Char → Bool
  | [], s => s.isEmpty
  | .anyText :: ps, s => anySuffix (matchesParts ps) s
  | p :: ps, c :: rest => p.admits c && matchesParts ps rest
  | _ :: _, [] => false

/-- Splits the inside of a bracket at the hyphens that can form a range: one with a character before
it and none less than three places after the last. -/
def rangeChunks : Nat → List Char → List Char → List (List Char)
  | _, done, [] => [done.reverse]
  | skip + 1, done, c :: rest => rangeChunks skip (c :: done) rest
  | 0, done, c :: rest =>
    if c = '-' then done.reverse :: rangeChunks 2 [] rest else rangeChunks 0 (c :: done) rest

/-- A hyphen that ends the bracket stands for itself. -/
def closeLastChunk : List (List Char) → List (List Char)
  | [] => []
  | [c] => [c]
  | [c, []] => [c ++ ['-']]
  | c :: d :: rest => c :: closeLastChunk (d :: rest)

/-- Removes a range whose first character lies above its last. -/
def joinChunk (c : List Char) : List (List Char) → List (List Char)
  | [] => [c]
  | d :: rest =>
    match c.getLast?, d with
    | some a, b :: more => if b < a then (c.dropLast ++ more) :: rest else c :: d :: rest
    | _, _ => c :: d :: rest

def dropEmptyRanges (chunks : List (List Char)) : List (List Char) := chunks.foldr joinChunk []

def single (c : Char) : Char × Char := (c, c)

/-- The ranges of a chunk and the chunks after it: from the last character of each to the first of
the next, and every other character alone. -/
def chunkRanges (c : List Char) : List (List Char) → List (Char × Char)
  | [] => c.map single
  | d :: rest =>
    match c.getLast?, d with
    | some a, b :: more => c.dropLast.map single ++ (a, b) :: chunkRanges more rest
    | _, _ => c.map single ++ chunkRanges d rest

/-- The set that the inside of a bracket stands for; an exclamation mark in front negates it. -/
def Part.ofBracket (inside : List Char) : Part :=
  let negated := inside.head? == some '!'
  let body := if negated then inside.drop 1 else inside
  .oneOf negated (chunkRanges [] (dropEmptyRanges (closeLastChunk (rangeChunks 1 [] body))))

/-- The inside of a bracket, if it is closed; a closing bracket that comes first stands for
itself. -/
def bracket? (s : List Char) : Option (List Char) :=
  let mark := s.take (if s.head? = some '!' then 1 else 0)
  let body := s.drop mark.length
  let first := body.take (if body.head? = some ']' then 1 else 0)
  let rest := body.drop first.length
  if rest.contains ']' then some (mark ++ first ++ rest.takeWhile (· != ']')) else none

/-- The parts of a pattern after `skip` characters; a bracket that is never closed stands for
itself. -/
def partsAfter : Nat → List Char → List Part
  | _, [] => []
  | skip + 1, _ :: rest => partsAfter skip rest
  | 0, c :: rest =>
    if c = '*' then .anyText :: partsAfter 0 rest
    else if c = '?' then .anyChar :: partsAfter 0 rest
    else if c = '[' then
      match bracket? rest with
      | some inside => Part.ofBracket inside :: partsAfter (inside.length + 1) rest
      | none => .literal '[' :: partsAfter 0 rest
    else .literal c :: partsAfter 0 rest

def parts (pattern : List Char) : List Part := partsAfter 0 pattern

/-- Whether a text matches a pattern from its first to its last character. -/
def globMatches (pattern s : List Char) : Bool := matchesParts (parts pattern) s

theorem anySuffix_eq_true {f : List Char → Bool} {s : List Char} :
    anySuffix f s = true ↔ ∃ a b, s = a ++ b ∧ f b = true := by
  induction s with
  | nil => simp [anySuffix, and_assoc]
  | cons c rest ih =>
    simp only [anySuffix, Bool.or_eq_true, ih]
    constructor
    · rintro (h | ⟨a, b, rfl, h⟩)
      · exact ⟨[], c :: rest, rfl, h⟩
      · exact ⟨c :: a, b, rfl, h⟩
    · rintro ⟨a, b, hs, h⟩
      cases a with
      | nil => left; simpa [hs] using h
      | cons d a =>
        right
        simp only [List.cons_append, List.cons.injEq] at hs
        exact ⟨a, b, hs.2, h⟩

theorem matchesParts_anyText (ps : List Part) (s : List Char) :
    matchesParts (.anyText :: ps) s = true ↔ ∃ a b, s = a ++ b ∧ matchesParts ps b = true :=
  anySuffix_eq_true

example : globMatches "[a-c]?x*".toList "b.xyz".toList = true := by decide
example : globMatches "[!b-a]".toList "q".toList = true := by decide
example : camelPattern "HaMa".toList = "Ha*Ma*".toList := by decide

end GoToSymbol.Query
