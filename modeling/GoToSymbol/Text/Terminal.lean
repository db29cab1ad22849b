namespace GoToSymbol.Text

/-- Characters between the opening of a terminal sequence and the letter that closes it. -/
def isParameter (c : Char) : Bool := ('0' ≤ c && c ≤ '9') || c == ';' || c == '?'

/-- How many characters of a terminal sequence stand at the beginning: an escape, an opening bracket,
parameters and a letter. -/
def sequenceLength : List Char → Nat
  | '\x1b' :: '[' :: rest =>
    match rest.dropWhile isParameter with
    | c :: _ => if c.isAlpha then (rest.takeWhile isParameter).length + 3 else 0
    | [] => 0
  | _ => 0

/-- Drops `skip` characters, and all terminal sequences after them. -/
def withoutSequencesFrom (skip : Nat) : List Char → List Char
  | [] => []
  | c :: rest =>
    match skip, sequenceLength (c :: rest) with
    | skip + 1, _ => withoutSequencesFrom skip rest
    | 0, n + 1 => withoutSequencesFrom n rest
    | 0, 0 => c :: withoutSequencesFrom 0 rest

/-- A text as it is printed where no terminal reads it: without terminal sequences. -/
def withoutSequences (s : String) : String := String.ofList (withoutSequencesFrom 0 s.toList)

example : withoutSequences "a\x1b[1;31mb\x1b[0m\x1b[" = "ab\x1b[" := by decide

end GoToSymbol.Text
