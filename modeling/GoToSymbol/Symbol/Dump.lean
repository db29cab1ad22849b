import GoToSymbol.Symbol.Record
import GoToSymbol.Json.Reader

namespace GoToSymbol

namespace Symbol

/-- Why a line of a dump is passed over. -/
inductive LineError where
  | notJson (e : Json.ReadError)
  | record (e : DecodeError)

def LineError.message : LineError → String
  | notJson e => e.message
  | record e => e.message

/-- Reads a line, going so many levels deep into its lists and objects, if there is a limit. -/
def ofLineWithin (levels : Option Nat) (line : List Char) : Except LineError Symbol :=
  match Json.read levels line with
  | .error e => .error (.notJson e)
  | .ok v =>
    match ofValue v with
    | .ok s => .ok s
    | .error e => .error (.record e)

/-- Reads a line as deep as it goes. -/
def ofLine (line : List Char) : Except LineError Symbol := ofLineWithin none line

end Symbol

/-- What a dump holds: its symbols in order, and the lines passed over with their numbers. -/
structure Dump where
  symbols : List Symbol
  skipped : List (Nat × Symbol.LineError)

namespace Dump

def empty : Dump := ⟨[], []⟩

def consSymbol (s : Symbol) (d : Dump) : Dump := { d with symbols := s :: d.symbols }

def consSkipped (number : Nat) (e : Symbol.LineError) (d : Dump) : Dump :=
  { d with skipped := (number, e) :: d.skipped }

/-- Reads lines numbered from `number` on, each by itself; blank lines are passed over silently. -/
def ofLines (number : Nat) : List (List Char) → Dump
  | [] => empty
  | line :: rest =>
    let trimmed := Text.strip line
    let others := ofLines (number + 1) rest
    if trimmed.isEmpty then others
    else match Symbol.ofLine trimmed with
      | .ok s => others.consSymbol s
      | .error e => others.consSkipped number e

/-- Reads a text with one record per line. -/
def read (text : String) : Dump := ofLines 1 (Text.lines text.toList)

/-- Whether a line stays within so many levels, and its strings are texts. -/
def isPlain (levels : Nat) (line : List Char) : Bool :=
  Json.isPaired false line && match Symbol.ofLineWithin (some levels) (Text.strip line) with
    | .error (.notJson .tooDeep) => false
    | _ => true

/-- Reads a text with one record per line. There is no dump where the reading would not get through
in so many levels, or where a name would not be a text. -/
def readWithin? (levels : Nat) (text : String) : Option Dump :=
  if (Text.lines text.toList).all (isPlain levels) then some (read text) else none

theorem ofLines_append (number : Nat) (xs ys : List (List Char)) :
    ofLines number (xs ++ ys) =
      ⟨(ofLines number xs).symbols ++ (ofLines (number + xs.length) ys).symbols,
        (ofLines number xs).skipped ++ (ofLines (number + xs.length) ys).skipped⟩ := by
  induction xs generalizing number with
  | nil => simp [ofLines, empty]
  | cons x xs ih =>
    have hn : number + (x :: xs).length = number + 1 + xs.length := by
      simp only [List.length_cons]; omega
    rw [hn]
    simp only [List.cons_append, ofLines, ih (number + 1)]
    split
    · rfl
    · split <;> simp [consSymbol, consSkipped]

end Dump

end GoToSymbol
