import GoToSymbol.Symbol.Dump
import GoToSymbol.Proofs.Json.Levels
import GoToSymbol.Proofs.Text.Lines

namespace GoToSymbol.Dump

open Text

/-- Whether a line holds more than blanks. -/
def isFilled (line : List Char) : Bool := !(strip line).isEmpty

/-- The lines with more than blanks, each with its number and with what it comes to alone. -/
def outcomes (number : Nat) (ls : List (List Char)) :
    List (Nat × Except Symbol.LineError Symbol) :=
  ((ls.zipIdx number).filter fun l => isFilled l.1).map fun l =>
    (l.2, Symbol.ofLine (strip l.1))

def accepted? : Nat × Except Symbol.LineError Symbol → Option Symbol
  | (_, .ok s) => some s
  | (_, .error _) => none

def refused? : Nat × Except Symbol.LineError Symbol → Option (Nat × Symbol.LineError)
  | (_, .ok _) => none
  | (number, .error e) => some (number, e)

theorem outcomes_cons (number : Nat) (line : List Char) (rest : List (List Char)) :
    outcomes number (line :: rest) =
      if isFilled line then (number, Symbol.ofLine (strip line)) :: outcomes (number + 1) rest
      else outcomes (number + 1) rest := by
  unfold outcomes
  rw [List.zipIdx_cons, List.filter_cons]
  split
  · rw [List.map_cons]
  · rfl

/-- What is accepted and what is passed over are the outcomes, one by one and in order. -/
theorem ofLines_eq (number : Nat) (ls : List (List Char)) : ofLines number ls =
    ⟨(outcomes number ls).filterMap accepted?, (outcomes number ls).filterMap refused?⟩ := by
  induction ls generalizing number with
  | nil => rfl
  | cons line rest ih =>
    rw [ofLines, ih, outcomes_cons]
    by_cases hblank : (strip line).isEmpty
    · simp [isFilled, hblank]
    · cases hline : Symbol.ofLine (strip line) with
      | ok s => simp [isFilled, hblank, consSymbol, List.filterMap_cons, accepted?, refused?]
      | error e => simp [isFilled, hblank, consSkipped, List.filterMap_cons, accepted?, refused?]

/-- An outcome is accepted or passed over, and not both. -/
theorem length_accepted_add_refused (os : List (Nat × Except Symbol.LineError Symbol)) :
    (os.filterMap accepted?).length + (os.filterMap refused?).length = os.length := by
  induction os with
  | nil => rfl
  | cons o os ih =>
    obtain ⟨number, s | e⟩ := o
    · simp only [List.filterMap_cons, accepted?, refused?, List.length_cons]
      omega
    · simp only [List.filterMap_cons, accepted?, refused?, List.length_cons]
      omega

theorem length_outcomes (number : Nat) (ls : List (List Char)) :
    (outcomes number ls).length = (ls.filter isFilled).length := by
  induction ls generalizing number with
  | nil => rfl
  | cons line rest ih =>
    rw [outcomes_cons, List.filter_cons]
    split
    · rw [List.length_cons, List.length_cons, ih]
    · exact ih (number + 1)

/-- Where the count begins changes the numbers only. -/
theorem ofLines_add (number k : Nat) (ls : List (List Char)) : ofLines (number + k) ls =
    ⟨(ofLines number ls).symbols,
      (ofLines number ls).skipped.map fun l => (l.1 + k, l.2)⟩ := by
  induction ls generalizing number with
  | nil => rfl
  | cons line rest ih =>
    have hnext : number + k + 1 = number + 1 + k := by omega
    rw [ofLines, ofLines, hnext, ih (number + 1)]
    split
    · rfl
    · split <;> rfl

theorem read_append {a : String} (h : IsClosed a.toList) (b : String) : read (a ++ b) =
    ⟨(read a).symbols ++ (read b).symbols,
      (read a).skipped ++
        (read b).skipped.map fun l => (l.1 + (lines a.toList).length, l.2)⟩ := by
  rw [read, String.toList_append, lines_append h, ofLines_append, ofLines_add]
  rfl

/-- The lines that are not blank come to a symbol or to a report each, by themselves and in order.
So the dumps of two texts put together are put together, once the first ends with a line. -/
theorem read_isolates {a : String} (ha : a = "" ∨ a.toList.getLast? = some '\n')
    (b text : String) :
    (∃ ls, Lined text.toList ls ∧
      (read text).symbols = (outcomes 1 ls).filterMap accepted? ∧
      (read text).skipped = (outcomes 1 ls).filterMap refused? ∧
      (read text).symbols.length + (read text).skipped.length = (ls.filter isFilled).length) ∧
    ∃ ls, Lined a.toList ls ∧
      (read (a ++ b)).symbols = (read a).symbols ++ (read b).symbols ∧
      (read (a ++ b)).skipped =
        (read a).skipped ++ (read b).skipped.map fun l => (l.1 + ls.length, l.2) := by
  have hclosed : IsClosed a.toList := ha.imp String.toList_eq_nil_iff.mpr id
  have hread : read text = ⟨(outcomes 1 (lines text.toList)).filterMap accepted?,
      (outcomes 1 (lines text.toList)).filterMap refused?⟩ := ofLines_eq 1 _
  refine ⟨⟨lines text.toList, lined_iff.mpr rfl, ?_, ?_, ?_⟩,
    lines a.toList, lined_iff.mpr rfl, ?_, ?_⟩
  · rw [hread]
  · rw [hread]
  · rw [hread, length_accepted_add_refused, length_outcomes]
  · rw [read_append hclosed]
  · rw [read_append hclosed]

/-- A text with all three line ends, a blank line, and lines that fail in two ways. -/
theorem read_isolates_mixed :
    let a := "x\r\n \u2003\n"
    let b := "[]\r\x7b\"kind\":\"field\",\"file\":\"/a\",\"fqn\":\"a.b\"\x7d\n\x7b\x7d"
    (read (a ++ b)).symbols = (read a).symbols ++ (read b).symbols ∧
      (read (a ++ b)).symbols.map (·.fqn) = ["a.b"] ∧
      (read (a ++ b)).skipped.map (fun l => (l.1, l.2.message)) =
        [(1, "invalid JSON"), (3, "Symbol record must be an object, got []"),
          (5, "Symbol record is missing 'kind'")] := by
  intro a b
  have ha : a = "" ∨ a.toList.getLast? = some '\n' := Or.inr (by decide +kernel)
  obtain ⟨_, ls, hls, hsymbols, hskipped⟩ := read_isolates ha b (a ++ b)
  refine ⟨hsymbols, ?_, ?_⟩
  · rw [hsymbols]
    decide +kernel
  · rw [hskipped, ← hls.lines_eq]
    decide +kernel

/-- A plain line comes to the same in so many levels as it does without a limit. -/
theorem ofLine_of_isPlain {levels : Nat} {line : List Char} (h : isPlain levels line = true) :
    Symbol.ofLine (strip line) = Symbol.ofLineWithin (some levels) (strip line) := by
  have hread : Json.read (some levels) (strip line) ≠ .error .tooDeep := by
    intro hdeep
    have hline : Symbol.ofLineWithin (some levels) (strip line) = .error (.notJson .tooDeep) := by
      simp only [Symbol.ofLineWithin, hdeep]
    simp [isPlain, hline] at h
  simp only [Symbol.ofLine, Symbol.ofLineWithin, Json.follows_read levels _ hread]

/-- A dump that is got through in so many levels is the dump of the text, and each of its lines comes
to what it does in so many levels. -/
theorem readWithin?_eq_some {levels : Nat} {text : String} {d : Dump}
    (h : readWithin? levels text = some d) :
    d = read text ∧ ∀ line ∈ lines text.toList,
      Symbol.ofLine (strip line) = Symbol.ofLineWithin (some levels) (strip line) := by
  unfold readWithin? at h
  split at h
  · next hplain =>
    refine ⟨(Option.some.inj h).symm, fun line hline => ?_⟩
    exact ofLine_of_isPlain (List.all_eq_true.mp hplain line hline)
  · exact absurd h (by simp)

end GoToSymbol.Dump
