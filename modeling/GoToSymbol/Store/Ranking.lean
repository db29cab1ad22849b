import GoToSymbol.Store.Matching

namespace GoToSymbol.Store

/-- The slots that weights are computed from: all of them, deleted ones too. -/
structure Corpus where
  slots : List Slot

namespace Corpus

def ofSegments (segments : List Segment) : Corpus := ⟨segments.flatMap (·.slots)⟩

def size (c : Corpus) : Float := Decimal.floatOfInt c.slots.length

/-- The mean length of the name field, and one where there is nothing to average. -/
def meanLength (c : Corpus) : Float :=
  let total : Nat := c.slots.foldl (fun n slot => n + slot.length) 0
  if total = 0 then 1.0 else Decimal.floatOfInt total / c.size

/-- The number of documents whose name field has a token. -/
def frequency (c : Corpus) (t : List Char) : Nat :=
  c.slots.countP fun s => (s.doc.tokens fqnField).contains t

/-- A token weighs the more the fewer documents have it. -/
def rarity (c : Corpus) (t : List Char) : Float :=
  Float.log (c.size / Decimal.floatOfInt (c.frequency t + 1)) + 1.0

/-- A boosted occurrence gains less the longer the field is. -/
def saturation (c : Corpus) (s : Slot) : Float :=
  let w := s.doc.boost.toFloat32.toFloat
  let length := Decimal.floatOfInt (roundLength s.length)
  (w * (1.2 + 1.0)) / (w + 1.2 * ((1.0 - 0.75) + 0.75 * length / c.meanLength))

/-- A token of a field that counts towards a score, with its rarity where the field is scored. -/
structure Weighted where
  token : List Char
  rarity : Option Float

def weigh (c : Corpus) (field : String) (t : List Char) : Weighted :=
  ⟨t, if field = fqnField then some (c.rarity t) else none⟩

/-- The score of a token in a slot that has it. -/
def tokenScore (c : Corpus) (s : Slot) (w : Weighted) : Float :=
  match w.rarity with
  | some r => r * c.saturation s
  | none => 1.0

end Corpus

/-- One score for each slot of a segment, where the slot matches. -/
abbrev Scores := List (Option Float)

def addScores (x y : Option Float) : Option Float :=
  match x, y with
  | some a, some b => some (a + b)
  | some a, none => some a
  | none, b => b

def bothScores (x y : Option Float) : Option Float :=
  match x, y with
  | some a, some b => some (a + b)
  | _, _ => none

def unlessScore (x y : Option Float) : Option Float :=
  match y with
  | none => x
  | some _ => none

def maxScore (x y : Option Float) : Option Float :=
  match x, y with
  | some a, some b => some (if a < b then b else a)
  | some a, none => some a
  | none, b => b

/-- Each score, and where there is none the next one after it. -/
def carryBack : Scores → Scores
  | [] => []
  | x :: rest =>
    let rest' := carryBack rest
    x.orElse (fun _ => rest'.head?.join) :: rest'

namespace Corpus

/-- The score of a slot for those of `tokens` that it has: their sum while there are at most two of
them, and one beyond. -/
def leafScore (c : Corpus) (field : String) (tokens : List Weighted) (s : Slot) : Option Float :=
  if s.deleted then none
  else
    let own := s.doc.tokens field
    let found := tokens.filter fun w => own.contains w.token
    if found.isEmpty then none
    else if tokens.length ≤ 2 then some ((found.map (c.tokenScore s)).foldl (· + ·) 0.0)
    else some 1.0

/-- The tokens of a segment that a test admits, in ascending order and with their weights. -/
def admitted (c : Corpus) (field : String) (test : TokenTest) (slots : List Slot) : List Weighted :=
  (Name.ascending (slots.flatMap fun s => (s.doc.tokens field).filter test.admits)).map
    (c.weigh field)

def openScore (field : String) (s : Slot) : Option Float :=
  if s.deleted || (s.doc.tokens field).isEmpty then none else some 1.0

/-- The scores of one test; an open one scores every slot that has the field alike. -/
def tokenScores (c : Corpus) (field : String) (test : TokenTest) (slots : List Slot) : Scores :=
  if test.isOpen then slots.map (openScore field)
  else
    let tokens := c.admitted field test slots
    slots.map (c.leafScore field tokens)

def noScores (slots : List Slot) : Scores := slots.map fun _ => none

def zeroScores (slots : List Slot) : Scores :=
  slots.map fun s => if s.deleted then none else some 0.0

mutual
/-- The scores of a query in a segment. Alternatives add up; of several ways to be best, each counts
at the slot itself or else at the next slot that it matches. -/
def scores (c : Corpus) (slots : List Slot) : Query → Scores
  | .token field test => c.tokenScores field test slots
  | .anyOf subs => sumAny c slots (noScores slots) subs
  | .allOf subs => sumAll c slots (zeroScores slots) subs
  | .without kept excluded =>
    List.zipWith unlessScore (scores c slots kept) (scores c slots excluded)
  | .best subs _ =>
    let matched := sumAny c slots (noScores slots) subs
    let carried := bestCarried c slots (noScores slots) subs
    List.zipWith (fun m b => if m.isSome then b else none) matched carried

def sumAny (c : Corpus) (slots : List Slot) (sum : Scores) : List Query → Scores
  | [] => sum
  | q :: qs => sumAny c slots (List.zipWith addScores sum (scores c slots q)) qs

def sumAll (c : Corpus) (slots : List Slot) (sum : Scores) : List Query → Scores
  | [] => sum
  | q :: qs => sumAll c slots (List.zipWith bothScores sum (scores c slots q)) qs

def bestCarried (c : Corpus) (slots : List Slot) (best : Scores) : List Query → Scores
  | [] => best
  | q :: qs => bestCarried c slots (List.zipWith maxScore best (carryBack (scores c slots q))) qs
end

end Corpus

/-- A matching document and its score. -/
structure Hit where
  score : Float
  doc : Stored

/-- Puts a hit before the first one that does not score higher. -/
def insertHit (h : Hit) : List Hit → List Hit
  | [] => [h]
  | t :: ts => if t.score ≤ h.score then h :: t :: ts else t :: insertHit h ts

/-- The hits by descending score, equal ones in their order. -/
def sortHits (hits : List Hit) : List Hit := hits.foldr insertHit []

def Segment.hits (c : Corpus) (q : Query) (s : Segment) : List Hit :=
  (List.zipWith (fun x (slot : Slot) => x.map (Hit.mk · slot.doc)) (c.scores s.slots q)
    s.slots).filterMap id

/-- All documents that match a query, best first. -/
def ranking (q : Query) (segments : List Segment) : List Stored :=
  let c := Corpus.ofSegments segments
  (sortHits (segments.flatMap (·.hits c q))).map (·.doc)

theorem insertHit_perm (h : Hit) (ts : List Hit) : (insertHit h ts).Perm (h :: ts) := by
  induction ts with
  | nil => exact List.Perm.refl _
  | cons t ts ih =>
    simp only [insertHit]
    split
    · exact List.Perm.refl _
    · exact (ih.cons t).trans (List.Perm.swap h t ts)

theorem sortHits_perm (hits : List Hit) : (sortHits hits).Perm hits := by
  induction hits with
  | nil => exact List.Perm.refl _
  | cons h hs ih => exact (insertHit_perm h _).trans (ih.cons h)

end GoToSymbol.Store
