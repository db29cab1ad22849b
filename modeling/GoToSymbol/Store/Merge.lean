import GoToSymbol.Store.Segment

namespace GoToSymbol.Store

/-- The bound on the documents of a merge: 1, 1, 2, 3, 5 and so on, counted from zero. -/
def mergeBound : Nat → Nat
  | 0 => 1
  | 1 => 1
  | n + 2 => mergeBound (n + 1) + mergeBound n

/-- How many of the segments, given by size in ascending order, are merged: the search stops at the
first one, past the fourth, up to which the documents stay below the bound. -/
def mergePoint (index total : Nat) : List Nat → Option Nat
  | [] => none
  | size :: rest =>
    if 3 < index ∧ total + size < mergeBound (index + 5) then some (index + 1)
    else mergePoint (index + 1) (total + size) rest

def insertBySize (s : Segment) : List Segment → List Segment
  | [] => [s]
  | t :: ts => if s.size ≤ t.size then s :: t :: ts else t :: insertBySize s ts

/-- The segments by size, equal ones in their order. -/
def sortBySize (segments : List Segment) : List Segment := segments.foldr insertBySize []

/-- How a commit rearranges the segments: the ones that are merged and the ones that are kept. -/
structure Plan where
  merged : List Segment
  kept : List Segment

def plan (segments : List Segment) : Plan :=
  let sorted := sortBySize segments
  match mergePoint 0 0 (sorted.map Segment.size) with
  | some n => ⟨sorted.take n, sorted.drop n⟩
  | none => ⟨[], segments⟩

/-- A slot as it is copied into a new segment. -/
def Slot.copied (s : Slot) : Slot := { s with length := roundLength s.length }

/-- The segments after a commit: those kept, and a new one with the added documents followed by
what is left of the merged segments. -/
def merge (serial : Nat) (added : List Stored) (p : Plan) : List Segment :=
  if added.isEmpty && p.merged.isEmpty then p.kept
  else p.kept ++ [⟨serial, added.map Slot.fresh ++ (p.merged.flatMap Segment.live).map Slot.copied⟩]

theorem insertBySize_perm (s : Segment) (ts : List Segment) :
    (insertBySize s ts).Perm (s :: ts) := by
  induction ts with
  | nil => exact List.Perm.refl _
  | cons t ts ih =>
    simp only [insertBySize]
    split
    · exact List.Perm.refl _
    · exact (ih.cons t).trans (List.Perm.swap s t ts)

theorem sortBySize_perm (segments : List Segment) : (sortBySize segments).Perm segments := by
  induction segments with
  | nil => exact List.Perm.refl _
  | cons s ss ih => exact (insertBySize_perm s _).trans (ih.cons s)

/-- A plan neither loses nor invents a segment. -/
theorem plan_perm (segments : List Segment) :
    ((plan segments).merged ++ (plan segments).kept).Perm segments := by
  simp only [plan]
  split
  · rw [List.take_append_drop]; exact sortBySize_perm segments
  · exact List.Perm.refl _

example : mergePoint 0 0 [1, 1, 1, 1, 1] = some 5 := by decide
example : mergePoint 0 0 [1, 1, 1, 1] = none := by decide

end GoToSymbol.Store
