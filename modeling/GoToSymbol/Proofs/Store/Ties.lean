import GoToSymbol.Proofs.Store.Matches

namespace GoToSymbol.Store

namespace Corpus

/-- All slots of a segment have the same score, or none has any. -/
def Alike (slots : List Slot) (xs : Scores) : Prop := ∃ x, xs = slots.map fun _ => x

variable (c : Corpus) {slots : List Slot}

theorem alike_map {f : Slot → Option Float} (h : ∀ s ∈ slots, ∀ t ∈ slots, f s = f t) :
    Alike slots (slots.map f) := by
  cases slots with
  | nil => exact ⟨none, rfl⟩
  | cons s ss => exact ⟨f s, List.map_congr_left fun t ht => h t ht s List.mem_cons_self⟩

theorem Alike.zipWith {xs ys : Scores} (f : Option Float → Option Float → Option Float)
    (hx : Alike slots xs) (hy : Alike slots ys) : Alike slots (List.zipWith f xs ys) := by
  obtain ⟨x, rfl⟩ := hx
  obtain ⟨y, rfl⟩ := hy
  exact ⟨f x y, by simp⟩

/-- A field that is not scored by rarity counts the same wherever it has the same tokens. -/
theorem alike_tokenScores {field : String} {test : TokenTest} (hfield : field ≠ fqnField)
    (hlive : ∀ s ∈ slots, s.deleted = false)
    (hsame : ∀ s ∈ slots, ∀ t ∈ slots, s.doc.tokens field = t.doc.tokens field) :
    Alike slots (c.tokenScores field test slots) := by
  have hweight : ∀ w ∈ c.admitted field test slots, w.rarity = none := by
    intro w hw
    obtain ⟨t, _, rfl⟩ := List.mem_map.mp hw
    exact if_neg hfield
  unfold tokenScores
  split
  · refine alike_map fun s hs t ht => ?_
    simp [openScore, hlive s hs, hlive t ht, hsame s hs t ht]
  · refine alike_map fun s hs t ht => ?_
    have hscores (l : List Weighted) (hl : l ⊆ c.admitted field test slots) :
        l.map (c.tokenScore s) = l.map (c.tokenScore t) := by
      apply List.map_congr_left
      intro w hw
      simp [tokenScore, hweight w (hl hw)]
    unfold leafScore
    simp only [hlive s hs, hlive t ht, hsame s hs t ht]
    rw [hscores _ List.filter_sublist.subset]

/-- Where every slot has a name, the empty text scores all of them alike. -/
theorem alike_symbolName (hlive : ∀ s ∈ slots, s.deleted = false)
    (hname : ∀ s ∈ slots, s.doc.tokens fqnField ≠ [] ∧ [] ∉ s.doc.tokens fqnField) :
    Alike slots (c.scores slots (Query.symbolName "")) := by
  have hopen {test : TokenTest} (htest : test.isOpen = true) :
      Alike slots (c.tokenScores fqnField test slots) := by
    unfold tokenScores
    rw [if_pos htest]
    refine alike_map fun s hs t ht => ?_
    simp [openScore, hlive s hs, hlive t ht, (hname s hs).1, (hname t ht).1]
  have hwhole : Alike slots (c.tokenScores fqnField (.whole "") slots) := by
    have hnone : c.admitted fqnField (.whole "") slots = [] := by
      have hempty : (slots.flatMap fun s =>
          (s.doc.tokens fqnField).filter (TokenTest.whole "").admits) = [] := by
        rw [List.flatMap_eq_nil_iff]
        intro s hs
        rw [List.filter_eq_nil_iff]
        intro t ht
        have hne : t ≠ [] := fun h => (hname s hs).2 (h ▸ ht)
        simpa [TokenTest.admits] using hne
      unfold admitted
      rw [hempty]
      rfl
    unfold tokenScores
    rw [hnone]
    refine alike_map fun s hs t ht => ?_
    simp [leafScore, hlive s hs, hlive t ht]
  have hnothing : Alike slots (noScores slots) := ⟨none, rfl⟩
  exact ((hnothing.zipWith addScores (hopen rfl)).zipWith addScores hwhole).zipWith addScores
    (hopen rfl)

theorem alike_forClass (hlive : ∀ s ∈ slots, s.deleted = false)
    (htag : ∀ s ∈ slots, s.doc.tag = some Variant.classes.tag)
    (hname : ∀ s ∈ slots, s.doc.tokens fqnField ≠ [] ∧ [] ∉ s.doc.tokens fqnField) :
    Alike slots (c.scores slots (.forClass "")) := by
  have hzero : Alike slots (zeroScores slots) := alike_map fun s hs t ht => by
    simp [hlive s hs, hlive t ht]
  have hsame : ∀ s ∈ slots, ∀ t ∈ slots, s.doc.tokens tagField = t.doc.tokens tagField := by
    intro s hs t ht
    simp [Stored.tokens, tagField, fqnField, fileField, htag s hs, htag t ht]
  exact (hzero.zipWith bothScores (c.alike_symbolName hlive hname)).zipWith bothScores
    (c.alike_tokenScores (by decide) hlive hsame)

end Corpus

/-- Hits with one score stay in their order, unless that score is not even at most itself: then they
are turned round. -/
theorem sortHits_alike {hits : List Hit} {x : Float} (h : ∀ t ∈ hits, t.score = x) :
    sortHits hits = hits ∨ sortHits hits = hits.reverse := by
  by_cases hx : x ≤ x
  · left
    induction hits with
    | nil => rfl
    | cons t ts ih =>
      have hrest : sortHits ts = ts := ih fun u hu => h u (List.mem_cons_of_mem t hu)
      change insertHit t (sortHits ts) = t :: ts
      rw [hrest]
      cases ts with
      | nil => rfl
      | cons u us =>
        have hle : u.score ≤ t.score := by
          rw [h t List.mem_cons_self, h u (by simp)]
          exact hx
        exact if_pos hle
  · right
    have hlast (t : Hit) (ht : t.score = x) (us : List Hit) (hus : ∀ u ∈ us, u.score = x) :
        insertHit t us = us ++ [t] := by
      induction us with
      | nil => rfl
      | cons u us ih =>
        have hle : ¬ u.score ≤ t.score := by
          rw [ht, hus u List.mem_cons_self]
          exact hx
        simp only [insertHit, if_neg hle, List.cons_append]
        rw [ih fun v hv => hus v (List.mem_cons_of_mem u hv)]
    induction hits with
    | nil => rfl
    | cons t ts ih =>
      have hts (u : Hit) (hu : u ∈ ts) : u.score = x := h u (List.mem_cons_of_mem t hu)
      change insertHit t (sortHits ts) = (t :: ts).reverse
      rw [ih hts, hlast t (h t List.mem_cons_self) _ fun u hu => hts u (List.mem_reverse.mp hu),
        List.reverse_cons]

/-- Documents of one segment that score alike rank in their order or in the opposite one. -/
theorem ranking_alike {q : Query} {s : Segment}
    (h : Corpus.Alike s.slots ((Corpus.ofSegments [s]).scores s.slots q)) :
    ranking q [s] = (documents [s]).filter q.accepts ∨
      ranking q [s] = ((documents [s]).filter q.accepts).reverse := by
  obtain ⟨z, hz⟩ := h
  let hits := [s].flatMap (·.hits (Corpus.ofSegments [s]) q)
  have hscore (t : Hit) (ht : t ∈ hits) : t.score = z.getD 0.0 := by
    simp only [hits, List.flatMap_cons, List.flatMap_nil, List.append_nil, Segment.hits, hz,
      List.mem_filterMap, List.zipWith_map_left, List.zipWith_self, List.mem_map, id] at ht
    obtain ⟨_, ⟨slot, _, rfl⟩, ht⟩ := ht
    cases z with
    | none => exact absurd ht (by simp)
    | some x =>
      cases ht
      rfl
  have hdocs : hits.map (·.doc) = (documents [s]).filter q.accepts := by
    simp [hits, Segment.hits_docs, documents]
  have hranking : ranking q [s] = (sortHits hits).map (·.doc) := rfl
  rw [hranking, ← hdocs, ← List.map_reverse]
  rcases sortHits_alike hscore with h | h
  · exact Or.inl (by rw [h])
  · exact Or.inr (by rw [h])

end GoToSymbol.Store
