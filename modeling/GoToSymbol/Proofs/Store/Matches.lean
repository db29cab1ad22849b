import GoToSymbol.Store.Ranking
import Mathlib.Data.List.Forall2

namespace GoToSymbol.Store

namespace Corpus

variable (c : Corpus) (slots : List Slot)

/-- The scores of a segment stand exactly at the slots with a property. -/
def Scored (slots : List Slot) (xs : Scores) (p : Slot → Bool) : Prop :=
  xs.map Option.isSome = slots.map p

/-- At least the slots with a property have a score. -/
def Covered (xs : Scores) (slots : List Slot) (p : Slot → Bool) : Prop :=
  List.Forall₂ (fun (x : Option Float) s => p s = true → x.isSome = true) xs slots

variable {slots}

theorem Scored.zipWith {xs ys : Scores} {p q : Slot → Bool}
    {f : Option Float → Option Float → Option Float} {g : Bool → Bool → Bool}
    (hf : ∀ x y, (f x y).isSome = g x.isSome y.isSome)
    (hx : Scored slots xs p) (hy : Scored slots ys q) :
    Scored slots (List.zipWith f xs ys) fun s => g (p s) (q s) := by
  induction slots generalizing xs ys with
  | nil =>
    have hxs : xs = [] := by simpa [Scored] using hx
    simp [Scored, hxs]
  | cons s ss ih =>
    cases xs with
    | nil => simp [Scored] at hx
    | cons x xs =>
      cases ys with
      | nil => simp [Scored] at hy
      | cons y ys =>
        simp only [Scored, List.map_cons, List.cons.injEq] at hx hy
        have hrest := ih hx.2 hy.2
        simp only [Scored, List.zipWith_cons_cons, List.map_cons, List.cons.injEq] at hrest ⊢
        exact ⟨by rw [hf, hx.1, hy.1], hrest⟩

theorem Scored.congr {xs : Scores} {p q : Slot → Bool} (hx : Scored slots xs p)
    (h : ∀ s ∈ slots, p s = q s) : Scored slots xs q := by
  unfold Scored at hx ⊢
  rw [hx]
  exact List.map_congr_left h

theorem Scored.covered {xs : Scores} {p : Slot → Bool} (hx : Scored slots xs p) :
    Covered xs slots p := by
  unfold Covered
  induction slots generalizing xs with
  | nil =>
    have hxs : xs = [] := by simpa [Scored] using hx
    rw [hxs]
    exact List.Forall₂.nil
  | cons s ss ih =>
    cases xs with
    | nil => simp [Scored] at hx
    | cons x xs =>
      simp only [Scored, List.map_cons, List.cons.injEq] at hx
      exact List.Forall₂.cons (fun hp => by rw [hx.1, hp]) (ih hx.2)

theorem Covered.carryBack {xs : Scores} {p : Slot → Bool} (hx : Covered xs slots p) :
    Covered (carryBack xs) slots p := by
  unfold Covered at hx ⊢
  induction hx with
  | nil => exact List.Forall₂.nil
  | @cons x s xs ss h _ ih =>
    refine List.Forall₂.cons (fun hp => ?_) ih
    have hsome := h hp
    cases x with
    | none => simp at hsome
    | some a => rfl

theorem Covered.maxScore {xs ys : Scores} {p q : Slot → Bool} (hx : Covered xs slots p)
    (hy : Covered ys slots q) :
    Covered (List.zipWith maxScore xs ys) slots fun s => p s || q s := by
  unfold Covered at hx hy ⊢
  induction hx generalizing ys with
  | nil => exact List.Forall₂.nil
  | @cons x s xs ss h _ ih =>
    cases hy with
    | @cons y _ ys _ h' hrest =>
      refine List.Forall₂.cons (fun hp => ?_) (ih hrest)
      rcases Bool.or_eq_true_iff.mp hp with hp | hq
      · have hsome := h hp
        cases x with
        | none => simp at hsome
        | some a => cases y <;> rfl
      · have hsome := h' hq
        cases y with
        | none => simp at hsome
        | some b => cases x <;> rfl

/-- Scores that are kept only where others stand, and that cover those, stand where they do. -/
theorem Scored.restrict {xs ys : Scores} {p : Slot → Bool} (hx : Scored slots xs p)
    (hy : Covered ys slots p) :
    Scored slots (List.zipWith (fun m b => if m.isSome then b else none) xs ys) p := by
  unfold Covered at hy
  induction hy generalizing xs with
  | nil =>
    have hxs : xs = [] := by simpa [Scored] using hx
    simp [Scored, hxs]
  | @cons y s ys ss h _ ih =>
    cases xs with
    | nil => simp [Scored] at hx
    | cons x xs =>
      simp only [Scored, List.map_cons, List.cons.injEq] at hx
      have hrest := ih hx.2
      simp only [Scored, List.zipWith_cons_cons, List.map_cons, List.cons.injEq] at hrest ⊢
      refine ⟨?_, hrest⟩
      rw [hx.1]
      cases hp : p s with
      | false => rfl
      | true => simpa using h hp

variable (slots)

theorem scored_none : Scored slots (noScores slots) fun _ => false := by
  simp [Scored, noScores]

theorem scored_zero : Scored slots (zeroScores slots) fun s => !s.deleted := by
  simp only [Scored, zeroScores, List.map_map]
  apply List.map_congr_left
  intro s _
  cases hd : s.deleted <;> simp [hd]

theorem isSome_leafScore (field : String) (tokens : List Weighted) (s : Slot) :
    (c.leafScore field tokens s).isSome
      = (!s.deleted && tokens.any fun w => (s.doc.tokens field).contains w.token) := by
  unfold leafScore
  by_cases hd : s.deleted = true
  · simp [hd]
  · simp only [hd, Bool.false_eq_true, if_false, Bool.not_false, Bool.true_and]
    cases hw : tokens.any fun w => (s.doc.tokens field).contains w.token with
    | false =>
      have hnone : (tokens.filter fun w => (s.doc.tokens field).contains w.token) = [] := by
        rw [List.filter_eq_nil_iff]
        simpa using hw
      rw [hnone]
      rfl
    | true =>
      obtain ⟨w, hmem, hin⟩ := List.any_eq_true.mp hw
      have hne : (tokens.filter fun w => (s.doc.tokens field).contains w.token) ≠ [] :=
        List.ne_nil_of_mem (List.mem_filter.mpr ⟨hmem, hin⟩)
      simp only [List.isEmpty_iff, hne, if_false]
      split <;> rfl

theorem mem_admitted {field : String} {test : TokenTest} {slots : List Slot} {t : List Char} :
    (∃ w ∈ c.admitted field test slots, w.token = t) ↔
      (∃ s ∈ slots, t ∈ s.doc.tokens field) ∧ test.admits t = true := by
  simp only [admitted, List.mem_map, Name.mem_ascending, List.mem_flatMap, List.mem_filter]
  constructor
  · intro h
    obtain ⟨w, ⟨u, ⟨s, hs, hu, ha⟩, rfl⟩, rfl⟩ := h
    exact ⟨⟨s, hs, hu⟩, ha⟩
  · intro h
    obtain ⟨⟨s, hs, hu⟩, ha⟩ := h
    exact ⟨c.weigh field t, ⟨t, ⟨s, hs, hu, ha⟩, rfl⟩, rfl⟩

theorem scored_token (field : String) (test : TokenTest) :
    Scored slots (c.tokenScores field test slots) (Segment.meets (.token field test)) := by
  unfold tokenScores Scored
  split
  · next hopen =>
    rw [List.map_map]
    apply List.map_congr_left
    intro s _
    have hany : (s.doc.tokens field).any test.admits = !(s.doc.tokens field).isEmpty := by
      cases s.doc.tokens field with
      | nil => rfl
      | cons t ts => simp [TokenTest.admits_of_isOpen hopen t]
    simp only [Function.comp_apply, openScore, Segment.meets, Query.accepts, hany]
    cases s.deleted <;> cases (s.doc.tokens field).isEmpty <;> rfl
  · rw [List.map_map]
    apply List.map_congr_left
    intro s hs
    simp only [Function.comp_apply, isSome_leafScore, Segment.meets, Query.accepts]
    congr 1
    rw [Bool.eq_iff_iff, List.any_eq_true, List.any_eq_true]
    constructor
    · intro h
      obtain ⟨w, hw, hin⟩ := h
      have hadm := (c.mem_admitted).mp ⟨w, hw, rfl⟩
      exact ⟨w.token, by simpa using hin, hadm.2⟩
    · intro h
      obtain ⟨t, ht, hadm⟩ := h
      obtain ⟨w, hw, hwt⟩ := (c.mem_admitted).mpr ⟨⟨s, hs, ht⟩, hadm⟩
      exact ⟨w, hw, by simpa [hwt] using ht⟩

theorem scored_sumAny (qs : List Query) (sum : Scores) (p : Slot → Bool)
    (hq : ∀ q ∈ qs, Scored slots (c.scores slots q) (Segment.meets q))
    (hsum : Scored slots sum p) :
    Scored slots (c.sumAny slots sum qs) fun s => p s || qs.any fun q => Segment.meets q s := by
  induction qs generalizing sum p with
  | nil => simpa [sumAny] using hsum
  | cons q qs ih =>
    have hhead := Scored.zipWith (f := addScores) (g := (· || ·))
      (by intro x y; cases x <;> cases y <;> rfl) hsum (hq q (by simp))
    have hrest := ih _ _ (fun q' h => hq q' (by simp [h])) hhead
    simpa [sumAny, Bool.or_assoc] using hrest

theorem scored_sumAll (qs : List Query) (sum : Scores) (p : Slot → Bool)
    (hq : ∀ q ∈ qs, Scored slots (c.scores slots q) (Segment.meets q))
    (hsum : Scored slots sum p) :
    Scored slots (c.sumAll slots sum qs) fun s => p s && qs.all fun q => Segment.meets q s := by
  induction qs generalizing sum p with
  | nil => simpa [sumAll] using hsum
  | cons q qs ih =>
    have hhead := Scored.zipWith (f := bothScores) (g := (· && ·))
      (by intro x y; cases x <;> cases y <;> rfl) hsum (hq q (by simp))
    have hrest := ih _ _ (fun q' h => hq q' (by simp [h])) hhead
    simpa [sumAll, Bool.and_assoc] using hrest

theorem covered_bestCarried (qs : List Query) (best : Scores) (p : Slot → Bool)
    (hq : ∀ q ∈ qs, Scored slots (c.scores slots q) (Segment.meets q))
    (hbest : Covered best slots p) :
    Covered (c.bestCarried slots best qs) slots
      fun s => p s || qs.any fun q => Segment.meets q s := by
  induction qs generalizing best p with
  | nil => simpa [bestCarried] using hbest
  | cons q qs ih =>
    have hhead := hbest.maxScore (hq q (by simp)).covered.carryBack
    have hrest := ih _ _ (fun q' h => hq q' (by simp [h])) hhead
    simpa [bestCarried, Bool.or_assoc] using hrest

theorem any_meets (qs : List Query) (s : Slot) :
    (qs.any fun q => Segment.meets q s) = (!s.deleted && Query.acceptsAny qs s.doc) := by
  rw [Query.acceptsAny_eq_any]
  cases hd : s.deleted <;> simp [Segment.meets, hd]

/-- The slots that have a score are those that meet the query. -/
theorem scored_scores (q : Query) : Scored slots (c.scores slots q) (Segment.meets q) := by
  match q with
  | .token field test =>
    simp only [scores]
    exact c.scored_token slots field test
  | .anyOf subs =>
    simp only [scores]
    refine (c.scored_sumAny slots subs _ _ (fun q _ => scored_scores q)
      (scored_none slots)).congr fun s _ => ?_
    rw [any_meets, Bool.false_or]
    simp [Segment.meets, Query.accepts]
  | .allOf subs =>
    simp only [scores]
    refine (c.scored_sumAll slots subs _ _ (fun q _ => scored_scores q)
      (scored_zero slots)).congr fun s _ => ?_
    simp only [Segment.meets, Query.accepts, Query.acceptsAll_eq_all]
    cases hd : s.deleted <;> simp
  | .without kept excluded =>
    simp only [scores]
    refine (Scored.zipWith (f := unlessScore) (g := fun x y => x && !y)
      (by intro x y; cases x <;> cases y <;> rfl) (scored_scores kept)
      (scored_scores excluded)).congr fun s _ => ?_
    simp only [Segment.meets, Query.accepts]
    cases s.deleted <;> cases Query.accepts kept s.doc <;> simp
  | .best subs _ =>
    simp only [scores]
    have hany := c.scored_sumAny slots subs _ _ (fun q _ => scored_scores q) (scored_none slots)
    have hcov := c.covered_bestCarried slots subs _ _ (fun q _ => scored_scores q)
      (scored_none slots).covered
    refine (hany.restrict hcov).congr fun s _ => ?_
    rw [any_meets, Bool.false_or]
    simp [Segment.meets, Query.accepts]

end Corpus

theorem docs_of_scored {slots : List Slot} {xs : Scores} {p : Slot → Bool}
    (h : Corpus.Scored slots xs p) :
    ((List.zipWith (fun x (slot : Slot) => x.map (Hit.mk · slot.doc)) xs slots).filterMap id).map
        (·.doc)
      = (slots.filter p).map (·.doc) := by
  induction slots generalizing xs with
  | nil => simp
  | cons s ss ih =>
    cases xs with
    | nil => simp [Corpus.Scored] at h
    | cons x xs =>
      simp only [Corpus.Scored, List.map_cons, List.cons.injEq] at h
      have hrest := ih h.2
      cases x with
      | none =>
        have hp : p s = false := by simpa using h.1.symm
        simpa [hp] using hrest
      | some a =>
        have hp : p s = true := by simpa using h.1.symm
        simpa [hp] using hrest

theorem Segment.hits_docs (c : Corpus) (q : Query) (s : Segment) :
    (s.hits c q).map (·.doc) = (s.live.map (·.doc)).filter q.accepts := by
  unfold Segment.hits
  rw [docs_of_scored (c.scored_scores s.slots q), Segment.live, List.filter_map, List.filter_filter]
  congr 1
  apply List.filter_congr
  intro slot _
  simp [Segment.meets, Bool.and_comm]

/-- A ranking lists the documents that match, each as often as it is there. -/
theorem ranking_perm (q : Query) (segments : List Segment) :
    (ranking q segments).Perm ((documents segments).filter q.accepts) := by
  have hdocs : (segments.flatMap (·.hits (Corpus.ofSegments segments) q)).map (·.doc)
      = (documents segments).filter q.accepts := by
    rw [List.map_flatMap, documents, List.filter_flatMap]
    simp only [Segment.hits_docs]
  unfold ranking
  rw [← hdocs]
  exact (sortHits_perm _).map _

theorem mem_ranking {q : Query} {segments : List Segment} {d : Stored} :
    d ∈ ranking q segments ↔ d ∈ documents segments ∧ q.accepts d = true := by
  rw [(ranking_perm q segments).mem_iff, List.mem_filter]

theorem length_ranking (q : Query) (segments : List Segment) :
    (ranking q segments).length = (documents segments).countP q.accepts := by
  rw [(ranking_perm q segments).length_eq, List.countP_eq_length_filter]

end GoToSymbol.Store
