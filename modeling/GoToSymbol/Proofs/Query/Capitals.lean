import GoToSymbol.Proofs.Query.Humps
import Mathlib.Data.List.Forall2

namespace GoToSymbol.Text

/-- The ASCII capitals are capitals. -/
theorem isUpper_of_isAsciiCapital {c : Char} (h : isAsciiCapital c = true) : isUpper c = true := by
  obtain ⟨hfirst, hlast⟩ : 'A' ≤ c ∧ c ≤ 'Z' := by simpa [isAsciiCapital] using h
  have hlow : 0x41 ≤ c.toNat := hfirst
  have hhigh : c.toNat ≤ 0x5A := hlast
  have hrun : Run.has ⟨0x41, 0x5A, 1⟩ c.toNat = true := by simp [Run.has, hlow, hhigh, Nat.mod_one]
  unfold isUpper uppercaseRuns
  rw [inRuns, if_neg (Nat.not_lt.mpr hlow), hrun, Bool.true_or]

theorem isAsciiCapital_eq_false {c : Char} (h : isUpper c = false) : isAsciiCapital c = false := by
  by_contra hcapital
  rw [isUpper_of_isAsciiCapital (by simpa using hcapital)] at h
  exact absurd h (by simp)

end GoToSymbol.Text

namespace GoToSymbol.Query

open Text

/-- A star before every character but the first at which a hump begins, and one at the end. -/
def starBefore (begins : Char → Bool) : List Char → List Char
  | [] => ['*']
  | c :: rest => c :: (rest.flatMap fun d => if begins d then ['*', d] else [d]) ++ ['*']

theorem camelPattern_eq_starBefore (s : List Char) : camelPattern s = starBefore isAsciiCapital s := by
  cases s with
  | nil => rfl
  | cons c rest => rfl

section Cut

variable {begins : Char → Bool}

/-- What begins no hump stays in one piece with what stands before it. -/
theorem cutBefore_quiet {x : List Char} (hx : ∀ d ∈ x, begins d = false) (c : Char) :
    cutBefore begins (c :: x) = [c :: x] := by
  induction x generalizing c with
  | nil => rfl
  | cons d rest ih =>
    rw [cutBefore, if_neg (by simp [hx d List.mem_cons_self]),
      ih (fun e he => hx e (List.mem_cons_of_mem d he)) d]
    rfl

theorem cutBefore_quiet_append {x : List Char} (hx : ∀ d ∈ x, begins d = false) (c d : Char)
    (s : List Char) : cutBefore begins (c :: (x ++ d :: s)) =
      if begins d then (c :: x) :: cutBefore begins (d :: s)
      else (c :: x).foldr lengthen (cutBefore begins (d :: s)) := by
  induction x generalizing c with
  | nil => rw [List.nil_append, cutBefore]; rfl
  | cons e rest ih =>
    rw [List.cons_append, cutBefore, if_neg (by simp [hx e List.mem_cons_self]),
      ih (fun e' he => hx e' (List.mem_cons_of_mem e he)) e]
    split
    · rfl
    · rfl

end Cut

section Spread

variable {ps : List (List Char)} {t : List Char}

theorem lengthen_ne_nil (c : Char) (ps : List (List Char)) : lengthen c ps ≠ [] := by
  cases ps <;> simp [lengthen]

theorem spread_lengthen {c : Char} (hps : ps ≠ []) :
    Spread (lengthen c ps) t ↔ ∃ rest, t = c :: rest ∧ Spread ps rest := by
  cases ps with
  | nil => exact absurd rfl hps
  | cons p ps =>
    simp only [lengthen, spread_cons]
    constructor
    · rintro ⟨w, rest, rfl, h⟩
      exact ⟨p ++ w ++ rest, rfl, w, rest, rfl, h⟩
    · rintro ⟨_, rfl, w, rest, rfl, h⟩
      exact ⟨w, rest, rfl, h⟩

/-- A text put in front of the first piece comes first, without a gap. -/
theorem spread_foldr_lengthen {s : List Char} (hps : ps ≠ []) :
    Spread (s.foldr lengthen ps) t ↔ ∃ rest, t = s ++ rest ∧ Spread ps rest := by
  induction s generalizing t with
  | nil => simp
  | cons c s ih =>
    have hnext : s.foldr lengthen ps ≠ [] := by
      cases s with
      | nil => exact hps
      | cons d s => exact lengthen_ne_nil d _
    rw [List.foldr_cons, spread_lengthen hnext]
    constructor
    · rintro ⟨_, rfl, h⟩
      obtain ⟨rest, rfl, hrest⟩ := ih.mp h
      exact ⟨rest, rfl, hrest⟩
    · rintro ⟨rest, rfl, h⟩
      exact ⟨s ++ rest, rfl, ih.mpr ⟨rest, rfl, h⟩⟩

/-- All characters of the pieces occur in the text. -/
theorem countP_le_of_spread (f : Char → Bool) (h : Spread ps t) :
    ps.flatten.countP f ≤ t.countP f := by
  induction ps generalizing t with
  | nil => exact Nat.zero_le _
  | cons p ps ih =>
    obtain ⟨w, rest, rfl, hrest⟩ := spread_cons.mp h
    have hle := ih hrest
    simp only [List.flatten_cons, List.countP_append]
    omega

/-- A text in which pieces are found begins as they do. -/
theorem spread_humps_cons {c : Char} {s : List Char} (h : Spread (humps (c :: s)) t) :
    ∃ rest, t = c :: rest := by
  obtain ⟨x, hs, hcut⟩ := cutBefore_cons isAsciiCapital c s
  rw [humps_eq_cutBefore, hcut] at h
  obtain ⟨w, rest, rfl, _⟩ := spread_cons.mp h
  exact ⟨_, rfl⟩

end Spread

/-- The pieces of a text that is cut before its capitals. -/
inductive Humped : List (List Char) → Prop where
  | last {c : Char} {x : List Char} (hx : ∀ e ∈ x, isUpper e = false) : Humped [c :: x]
  | next {c d : Char} {x y : List Char} {hs : List (List Char)}
    (hx : ∀ e ∈ x, isUpper e = false) (hd : isUpper d = true) (h : Humped ((d :: y) :: hs)) :
    Humped ((c :: x) :: (d :: y) :: hs)

theorem Humped.lengthen {c d : Char} {y : List Char} {hs : List (List Char)}
    (h : Humped ((d :: y) :: hs)) (hd : isUpper d = false) : Humped ((c :: d :: y) :: hs) := by
  cases h with
  | last hx => exact .last (List.forall_mem_cons.mpr ⟨hd, hx⟩)
  | next hx hd' h => exact .next (List.forall_mem_cons.mpr ⟨hd, hx⟩) hd' h

theorem humped_cutBefore (c : Char) (s : List Char) : Humped (cutBefore isUpper (c :: s)) := by
  induction s generalizing c with
  | nil => exact .last (by simp)
  | cons d rest ih =>
    obtain ⟨x, hs, hcut⟩ := cutBefore_cons isUpper d rest
    have hnext := ih d
    rw [cutBefore, hcut] at *
    split
    · next hd => exact .next (by simp) hd hnext
    · next hd => exact hnext.lengthen (by simpa using hd)

/-- Each piece but the first one has one capital. -/
theorem Humped.countP {c : Char} {x : List Char} {hs : List (List Char)}
    (h : Humped ((c :: x) :: hs)) : (x ++ hs.flatten).countP isUpper = hs.length := by
  generalize hall : (c :: x) :: hs = all at h
  induction h generalizing c x hs with
  | last hx =>
    cases hall
    simpa using hx
  | @next _ d x y hs hx hd h ih =>
    cases hall
    have hquiet : List.countP isUpper x = 0 := by simpa using hx
    have hrest := ih rfl
    rw [List.countP_append, List.flatten_cons, List.cons_append, List.countP_cons_of_pos hd,
      List.length_cons, hquiet, hrest, Nat.zero_add]

/-- Where the first piece begins with a capital, too, there are as many capitals as pieces. -/
theorem Humped.countP_flatten {c : Char} {x : List Char} {hs : List (List Char)}
    (h : Humped ((c :: x) :: hs)) (hc : isUpper c = true) :
    ((c :: x) :: hs).flatten.countP isUpper = hs.length + 1 := by
  rw [List.flatten_cons, List.cons_append, List.countP_cons_of_pos hc, h.countP]

/-- A beginning of a hump, of one character or more. -/
def Opens (p h : List Char) : Prop := p ≠ [] ∧ p <+: h

theorem Opens.cons {p x : List Char} {c : Char} (h : Opens p (c :: x)) :
    ∃ u v, p = c :: u ∧ x = u ++ v := by
  obtain ⟨hne, v, hv⟩ := h
  cases p with
  | nil => exact absurd rfl hne
  | cons d u =>
    cases hv
    exact ⟨u, v, rfl, rfl⟩

theorem forall₂_opens_cons {qs hs : List (List Char)} {c : Char} {x : List Char}
    (h : List.Forall₂ Opens qs ((c :: x) :: hs)) :
    ∃ u v ps, qs = (c :: u) :: ps ∧ x = u ++ v ∧ List.Forall₂ Opens ps hs := by
  obtain ⟨p, ps, hp, hps, rfl⟩ := List.forall₂_cons_right_iff.mp h
  obtain ⟨u, v, rfl, rfl⟩ := hp.cons
  exact ⟨u, v, ps, rfl, rfl, hps⟩

theorem mem_flatten_of_opens {ps hs : List (List Char)} (h : List.Forall₂ Opens ps hs) {c : Char}
    (hc : c ∈ ps.flatten) : c ∈ hs.flatten := by
  induction h with
  | nil => exact hc
  | cons hp _ ih =>
    rw [List.flatten_cons, List.mem_append] at *
    exact hc.imp hp.2.mem ih

/-- Beginnings of humps are humps themselves. -/
theorem Humped.opens {ps hs : List (List Char)} (hh : Humped hs) (h : List.Forall₂ Opens ps hs) :
    Humped ps := by
  induction hh generalizing ps with
  | last hx =>
    obtain ⟨u, v, _, rfl, rfl, hnil⟩ := forall₂_opens_cons h
    cases hnil
    exact .last fun e he => hx e (List.mem_append_left v he)
  | next hx hd _ ih =>
    obtain ⟨u, v, qs, rfl, rfl, hqs⟩ := forall₂_opens_cons h
    obtain ⟨u', _, ps, rfl, rfl, _⟩ := forall₂_opens_cons hqs
    exact .next (fun e he => hx e (List.mem_append_left v he)) hd (ih hqs)

/-- Before a hump with a capital outside ASCII, nothing of a hump is left out. -/
def WholeBeforeOthers : List (List Char) → List (List Char) → Prop
  | p :: ps, h :: k :: hs =>
    (k.head?.all isAsciiCapital = true ∨ p = h) ∧ WholeBeforeOthers ps (k :: hs)
  | _, _ => True

section Match

variable {d : Char} {u v w rest y : List Char} {ps hs : List (List Char)}

/-- Nothing can be skipped before a capital: the pieces have as many capitals as the humps. -/
theorem rest_of_spread (hv : ∀ e ∈ v, isUpper e = false) (hd : isUpper d = true)
    (hhumps : Humped ((d :: y) :: hs)) (hpieces : Humped ((d :: u) :: ps))
    (hlength : ps.length = hs.length) (happend : v ++ ((d :: y) :: hs).flatten = w ++ rest)
    (h : Spread (humps ((d :: u) :: ps).flatten) rest) : rest = ((d :: y) :: hs).flatten := by
  obtain ⟨rest, rfl⟩ := spread_humps_cons h
  have hneeded := countP_le_of_spread isUpper h
  rw [flatten_humps, hpieces.countP_flatten hd, hlength, ← hhumps.countP_flatten hd] at hneeded
  rcases List.append_eq_append_iff.mp happend with ⟨a, _, hlate⟩ | ⟨a, rfl, hearly⟩
  · cases a with
    | nil => exact hlate.symm
    | cons e a =>
      -- What is passed over begins with the capital of the first hump.
      obtain rfl : d = e := by
        rw [List.flatten_cons, List.cons_append, List.cons_append] at hlate
        exact (List.cons.inj hlate).1
      rw [hlate, List.countP_append, List.countP_cons_of_pos hd] at hneeded
      omega
  · cases a with
    | nil => exact hearly
    | cons e a =>
      obtain rfl : d = e := by
        rw [List.cons_append] at hearly
        exact (List.cons.inj hearly).1
      exact absurd hd (by simp [hv d (by simp)])

/-- Without a gap before a capital, nothing of the hump before it may be left out. -/
theorem nothing_left_out (hv : ∀ e ∈ v, isUpper e = false) (hd : isUpper d = true) {s t : List Char}
    (h : Spread (humps (d :: s)) (v ++ t)) : v = [] := by
  obtain ⟨rest, hrest⟩ := spread_humps_cons h
  cases v with
  | nil => rfl
  | cons e v =>
    obtain rfl : e = d := (List.cons.inj hrest).1
    exact absurd hd (by simp [hv e List.mem_cons_self])

/-- Before a capital that the pattern knows, the rest of the hump may be passed over. -/
theorem spread_known {c : Char} {s t : List Char} (hu : ∀ e ∈ u, isAsciiCapital e = false)
    (hd : isAsciiCapital d = true) :
    Spread (humps (c :: (u ++ d :: s))) (c :: (u ++ t)) ↔
      ∃ w rest, t = w ++ rest ∧ Spread (humps (d :: s)) rest := by
  rw [humps_eq_cutBefore, cutBefore_quiet_append hu, if_pos hd, ← humps_eq_cutBefore, spread_cons]
  simp only [List.cons_append, List.append_assoc, List.cons.injEq, true_and,
    List.append_cancel_left_eq]

/-- A capital that the pattern does not know must follow at once. -/
theorem spread_unknown {c : Char} {s t : List Char} (hu : ∀ e ∈ u, isAsciiCapital e = false)
    (hd : ¬ isAsciiCapital d = true) :
    Spread (humps (c :: (u ++ d :: s))) (c :: (u ++ t)) ↔ Spread (humps (d :: s)) t := by
  rw [humps_eq_cutBefore, cutBefore_quiet_append hu, if_neg hd, ← humps_eq_cutBefore,
    spread_foldr_lengthen (humps_ne_nil _)]
  simp only [List.cons_append, List.cons.injEq, true_and, List.append_cancel_left_eq,
    exists_eq_left']

/-- Beginnings of the humps of a name have the pattern of the name just where nothing is left out
before a capital that the pattern does not know. -/
theorem spread_humps_iff {hs qs : List (List Char)} (hh : Humped hs)
    (hqs : List.Forall₂ Opens qs hs) :
    Spread (humps qs.flatten) hs.flatten ↔ WholeBeforeOthers qs hs := by
  induction hh generalizing qs with
  | @last c x hx =>
    obtain ⟨u, v, _, rfl, rfl, hnil⟩ := forall₂_opens_cons hqs
    cases hnil
    have hu : ∀ e ∈ u, isAsciiCapital e = false := fun e he =>
      isAsciiCapital_eq_false (hx e (List.mem_append_left v he))
    rw [List.flatten_singleton, humps_eq_cutBefore, cutBefore_quiet hu]
    exact iff_of_true (spread_cons.mpr ⟨v, [], by simp, spread_nil.mpr rfl⟩) trivial
  | @next c d x y hs hx hd hh ih =>
    obtain ⟨u, v, ps, rfl, rfl, hps⟩ := forall₂_opens_cons hqs
    have hrest := ih hps
    have hpieces := hh.opens hps
    have hlength := hps.length_eq
    obtain ⟨u', v', ps, rfl, rfl, _⟩ := forall₂_opens_cons hps
    have hu : ∀ e ∈ u, isAsciiCapital e = false := fun e he =>
      isAsciiCapital_eq_false (hx e (List.mem_append_left v he))
    have hv : ∀ e ∈ v, isUpper e = false := fun e he => hx e (List.mem_append_right u he)
    have hquery : ((c :: u) :: (d :: u') :: ps).flatten = c :: (u ++ d :: (u' ++ ps.flatten)) := by
      simp
    have hname : ((c :: (u ++ v)) :: (d :: (u' ++ v')) :: hs).flatten =
        c :: (u ++ (v ++ ((d :: (u' ++ v')) :: hs).flatten)) := by simp
    rw [hquery, hname, WholeBeforeOthers, ← hrest]
    by_cases hascii : isAsciiCapital d = true
    · rw [spread_known hu hascii]
      simp only [List.head?_cons, Option.all_some, hascii, true_or, true_and]
      constructor
      · intro h
        obtain ⟨w, rest, happend, h⟩ := h
        rwa [← rest_of_spread hv hd hh hpieces (by simpa using hlength) happend h]
      · intro h
        exact ⟨v, _, rfl, h⟩
    · rw [spread_unknown hu hascii]
      simp only [List.head?_cons, Option.all_some, hascii, Bool.false_eq_true, false_or,
        List.cons.injEq, true_and, List.self_eq_append_right]
      constructor
      · intro h
        obtain rfl := nothing_left_out hv hd h
        exact ⟨rfl, h⟩
      · intro h
        obtain ⟨rfl, h⟩ := h
        exact h

end Match

/-- Stars before different characters make different patterns. -/
theorem stars_eq_iff {f g : Char → Bool} (hf : f '*' = false) (hg : g '*' = false) (s : List Char) :
    (s.flatMap fun d => if f d then ['*', d] else [d]) =
      (s.flatMap fun d => if g d then ['*', d] else [d]) ↔ ∀ d ∈ s, f d = g d := by
  induction s with
  | nil => simp
  | cons c s ih =>
    rw [List.flatMap_cons, List.flatMap_cons, List.forall_mem_cons, ← ih]
    by_cases hsame : f c = g c
    · simp only [hsame, List.append_cancel_left_eq, true_and]
    · refine iff_of_false (fun h => hsame ?_) (fun h => hsame h.1)
      -- One of the two begins with a star, the other with the character itself.
      have hstar : c = '*' := by
        cases hfc : f c with
        | false =>
          have hgc : g c = true := by simpa [hfc] using hsame
          simp only [hfc, hgc, if_true, Bool.false_eq_true, if_false, List.cons_append,
            List.cons.injEq] at h
          exact h.1
        | true =>
          have hgc : g c = false := by simpa [hfc] using hsame
          simp only [hfc, hgc, if_true, Bool.false_eq_true, if_false, List.cons_append,
            List.cons.injEq] at h
          exact h.1.symm
      rw [hstar, hf, hg]

theorem starBefore_eq_iff {f g : Char → Bool} (hf : f '*' = false) (hg : g '*' = false)
    (s : List Char) : starBefore f s = starBefore g s ↔ ∀ d ∈ s.tail, f d = g d := by
  cases s with
  | nil => simp [starBefore]
  | cons c rest =>
    simp only [starBefore, List.tail_cons, ← stars_eq_iff hf hg, List.cons_append, List.cons.injEq,
      true_and, List.append_cancel_right_eq]

/-- A query and a name agree on what a capital is as far as ASCII goes. The pattern of a query has a
star before every capital but the first character if and only if those capitals are all ASCII. The
pattern made of a beginning of each hump of a name admits the name if and only if a hump of which
something is left out stands at the end or before an ASCII capital. -/
theorem camelPattern_capitals (query : List Char) {name : List Char} (hname : Plain name)
    {ps : List (List Char)} (hps : List.Forall₂ Opens ps (cutBefore isUpper name)) :
    (camelPattern query = starBefore isUpper query ↔
        ∀ c ∈ Name.camelFragment query.tail, isAsciiCapital c = true) ∧
      (globMatches (camelPattern ps.flatten) name = true ↔
        WholeBeforeOthers ps (cutBefore isUpper name)) := by
  constructor
  · rw [camelPattern_eq_starBefore, eq_comm, starBefore_eq_iff (by decide) (by decide)]
    simp only [Name.camelFragment, List.mem_filter, and_imp]
    refine forall₂_congr fun c _ => ⟨fun h hc => h ▸ hc, fun h => ?_⟩
    rw [Bool.eq_iff_iff]
    exact ⟨h, isUpper_of_isAsciiCapital⟩
  · cases name with
    | nil =>
      obtain ⟨p, _, hp, _, _⟩ := List.forall₂_cons_right_iff.mp hps
      exact absurd (List.prefix_nil.mp hp.2) hp.1
    | cons c s =>
      have hplain : Plain ps.flatten := fun e he => hname e (by
        rw [← @flatten_cutBefore isUpper (c :: s)]
        exact mem_flatten_of_opens hps he)
      have hspread := spread_humps_iff (humped_cutBefore c s) hps
      rwa [flatten_cutBefore, ← globMatches_camelPattern hplain] at hspread

/-- A name with a capital outside ASCII. -/
def accentedName : List Char := "GrandÉtat".toList

theorem cutBefore_accentedName :
    cutBefore isUpper accentedName = ["Grand".toList, "État".toList] := by decide

/-- The whole first hump and a beginning of the second one admit the name. -/
theorem camelPattern_capitals_accented :
    List.Forall₂ Opens ["Grand".toList, "Ét".toList] (cutBefore isUpper accentedName) ∧
      (camelPattern "grandÉt".toList = starBefore isUpper "grandÉt".toList ↔
        ∀ c ∈ Name.camelFragment "randÉt".toList, isAsciiCapital c = true) ∧
      globMatches (camelPattern "GrandÉt".toList) accentedName = true := by
  have hopens : List.Forall₂ Opens ["Grand".toList, "Ét".toList]
      (cutBefore isUpper accentedName) := by
    rw [cutBefore_accentedName]
    exact .cons ⟨by decide, by decide⟩ (.cons ⟨by decide, by decide⟩ .nil)
  obtain ⟨hstars, hmatch⟩ := camelPattern_capitals "grandÉt".toList (by decide) hopens
  have hwhole : WholeBeforeOthers ["Grand".toList, "Ét".toList] (cutBefore isUpper accentedName) := by
    rw [cutBefore_accentedName]
    exact ⟨Or.inr rfl, trivial⟩
  exact ⟨hopens, hstars, hmatch.mpr hwhole⟩

/-- A beginning of the first hump that is not all of it and a beginning of the second one do not:
the pattern has no star before the accented capital. -/
theorem camelPattern_misses_accented :
    List.Forall₂ Opens ["Gr".toList, "Ét".toList] (cutBefore isUpper accentedName) ∧
      camelPattern "GrÉt".toList = "GrÉt*".toList ∧
      starBefore isUpper "GrÉt".toList = "Gr*Ét*".toList ∧
      ¬ globMatches (camelPattern "GrÉt".toList) accentedName = true := by
  rw [cutBefore_accentedName]
  exact ⟨.cons ⟨by decide, by decide⟩ (.cons ⟨by decide, by decide⟩ .nil), by decide, by decide,
    by decide⟩

end GoToSymbol.Query
