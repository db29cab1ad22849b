import GoToSymbol.Store.Matching

namespace GoToSymbol.Query

open Text

/-- Puts a character in front of the first piece. -/
def lengthen (c : Char) : List (List Char) → List (List Char)
  | [] => [[c]]
  | p :: ps => (c :: p) :: ps

/-- The pieces of a text that is cut before every ASCII capital but the first character. -/
def humps : List Char → List (List Char)
  | [] => [[]]
  | [c] => [[c]]
  | c :: d :: rest =>
    if isAsciiCapital d then [c] :: humps (d :: rest) else lengthen c (humps (d :: rest))

/-- The pieces of a text that is cut before every character but the first at which a hump begins. -/
def cutBefore (begins : Char → Bool) : List Char → List (List Char)
  | [] => [[]]
  | [c] => [[c]]
  | c :: d :: rest =>
    if begins d then [c] :: cutBefore begins (d :: rest)
    else lengthen c (cutBefore begins (d :: rest))

theorem humps_eq_cutBefore (s : List Char) : humps s = cutBefore isAsciiCapital s := by
  induction s with
  | nil => rfl
  | cons c rest ih =>
    cases rest with
    | nil => rfl
    | cons d rest => rw [humps, cutBefore, ih]

/-- The text consists of the pieces in their order, with any text after each of them. -/
def Spread (pieces : List (List Char)) (t : List Char) : Prop :=
  ∃ gaps : List (List Char), gaps.length = pieces.length ∧
    t = (List.zipWith (· ++ ·) pieces gaps).flatten

/-- The text holds none of the characters that a pattern gives a meaning to. -/
def Plain (s : List Char) : Prop := ∀ c ∈ s, c ≠ '*' ∧ c ≠ '?' ∧ c ≠ '['

instance (s : List Char) : Decidable (Plain s) := List.decidableBAll _ s

theorem flatten_lengthen (c : Char) (ps : List (List Char)) :
    (lengthen c ps).flatten = c :: ps.flatten := by
  cases ps <;> simp [lengthen]

/-- The first piece of a text begins as the text does. -/
theorem cutBefore_cons (begins : Char → Bool) (c : Char) (s : List Char) :
    ∃ x hs, cutBefore begins (c :: s) = (c :: x) :: hs := by
  cases s with
  | nil => exact ⟨[], [], rfl⟩
  | cons d rest =>
    rw [cutBefore]
    split
    · exact ⟨[], _, rfl⟩
    · cases cutBefore begins (d :: rest) with
      | nil => exact ⟨[], [], rfl⟩
      | cons p ps => exact ⟨p, ps, rfl⟩

/-- Nothing is lost where a text is cut. -/
theorem flatten_cutBefore {begins : Char → Bool} (s : List Char) : (cutBefore begins s).flatten = s := by
  induction s with
  | nil => rfl
  | cons c rest ih =>
    cases rest with
    | nil => rfl
    | cons d rest =>
      rw [cutBefore]
      split
      · rw [List.flatten_cons, ih]
        rfl
      · rw [flatten_lengthen, ih]

theorem humps_ne_nil (s : List Char) : humps s ≠ [] := by
  rw [humps_eq_cutBefore]
  cases s with
  | nil => simp [cutBefore]
  | cons c rest =>
    obtain ⟨x, hs, hcut⟩ := cutBefore_cons isAsciiCapital c rest
    simp [hcut]

theorem flatten_humps (s : List Char) : (humps s).flatten = s := by
  rw [humps_eq_cutBefore, flatten_cutBefore]

theorem spread_nil {t : List Char} : Spread [] t ↔ t = [] := by
  simp [Spread]

theorem spread_cons {p : List Char} {ps : List (List Char)} {t : List Char} :
    Spread (p :: ps) t ↔ ∃ w rest, t = p ++ w ++ rest ∧ Spread ps rest := by
  constructor
  · intro h
    obtain ⟨gaps, hlength, rfl⟩ := h
    cases gaps with
    | nil => simp at hlength
    | cons w gaps =>
      refine ⟨w, (List.zipWith (· ++ ·) ps gaps).flatten, by simp, gaps, ?_, rfl⟩
      simpa using hlength
  · intro h
    obtain ⟨w, rest, rfl, gaps, hlength, rfl⟩ := h
    exact ⟨w :: gaps, by simp [hlength], by simp⟩

/-- A text that begins with all pieces put together holds them with gaps. -/
theorem spread_of_prefix {ps : List (List Char)} (hps : ps ≠ []) (w : List Char) :
    Spread ps (ps.flatten ++ w) := by
  induction ps with
  | nil => exact absurd rfl hps
  | cons p ps ih =>
    rw [spread_cons]
    cases ps with
    | nil => exact ⟨w, [], by simp, spread_nil.mpr rfl⟩
    | cons q ps =>
      refine ⟨[], (q :: ps).flatten ++ w, by simp, ?_⟩
      exact ih (by simp)

/-- The parts of a pattern that asks for the pieces one after the other. -/
def humpParts (ps : List (List Char)) : List Part :=
  ps.flatMap fun p => p.map .literal ++ [.anyText]

theorem matchesParts_literals (p : List Char) (ps : List Part) (t : List Char) :
    matchesParts (p.map .literal ++ ps) t = true ↔ ∃ rest, t = p ++ rest ∧
      matchesParts ps rest = true := by
  induction p generalizing t with
  | nil => simp
  | cons c p ih =>
    cases t with
    | nil => simp [matchesParts]
    | cons d t =>
      simp only [List.map_cons, List.cons_append, matchesParts, Part.admits, Bool.and_eq_true,
        beq_iff_eq, ih]
      constructor
      · intro h
        obtain ⟨rfl, rest, rfl, h⟩ := h
        exact ⟨rest, rfl, h⟩
      · intro h
        obtain ⟨rest, heq, h⟩ := h
        cases heq
        exact ⟨rfl, rest, rfl, h⟩

theorem matchesParts_humpParts (ps : List (List Char)) (t : List Char) :
    matchesParts (humpParts ps) t = true ↔ Spread ps t := by
  induction ps generalizing t with
  | nil => simp [humpParts, matchesParts, spread_nil]
  | cons p ps ih =>
    have hparts : humpParts (p :: ps) = p.map .literal ++ .anyText :: humpParts ps := by
      simp [humpParts]
    rw [hparts, matchesParts_literals, spread_cons]
    constructor
    · intro h
      obtain ⟨tail, rfl, htail⟩ := h
      obtain ⟨w, rest, rfl, hrest⟩ := (matchesParts_anyText _ _).mp htail
      exact ⟨w, rest, by simp, (ih rest).mp hrest⟩
    · intro h
      obtain ⟨w, rest, rfl, hrest⟩ := h
      refine ⟨w ++ rest, by simp, ?_⟩
      exact (matchesParts_anyText _ _).mpr ⟨w, rest, rfl, (ih rest).mpr hrest⟩

theorem parts_star (s : List Char) : parts ('*' :: s) = .anyText :: parts s := by
  simp [parts, partsAfter]

theorem parts_cons {c : Char} (h : c ≠ '*' ∧ c ≠ '?' ∧ c ≠ '[') (s : List Char) :
    parts (c :: s) = .literal c :: parts s := by
  simp [parts, partsAfter, h]

theorem humpParts_lengthen (c : Char) {ps : List (List Char)} (hps : ps ≠ []) :
    humpParts (lengthen c ps) = .literal c :: humpParts ps := by
  cases ps with
  | nil => exact absurd rfl hps
  | cons p ps => simp [lengthen, humpParts]

/-- A star stands in the pattern just where the text is cut, and at its end. -/
theorem parts_camelPattern {s : List Char} (h : Plain s) :
    parts (camelPattern s) = humpParts (humps s) := by
  induction s with
  | nil => rfl
  | cons c rest ih =>
    have hc := h c List.mem_cons_self
    cases rest with
    | nil => rw [camelPattern, List.cons_append, parts_cons hc]; rfl
    | cons d rest =>
      have hrest := ih fun x hx => h x (List.mem_cons_of_mem c hx)
      unfold humps
      split
      · next hcapital =>
        have hpattern : camelPattern (c :: d :: rest) = c :: '*' :: camelPattern (d :: rest) := by
          simp [camelPattern, starCapitals, hcapital]
        rw [hpattern, parts_cons hc, parts_star, hrest]
        rfl
      · next hcapital =>
        have hpattern : camelPattern (c :: d :: rest) = c :: camelPattern (d :: rest) := by
          simp [camelPattern, starCapitals, hcapital]
        rw [hpattern, parts_cons hc, hrest, humpParts_lengthen c (humps_ne_nil _)]

/-- The pattern of a text without special characters admits the names with its humps. -/
theorem globMatches_camelPattern {s : List Char} (h : Plain s) (t : List Char) :
    globMatches (camelPattern s) t = true ↔ Spread (humps s) t := by
  unfold globMatches
  rw [parts_camelPattern h, matchesParts_humpParts]

example : humps "HaMAp".toList = ["Ha".toList, "M".toList, "Ap".toList] := by decide

open Store

theorem accepts_symbolName (text : String) (d : Stored) :
    (symbolName text).accepts d = true ↔
      ∃ f, d.fqn = some f ∧ ∃ t ∈ Name.tokens .index f.toList,
        text.toList <+: t ∨ t = text.toList ∨ globMatches (camelPattern text.toList) t = true := by
  have htokens : d.tokens fqnField =
      (d.fqn.map fun s => Name.tokens .index s.toList).getD [] := if_pos rfl
  have htests : (symbolName text).accepts d = true ↔ ∃ t ∈ d.tokens fqnField,
      text.toList <+: t ∨ t = text.toList ∨ globMatches (camelPattern text.toList) t = true := by
    simp only [symbolName, boosted, Option.map_some, Option.toList_some, List.map_cons,
      List.map_nil, accepts, acceptsAny, Bool.or_eq_true, List.any_eq_true, Bool.false_eq_true,
      or_false, ← exists_or, ← and_or_left]
    simp [TokenTest.admits, camelPatternText]
  rw [htests, htokens]
  cases d.fqn <;> simp

/-- A beginning and a whole token have the humps of a text as well. -/
theorem accepts_symbolName_plain {text : String} (h : Plain text.toList) (d : Stored) :
    (symbolName text).accepts d = true ↔
      ∃ f, d.fqn = some f ∧ ∃ t ∈ Name.tokens .index f.toList, Spread (humps text.toList) t := by
  have hbeginning (w : List Char) : Spread (humps text.toList) (text.toList ++ w) := by
    have hspread := spread_of_prefix (humps_ne_nil text.toList) w
    rwa [flatten_humps] at hspread
  have hspread (t : List Char) : text.toList <+: t ∨ t = text.toList ∨
      globMatches (camelPattern text.toList) t = true ↔ Spread (humps text.toList) t := by
    rw [globMatches_camelPattern h]
    constructor
    · intro h
      rcases h with ⟨w, rfl⟩ | rfl | hs
      · exact hbeginning w
      · simpa using hbeginning []
      · exact hs
    · exact fun hs => Or.inr (Or.inr hs)
  simp only [accepts_symbolName, hspread]

theorem accepts_ofVariant (v : Variant) (d : Stored) :
    (ofVariant v).accepts d = true ↔ d.tag = some v.tag := by
  cases h : d.tag with
  | none => simp [ofVariant, accepts, Stored.tokens, h, tagField, fileField, fqnField]
  | some tag =>
    simp [ofVariant, accepts, Stored.tokens, h, tagField, fileField, fqnField, TokenTest.admits,
      String.toList_inj]

theorem accepts_forClass (text : String) (d : Stored) : (forClass text).accepts d = true ↔
    (symbolName text).accepts d = true ∧ d.tag = some Variant.classes.tag := by
  rw [← accepts_ofVariant]
  simp [forClass, accepts, acceptsAll]

/-- A document has one tag, so that no class or method is left out for being a field. -/
theorem accepts_forClassOrMethod (text : String) (d : Stored) :
    (forClassOrMethod text).accepts d = true ↔ (symbolName text).accepts d = true ∧
      (d.tag = some Variant.classes.tag ∨ d.tag = some Variant.methods.tag) := by
  have hkept : acceptsAny [ofVariant .classes, ofVariant .methods] d = true ↔
      d.tag = some Variant.classes.tag ∨ d.tag = some Variant.methods.tag := by
    rw [← accepts_ofVariant, ← accepts_ofVariant]
    simp [acceptsAny]
  have hfield : d.tag = some Variant.classes.tag ∨ d.tag = some Variant.methods.tag →
      ¬ (ofVariant .fields).accepts d = true := by
    intro h
    rw [accepts_ofVariant]
    rcases h with h | h
    · simp [h, Variant.tag]
    · simp [h, Variant.tag]
  simp only [forClassOrMethod, accepts, acceptsAll, Bool.and_true, Bool.and_eq_true,
    Bool.not_eq_eq_eq_not, Bool.not_true, ← Bool.not_eq_true, hkept]
  exact and_congr_right fun _ => and_iff_left_of_imp hfield

theorem accepts_forTerms (terms : List String) (d : Stored) :
    (forTerms terms).accepts d = true ↔ ∃ t ∈ terms, (forClassOrMethod t).accepts d = true := by
  simp [forTerms, accepts, acceptsAny_eq_any]

end GoToSymbol.Query
