import GoToSymbol.Index.Service
import GoToSymbol.Store.Segment
import Mathlib.Data.List.Forall2

namespace GoToSymbol

open Store

/-- What the store keeps of an entry with a boost. -/
def Entry.stored (cwd : File.Path) (boost : Float) (e : Entry) : Stored :=
  ⟨e.fqn.text?, e.file.map fun f => File.uri cwd (.check f), some e.variant.tag, boost⟩

/-- What the store keeps of a symbol that is indexed; of a symbol without an entry it keeps
nothing. -/
def Symbol.stored? (cwd : File.Path) (policy : Relevance.Policy) (prioritized : Bool) (s : Symbol) :
    Option Stored := do
  let e ← Entry.ofSymbol? s
  let b ← (Relevance.boost policy prioritized s.fqn.toList).toOption
  return e.stored cwd b

def Submission.stored? (cwd : File.Path) (policy : Relevance.Policy) (prioritized : Bool) :
    Submission → Option Stored
  | symbol s => s.stored? cwd policy prioritized
  | unsupported _ => none

/-- Whether a symbol is indexed: it is worth an entry and has a name. -/
def Symbol.isIndexed (s : Symbol) : Bool := s.isIndexable && !s.fqn.isEmpty

theorem Symbol.isSome_entry (s : Symbol) : (Entry.ofSymbol? s).isSome = s.isIndexed := by
  unfold Entry.ofSymbol? isIndexed
  split
  · next h => exact h.symm
  · next h => simpa using h

theorem Symbol.entry_of_classLike {s : Symbol} {synthetic decompiled : Bool}
    (hk : s.kind = .classLike synthetic decompiled) (hi : s.isIndexable = true) (hf : s.fqn ≠ "") :
    Entry.ofSymbol? s = some ⟨.classes, .text s.fqn, some s.file⟩ := by
  simp [Entry.ofSymbol?, hi, hf, hk]

theorem Entry.fqn_of_symbol {s : Symbol} {e : Entry} (h : ofSymbol? s = some e) :
    e.fqn = .text s.fqn ∧ e.file = some s.file := by
  unfold ofSymbol? at h
  split at h
  · cases h
    exact ⟨rfl, rfl⟩
  · exact absurd h (by simp)

namespace Service

variable {cwd : File.Path} {policy : Relevance.Policy} {prioritized : Bool}

theorem boostName_fqn : Document.boostName "fqn" = "_fqn_boost" := by decide

/-- The store takes the three fields of a document and the boost of its name. -/
theorem ofDocument_fields (uri f tag : String) (b : Float) :
    Stored.ofDocument ⟨[(fileField, .text uri), (fqnField, .text f), (tagField, .text tag)],
      [(fqnField, b)]⟩ = .ok ⟨some f, some uri, some tag, b⟩ := by
  have hfields : Document.writerFields ⟨[(fileField, .text uri), (fqnField, .text f),
      (tagField, .text tag)], [(fqnField, b)]⟩
      = [(fileField, .text uri), (fqnField, .text f), (tagField, .text tag),
        ("_fqn_boost", .float b)] := by
    simp [Document.writerFields, boostName_fqn, Value.set, fileField, fqnField, tagField]
  have hnames : ([fileField, fqnField, tagField, "_fqn_boost"].filter Stored.isField).filter
      (fun n => !Stored.fieldNames.contains n) = [] := by decide
  unfold Stored.ofDocument Stored.ofWriterFields Stored.unknownField?
  rw [hfields]
  simp only [List.map_cons, List.map_nil, hnames, List.foldl_nil]
  simp [Stored.textField, Stored.boostOf, boostName_fqn, Value.get?, fileField, fqnField,
    tagField, Bind.bind, Except.bind, Pure.pure, Except.pure]

/-- A document with a boost goes into the store with all its fields. -/
theorem ofDocument_boosted {e : Entry} {f : String} (hf : e.fqn = .text f) {d : Document}
    (h : boostedDocument cwd policy prioritized e = .ok d) :
    ∃ b, Relevance.boost policy prioritized f.toList = .ok b ∧
      Stored.ofDocument d = .ok (e.stored cwd b) := by
  obtain ⟨v, fqn, file⟩ := e
  change fqn = .text f at hf
  subst hf
  cases file with
  | none => exact absurd h (by simp [boostedDocument, Entry.toDocument, Bind.bind, Except.bind])
  | some file =>
    simp only [boostedDocument, Entry.toDocument, Value.plain, Bind.bind, Except.bind] at h
    cases hb : Relevance.boost policy prioritized f.toList with
    | error e =>
      rw [hb] at h
      exact absurd h (by simp [Except.mapError])
    | ok b =>
      rw [hb] at h
      simp only [Except.mapError, Document.setBoost] at h
      split at h
      · exact absurd h (by simp)
      · cases h
        exact ⟨b, rfl, ofDocument_fields _ _ _ _⟩

/-- What the documents of a list come from. -/
theorem buildDocuments_cons {x : Submission} {rest : List Submission} {ds : List Document}
    (h : buildDocuments cwd policy prioritized (x :: rest) = .ok ds) :
    (x.entry = .ok none ∧ buildDocuments cwd policy prioritized rest = .ok ds) ∨
      ∃ e d ds', x.entry = .ok (some e) ∧ boostedDocument cwd policy prioritized e = .ok d ∧
        buildDocuments cwd policy prioritized rest = .ok ds' ∧ ds = d :: ds' := by
  simp only [buildDocuments, Bind.bind, Except.bind] at h
  cases hx : x.entry with
  | error f =>
    rw [hx] at h
    exact absurd h (by simp)
  | ok entry =>
    cases entry with
    | none =>
      rw [hx] at h
      exact Or.inl ⟨rfl, h⟩
    | some e =>
      rw [hx] at h
      cases hd : boostedDocument cwd policy prioritized e with
      | error f =>
        simp only [hd] at h
        exact absurd h (by simp)
      | ok d =>
        cases hrest : buildDocuments cwd policy prioritized rest with
        | error f =>
          simp only [hd, hrest] at h
          exact absurd h (by simp)
        | ok ds' =>
          simp only [hd, hrest] at h
          cases h
          exact Or.inr ⟨e, d, ds', rfl, hd, rfl, rfl⟩

/-- The store keeps just what has an entry. -/
theorem stored?_of_entry {x : Submission} {e : Entry} {d : Document}
    (he : x.entry = .ok (some e)) (hd : boostedDocument cwd policy prioritized e = .ok d) :
    ∃ b, Stored.ofDocument d = .ok (e.stored cwd b) ∧
      x.stored? cwd policy prioritized = some (e.stored cwd b) := by
  cases x with
  | unsupported v => exact absurd he (by simp [Submission.entry])
  | symbol s =>
    have hs : Entry.ofSymbol? s = some e := by simpa [Submission.entry] using he
    obtain ⟨hfqn, _⟩ := Entry.fqn_of_symbol hs
    obtain ⟨b, hb, hstored⟩ := ofDocument_boosted hfqn hd
    exact ⟨b, hstored, by simp [Submission.stored?, Symbol.stored?, hs, hb, Except.toOption]⟩

theorem stored?_of_no_entry {x : Submission} (hx : x.entry = .ok none) :
    x.stored? cwd policy prioritized = none := by
  cases x with
  | unsupported v => rfl
  | symbol s =>
    have hs : Entry.ofSymbol? s = none := by simpa [Submission.entry] using hx
    simp [Submission.stored?, Symbol.stored?, hs]

/-- The store takes all documents that are built, one for each symbol that is indexed. -/
theorem buildDocuments_stored {symbols : List Submission} {ds : List Document}
    (h : buildDocuments cwd policy prioritized symbols = .ok ds) :
    List.Forall₂ (fun d x => Stored.ofDocument d = .ok x) ds
      (symbols.filterMap (·.stored? cwd policy prioritized)) := by
  induction symbols generalizing ds with
  | nil =>
    cases h
    exact List.Forall₂.nil
  | cons x rest ih =>
    rcases buildDocuments_cons h with ⟨hx, hrest⟩ | ⟨e, d, ds', hx, hd, hrest, rfl⟩
    · rw [List.filterMap_cons_none (stored?_of_no_entry hx)]
      exact ih hrest
    · obtain ⟨b, hstored, hsome⟩ := stored?_of_entry hx hd
      rw [List.filterMap_cons_some hsome]
      exact List.Forall₂.cons hstored (ih hrest)

/-- Where all documents could be built, there is one of each symbol that has an entry. -/
theorem stored?_of_built {symbols : List Submission} {ds : List Document}
    (h : buildDocuments cwd policy prioritized symbols = .ok ds) {x : Submission} {e : Entry}
    (hmem : x ∈ symbols) (hx : x.entry = .ok (some e)) :
    ∃ b, x.stored? cwd policy prioritized = some (e.stored cwd b) := by
  induction symbols generalizing ds with
  | nil => exact absurd hmem List.not_mem_nil
  | cons y rest ih =>
    rcases buildDocuments_cons h with ⟨hy, hrest⟩ | ⟨e', d, ds', hy, hd, hrest, _⟩
    · rcases List.mem_cons.mp hmem with rfl | hmem
      · exact absurd (hx.symm.trans hy) (by simp)
      · exact ih hrest hmem
    · rcases List.mem_cons.mp hmem with rfl | hmem
      · cases hx.symm.trans hy
        obtain ⟨b, _, hsome⟩ := stored?_of_entry hx hd
        exact ⟨b, hsome⟩
      · exact ih hrest hmem

/-- The document of an entry is built where its name has a positive boost. -/
theorem boostedDocument_ok_iff {s : Symbol} {e : Entry} (he : Entry.ofSymbol? s = some e) :
    (∃ d, boostedDocument cwd policy prioritized e = .ok d) ↔
      ∃ b, Relevance.boost policy prioritized s.fqn.toList = .ok b ∧ ¬ b ≤ 0.0 := by
  obtain ⟨hfqn, hfile⟩ := Entry.fqn_of_symbol he
  obtain ⟨v, fqn, file⟩ := e
  simp only at hfqn hfile
  subst hfqn hfile
  simp only [boostedDocument, Entry.toDocument, Value.plain, Bind.bind, Except.bind]
  cases hb : Relevance.boost policy prioritized s.fqn.toList with
  | error f => simp [Except.mapError]
  | ok b =>
    by_cases hpositive : b ≤ 0.0
    · simp [Except.mapError, Document.setBoost, hpositive]
    · simp [Except.mapError, Document.setBoost, hpositive]

/-- All documents of some symbols are built just where each name that is indexed has a positive
boost. -/
theorem buildDocuments_ok_iff {symbols : List Symbol} :
    (∃ ds, buildDocuments cwd policy prioritized (symbols.map .symbol) = .ok ds) ↔
      ∀ s ∈ symbols, s.isIndexed = true →
        ∃ b, Relevance.boost policy prioritized s.fqn.toList = .ok b ∧ ¬ b ≤ 0.0 := by
  induction symbols with
  | nil => simp [buildDocuments]
  | cons s rest ih =>
    rw [List.forall_mem_cons, ← ih, ← Symbol.isSome_entry]
    simp only [List.map_cons, buildDocuments, Submission.entry, Bind.bind, Except.bind]
    cases he : Entry.ofSymbol? s with
    | none => simp
    | some e =>
      have hhead : (∃ d, boostedDocument cwd policy prioritized e = .ok d) ↔ _ :=
        boostedDocument_ok_iff he
      simp only [Option.isSome_some, forall_const]
      rw [← hhead]
      cases boostedDocument cwd policy prioritized e with
      | error f => simp
      | ok d =>
        cases buildDocuments cwd policy prioritized (rest.map .symbol) with
        | error f => simp
        | ok ds => simp [Pure.pure, Except.pure]

/-- Each symbol that is indexed adds one document, and no other symbol adds any. -/
theorem stored?_indexed {symbols : List Symbol} {ds : List Document}
    (h : buildDocuments cwd policy prioritized (symbols.map .symbol) = .ok ds) :
    (symbols.filter (·.isIndexed)).map (·.stored? cwd policy prioritized) =
      ((symbols.map Submission.symbol).filterMap (·.stored? cwd policy prioritized)).map some := by
  have hbuilt := buildDocuments_ok_iff.mp ⟨ds, h⟩
  clear h
  induction symbols with
  | nil => rfl
  | cons s rest ih =>
    have hrest := ih fun t ht => hbuilt t (List.mem_cons_of_mem s ht)
    have hsame : (Submission.symbol s).stored? cwd policy prioritized
        = s.stored? cwd policy prioritized := rfl
    rw [List.map_cons]
    cases he : Entry.ofSymbol? s with
    | none =>
      have hno : s.isIndexed = false := by rw [← s.isSome_entry, he]; rfl
      have hnone : s.stored? cwd policy prioritized = none := by simp [Symbol.stored?, he]
      rwa [List.filter_cons_of_neg (by simp [hno]), List.filterMap_cons_none (hsame.trans hnone)]
    | some e =>
      have hyes : s.isIndexed = true := by rw [← s.isSome_entry, he]; rfl
      obtain ⟨b, hb, _⟩ := hbuilt s List.mem_cons_self hyes
      have hsome : s.stored? cwd policy prioritized = some (e.stored cwd b) := by
        simp [Symbol.stored?, he, hb, Except.toOption]
      rw [List.filter_cons_of_pos hyes, List.filterMap_cons_some (hsame.trans hsome),
        List.map_cons, List.map_cons, hsome, hrest]

/-- A symbol is stored under the URI of its file. -/
theorem file_stored? {s : Symbol} {x : Stored}
    (h : s.stored? cwd policy prioritized = some x) :
    x.file = some (File.uri cwd (.check s.file)) := by
  simp only [Symbol.stored?, Option.bind_eq_bind, Option.bind_eq_some_iff] at h
  obtain ⟨e, he, b, _, hx⟩ := h
  cases hx
  obtain ⟨_, hfile⟩ := Entry.fqn_of_symbol he
  simp [Entry.stored, hfile]

end Service

end GoToSymbol
