import GoToSymbol.Proofs.Config.Accepted
import GoToSymbol.Proofs.Index.Stored

namespace GoToSymbol

namespace Value

/-- A member of a value; only an object has any. -/
def member? (key : String) : Value → Option Value
  | object members => get? key members
  | _ => none

/-- A member written out; one that is missing is empty. -/
def memberText (key : String) (v : Value) : String := ((v.member? key).map plain).getD ""

/-- Whether a member is there and counts as true. -/
def memberHolds (key : String) (v : Value) : Bool := ((v.member? key).map isTruthy).getD false

/-- Whether a record is of a class that the compiler made and that was not decompiled. -/
def isCompilerMade (v : Value) : Bool :=
  v.memberText "kind" == "class" && v.memberHolds "synthetic"
    && !v.memberHolds "has_decompiled_metadata"

/-- Whether a record is indexed: it has a name, and the compiler did not make it up. -/
def isIndexed (v : Value) : Bool := !(v.memberText "fqn").isEmpty && !v.isCompilerMade

end Value

/-- The variant of the entries for a kind of symbol. -/
def Variant.ofKind? : String → Option Variant
  | "class" => some classes
  | "method" => some methods
  | "field" | "type_alias" => some fields
  | _ => none

namespace Symbol

variable {v : Value} {s : Symbol} {e : Entry}

theorem require_ok {key : String} {members : List (String × Value)}
    (h : require key members = .ok v) : Value.get? key members = some v := by
  unfold require at h
  split at h
  · next w hw =>
    cases h
    exact hw
  · cases h

theorem decodeKind_ok {make : Bool → Bool → SymbolKind} (h : decodeKind v = .ok make) :
    kindOfText? v.plain = some make := by
  unfold decodeKind at h
  split at h
  · next k hk =>
    cases h
    obtain ⟨t, ht, hkind⟩ := Option.bind_eq_some_iff.mp hk
    cases v with
    | text t =>
      cases ht
      exact hkind
    | _ => cases ht
  · cases h

/-- A record that is accepted has one of the kinds, and its symbol has the file and the name that
are written in it. -/
theorem ofValue_ok (h : ofValue v = .ok s) :
    (∃ make, kindOfText? (v.memberText "kind") = some make ∧
        s.kind = make (v.memberHolds "synthetic") (v.memberHolds "has_decompiled_metadata")) ∧
      s.file.path = v.memberText "file" ∧ s.fqn = v.memberText "fqn" := by
  cases v with
  | object members =>
    change ofMembers members = .ok s at h
    unfold ofMembers at h
    obtain ⟨kind, hkind, h⟩ := Config.of_bind_ok h
    obtain ⟨make, hmake, h⟩ := Config.of_bind_ok h
    obtain ⟨file, hfile, h⟩ := Config.of_bind_ok h
    obtain ⟨fqn, hfqn, h⟩ := Config.of_bind_ok h
    cases h
    refine ⟨⟨make, ?_, rfl⟩, ?_, ?_⟩
    · simp [Value.memberText, Value.member?, require_ok hkind, decodeKind_ok hmake]
    · simp [Value.memberText, Value.member?, require_ok hfile]
    · simp [Value.memberText, Value.member?, require_ok hfqn]
  | _ => exact absurd h (by simp [ofValue])

/-- What a record says of its kind decides whether its symbol is worth an entry, and of which
variant. -/
theorem kind_ofValue (h : ofValue v = .ok s) :
    s.isIndexable = !v.isCompilerMade ∧
      ∀ e, Entry.ofSymbol? s = some e → Variant.ofKind? (v.memberText "kind") = some e.variant := by
  obtain ⟨⟨make, hmake, hkind⟩, _, _⟩ := ofValue_ok h
  unfold kindOfText? at hmake
  split at hmake
  case h_5 => cases hmake
  all_goals
    next htext =>
      cases hmake
      refine ⟨?_, fun e he => ?_⟩
      · simp [isIndexable, hkind, Value.isCompilerMade, htext, Bool.not_and]
      · unfold Entry.ofSymbol? at he
        simp only [hkind] at he
        split at he
        · cases he
          simp [htext, Variant.ofKind?]
        · cases he

/-- A symbol has an entry just where its record is indexed. -/
theorem isIndexed_ofValue (h : ofValue v = .ok s) : s.isIndexed = v.isIndexed := by
  obtain ⟨_, _, hfqn⟩ := ofValue_ok h
  rw [isIndexed, (kind_ofValue h).1, hfqn, Bool.and_comm]
  rfl

/-- The entry of a symbol has the variant and the name that its record stands for. -/
theorem entry_ofValue (h : ofValue v = .ok s) (he : Entry.ofSymbol? s = some e) :
    ∃ variant, Variant.ofKind? (v.memberText "kind") = some variant ∧
      { e with file := none } = Entry.mk variant (.text (v.memberText "fqn")) none := by
  obtain ⟨_, _, hfqn⟩ := ofValue_ok h
  refine ⟨e.variant, (kind_ofValue h).2 e he, ?_⟩
  rw [(Entry.fqn_of_symbol he).1, hfqn]

end Symbol

/-- A document says what a record says: it is kept under the URI of the record's file, and read back
it is the entry of the record's symbol, which has the variant of the record's kind and its name. -/
structure Document.Describes (cwd : File.Path) (v : Value) (d : Document) : Prop where
  file : d.get? fileField = some (.text (File.uri cwd (.text (v.memberText "file"))))
  entry : ∃ s e, Symbol.ofValue v = .ok s ∧ Entry.ofSymbol? s = some e ∧
    Entry.ofDocument d = .ok { e with file := none }
  named : ∃ variant, Variant.ofKind? (v.memberText "kind") = some variant ∧
    Entry.ofDocument d = .ok ⟨variant, .text (v.memberText "fqn"), none⟩

namespace Service

variable {cwd : File.Path} {policy : Relevance.Policy} {prioritized : Bool}

/-- Boosting a document leaves its fields as they are. -/
theorem fields_of_boostedDocument {e : Entry} {d : Document}
    (h : boostedDocument cwd policy prioritized e = .ok d) :
    ∃ plain, e.toDocument cwd = .ok plain ∧ d.fields = plain.fields := by
  unfold boostedDocument at h
  obtain ⟨plain, hplain, h⟩ := Config.of_bind_ok h
  obtain ⟨b, _, hset⟩ := Config.of_bind_ok h
  unfold Document.setBoost at hset
  split at hset
  · cases hset
  · cases hset
    exact ⟨plain, hplain, rfl⟩

/-- The entry that is read back from a document is the one that was indexed, without its file. -/
theorem ofDocument_of_boosted {e : Entry} {d : Document}
    (h : boostedDocument cwd policy prioritized e = .ok d) :
    Entry.ofDocument d = .ok { e with file := none } := by
  obtain ⟨plain, hplain, hfields⟩ := fields_of_boostedDocument h
  have hsame : Entry.ofDocument d = Entry.ofDocument plain := by
    unfold Entry.ofDocument Document.get?
    rw [hfields]
  rw [hsame]
  exact Entry.ofDocument_toDocument hplain

theorem file_of_boosted {e : Entry} {file : File.Check} (hfile : e.file = some file) {d : Document}
    (h : boostedDocument cwd policy prioritized e = .ok d) :
    d.get? fileField = some (.text (File.uri cwd (.check file))) := by
  obtain ⟨plain, hplain, hfields⟩ := fields_of_boostedDocument h
  unfold Entry.toDocument at hplain
  rw [hfile] at hplain
  cases hplain
  unfold Document.get?
  rw [hfields]
  rfl

theorem describes_of_boosted {v : Value} {s : Symbol} (hs : Symbol.ofValue v = .ok s) {e : Entry}
    (he : Entry.ofSymbol? s = some e) {d : Document}
    (h : boostedDocument cwd policy prioritized e = .ok d) : d.Describes cwd v := by
  have hentry := ofDocument_of_boosted h
  obtain ⟨_, hpath, _⟩ := Symbol.ofValue_ok hs
  obtain ⟨variant, hvariant, hsame⟩ := Symbol.entry_ofValue hs he
  refine ⟨?_, ⟨s, e, hs, he, hentry⟩, variant, hvariant, hsame ▸ hentry⟩
  rw [file_of_boosted (Entry.fqn_of_symbol he).2 h, ← hpath]
  rfl

/-- The documents of two lists are built one list after the other. -/
theorem buildDocuments_append (xs ys : List Submission) :
    buildDocuments cwd policy prioritized (xs ++ ys) = do
      let ds ← buildDocuments cwd policy prioritized xs
      let es ← buildDocuments cwd policy prioritized ys
      return ds ++ es := by
  induction xs with
  | nil =>
    rw [List.nil_append, buildDocuments]
    cases buildDocuments cwd policy prioritized ys with
    | error f => rfl
    | ok es => rfl
  | cons x xs ih =>
    rw [List.cons_append, buildDocuments, buildDocuments, ih]
    cases x.entry with
    | error f => rfl
    | ok entry =>
      cases entry with
      | none => rfl
      | some e =>
        simp only [Bind.bind, Except.bind]
        cases boostedDocument cwd policy prioritized e with
        | error f => rfl
        | ok d =>
          cases buildDocuments cwd policy prioritized xs with
          | error f => rfl
          | ok ds =>
            cases buildDocuments cwd policy prioritized ys with
            | error f => rfl
            | ok es => rfl

/-- Of the records of some symbols, those that are indexed have one document each, in their order,
which says what the record says; no other record has any. The documents of two lists are those of
the first one followed by those of the second one. -/
theorem buildDocuments_describes {records : List Value} {symbols : List Symbol}
    (hdecoded : List.Forall₂ (fun v s => Symbol.ofValue v = .ok s) records symbols)
    {ds : List Document}
    (h : buildDocuments cwd policy prioritized (symbols.map .symbol) = .ok ds) :
    List.Forall₂ (fun v d => d.Describes cwd v) (records.filter Value.isIndexed) ds ∧
      ∀ xs ys, buildDocuments cwd policy prioritized (xs ++ ys) = do
        let ds ← buildDocuments cwd policy prioritized xs
        let es ← buildDocuments cwd policy prioritized ys
        return ds ++ es := by
  refine ⟨?_, buildDocuments_append⟩
  induction hdecoded generalizing ds with
  | nil =>
    cases h
    exact .nil
  | @cons v s records symbols hs _ ih =>
    have hindexed : v.isIndexed = (Entry.ofSymbol? s).isSome := by
      rw [← Symbol.isIndexed_ofValue hs, Symbol.isSome_entry]
    rcases buildDocuments_cons h with ⟨hnone, hrest⟩ | ⟨e, d, ds', hsome, hd, hrest, rfl⟩
    · have he : Entry.ofSymbol? s = none := Except.ok.inj hnone
      rw [he] at hindexed
      rw [List.filter_cons_of_neg (by simp [hindexed])]
      exact ih hrest
    · have he : Entry.ofSymbol? s = some e := Except.ok.inj hsome
      rw [he] at hindexed
      rw [List.filter_cons_of_pos hindexed]
      exact .cons (describes_of_boosted hs he hd) (ih hrest)

/-- A class that the compiler made, one of which the metadata were decompiled, a method with a name
that is no text, a field without a name, and a type alias. -/
def mixedRecords : List Value := [
  .object [("kind", .text "class"), ("file", .text "/a.kt"), ("fqn", .text "a.Bee$1"),
    ("synthetic", .text "false")],
  .object [("kind", .text "class"), ("file", .text "jar:a"), ("fqn", .text "a.Bee"),
    ("synthetic", .int 1), ("has_decompiled_metadata", .list [.null])],
  .object [("fqn", .null), ("kind", .text "method"), ("file", .text "/a.kt")],
  .object [("kind", .text "field"), ("file", .text "/a.kt"), ("fqn", .text "")],
  .object [("kind", .text "type_alias"), ("file", .text "/a.kt"), ("fqn", .text "a.Cat")]]

/-- Three of the records have a document, from which their entries are read back. -/
theorem buildDocuments_describes_mixed : ∃ symbols bee nameless cat,
    List.Forall₂ (fun v s => Symbol.ofValue v = .ok s) mixedRecords symbols ∧
      buildDocuments (.ofText ['/']) .default false (symbols.map .symbol) =
        .ok [bee, nameless, cat] ∧
      bee.get? fileField = some (.text "jar:a") ∧
      Entry.ofDocument bee = .ok ⟨.classes, .text "a.Bee", none⟩ ∧
      Entry.ofDocument nameless = .ok ⟨.methods, .text "None", none⟩ ∧
      Entry.ofDocument cat = .ok ⟨.fields, .text "a.Cat", none⟩ := by
  obtain ⟨symbols, bee, nameless, cat, hdecoded, hbuilt⟩ : ∃ symbols bee nameless cat,
      List.Forall₂ (fun v s => Symbol.ofValue v = .ok s) mixedRecords symbols ∧
        buildDocuments (.ofText ['/']) .default false (symbols.map .symbol) =
          .ok [bee, nameless, cat] :=
    ⟨_, _, _, _, .cons rfl (.cons rfl (.cons rfl (.cons rfl (.cons rfl .nil)))), rfl⟩
  obtain ⟨hdocuments, _⟩ := buildDocuments_describes hdecoded hbuilt
  have hindexed : mixedRecords.filter Value.isIndexed =
      [mixedRecords[1], mixedRecords[2], mixedRecords[4]] := rfl
  rw [hindexed] at hdocuments
  obtain _ | ⟨hbee, _ | ⟨hnameless, _ | ⟨hcat, _⟩⟩⟩ := hdocuments
  obtain ⟨_, hclasses, hbee'⟩ := hbee.named
  obtain ⟨_, hmethods, hnameless⟩ := hnameless.named
  obtain ⟨_, hfields, hcat⟩ := hcat.named
  cases hclasses
  cases hmethods
  cases hfields
  exact ⟨symbols, bee, nameless, cat, hdecoded, hbuilt, hbee.file, hbee', hnameless, hcat⟩

end Service

end GoToSymbol
