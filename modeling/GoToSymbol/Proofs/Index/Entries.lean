import GoToSymbol.Proofs.Index.Answers
import GoToSymbol.Proofs.Query.Humps

namespace GoToSymbol

open GoToSymbol.Action Store

namespace Entry

/-- An entry as it is read back: its file is not known. -/
def named (v : Variant) (fqn : String) : Entry := ⟨v, .text fqn, none⟩

/-- An entry that comes from a stored document. -/
def ReadBack (e : Entry) : Prop := ∃ v f, e = named v f

theorem ReadBack.same_iff {a b : Entry} (ha : a.ReadBack) (hb : b.ReadBack) :
    a.same b = true ↔ a = b := by
  obtain ⟨v, f, rfl⟩ := ha
  obtain ⟨w, g, rfl⟩ := hb
  simp [named, same, sameFile, Value.same, Value.sameScalar, Value.scalarKey?]

theorem distinctAfter_sublist (seen es : List Entry) :
    (distinctAfter seen es).Sublist es := by
  induction es generalizing seen with
  | nil => exact List.Sublist.refl []
  | cons e es ih =>
    unfold distinctAfter
    split
    · exact (ih seen).cons e
    · exact (ih (e :: seen)).cons_cons e

/-- What comes later in a list does not change what is kept of its beginning. -/
theorem distinctAfter_append (seen xs ys : List Entry) :
    ∃ later, distinctAfter seen (xs ++ ys) = distinctAfter seen xs ++ distinctAfter later ys := by
  induction xs generalizing seen with
  | nil => exact ⟨seen, rfl⟩
  | cons x xs ih =>
    simp only [List.cons_append, distinctAfter]
    split
    · exact ih seen
    · obtain ⟨later, hlater⟩ := ih (x :: seen)
      exact ⟨later, by rw [hlater, List.cons_append]⟩

/-- Each entry is kept once, unless it was seen before. -/
theorem distinctAfter_spec {seen es : List Entry} (hseen : ∀ e ∈ seen, e.ReadBack)
    (hes : ∀ e ∈ es, e.ReadBack) :
    (distinctAfter seen es).Nodup ∧ ∀ e, e ∈ distinctAfter seen es ↔ e ∈ es ∧ e ∉ seen := by
  induction es generalizing seen with
  | nil => simp [distinctAfter]
  | cons a es ih =>
    have ha := hes a List.mem_cons_self
    have hrest (e : Entry) (he : e ∈ es) : e.ReadBack := hes e (List.mem_cons_of_mem a he)
    have hany : seen.any (·.same a) = true ↔ a ∈ seen := by
      rw [List.any_eq_true]
      constructor
      · intro h
        obtain ⟨b, hb, hba⟩ := h
        rwa [← ((hseen b hb).same_iff ha).mp hba]
      · exact fun h => ⟨a, h, (ha.same_iff ha).mpr rfl⟩
    unfold distinctAfter
    split
    · next h =>
      obtain ⟨hnodup, hmem⟩ := ih hseen hrest
      refine ⟨hnodup, fun e => ?_⟩
      rw [hmem, List.mem_cons]
      constructor
      · exact fun ⟨he, hn⟩ => ⟨Or.inr he, hn⟩
      · intro h
        obtain ⟨rfl | he, hn⟩ := h
        · exact absurd (hany.mp h) hn
        · exact ⟨he, hn⟩
    · next h =>
      have hcons (e : Entry) (he : e ∈ a :: seen) : e.ReadBack := by
        rcases List.mem_cons.mp he with rfl | he
        · exact ha
        · exact hseen e he
      obtain ⟨hnodup, hmem⟩ := ih hcons hrest
      constructor
      · rw [List.nodup_cons]
        exact ⟨fun hin => ((hmem a).mp hin).2 List.mem_cons_self, hnodup⟩
      · intro e
        rw [List.mem_cons, hmem, List.mem_cons, List.mem_cons]
        constructor
        · intro h
          rcases h with rfl | ⟨he, hn⟩
          · exact ⟨Or.inl rfl, fun hin => h (hany.mpr hin)⟩
          · exact ⟨Or.inr he, fun hin => hn (Or.inr hin)⟩
        · intro h
          obtain ⟨rfl | he, hn⟩ := h
          · exact Or.inl rfl
          · by_cases hea : e = a
            · exact Or.inl hea
            · exact Or.inr ⟨he, fun hin => hin.elim hea hn⟩

theorem distinct_sublist (es : List Entry) : (distinct es).Sublist es := distinctAfter_sublist [] es

theorem distinct_spec {es : List Entry} (hes : ∀ e ∈ es, e.ReadBack) :
    (distinct es).Nodup ∧ ∀ e, e ∈ distinct es ↔ e ∈ es := by
  have hspec := distinctAfter_spec (fun e he => absurd he List.not_mem_nil) hes
  unfold distinct
  simpa using hspec

end Entry

/-- Only documents with a name and the tag of one of these variants meet the query. -/
def Query.Finds (q : Query) (vs : List Variant) : Prop :=
  ∀ d : Stored, q.accepts d = true → ∃ v ∈ vs, ∃ f, d.tag = some v.tag ∧ d.fqn = some f

theorem Query.finds_forClass (text : String) : (forClass text).Finds [.classes] := by
  intro d h
  obtain ⟨hname, htag⟩ := (accepts_forClass text d).mp h
  obtain ⟨f, hf, _⟩ := (accepts_symbolName text d).mp hname
  exact ⟨.classes, List.mem_singleton_self _, f, htag, hf⟩

theorem Query.finds_forTerms (terms : List String) :
    (forTerms terms).Finds [.classes, .methods] := by
  intro d h
  obtain ⟨t, _, haccepts⟩ := (accepts_forTerms terms d).mp h
  obtain ⟨hname, htag⟩ := (accepts_forClassOrMethod t d).mp haccepts
  obtain ⟨f, hf, _⟩ := (accepts_symbolName t d).mp hname
  rcases htag with htag | htag
  · exact ⟨.classes, by simp, f, htag, hf⟩
  · exact ⟨.methods, by simp, f, htag, hf⟩

namespace Store

/-- The entry of a document; one without a name or a known tag is never asked for. -/
def Stored.entry (d : Stored) : Entry :=
  .named ((d.tag.bind Variant.ofTag?).getD .classes) (d.fqn.getD "")

theorem Stored.entry_readBack (d : Stored) : d.entry.ReadBack := ⟨_, _, rfl⟩

theorem Stored.entry_eq {d : Stored} {v : Variant} {f : String} (ht : d.tag = some v.tag)
    (hf : d.fqn = some f) : d.entry = .named v f := by
  simp [entry, ht, hf, Variant.ofTag?_tag]

theorem Stored.ofDocument_entry {d : Stored} {v : Variant} {f : String} (ht : d.tag = some v.tag)
    (hf : d.fqn = some f) : Entry.ofDocument d.document = .ok d.entry := by
  rw [entry_eq ht hf]
  simp [document, ht, hf, Entry.ofDocument, Document.get?, Value.get?, tagField, fqnField,
    Value.text?, Variant.ofTag?_tag, Entry.named]

theorem mapM_ok {α β ε : Type} {g : α → Except ε β} {h : α → β} {xs : List α}
    (hg : ∀ x ∈ xs, g x = .ok (h x)) : xs.mapM g = .ok (xs.map h) := by
  induction xs with
  | nil => rfl
  | cons x xs ih =>
    rw [List.mapM_cons, hg x List.mem_cons_self, ih fun y hy => hg y (List.mem_cons_of_mem x hy)]
    rfl

section

variable {q : Query} {vs : List Variant} (hq : q.Finds vs)
include hq

/-- All that a query finds can be read back. -/
theorem decode_found {ds : List Stored} (hds : ∀ d ∈ ds, q.accepts d = true) :
    (ds.map Stored.document).mapM Entry.ofDocument = .ok (ds.map Stored.entry) := by
  rw [List.mapM_map]
  refine mapM_ok fun d hd => ?_
  obtain ⟨v, _, f, ht, hf⟩ := hq d (hds d hd)
  exact Stored.ofDocument_entry ht hf

/-- A search answers the distinct entries of the documents that rank first. -/
theorem foundIn_eq (segments : List Segment) (limit : Int) :
    foundIn segments q limit = .ok (Service.firstResults limit
      (Entry.distinct (((ranking q segments).take limit.toNat).map Stored.entry))) := by
  unfold foundIn
  rw [decode_found hq fun d hd => (mem_ranking.mp (List.mem_of_mem_take hd)).2]
  rfl

/-- An entry that is answered is that of a committed document which the query finds. -/
theorem mem_foundIn {segments : List Segment} {limit : Int} {es : List Entry}
    (h : foundIn segments q limit = .ok es) {e : Entry} (he : e ∈ es) :
    ∃ d ∈ documents segments, q.accepts d = true ∧
      ∃ v ∈ vs, ∃ f, d.tag = some v.tag ∧ d.fqn = some f ∧ e = .named v f := by
  rw [foundIn_eq hq] at h
  cases h
  have hfirst : e ∈ Entry.distinct (((ranking q segments).take limit.toNat).map Stored.entry) := by
    unfold Service.firstResults at he
    split at he
    · exact List.mem_of_mem_take he
    · exact List.mem_of_mem_take he
  obtain ⟨d, hd, rfl⟩ := List.mem_map.mp ((Entry.distinct_sublist _).subset hfirst)
  obtain ⟨hdoc, haccepts⟩ := mem_ranking.mp (List.mem_of_mem_take hd)
  obtain ⟨v, hv, f, ht, hf⟩ := hq d haccepts
  exact ⟨d, hdoc, haccepts, v, hv, f, ht, hf, Stored.entry_eq ht hf⟩

end

/-- Whatever a search answers comes from the committed documents. -/
theorem found_committed {cwd : File.Path} {config : IndexConfig} {st st' : Session}
    (hi : st.Intact) {c : Call} {es : List Entry}
    (h : Ends ((service cwd config).perform c) st (.ok (.found es)) st') :
    ∀ e ∈ es, ∃ x ∈ st.directory.documents, e = x.entry := by
  have hquery {q : Query} {vs : List Variant} {limit : Int} (hq : q.Finds vs)
      (hfound : foundIn st.directory.committed q limit = .ok es) :
      ∀ e ∈ es, ∃ x ∈ st.directory.documents, e = x.entry := by
    intro e he
    obtain ⟨x, hx, _, v, _, f, ht, hf, heq⟩ := mem_foundIn hq hfound he
    exact ⟨x, hx, heq.trans (Stored.entry_eq ht hf).symm⟩
  have hreads := perform_reads hi h
  cases c with
  | searchClasses text max => exact hquery (Query.finds_forClass text) hreads
  | searchNames terms max =>
    cases terms with
    | nil =>
      intro e he
      rw [show es = [] from hreads] at he
      exact absurd he List.not_mem_nil
    | cons term terms => exact hquery (Query.finds_forTerms _) hreads
  | persist _ _ _ | remove _ | commit | reindex _ _ _ | stats | shutdown =>
    obtain ⟨_, _, hf⟩ := ends_bind_pure_ok.mp h
    exact absurd hf (by simp)

end Store

end GoToSymbol
