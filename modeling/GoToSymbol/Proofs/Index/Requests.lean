import GoToSymbol.Proofs.Index.Entries

namespace GoToSymbol

open GoToSymbol.Action Store Store.Session Store.Work

/-- What a storage can be asked that changes it. -/
inductive Request where
  | put (documents : List Document) (publish : Bool)
  | delete (queries : List Query) (publish : Bool)
  | commit

def Request.documents : Request → List Document
  | put documents _ => documents
  | delete _ _ | commit => []

namespace Engine

variable {σ : Type} (e : Engine σ)

def perform : Request → Action σ Unit
  | .put documents publish => e.put documents publish
  | .delete queries publish => do
    let _ ← e.delete queries publish
    return ()
  | .commit => e.commit

/-- The state after some requests, whether they succeed or fail. -/
def after (st : σ) (requests : List Request) : σ :=
  requests.foldl (fun s q => (e.perform q s).state) st

end Engine

/-- The document has the name of an entry, and the tag of its variant. -/
def Document.Names (d : Document) (v : Variant) (f : String) : Prop :=
  d.get? fqnField = some (.text f) ∧ d.get? tagField = some (.text v.tag)

namespace Store

namespace Stored

theorem isField_boostName (name : String) : isField (Document.boostName name) = false := by
  simp [isField, Document.boostName]

/-- The boosts of a document hide none of its fields. -/
theorem get?_writerFields (d : Document) {name : String} (hname : isField name = true) :
    Value.get? name d.writerFields = d.get? name := by
  obtain ⟨fields, boosts⟩ := d
  unfold Document.writerFields Document.get?
  simp only
  induction boosts generalizing fields with
  | nil => rfl
  | cons b boosts ih =>
    have hne : name ≠ Document.boostName b.1 := by
      intro h
      rw [h, isField_boostName] at hname
      exact absurd hname (by simp)
    rw [List.foldl_cons, ih, Value.get?_set_of_ne hne]

theorem get?_of_textField {name : String} {fields : List (String × Value)} {s : String}
    (h : textField name fields = .ok (some s)) : Value.get? name fields = some (.text s) := by
  unfold textField at h
  split at h
  · exact absurd h (by simp)
  · exact absurd h (by simp)
  · next t ht =>
    cases h
    exact ht
  · exact absurd h (by simp)

/-- What the store keeps of a document was written in its fields. -/
theorem ofDocument_names {d : Document} {x : Stored} (h : ofDocument d = .ok x) {v : Variant}
    {f : String} (ht : x.tag = some v.tag) (hf : x.fqn = some f) : d.Names v f := by
  unfold ofDocument ofWriterFields at h
  simp only [Bind.bind, Except.bind, Pure.pure, Except.pure] at h
  split at h
  · exact absurd h (by simp)
  · split at h
    · exact absurd h (by simp)
    · next tag htag =>
      split at h
      · exact absurd h (by simp)
      · split at h
        · exact absurd h (by simp)
        · next fqn hfqn =>
          cases h
          simp only at ht hf
          subst ht hf
          have hname := get?_of_textField hfqn
          have htag := get?_of_textField htag
          rw [get?_writerFields d (by decide)] at hname htag
          exact ⟨hname, htag⟩

end Stored

/-- An intact session that is open, and of whose documents something is known. -/
structure Stocked (p : Stored → Prop) (s : Session) : Prop where
  intact : s.Intact
  opened : s.handle.closed = false
  every : s.ledger.Every p

namespace Stocked

variable {p : Stored → Prop} {s s' : Session}

theorem alike (hs : Stocked p s) (h : Alike s s') : Stocked p s' :=
  ⟨h.intact hs.intact, h.closed.trans hs.opened, h.ledger ▸ hs.every⟩

theorem flush (hs : Stocked p s) {r : Except Failure Unit} (h : Ends Work.flush s r s') :
    Stocked p s' := by
  obtain ⟨hintact, _, _, hpublished⟩ := flush_intact hs.intact h
  exact ⟨hintact, (flush_closed hs.intact.held h).trans hs.opened,
    hs.every.published hpublished⟩

theorem put (hs : Stocked p s) {ds : List Document}
    (hp : ∀ d ∈ ds, ∀ x, Stored.ofDocument d = .ok x → p x) {publish : Bool}
    {r : Except Failure Unit} (h : Ends (Work.put ds publish) s r s') : Stocked p s' := by
  rcases put_ends h with ⟨f, _, huse⟩ | ⟨m, xs, hm, hxs, hend⟩
  · exact hs.alike (useWriter_error huse).2
  · have hstaged : Stocked p m := by
      refine ⟨hm.intact hs.intact hs.opened, hm.closed.trans hs.opened, ?_⟩
      rw [hm.ledger]
      refine hs.every.stage fun x hx => ?_
      obtain ⟨d, hd, hstored⟩ := hxs x hx
      exact hp d hd x hstored
    rcases hend with ⟨_, ⟨_, _, rfl⟩ | ⟨_, hflush⟩⟩ | ⟨f, _, rfl⟩
    · exact hstaged
    · exact hstaged.flush hflush
    · exact hstaged

theorem delete (hs : Stocked p s) {qs : List Query} {publish : Bool} {r : Except Failure Nat}
    (h : Ends (Work.delete qs publish) s r s') : Stocked p s' := by
  rcases delete_stages h with ⟨_, _, hl, hc, _, hintact⟩ | ⟨n, m, hm, hend⟩
  · exact ⟨hintact hs.intact hs.opened, hc.trans hs.opened, hl ▸ hs.every⟩
  · have hmarked : Stocked p m := by
      refine ⟨hm.intact hs.intact hs.opened, hm.closed.trans hs.opened, ?_⟩
      rw [hm.ledger]
      exact hs.every.erase qs
    rcases hend with ⟨_, _, rfl⟩ | ⟨_, x, hflush, _⟩
    · exact hmarked
    · exact hmarked.flush hflush

theorem request (hs : Stocked p s) {q : Request}
    (hp : ∀ d ∈ q.documents, ∀ x, Stored.ofDocument d = .ok x → p x) {r : Except Failure Unit}
    (h : Ends (engine.perform q) s r s') : Stocked p s' := by
  cases q with
  | put ds publish => exact hs.put hp ((ends_whileOpen_of_open hs.opened).mp h)
  | delete qs publish =>
    obtain ⟨_, hasked, _⟩ := ends_bind_pure.mp h
    have hran := (ends_whileOpen_of_open hs.opened).mp hasked
    obtain ⟨_, hdelete, _⟩ := ends_bind_pure.mp hran
    exact hs.delete hdelete
  | commit => exact hs.flush ((ends_whileOpen_of_open hs.opened).mp h)

theorem after (hs : Stocked p s) {requests : List Request}
    (hp : ∀ q ∈ requests, ∀ d ∈ q.documents, ∀ x, Stored.ofDocument d = .ok x → p x) :
    Stocked p (engine.after s requests) := by
  induction requests generalizing s with
  | nil => exact hs
  | cons q requests ih =>
    have hhead := hs.request (hp q List.mem_cons_self) (ends_self (engine.perform q) s)
    exact ih hhead fun q' hq' => hp q' (List.mem_cons_of_mem q hq')

end Stocked

/-- The entry of a committed document with the tag of one of these variants. The document was there
before the requests, or one of them put it. -/
def Known (d : Directory) (requests : List Request) (vs : List Variant) (e : Entry) : Prop :=
  ∃ v ∈ vs, ∃ f, e = .named v f ∧
    ∃ x ∈ (engine.after (start d) requests).directory.documents,
      x.tag = some v.tag ∧ x.fqn = some f ∧
        (x ∈ d.documents ∨ ∃ q ∈ requests, ∃ doc ∈ q.documents, doc.Names v f)

section

variable {cwd : File.Path} {config : IndexConfig} {d : Directory}

theorem stocked_after (hd : d.Intact) (requests : List Request) :
    Stocked (fun x => x ∈ d.documents ∨
        ∃ q ∈ requests, ∃ doc ∈ q.documents, Stored.ofDocument doc = .ok x)
      (engine.after (start d) requests) := by
  have hmake : d.make.documents = d.documents := by
    rw [Directory.documents, Directory.committed_congr (Directory.catalogue_make d),
      Directory.documents]
  have hstart : (start d).ledger = ⟨d.make.committed, d.make.documents, []⟩ :=
    ledger_of_idle rfl
  refine Stocked.after ⟨intact_start hd, rfl, ?_⟩ ?_
  · rw [hstart]
    exact ⟨fun x hx => Or.inl (hmake ▸ hx), fun x hx => Or.inl (hmake ▸ hx),
      fun x hx => absurd hx List.not_mem_nil⟩
  · intro q hq doc hdoc x hx
    exact Or.inr ⟨q, hq, doc, hdoc, hx⟩

theorem find_known (hd : d.Intact) (requests : List Request) {q : Query} {vs : List Variant}
    (hq : q.Finds vs) (limit : Int) :
    ∃ es st', Ends ((service cwd config).find q limit) (engine.after (start d) requests) (.ok es)
        st' ∧
      ∀ e ∈ es, Known d requests vs e := by
  have hstocked := stocked_after hd requests
  obtain ⟨_, _, hanswer⟩ := find_cases
    (ends_self ((service cwd config).find q limit) (engine.after (start d) requests))
  have hfound := foundIn_eq hq (engine.after (start d) requests).directory.committed limit
  refine ⟨_, _, ⟨(hanswer hstocked.intact hstocked.opened).trans hfound, rfl⟩, fun e he => ?_⟩
  obtain ⟨x, hx, _, v, hv, f, ht, hf, rfl⟩ := mem_foundIn hq hfound he
  refine ⟨v, hv, f, rfl, x, hx, ht, hf, ?_⟩
  rcases hstocked.every.committed x (by rwa [documents_ledger]) with hold | ⟨q, hq, doc, hdoc, hput⟩
  · exact Or.inl hold
  · exact Or.inr ⟨q, hq, doc, hdoc, Stored.ofDocument_names hput ht hf⟩

/-- Whatever documents were put into the storage, deleted and committed, both searches always
return. They answer entries of classes, or of classes and methods, that are committed. -/
theorem searches_known (hd : d.Intact) (requests : List Request) :
    (∀ text max, ∃ es st',
      Ends ((service cwd config).searchClasses text max) (engine.after (start d) requests)
          (.ok es) st' ∧
        ∀ e ∈ es, Known d requests [.classes] e) ∧
    ∀ terms max, ∃ es st',
      Ends ((service cwd config).searchClassesMethods terms max)
          (engine.after (start d) requests) (.ok es) st' ∧
        ∀ e ∈ es, Known d requests [.classes, .methods] e := by
  constructor
  · intro text max
    exact find_known hd requests (Query.finds_forClass text) _
  · intro terms max
    unfold Service.searchClassesMethods
    split
    · exact ⟨[], _, ends_succeed.mpr ⟨rfl, rfl⟩, fun e he => absurd he List.not_mem_nil⟩
    · exact find_known hd requests (Query.finds_forTerms terms) _

/-- A document with a name and any tag. -/
def taggedDocument (f tag : String) : Document :=
  ⟨[(fqnField, .text f), (tagField, .text tag)], []⟩

/-- A class, a field and a name with an unknown tag are committed. -/
def mixedRequests : List Request :=
  [.put [taggedDocument "a.Bee" "ClassIndex", taggedDocument "a.Bee" "FieldIndex",
    taggedDocument "a.Cat" "Unheard"] false, .commit]

/-- All that a search for any name can answer of them is the class. -/
theorem searches_known_mixed :
    ∃ es st', Ends (sampleService.searchClasses "*" none)
        (engine.after (start (.fresh "/index")) mixedRequests) (.ok es) st' ∧
      ∀ e ∈ es, e = Entry.named .classes "a.Bee" := by
  obtain ⟨hclasses, _⟩ := @searches_known sampleService.cwd sampleService.config _
    (Directory.intact_fresh "/index") mixedRequests
  obtain ⟨es, st', hend, hknown⟩ := hclasses "*" none
  refine ⟨es, st', hend, fun e he => ?_⟩
  obtain ⟨v, hv, f, rfl, x, hx, ht, hf, _⟩ := hknown e he
  have hbee : ∀ x ∈ (engine.after (start (.fresh "/index")) mixedRequests).directory.documents,
      x.tag = some Variant.classes.tag → x.fqn = some "a.Bee" := by decide
  rw [List.mem_singleton.mp hv] at ht ⊢
  cases hf.symm.trans (hbee x hx ht)
  rfl

end

end Store

end GoToSymbol
