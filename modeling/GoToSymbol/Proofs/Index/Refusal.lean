import GoToSymbol.Proofs.Index.Requests

namespace GoToSymbol.Store

open GoToSymbol.Action Session Work

section

variable {st k m : Session}

/-- What is staged is published by the next request that publishes. -/
theorem published_next (hopen : m.handle.closed = false) {ended : Session} :
    (Ends engine.commit m (.ok ()) ended ∨ Ends engine.shutdown m (.ok ()) ended →
        ended.directory.documents.Perm (m.ledger.kept ++ m.ledger.staged)) ∧
      ∀ ds xs, List.Forall₂ (fun d x => Stored.ofDocument d = .ok x) ds xs →
        Ends (engine.put ds true) m (.ok ()) ended →
        ended.directory.documents.Perm (m.ledger.kept ++ (m.ledger.staged ++ xs)) := by
  constructor
  · intro h
    have hpublished : Ledger.Published m.ledger ended.ledger := by
      rcases h with hcommit | hshutdown
      · exact flush_published ((ends_whileOpen_of_open hopen).mp hcommit)
      · exact shutdown_published hopen hshutdown
    rw [← documents_ledger]
    exact hpublished.committed
  · intro ds xs hx h
    have hput : Ends (put ds true) m (.ok ()) ended := (ends_whileOpen_of_open hopen).mp h
    rcases put_cases hx hput with ⟨f, hf, _⟩ | ⟨k, hk, ⟨hpublish, _⟩ | ⟨_, hflush⟩⟩
    · exact absurd hf (by simp)
    · exact absurd hpublish (by simp)
    · have hpublished := (flush_published hflush).committed
      rw [documents_ledger, hk.ledger] at hpublished
      exact hpublished

/-- A document that is refused for an unknown field has it, and none before it. -/
theorem unknownField?_of_refused {d : Document} {name : String}
    (h : Stored.ofDocument d = .error (.unknownField name)) :
    Stored.unknownField? d.writerFields = some name := by
  have htext (field : String) :
      Stored.textField field d.writerFields ≠ .error (.unknownField name) := by
    unfold Stored.textField
    split <;> simp
  unfold Stored.ofDocument Stored.ofWriterFields at h
  cases hunknown : Stored.unknownField? d.writerFields with
  | some n =>
    rw [hunknown] at h
    cases h
    rfl
  | none =>
    -- With known fields only, it can be refused for a value alone.
    simp only [hunknown, Bind.bind, Except.bind] at h
    split at h
    · next htag => exact absurd htag (Except.error.inj h ▸ htext tagField)
    · split at h
      · next hfile => exact absurd hfile (Except.error.inj h ▸ htext fileField)
      · split at h
        · next hfqn => exact absurd hfqn (Except.error.inj h ▸ htext fqnField)
        · cases h

/-- Where a put fails at a document with an unknown field, it leaves what a put of those before it
leaves that publishes nothing: they are staged after what was staged before, and the next request
that publishes puts them, and none of the others, among the committed ones. -/
theorem put_refused (publish : Bool) (hopen : st.handle.closed = false) {w : Writer}
    (huse : Ends useWriter st (.ok w) k) {ds : List Document} {name : String}
    (hstage : Ends (stageAll ds) k (.error (.unknownField name)) m) :
    ∃ good bad rest xs, ds = good ++ bad :: rest ∧
      List.Forall₂ (fun d x => Stored.ofDocument d = .ok x) good xs ∧
      Stored.unknownField? bad.writerFields = some name ∧
      Ends (engine.put ds publish) st (.error (.unknownField name)) m ∧
      Ends (engine.put good false) st (.ok ()) m ∧ m.ledger = st.ledger.stage xs ∧
      ∀ ended, let left := st.ledger.kept ++ (st.ledger.staged ++ xs)
        (Ends engine.commit m (.ok ()) ended ∨ Ends engine.shutdown m (.ok ()) ended →
          ended.directory.documents.Perm left) ∧
        ∀ more ys, List.Forall₂ (fun d x => Stored.ofDocument d = .ok x) more ys →
          Ends (engine.put more true) m (.ok ()) ended →
          ended.directory.documents.Perm (left ++ ys) := by
  have hused := useWriter_ok huse
  obtain ⟨good, bad, rest, xs, rfl, hgood, hbad, hm⟩ : ∃ good bad rest xs,
      ds = good ++ bad :: rest ∧
      List.Forall₂ (fun d x => Stored.ofDocument d = .ok x) good xs ∧
      Stored.ofDocument bad = .error (.unknownField name) ∧
      m = k.setWriter (some { w with added := w.added ++ xs }) := by
    rcases accepted_or_refused ds with ⟨xs, hxs⟩ | ⟨good, bad, rest, xs, g, rfl, hgood, hbad⟩
    · exact absurd (stageAll_ends hused.writer hxs hstage).1 (by simp)
    · obtain ⟨hf, hm⟩ := stageAll_refused hused.writer hgood hbad hstage
      cases hf
      exact ⟨good, bad, rest, xs, rfl, hgood, hbad, hm⟩
  have hstaged := staged_setWriter huse xs
  rw [← hm] at hstaged
  have hput : Ends (put (good ++ bad :: rest) publish) st (.error (.unknownField name)) m := by
    refine ends_bind.mpr (Or.inl ⟨w, k, huse, ?_⟩)
    exact ends_bind.mpr (Or.inr ⟨_, hstage, rfl⟩)
  have hgoods : Ends (put good false) st (.ok ()) m := by
    have hend := ends_self (stageAll good) k
    obtain ⟨hok, hlast⟩ := stageAll_ends hused.writer hgood hend
    rw [hok, hlast, ← hm] at hend
    refine ends_bind_ok.mpr ⟨w, k, huse, ?_⟩
    exact ends_bind_ok.mpr ⟨(), m, hend, ends_pure.mpr ⟨rfl, rfl⟩⟩
  refine ⟨good, bad, rest, xs, rfl, hgood, unknownField?_of_refused hbad, ?_, ?_, hstaged.ledger,
    fun ended => ?_⟩
  · exact (ends_whileOpen_of_open hopen).mpr hput
  · exact (ends_whileOpen_of_open hopen).mpr hgoods
  · intro left
    obtain ⟨hcommit, hmore⟩ := @published_next m (hstaged.closed.trans hopen) ended
    rw [hstaged.ledger] at hcommit hmore
    refine ⟨hcommit, fun more ys hys hend => ?_⟩
    have hperm := hmore more ys hys hend
    simp only [Ledger.stage] at hperm
    simpa [left, List.append_assoc] using hperm

/-- A document with a field that no document has. -/
def strangeDocument : Document := ⟨[("color", .text "red")], []⟩

/-- The class before the refused document is staged, and a commit publishes it. -/
theorem put_refused_strange :
    ∃ m ended,
      Ends (engine.put [taggedDocument "a.Bee" "ClassIndex", strangeDocument] true)
        (start (.fresh "/index")) (.error (.unknownField "color")) m ∧
      Ends engine.commit m (.ok ()) ended ∧
      ended.directory.documents.map (·.fqn) = [some "a.Bee"] := by
  obtain ⟨w, k, m, ended, huse, hstage, hcommit, hnames⟩ : ∃ w k m ended,
      Ends useWriter (start (.fresh "/index")) (.ok w) k ∧
        Ends (stageAll [taggedDocument "a.Bee" "ClassIndex", strangeDocument]) k
          (.error (.unknownField "color")) m ∧
        Ends engine.commit m (.ok ()) ended ∧
        m.ledger.staged.map (·.fqn) = [some "a.Bee"] :=
    ⟨_, _, _, _, ⟨rfl, rfl⟩, ⟨rfl, rfl⟩, ⟨rfl, rfl⟩, rfl⟩
  obtain ⟨_, _, _, xs, _, _, _, hput, _, hledger, hnext⟩ := put_refused true rfl huse hstage
  have hperm := ((hnext ended).1 (Or.inl hcommit)).map (·.fqn)
  have hxs : m.ledger.staged = xs := congrArg Ledger.staged hledger
  rw [hxs] at hnames
  refine ⟨m, ended, hput, hcommit, List.perm_singleton.mp ?_⟩
  rw [← hnames]
  exact hperm

/-- A put that fails may leave documents staged that were not staged before. -/
theorem put_not_all_or_nothing :
    ¬ ∀ (requests : List Request) (documents : List Document) (publish : Bool) (w : Writer)
      (k m : Session) (name : String),
      let st := engine.after (start (.fresh "/index")) requests
      Ends useWriter st (.ok w) k →
      Ends (stageAll documents) k (.error (.unknownField name)) m →
      Ends (engine.put documents publish) st (.error (.unknownField name)) m →
      m.ledger.staged = st.ledger.staged := by
  intro hclaim
  have hsame := hclaim [] [taggedDocument "a.Bee" "ClassIndex", strangeDocument] true _ _ _ "color"
    ⟨rfl, rfl⟩ ⟨rfl, rfl⟩ ⟨rfl, rfl⟩
  exact absurd (congrArg List.length hsame) (by decide)

end

end GoToSymbol.Store
