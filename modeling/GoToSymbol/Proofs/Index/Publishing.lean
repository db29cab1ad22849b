import GoToSymbol.Proofs.Index.Deletion

namespace GoToSymbol

open GoToSymbol.Action Store Store.Session Store.Work

namespace Service

variable {σ : Type} {s : Service σ} {symbols : List Submission} {publish prioritized : Bool}
  {ds : List Document}

/-- Nothing is built just where nothing is worth an entry. -/
theorem buildDocuments_eq_nil {cwd : File.Path} {policy : Relevance.Policy}
    (h : buildDocuments cwd policy prioritized symbols = .ok ds) :
    ds = [] ↔ ∀ x ∈ symbols, x.entry = .ok none := by
  induction symbols generalizing ds with
  | nil =>
    cases h
    simp
  | cons x rest ih =>
    rw [List.forall_mem_cons]
    rcases buildDocuments_cons h with ⟨hx, hrest⟩ | ⟨e, d, ds', hx, _, _, rfl⟩
    · rw [ih hrest]
      exact ⟨fun hall => ⟨hx, hall⟩, And.right⟩
    · refine iff_of_false (by simp) fun hall => ?_
      exact absurd (hx.symm.trans hall.1) (by simp)

theorem ends_persist_nothing (hds : s.documentsOf prioritized symbols = .ok []) {st st' : σ}
    {r : Except Failure Unit} :
    Ends (s.persist symbols publish prioritized) st r st' ↔
      Ends (if publish then s.commit else succeed ()) st r st' := by
  unfold persist
  rw [hds]
  exact Iff.rfl

theorem ends_persist_documents (hds : s.documentsOf prioritized symbols = .ok ds) (hne : ds ≠ [])
    {st st' : σ} {r : Except Failure Unit} :
    Ends (s.persist symbols publish prioritized) st r st' ↔
      Ends (guarded "put" (s.engine.put ds publish)) st r st' := by
  unfold persist
  rw [hds, ends_ok_bind, if_neg (by simpa using hne)]
  exact ends_bind_log

/-- What a commit tells of how the storage ended. -/
def overlook : Except Failure Unit → Except Failure Unit
  | .error .missing => .ok ()
  | x => x.mapError (told "commit")

theorem ends_commit {st st' : σ} {r : Except Failure Unit} :
    Ends s.commit st r st' ↔ ∃ x, Ends s.engine.commit st x st' ∧ r = overlook x := by
  unfold commit
  rw [ends_rescue]
  constructor
  · intro h
    rcases h with ⟨a, hend, rfl⟩ | ⟨f, m, hend, hhandler⟩
    · rcases ends_guarded.mp hend with ⟨a, hcommit, hr⟩ | ⟨f, _, hr⟩
      · exact ⟨.ok a, hcommit, rfl⟩
      · exact absurd hr (by simp)
    · rcases ends_guarded.mp hend with ⟨a, _, hr⟩ | ⟨f, hcommit, hr⟩
      · exact absurd hr (by simp)
      · cases hr
        obtain ⟨rfl, rfl⟩ : r = overlook (.error f) ∧ st' = m := by
          cases f <;> simpa [told, overlook, Except.mapError] using hhandler
        exact ⟨.error f, hcommit, rfl⟩
  · intro h
    obtain ⟨x, hcommit, rfl⟩ := h
    cases x with
    | ok a => exact Or.inl ⟨a, ends_guarded.mpr (Or.inl ⟨a, hcommit, rfl⟩), rfl⟩
    | error f =>
      refine Or.inr ⟨told "commit" f, st', ends_guarded.mpr (Or.inr ⟨f, hcommit, rfl⟩), ?_⟩
      cases f <;> simp [told, overlook, Except.mapError]

end Service

namespace Store

/-- A writer that cannot publish: the index is gone, or is another one by now, or files that are to
be merged are gone. -/
def Session.Stranded (s : Session) : Prop :=
  ∃ w, s.handle.writer = some w ∧ (s.directory.catalogue = .absent ∨
    s.directory.catalogue ≠ .garbled ∧
      (s.directory.lock ≠ some w.number ∨ (plan w.base).merged.any s.directory.isLost = true))

namespace Work

variable {s m s' : Session}

/-- Documents are published after all of them were staged. -/
theorem put_publish (ds : List Document) : put ds true = put ds false >>= fun _ => flush := by
  have hstaged : put ds false = useWriter.andThen fun _ => (stageAll ds).andThen succeed := rfl
  change (useWriter.andThen fun _ => (stageAll ds).andThen fun _ => flush)
    = (put ds false).andThen fun _ => flush
  rw [hstaged, andThen_assoc]
  congr 1
  funext _
  rw [andThen_assoc]
  rfl

theorem ends_put_publish {ds : List Document} (hput : Ends (put ds false) s (.ok ()) m)
    {r : Except Failure Unit} : Ends (put ds true) s r s' ↔ Ends flush m r s' := by
  rw [put_publish, ends_bind]
  constructor
  · intro h
    rcases h with ⟨_, k, hk, hflush⟩ | ⟨f, hf, _⟩
    · rwa [(hput.unique hk).2]
    · exact absurd (hput.unique hf).1 (by simp)
  · intro h
    exact Or.inl ⟨(), m, hput, h⟩

/-- A commit does not find a file just where the writer cannot publish. -/
theorem flush_missing_iff {w : Writer} (hw : s.handle.writer = some w) {r : Except Failure Unit}
    (h : Ends flush s r s') : r = .error .missing ↔ s.Stranded := by
  have hstranded : s.Stranded ↔ s.directory.catalogue = .absent ∨
      s.directory.catalogue ≠ .garbled ∧ (s.directory.lock ≠ some w.number ∨
        (plan w.base).merged.any s.directory.isLost = true) := by
    simp [Stranded, hw]
  rw [hstranded]
  -- One case for each of the ways in which a commit ends.
  rcases flush_ends hw h with ⟨hg, rfl⟩ | ⟨habsent, rfl⟩ | ⟨g, ss, hg, hpublish⟩
  · simp [hg]
  · simp [habsent]
  · rcases publish_ends hpublish with ⟨rfl, hkept, _⟩ | ⟨rfl, hlock, hunlost, _⟩
    · exact iff_of_true rfl (Or.inr ⟨by simp [hg], hkept⟩)
    · simp [hg, hlock, hunlost]

/-- A writer that is had was pending, or found the directory there. -/
theorem useWriter_contents {w : Writer} (h : Ends useWriter s (.ok w) m) :
    m.directory.contents = none ↔ s.handle.writer ≠ none ∧ s.directory.contents = none := by
  cases hw : s.handle.writer with
  | some v =>
    obtain ⟨_, rfl⟩ := (ends_useWriter_pending hw).mp h
    simp
  | none =>
    obtain ⟨_, k, _, hstart⟩ := ends_bind_ok.mp ((ends_useWriter_idle hw).mp h)
    rcases startWriter_cases hstart with ⟨f, hf, _⟩ | ⟨v, g, _, hthere, _, _, rfl⟩
    · exact absurd hf (by simp)
    · have hlocked := Directory.isSome_contents_setLock (some v.number) k.directory
      rw [hthere] at hlocked
      refine iff_of_false ?_ (by simp)
      exact Option.isSome_iff_ne_none.mp hlocked

theorem put_pending {ds : List Document} (h : Ends (put ds false) s (.ok ()) m) :
    (∃ w, m.handle.writer = some w) ∧ m.handle.closed = s.handle.closed ∧
      (m.directory.contents = none ↔ s.handle.writer ≠ none ∧ s.directory.contents = none) := by
  obtain ⟨w, k, huse, hrest⟩ := ends_bind_ok.mp h
  have hused := useWriter_ok huse
  obtain ⟨_, k', hstage, hend⟩ := ends_bind_ok.mp hrest
  obtain ⟨xs, _, rfl, _⟩ := stageAll_accepted hused.writer hstage
  have hcontents := useWriter_contents huse
  rw [if_neg (by simp), ends_pure] at hend
  rw [hend.2]
  exact ⟨⟨_, rfl⟩, hused.closed, hcontents⟩

end Work

section

variable {cwd : File.Path} {config : IndexConfig} {d : Directory} {st staged now later : Session}

/-- Unless something other than the directory's deletion happened to it, a writer cannot publish
just where the directory is gone. -/
theorem Session.Coherent.stranded_iff (hs : st.Coherent) :
    st.Stranded ↔ st.handle.writer ≠ none ∧ st.directory.contents = none := by
  constructor
  · intro h
    obtain ⟨w, hw, hcause⟩ := h
    refine ⟨by simp [hw], ?_⟩
    by_contra hthere
    have hi := hs.intact (Option.isSome_iff_ne_none.mpr hthere)
    obtain ⟨hlock, g, ss, hg⟩ := hi.held w hw
    rcases hcause with habsent | ⟨_, hother | hlost⟩
    · exact absurd (habsent.symm.trans hg) (by simp)
    · exact hother hlock
    · obtain ⟨t, ht, htlost⟩ := List.any_eq_true.mp hlost
      have hkept := hi.base w hw t (mem_of_plan (Or.inl ht))
      simp only [Directory.isLost, decide_eq_true_eq] at htlost
      omega
  · intro h
    obtain ⟨hw, hgone⟩ := h
    obtain ⟨w, hw⟩ := Option.ne_none_iff_exists'.mp hw
    exact ⟨w, hw, Or.inl (by simp [Directory.catalogue, hgone])⟩

theorem persist_staged {symbols : List Submission} {prioritized : Bool}
    (h : Ends ((service cwd config).persist symbols false prioritized) st (.ok ()) staged) :
    ∃ ds, (service cwd config).documentsOf prioritized symbols = .ok ds ∧
      ((ds = [] ∧ staged = st) ∨
        (ds ≠ [] ∧ st.handle.closed = false ∧ Ends (put ds false) st (.ok ()) staged)) := by
  rcases persist_cases h with ⟨⟨f, hf⟩, _⟩ | ⟨ds, hds, ⟨hnil, _, _, hsame⟩ | ⟨_, hpublish, _⟩ |
    ⟨hne, hopen, x, hput, hx⟩⟩
  · exact absurd hf (by simp)
  · exact ⟨ds, hds, Or.inl ⟨hnil, hsame⟩⟩
  · exact absurd hpublish (by simp)
  · cases x with
    | ok _ => exact ⟨ds, hds, Or.inr ⟨hne, hopen, hput⟩⟩
    | error f => exact absurd hx (by simp [Except.mapError])

/-- A put and a later commit tell of the same failures, but of a missing file only the put does. -/
theorem told_alike_iff (x : Except Failure Unit) :
    ((x.mapError (Service.told "put") = .ok () ↔ Service.overlook x = .ok ()) ↔
        x ≠ .error .missing) ∧
      (x = .error .missing → x.mapError (Service.told "put") = .error .missing ∧
        Service.overlook x = .ok ()) := by
  cases x with
  | ok _ => simp [Except.mapError, Service.overlook]
  | error f => cases f <;> simp [Except.mapError, Service.overlook, Service.told]

/-- To publish along with a batch leaves the same as to publish after it. It is told to succeed, or
to fail, alike, unless the batch has documents and the writer they are staged with cannot publish:
then it fails for a missing file, which the later publication overlooks. -/
theorem persist_publish_iff {symbols : List Submission} {prioritized : Bool}
    {r r' : Except Failure Unit}
    (hstaged : Ends ((service cwd config).persist symbols false prioritized) st (.ok ()) staged)
    (hnow : Ends ((service cwd config).persist symbols true prioritized) st r now)
    (hlater : Ends (service cwd config).commit staged r' later) :
    now = later ∧
      ((r = .ok () ↔ r' = .ok ()) ↔
        (∀ x ∈ symbols, x.entry = .ok none) ∨ ¬ staged.Stranded) ∧
      (¬ (r = .ok () ↔ r' = .ok ()) → r = .error .missing ∧ r' = .ok ()) ∧
      ∀ d, d.Intact → Reached (service cwd config) d st →
        (staged.Stranded ↔ st.handle.writer ≠ none ∧ st.directory.contents = none) := by
  obtain ⟨ds, hds, ⟨rfl, rfl⟩ | ⟨hne, hopen, hput⟩⟩ := persist_staged hstaged
  · -- Without documents both are the same commit.
    have hcommit := (Service.ends_persist_nothing hds).mp hnow
    rw [if_pos rfl] at hcommit
    obtain ⟨rfl, rfl⟩ := hcommit.unique hlater
    refine ⟨rfl, ?_, fun hunlike => absurd Iff.rfl hunlike, fun d hd hreached => ?_⟩
    · exact iff_of_true Iff.rfl (Or.inl ((Service.buildDocuments_eq_nil hds).mp rfl))
    · exact (hreached.coherent hd).stranded_iff
  · obtain ⟨⟨w, hw⟩, hclosed, hgone⟩ := put_pending hput
    -- Both flush the session in which the documents are staged.
    obtain ⟨x, hflush, hr⟩ : ∃ x, Ends flush staged x now ∧
        r = x.mapError (Service.told "put") := by
      rcases ends_guarded_whileOpen.mp ((Service.ends_persist_documents hds hne).mp hnow) with
        ⟨hc, _⟩ | ⟨_, x, hx, hr⟩
      · exact absurd (hopen.symm.trans hc) (by simp)
      · exact ⟨x, (ends_put_publish hput).mp hx, hr⟩
    obtain ⟨y, hflush', hr'⟩ : ∃ y, Ends flush staged y later ∧ r' = Service.overlook y := by
      obtain ⟨y, hy, hr'⟩ := Service.ends_commit.mp hlater
      rcases ends_whileOpen.mp hy with ⟨hc, _⟩ | ⟨_, hy⟩
      · exact absurd (hopen.symm.trans (hclosed.symm.trans hc)) (by simp)
      · exact ⟨y, hy, hr'⟩
    obtain ⟨rfl, rfl⟩ := hflush.unique hflush'
    obtain ⟨halike, hmissing⟩ := told_alike_iff x
    rw [← hr, ← hr'] at halike hmissing
    have hstranded := flush_missing_iff hw hflush
    have hentries := (Service.buildDocuments_eq_nil hds).not.mp hne
    refine ⟨rfl, ?_, fun hunlike => ?_, fun d hd hreached => ?_⟩
    · rw [halike, or_iff_right hentries]
      exact not_congr hstranded
    · exact hmissing (not_not.mp fun hx => hunlike (halike.mpr hx))
    · have hcalled : Reached (service cwd config) d staged :=
        hreached.called (c := .persist symbols false prioritized)
          (ends_bind_pure.mpr ⟨.ok (), hstaged, rfl⟩)
      rw [(hcalled.coherent hd).stranded_iff, hgone]
      simp [hw]

/-- One class is staged, the directory deleted, and another class handed over. -/
theorem staged_then_deleted : ∃ st staged now later,
    Reached sampleService (.fresh "/index") st ∧
      (st.handle.writer ≠ none ∧ st.directory.contents = none) ∧
      Ends (sampleService.persist [sampleClass "/a.kt" "a.Cat"] false false) st (.ok ()) staged ∧
      Ends (sampleService.persist [sampleClass "/a.kt" "a.Cat"] true false) st (.error .missing)
        now ∧
      Ends sampleService.commit staged (.ok ()) later := by
  have hbee : Reached sampleService (.fresh "/index") _ :=
    Reached.start.called (c := .persist [sampleClass "/a.kt" "a.Bee"] false false) ⟨rfl, rfl⟩
  exact ⟨_, _, _, _, hbee.deleted, ⟨Option.some_ne_none _, rfl⟩, ⟨rfl, rfl⟩, ⟨rfl, rfl⟩,
    ⟨rfl, rfl⟩⟩

theorem persist_publish_deleted : ∃ st staged now later,
    Reached sampleService (.fresh "/index") st ∧
      Ends (sampleService.persist [sampleClass "/a.kt" "a.Cat"] false false) st (.ok ()) staged ∧
      Ends (sampleService.persist [sampleClass "/a.kt" "a.Cat"] true false) st (.error .missing)
        now ∧
      Ends sampleService.commit staged (.ok ()) later ∧ now = later ∧ staged.Stranded := by
  obtain ⟨st, staged, now, later, hst, hgone, hstaged, hnow, hlater⟩ := staged_then_deleted
  obtain ⟨hsame, _, _, hstranded⟩ := persist_publish_iff hstaged hnow hlater
  have hcut := (hstranded _ (Directory.intact_fresh "/index") hst).mpr hgone
  exact ⟨st, staged, now, later, hst, hstaged, hnow, hlater, hsame, hcut⟩

/-- What is told of a batch is not always what is told of the commit after it. -/
theorem persist_publish_not_alike :
    ¬ ∀ (st staged now later : Session) (symbols : List Submission) (prioritized : Bool)
      (r r' : Except Failure Unit), Reached sampleService (.fresh "/index") st →
      Ends (sampleService.persist symbols false prioritized) st (.ok ()) staged →
      Ends (sampleService.persist symbols true prioritized) st r now →
      Ends sampleService.commit staged r' later → (r = .ok () ↔ r' = .ok ()) := by
  intro hclaim
  obtain ⟨st, staged, now, later, hst, _, hstaged, hnow, hlater⟩ := staged_then_deleted
  have halike := hclaim st staged now later _ false _ _ hst hstaged hnow hlater
  exact absurd (halike.mpr rfl) (by simp)

end

end Store

end GoToSymbol
