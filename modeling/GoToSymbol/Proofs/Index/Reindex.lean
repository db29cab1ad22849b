import GoToSymbol.Proofs.Index.Effects

namespace GoToSymbol.Store

open GoToSymbol.Action Session Work

section

variable {cwd : File.Path} {config : IndexConfig} {st st' : Session}

/-- A pending writer that is alone with the files and finds all of them. -/
structure Ready (s : Session) : Prop where
  opened : s.handle.closed = false
  held : s.Held
  pending : ∃ w, s.handle.writer = some w ∧ ∀ t ∈ w.base, s.directory.lost ≤ t.serial

theorem Session.Alike.ready (h : Alike st st') (hr : Ready st) : Ready st' where
  opened := h.closed.trans hr.opened
  held := h.held hr.held
  pending := by
    obtain ⟨w, hw, hb⟩ := hr.pending
    refine ⟨w, h.writer.trans hw, ?_⟩
    rw [h.lost]
    exact hb

theorem flush_ready (hr : Ready st) {r : Except Failure Unit} (h : Ends flush st r st') :
    r = .ok () ∧ Ledger.Published st.ledger st'.ledger := by
  obtain ⟨w, hw, hb⟩ := hr.pending
  obtain ⟨_, _, hend, hok, _⟩ := flush_writer hw hr.held h
  rcases hend with ⟨hf, _⟩ | hpublished
  · exact absurd (hf.symm.trans (hok hb)) (by simp)
  · exact hpublished

/-- Whatever comes of a commit, either all of the ledger is published or nothing. -/
theorem flush_all_or_nothing (hh : st.Held) {r : Except Failure Unit} (h : Ends flush st r st') :
    st'.ledger.committed = st.ledger.committed ∨ Ledger.Published st.ledger st'.ledger := by
  rw [committed_ledger, committed_ledger]
  cases hw : st.handle.writer with
  | none => exact Or.inl (flush_idle hw h).1.committed
  | some w =>
    obtain ⟨_, _, hend, _⟩ := flush_writer hw hh h
    exact hend.imp And.right And.right

/-- A call that only publishes flushes the session, unless there is nothing to flush. -/
theorem publish_cases {c : Call} (hc : c = .commit ∨ c = .shutdown) {r : Except Failure Answer}
    (h : Ends ((service cwd config).perform c) st r st') :
    ((st.handle.closed = true ∨ st.handle.writer = none) ∧ st'.ledger = st.ledger) ∨
      ∃ x m, Ends flush st x m ∧ st'.ledger = m.ledger := by
  rcases hc with rfl | rfl
  · obtain ⟨_, hcommit, _⟩ := ends_bind_pure.mp h
    rcases commit_cases hcommit with ⟨hclosed, rfl, _⟩ | ⟨x, _, hflush, _⟩
    · exact Or.inl ⟨Or.inl hclosed, rfl⟩
    · exact Or.inr ⟨x, st', hflush, rfl⟩
  · obtain ⟨_, hshutdown, _⟩ := ends_bind_pure.mp h
    rcases shutdown_cases hshutdown with ⟨hclosed, rfl, _⟩ | ⟨m, x, _, _, hm, hst⟩
    · exact Or.inl ⟨Or.inl hclosed, rfl⟩
    · have hledger : st'.ledger = m.ledger := by
        rcases hst with rfl | rfl
        · rfl
        · rfl
      rcases hm with ⟨hw, _, rfl⟩ | ⟨_, hflush⟩
      · exact Or.inl ⟨Or.inr hw, hledger⟩
      · exact Or.inr ⟨x, m, hflush, hledger⟩

/-- It publishes all of the ledger or nothing. -/
theorem publish_all_or_nothing (hh : st.Held) {c : Call} (hc : c = .commit ∨ c = .shutdown)
    {r : Except Failure Answer} (h : Ends ((service cwd config).perform c) st r st') :
    st'.ledger.committed = st.ledger.committed ∨ Ledger.Published st.ledger st'.ledger := by
  rcases publish_cases hc h with ⟨_, hledger⟩ | ⟨x, m, hflush, hledger⟩
  · exact Or.inl (congrArg Ledger.committed hledger)
  · rw [hledger]
    exact flush_all_or_nothing hh hflush

theorem publish_ready (hr : Ready st) {c : Call} (hc : c = .commit ∨ c = .shutdown)
    {r : Except Failure Answer} (h : Ends ((service cwd config).perform c) st r st') :
    Ledger.Published st.ledger st'.ledger := by
  obtain ⟨w, hw, _⟩ := hr.pending
  rcases publish_cases hc h with ⟨hclosed | hidle, _⟩ | ⟨x, m, hflush, hledger⟩
  · exact absurd (hr.opened.symm.trans hclosed) (by simp)
  · exact absurd (hw.symm.trans hidle) (by simp)
  · rw [hledger]
    exact (flush_ready hr hflush).2

theorem reading_history {calls : List (Call × Except Failure Answer)}
    (hreads : ∀ x ∈ calls, x.1.isReading = true)
    (h : (service cwd config).History st calls st') : Alike st st' := by
  induction h with
  | nil => exact Alike.refl _
  | cons head _ ih =>
    have hhead := reading_alike (hreads _ List.mem_cons_self) head
    exact hhead.trans (ih fun x hx => hreads x (List.mem_cons_of_mem _ hx))

/-- Without a pending writer a failed indexing leaves nothing staged. -/
theorem persist_error_idle (hw : st.handle.writer = none) {symbols : List Submission}
    {publish prioritized : Bool} {f : Failure}
    (h : Ends ((service cwd config).persist symbols publish prioritized) st (.error f) st') :
    st'.ledger = st.ledger ∧ st'.Held := by
  have hidle {m : Session} (hm : m.handle.writer = none)
      (hc : m.directory.committed = st.directory.committed) :
      m.ledger = st.ledger ∧ m.Held := by
    refine ⟨?_, held_of_idle hm⟩
    rw [ledger_of_idle hm, ledger_of_idle hw, Directory.documents, hc, Directory.documents]
  rcases persist_cases h with ⟨_, rfl⟩ | ⟨ds, hds, ⟨_, _, hr, _⟩ | ⟨_, _, hcommit⟩ |
    ⟨_, _, x, hput, hr⟩⟩
  · exact hidle hw rfl
  · exact absurd hr (by simp)
  · rcases commit_cases hcommit with ⟨_, rfl, _⟩ | ⟨_, _, hflush, _⟩
    · exact hidle hw rfl
    · have halike := (flush_idle hw hflush).1
      exact hidle (halike.writer.trans hw) halike.committed
  · rcases put_cases (Service.buildDocuments_stored hds) hput with ⟨_, _, _, halike⟩ | ⟨m, hm, hend⟩
    · exact hidle (halike.writer.trans hw) halike.committed
    · have hfailed : x ≠ .ok () := by
        intro hx
        rw [hx] at hr
        exact absurd hr (by simp [Except.mapError])
      rcases hend with ⟨_, hx, _⟩ | ⟨_, hflush⟩
      · exact absurd hx hfailed
      · obtain ⟨w, hwriter, _⟩ := hm.pending
        obtain ⟨hnone, _, ⟨_, hcommitted⟩ | ⟨hok, _⟩, _⟩ :=
          flush_writer hwriter (hm.held (held_of_idle hw)) hflush
        · refine hidle hnone (hcommitted.trans ?_)
          rw [← committed_ledger, hm.ledger]
          exact committed_ledger st
        · exact absurd hok hfailed

/-- Where a writer is ready, indexing fails only before the storage is asked. -/
theorem persist_error_ready (hr : Ready st) {symbols : List Submission} {prioritized : Bool}
    {f : Failure}
    (h : Ends ((service cwd config).persist symbols true prioritized) st (.error f) st') :
    st' = st := by
  rcases persist_cases h with ⟨_, rfl⟩ | ⟨ds, hds, ⟨_, _, hok, _⟩ | ⟨_, _, hcommit⟩ |
    ⟨_, _, x, hput, hx⟩⟩
  · rfl
  · exact absurd hok (by simp)
  · rcases commit_cases hcommit with ⟨hclosed, _⟩ | ⟨_, _, hflush, hok⟩
    · exact absurd (hr.opened.symm.trans hclosed) (by simp)
    · exact absurd (hok (flush_ready hr hflush).1) (by simp)
  · obtain ⟨w, hw, hb⟩ := hr.pending
    rcases put_cases (Service.buildDocuments_stored hds) hput with ⟨_, _, hnone, _⟩ | ⟨m, hm, hend⟩
    · exact absurd (hw.symm.trans hnone) (by simp)
    · have hready : Ready m := by
        refine ⟨hm.closed.trans hr.opened, hm.held hr.held, ?_⟩
        obtain ⟨v, hv, hbase⟩ := hm.pending
        refine ⟨v, hv, ?_⟩
        rw [hbase w hw, hm.lost]
        exact hb
      have hok : x = .ok () := by
        rcases hend with ⟨_, hok, _⟩ | ⟨_, hflush⟩
        · exact hok
        · exact (flush_ready hready hflush).1
      rw [hok] at hx
      exact absurd hx (by simp [Except.mapError])

/-- A failed reindexing has either changed nothing or staged just its deletions. -/
theorem reindex_error {files : List File.Reference} {symbols : List Submission}
    {prioritized : Bool} {f : Failure} (hw : st.handle.writer = none)
    (h : Ends ((service cwd config).reindex files symbols prioritized) st (.error f) st') :
    ((files = [] ∨ ∃ g m, Ends ((service cwd config).remove files) st (.error g) m) ∧
        st'.ledger = st.ledger ∧ st'.Held) ∨
      (∃ n m, Ends ((service cwd config).remove files) st (.ok n) m) ∧ Ready st' ∧
        st'.ledger = st.ledger.drop (files.map (File.uri cwd)) := by
  unfold Service.reindex at h
  rw [ends_bind] at h
  rcases h with ⟨n, m, hremove, hpersist⟩ | ⟨g, hremove, _⟩
  · rcases remove_cases hremove with ⟨hnil, rfl, _⟩ | ⟨_, ⟨_, hf⟩, _⟩ | ⟨hfiles, _, hopen, hm⟩
    · exact Or.inl ⟨Or.inl hnil, persist_error_idle hw hpersist⟩
    · exact absurd hf (by simp)
    · have hready : Ready m := by
        obtain ⟨w, hwriter, hb⟩ := hm.pending
        exact ⟨hm.closed.trans hopen, hm.held (held_of_idle hw), w, hwriter, hb (by simpa using hfiles)⟩
      have hsame := persist_error_ready hready hpersist
      refine Or.inr ⟨⟨n, m, hremove⟩, hsame ▸ hready, ?_⟩
      rw [hsame, hm.ledger, Ledger.erase_forFile]
  · rcases remove_cases hremove with ⟨_, _, hok⟩ | ⟨_, _, hl, _, hheld, _⟩ | ⟨_, ⟨_, hok⟩, _⟩
    · exact absurd hok (by simp)
    · exact Or.inl ⟨Or.inr ⟨g, st', hremove⟩, hl, hheld (held_of_idle hw)⟩
    · exact absurd hok (by simp)

/-- Where nothing is staged, a publication keeps the committed documents. -/
theorem publish_unstaged {d : Directory} (hl : st.ledger = ⟨d.committed, d.documents, []⟩)
    (hh : st.Held) {c : Call} (hc : c = .commit ∨ c = .shutdown) {r : Except Failure Answer}
    (h : Ends ((service cwd config).perform c) st r st') :
    st'.directory.documents.Perm d.documents := by
  rcases publish_all_or_nothing hh hc h with hcommitted | hpublished
  · rw [committed_ledger, hl] at hcommitted
    rw [Directory.documents, hcommitted]
    exact List.Perm.refl _
  · have hperm := hpublished.committed
    rw [hl, committed_ledger, List.append_nil] at hperm
    exact hperm

/-- A filter keeps a list, up to the order, just where it keeps all of it. -/
theorem perm_of_filter_iff {xs ys : List Stored} {p : Stored → Bool} (h : ys.Perm (xs.filter p)) :
    ys.Perm xs ↔ ∀ x ∈ xs, p x = true := by
  constructor
  · intro hall
    have hlength := h.symm.length_eq.trans hall.length_eq
    exact List.length_filter_eq_length_iff.mp hlength
  · intro hall
    rwa [List.filter_eq_self.mpr hall] at h

/-- Once a reindexing failed, the next publication keeps the committed documents just where the
deletions could not be staged or had nothing to delete. -/
theorem reindex_failed_keeps_iff (hw : st.handle.writer = none) {files : List File.Reference}
    {symbols : List Submission} {prioritized : Bool} {f : Failure} {failed now ended : Session}
    (h : Ends ((service cwd config).reindex files symbols prioritized) st (.error f) failed)
    {calls : List (Call × Except Failure Answer)} (hreads : ∀ x ∈ calls, x.1.isReading = true)
    (hcalls : (service cwd config).History failed calls now) {c : Call}
    (hc : c = .commit ∨ c = .shutdown) {r : Except Failure Answer}
    (hend : Ends ((service cwd config).perform c) now r ended) :
    ended.directory.documents.Perm st.directory.documents ↔
      (∃ g m, Ends ((service cwd config).remove files) st (.error g) m) ∨
        ∀ x ∈ st.directory.documents, ∀ y ∈ files, x.file ≠ some (File.uri cwd y) := by
  have halike := reading_history hreads hcalls
  rcases reindex_error hw h with ⟨hunstaged, hledger, hheld⟩ | ⟨⟨n, m, hremove⟩, hready, hledger⟩
  · have hnow : now.ledger = ⟨st.directory.committed, st.directory.documents, []⟩ := by
      rw [halike.ledger, hledger, ledger_of_idle hw]
    have hsame := publish_unstaged hnow (halike.held hheld) hc hend
    refine iff_of_true hsame ?_
    rcases hunstaged with hnil | herror
    · rw [hnil]
      exact Or.inr fun _ _ y hy => absurd hy List.not_mem_nil
    · exact Or.inl herror
  · have hperm : ended.directory.documents.Perm
        (st.directory.documents.filter fun x => x.file ∉ (files.map (File.uri cwd)).map some) := by
      have hpublished := (publish_ready (halike.ready hready) hc hend).committed
      rw [halike.ledger, hledger, ledger_of_idle hw, committed_ledger] at hpublished
      simp only [Ledger.drop, List.append_nil] at hpublished
      exact hpublished
    rw [perm_of_filter_iff hperm]
    constructor
    · intro hnone
      refine Or.inr fun x hx y hy hfile => of_decide_eq_true (hnone x hx) ?_
      rw [hfile]
      exact List.mem_map_of_mem (List.mem_map_of_mem hy)
    · intro hkeeps
      rcases hkeeps with ⟨g, k, herror⟩ | hnone
      · exact absurd (hremove.unique herror).1 (by simp)
      · intro x hx
        apply decide_eq_true
        intro hmem
        obtain ⟨u, hu, hfile⟩ := List.mem_map.mp hmem
        obtain ⟨y, hy, rfl⟩ := List.mem_map.mp hu
        exact hnone x hx y hy hfile.symm

/-- A value that is no symbol makes the sample lose its class when the service is shut down. -/
theorem reindex_failed_loses_bee :
    ∃ failed ended,
      Ends (sampleService.reindex [.text "/a.kt"] [.unsupported .null] false) sampleSession
        (.error (.unsupported .null)) failed ∧
      Ends (sampleService.perform .shutdown) failed (.ok .done) ended ∧
      ¬ ended.directory.documents.Perm sampleSession.directory.documents := by
  obtain ⟨failed, ended, hfailed, hend⟩ : ∃ failed ended,
      Ends (sampleService.reindex [.text "/a.kt"] [.unsupported .null] false) sampleSession
        (.error (.unsupported .null)) failed ∧
      Ends (sampleService.perform .shutdown) failed (.ok .done) ended :=
    ⟨_, _, ⟨rfl, rfl⟩, ⟨rfl, rfl⟩⟩
  refine ⟨failed, ended, hfailed, hend, fun hperm => ?_⟩
  have hkeeps := (reindex_failed_keeps_iff rfl hfailed (by simp) (.nil failed) (Or.inr rfl)
    hend).mp hperm
  rcases hkeeps with ⟨g, m, herror⟩ | hnone
  · have hremove : Ends (sampleService.remove [.text "/a.kt"]) sampleSession (.ok 1) _ :=
      ⟨rfl, rfl⟩
    exact absurd (hremove.unique herror).1 (by simp)
  · obtain ⟨b, hdocuments⟩ : ∃ b, sampleSession.directory.documents =
        [⟨some "a.Bee", some "file:///a.kt", some "ClassIndex", b⟩] := ⟨_, rfl⟩
    rw [hdocuments] at hnone
    exact hnone _ List.mem_cons_self (.text "/a.kt") List.mem_cons_self rfl

/-- A reindexing that fails does not always leave the committed documents alone. -/
theorem reindex_not_all_or_nothing :
    ¬ ∀ (calls : List (Call × Except Failure Answer)) (st failed ended : Session)
      (files : List File.Reference) (symbols : List Submission) (prioritized : Bool) (f : Failure),
      sampleService.History (start (.fresh "/index")) calls st → st.handle.writer = none →
      Ends (sampleService.reindex files symbols prioritized) st (.error f) failed →
      Ends (sampleService.perform .commit) failed (.ok .done) ended →
      ended.directory.documents.Perm st.directory.documents := by
  intro hclaim
  have hperm := hclaim _ _ _ _ [.text "/a.kt"] [.unsupported .null] false _ history_sampleSession
    rfl ⟨rfl, rfl⟩ ⟨rfl, rfl⟩
  exact absurd hperm.length_eq (by decide)

end

end GoToSymbol.Store
