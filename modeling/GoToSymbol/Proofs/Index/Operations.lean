import GoToSymbol.Proofs.Index.Calls

namespace GoToSymbol.Store

open GoToSymbol.Action Session Work

section

variable {cwd : File.Path} {config : IndexConfig} {st st' : Session}

/-- A commit absorbs that the files are gone, and fails for any other reason. -/
theorem commit_cases {r : Except Failure Unit} (h : Ends (service cwd config).commit st r st') :
    (st.handle.closed = true ∧ st' = st ∧ ∃ f, r = .error f) ∨
      ∃ x, st.handle.closed = false ∧ Ends flush st x st' ∧ (x = .ok () → r = .ok ()) := by
  unfold Service.commit at h
  rw [ends_rescue] at h
  rcases h with ⟨_, hend, rfl⟩ | ⟨f, m, hend, hcatch⟩
  · rcases ends_guarded_whileOpen.mp hend with ⟨_, hf, _⟩ | ⟨hopen, x, hflush, _⟩
    · exact absurd hf (by simp)
    · exact Or.inr ⟨x, hopen, hflush, fun _ => rfl⟩
  · rcases ends_guarded_whileOpen.mp hend with ⟨hclosed, hf, rfl⟩ | ⟨hopen, x, hflush, hx⟩
    · cases hf
      simp only [Service.told, ends_fail] at hcatch
      exact Or.inl ⟨hclosed, hcatch.2, _, hcatch.1⟩
    · have hsame : st' = m := by
        split at hcatch
        · exact (ends_log.mp hcatch).2
        · exact (ends_fail.mp hcatch).2
      rw [hsame]
      refine Or.inr ⟨x, hopen, hflush, fun hok => ?_⟩
      rw [hok] at hx
      exact absurd hx (by simp [Except.mapError])

/-- A session that is closed flushes its writer, if there is one, and lets go of the index. -/
theorem closing_cases {r : Except Failure Unit} (h : Ends Work.shutdown st r st') :
    (st.handle.closed = true ∧ st' = st ∧ r = .ok ()) ∨
      ∃ m x, st.handle.closed = false ∧ (x = .ok () → r = .ok ()) ∧
        ((st.handle.writer = none ∧ x = .ok () ∧ m = st) ∨
          (st.handle.writer ≠ none ∧ Ends flush st x m)) ∧
        (st' = m.close ∨ st' = (m.setOpened false).close) := by
  unfold Work.shutdown at h
  rw [ends_read_bind] at h
  split at h
  · next hc =>
    rw [ends_pure] at h
    exact Or.inl ⟨hc, h.2, h.1⟩
  · next hc =>
    right
    rw [ends_ensure_update] at h
    obtain ⟨k, hrelease, rfl⟩ := h
    unfold release at hrelease
    rw [ends_read_bind] at hrelease
    simp only at hrelease
    have hopen : st.handle.closed = false := by simpa using hc
    split at hrelease
    · next hw =>
      have hw' : st.handle.writer ≠ none := by
        intro hnone
        simp [hnone] at hw
      rw [ends_bind] at hrelease
      rcases hrelease with ⟨_, m, hflush, hlet⟩ | ⟨f, hflush, rfl⟩
      · rw [ends_update] at hlet
        refine ⟨m, .ok (), hopen, fun _ => hlet.1, Or.inr ⟨hw', hflush⟩, Or.inr ?_⟩
        rw [hlet.2]
      · exact ⟨k, .error f, hopen, fun hok => absurd hok (by simp), Or.inr ⟨hw', hflush⟩,
          Or.inl rfl⟩
    · next hw =>
      rw [ends_update] at hrelease
      refine ⟨st, .ok (), hopen, fun _ => hrelease.1, Or.inl ⟨by simpa using hw, rfl, rfl⟩,
        Or.inr ?_⟩
      rw [hrelease.2]

/-- A session that is closed without a failure has published all that was staged. -/
theorem shutdown_published (hopen : st.handle.closed = false)
    (h : Ends Work.shutdown st (.ok ()) st') : Ledger.Published st.ledger st'.ledger := by
  unfold Work.shutdown at h
  rw [ends_read_bind, if_neg (by simp [hopen]), ends_ensure_update] at h
  obtain ⟨k, hrelease, rfl⟩ := h
  unfold release at hrelease
  rw [ends_read_bind] at hrelease
  simp only at hrelease
  split at hrelease
  · obtain ⟨_, m, hflush, hlet⟩ := ends_bind_ok.mp hrelease
    rw [(ends_update.mp hlet).2]
    change Ledger.Published st.ledger m.ledger
    exact flush_published hflush
  · next hw =>
    have hidle : st.handle.writer = none := by simpa using hw
    rw [(ends_update.mp hrelease).2]
    change Ledger.Published st.ledger st.ledger
    rw [ledger_of_idle hidle]
    exact Ledger.published_self _

theorem shutdown_cases {r : Except Failure Unit}
    (h : Ends (service cwd config).shutdown st r st') :
    (st.handle.closed = true ∧ st' = st ∧ r = .ok ()) ∨
      ∃ m x, st.handle.closed = false ∧ (x = .ok () → r = .ok ()) ∧
        ((st.handle.writer = none ∧ x = .ok () ∧ m = st) ∨
          (st.handle.writer ≠ none ∧ Ends flush st x m)) ∧
        (st' = m.close ∨ st' = (m.setOpened false).close) := by
  unfold Service.shutdown at h
  rw [Service.ends_guarded] at h
  rcases h with ⟨_, hs, rfl⟩ | ⟨f, hs, rfl⟩
  · exact closing_cases hs
  · rcases closing_cases hs with ⟨_, _, hf⟩ | ⟨m, x, hopen, hx, hcases, hst⟩
    · exact absurd hf (by simp)
    · exact Or.inr ⟨m, x, hopen, fun hok => absurd (hx hok) (by simp), hcases, hst⟩

/-- A removal stages all deletions it is asked for, or none. -/
theorem remove_cases {files : List File.Reference} {r : Except Failure Int}
    (h : Ends ((service cwd config).remove files) st r st') :
    (files = [] ∧ st' = st ∧ r = .ok 0) ∨
      (files ≠ [] ∧ (∃ f, r = .error f) ∧ st'.ledger = st.ledger ∧
        st'.handle.closed = st.handle.closed ∧ (st.Held → st'.Held) ∧
        (st.Intact → st'.Intact)) ∨
      (files ≠ [] ∧ (∃ n, r = .ok n) ∧ st.handle.closed = false ∧
        Marked st ((files.map (File.uri cwd)).map Query.forFile) st') := by
  unfold Service.remove at h
  split at h
  · next hnil =>
    rw [ends_succeed] at h
    exact Or.inl ⟨by simpa using hnil, h.2, h.1⟩
  · next hne =>
    have hfiles : files ≠ [] := by simpa using hne
    right
    have hqueries : files.map (fun f => Query.forFile (File.uri (service cwd config).cwd f))
        = (files.map (File.uri cwd)).map Query.forFile := by
      rw [List.map_map]
      rfl
    rw [hqueries, ends_bind_logged] at h
    rcases ends_guarded_whileOpen.mp h with ⟨_, hr, rfl⟩ | ⟨hopen, x, hdelete, hr⟩
    · exact Or.inl ⟨hfiles, ⟨_, hr⟩, rfl, rfl, id, id⟩
    · obtain ⟨y, hy, rfl⟩ := ends_bind_pure.mp hdelete
      rcases delete_cases hy with ⟨f, rfl, hl, hc, hh, hi⟩ | ⟨n, rfl, hm⟩
      · exact Or.inl ⟨hfiles, ⟨_, hr⟩, hl, hc, hh, fun hs => hi hs hopen⟩
      · exact Or.inr ⟨hfiles, ⟨_, hr⟩, hopen, hm⟩

/-- Symbols are made documents of first; only then the storage is asked. -/
theorem persist_cases {symbols : List Submission} {publish prioritized : Bool}
    {r : Except Failure Unit}
    (h : Ends ((service cwd config).persist symbols publish prioritized) st r st') :
    ((∃ f, r = .error f) ∧ st' = st) ∨
      ∃ ds, (service cwd config).documentsOf prioritized symbols = .ok ds ∧
        ((ds = [] ∧ publish = false ∧ r = .ok () ∧ st' = st) ∨
          (ds = [] ∧ publish = true ∧ Ends (service cwd config).commit st r st') ∨
          (ds ≠ [] ∧ st.handle.closed = false ∧ ∃ x, Ends (put ds publish) st x st' ∧
            r = x.mapError (Service.told "put"))) := by
  unfold Service.persist at h
  cases hds : (service cwd config).documentsOf prioritized symbols with
  | error f =>
    rw [hds, ends_error_bind] at h
    exact Or.inl ⟨⟨f, h.1⟩, h.2⟩
  | ok ds =>
    rw [hds, ends_ok_bind] at h
    split at h
    · next hnil =>
      have hnil : ds = [] := by simpa using hnil
      cases publish with
      | false =>
        rw [if_neg (by simp), ends_succeed] at h
        exact Or.inr ⟨ds, rfl, Or.inl ⟨hnil, rfl, h.1, h.2⟩⟩
      | true =>
        rw [if_pos rfl] at h
        exact Or.inr ⟨ds, rfl, Or.inr (Or.inl ⟨hnil, rfl, h⟩)⟩
    · next hne =>
      have hne : ds ≠ [] := by simpa using hne
      rw [ends_bind_log] at h
      rcases ends_guarded_whileOpen.mp h with ⟨_, hr, rfl⟩ | ⟨hopen, x, hput, hr⟩
      · exact Or.inl ⟨⟨_, hr⟩, rfl⟩
      · exact Or.inr ⟨ds, rfl, Or.inr (Or.inr ⟨hne, hopen, x, hput, hr⟩)⟩

/-- A search answers the distinct entries at the head of a ranking of what is committed. -/
theorem find_cases {q : Query} {limit : Int} {r : Except Failure (List Entry)}
    (h : Ends ((service cwd config).find q limit) st r st') :
    Alike st st' ∧ (st.handle.closed = true → ∃ f, r = .error f) ∧
      (st.Intact → st.handle.closed = false →
        r = ((((ranking q st.directory.committed).take limit.toNat).map Stored.document).mapM
          Entry.ofDocument).map fun es => Service.firstResults limit (Entry.distinct es)) := by
  unfold Service.find at h
  rw [ends_bind] at h
  rcases h with ⟨ds, m, hsearch, h⟩ | ⟨f, hsearch, hr⟩
  · have hdecode : r = (ds.mapM Entry.ofDocument).map
        (fun es => Service.firstResults limit (Entry.distinct es)) ∧ st' = m := by
      obtain ⟨x, hx, hr⟩ := ends_bind_pure.mp h
      obtain ⟨hx, hm⟩ := ends_ofExcept.mp hx
      exact ⟨by rw [hr, hx], hm⟩
    rcases ends_guarded_whileOpen.mp hsearch with ⟨_, hf, _⟩ | ⟨hopen, x, hsearch, hx⟩
    · exact absurd hf (by simp)
    · refine ⟨hdecode.2 ▸ search_alike hsearch, fun hc => ?_, fun hi _ => ?_⟩
      · exact absurd (hopen.symm.trans hc) (by simp)
      · rw [search_ok hi hsearch] at hx
        cases hx
        exact hdecode.1
  · rcases ends_guarded_whileOpen.mp hsearch with ⟨hclosed, _, rfl⟩ | ⟨hopen, x, hsearch, hx⟩
    · exact ⟨Alike.refl _, fun _ => ⟨f, hr⟩,
        fun _ hopen => absurd (hclosed.symm.trans hopen) (by simp)⟩
    · refine ⟨search_alike hsearch, fun _ => ⟨f, hr⟩, fun hi _ => ?_⟩
      rw [search_ok hi hsearch] at hx
      exact absurd hx (by simp [Except.mapError])

theorem stats_cases {r : Except Failure (List (String × Value))}
    (h : Ends (service cwd config).stats st r st') :
    Alike st st' ∧ (st.handle.closed = true → ∃ f, r = .error f) ∧
      (st.Intact → st.handle.closed = false →
        ∃ others, r = .ok (("document_count", .int st.directory.documents.length) :: others)) := by
  unfold Service.stats at h
  rcases ends_guarded_whileOpen.mp h with ⟨hclosed, hr, rfl⟩ | ⟨hopen, x, hstats, hr⟩
  · exact ⟨Alike.refl _, fun _ => ⟨_, hr⟩,
      fun _ hopen => absurd (hclosed.symm.trans hopen) (by simp)⟩
  · refine ⟨stats_alike hstats, fun hc => ?_, fun hi _ => ?_⟩
    · exact absurd (hopen.symm.trans hc) (by simp)
    · obtain ⟨others, hx⟩ := stats_ok hi hstats
      rw [hx] at hr
      exact ⟨others, hr⟩

end

end GoToSymbol.Store
