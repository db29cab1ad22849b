import GoToSymbol.Proofs.Index.Availability

namespace GoToSymbol.Store

open GoToSymbol.Action Session

section

variable {cwd : File.Path} {config : IndexConfig} {d : Directory}

theorem available_start (hd : d.Intact) (hfree : d.lock = none) : Available (start d) where
  intact := intact_start hd
  opened := rfl
  free _ := (Directory.lock_make d).trans hfree

theorem ledger_start (d : Directory) : (start d).ledger = ⟨d.committed, d.documents, []⟩ := by
  have hcommitted : d.make.committed = d.committed :=
    Directory.committed_congr (Directory.catalogue_make d)
  rw [ledger_of_idle rfl]
  simp only [start, Directory.documents, hcommitted]

/-- One reindexing, told by a text, in a session of its own. -/
def reindexOnce (s : Service Session) (files : List File.Reference) (symbols : List Submission)
    (prioritized : Bool) (text : String) : Action Session String :=
  ensure (do
    s.reindex files symbols prioritized
    return text) s.shutdown

variable {files : List File.Reference} {symbols : List Submission} {prioritized : Bool}
  {text : String}

/-- Where all documents can be built, they take the place of those of the files. -/
theorem reindexOnce_ok (hd : d.Intact) (hfree : d.lock = none) {ds : List Document}
    (hds : (service cwd config).documentsOf prioritized symbols = .ok ds) :
    ∃ st, Ends (reindexOnce (service cwd config) files symbols prioritized text) (start d)
        (.ok text) st ∧ st.directory.Intact ∧ st.directory.lock = none ∧
      st.directory.documents.Perm
        (d.documents.filter (fun x => !x.isOf (files.map (File.uri cwd))) ++
          symbols.filterMap (·.stored? cwd config.policy prioritized)) := by
  obtain ⟨m, hreindex, hm⟩ := reindex_returns (available_start hd hfree) files hds
  obtain ⟨_, heffect⟩ := perform_effect (intact_start hd) hreindex
  have hshutdown := ends_self (service cwd config).shutdown m
  obtain ⟨hintact, hr, hagain⟩ := shutdown_ledger hm.intact hshutdown
  refine ⟨_, ?_, hintact.directory, shutdown_unlocks hm hshutdown, ?_⟩
  · obtain ⟨_, hdone, _⟩ := ends_bind_pure_ok.mp hreindex
    refine ends_ensure.mpr ⟨.ok text, m, .ok (), ?_, hr ▸ hshutdown, rfl⟩
    exact ends_bind_pure_ok.mpr ⟨(), hdone, rfl⟩
  · have hpublished := (heffect.published rfl).trans hagain
    have hperm := hpublished.committed
    rw [documents_ledger, ledger_start] at hperm
    have hkept := Ledger.kept_drop (files.map (File.uri cwd)) ⟨d.committed, d.documents, []⟩
    rw [← hkept]
    exact hperm

/-- Where some document cannot be built, nothing is added. -/
theorem reindexOnce_error (hd : d.Intact) (hfree : d.lock = none) {f : Failure}
    (hds : (service cwd config).documentsOf prioritized symbols = .error f) :
    ∃ st, Ends (reindexOnce (service cwd config) files symbols prioritized text) (start d)
        (.error f) st ∧ ∀ x ∈ st.directory.documents, x ∈ d.documents := by
  obtain ⟨n, m, hremove, hm⟩ := remove_returns (available_start hd hfree) files
  obtain ⟨_, hledger⟩ := remove_ok (intact_start hd) hremove
  have hpersist : Ends ((service cwd config).persist symbols true prioritized) m (.error f) m := by
    unfold Service.persist
    rw [hds, ends_error_bind]
    exact ⟨rfl, rfl⟩
  have hreindex : Ends ((service cwd config).reindex files symbols prioritized) (start d)
      (.error f) m := ends_bind.mpr (Or.inl ⟨n, m, hremove, hpersist⟩)
  have hshutdown := ends_self (service cwd config).shutdown m
  obtain ⟨_, hr, hpublished⟩ := shutdown_ledger hm.intact hshutdown
  refine ⟨_, ends_ensure.mpr ⟨.error f, m, .ok (), ?_, hr ▸ hshutdown, rfl⟩, fun x hx => ?_⟩
  · exact ends_bind.mpr (Or.inr ⟨f, hreindex, rfl⟩)
  · rw [← documents_ledger] at hx
    have hpending := hpublished.committed.mem_iff.mp hx
    rw [hledger, ledger_start] at hpending
    rcases List.mem_append.mp hpending with hkept | hstaged
    · exact (List.mem_filter.mp hkept).1
    · exact absurd hstaged List.not_mem_nil

end

end GoToSymbol.Store
