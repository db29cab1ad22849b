import GoToSymbol.Proofs.Index.Effects

namespace GoToSymbol.Store

open GoToSymbol.Action Session Work

theorem Directory.lock_unlock {n : Nat} {d : Directory} (h : d.lock = some n) :
    (d.unlock n).lock = none := by
  cases hc : d.contents with
  | none => simp [unlock, lock, hc]
  | some c =>
    have hl : c.lock = some n := by simpa [lock, hc] using h
    simp [unlock, lock, hc, hl]

/-- No writer but the session's own holds the lock. -/
def Session.Free (s : Session) : Prop := s.handle.writer = none → s.directory.lock = none

theorem Session.Alike.free_iff {s s' : Session} (h : Alike s s') : s'.Free ↔ s.Free := by
  unfold Session.Free
  rw [h.writer, h.lock]

theorem Session.free_of_writer {s : Session} {w : Writer} (h : s.handle.writer = some w) :
    s.Free := fun hnone => absurd (h.symm.trans hnone) (by simp)

/-- A session that can write: its files are there, it is open, and nobody else writes. -/
structure Available (s : Session) : Prop where
  intact : s.Intact
  opened : s.handle.closed = false
  free : s.Free

theorem Available.alike {s s' : Session} (hs : Available s) (h : Alike s s') : Available s' :=
  ⟨h.intact hs.intact, h.closed.trans hs.opened, h.free_iff.mpr hs.free⟩

namespace Work

variable {s s' : Session}

theorem Staged.available {xs : List Stored} (h : Staged s xs s') (hs : Available s) :
    Available s' := by
  obtain ⟨w, hw, _⟩ := h.pending
  exact ⟨h.intact hs.intact hs.opened, h.closed.trans hs.opened, free_of_writer hw⟩

theorem Marked.available {qs : List Query} (h : Marked s qs s') (hs : Available s) :
    Available s' := by
  obtain ⟨w, hw, _⟩ := h.pending
  exact ⟨h.intact hs.intact hs.opened, h.closed.trans hs.opened, free_of_writer hw⟩

theorem startWriter_returns (hthere : s.directory.contents.isSome = true)
    (hlock : s.directory.lock = none) {g : Nat} {ss : List Segment}
    (hg : s.directory.catalogue = .sound g ss) : ∃ w m, Ends startWriter s (.ok w) m := by
  have hsome : s.directory.contents ≠ none := Option.isSome_iff_ne_none.mp hthere
  unfold startWriter
  simp [hsome, hlock, hg]

theorem useWriter_returns (hs : Available s) : ∃ w m, Ends useWriter s (.ok w) m := by
  cases hw : s.handle.writer with
  | some w => exact ⟨w, s, (ends_useWriter_pending hw).mpr ⟨rfl, rfl⟩⟩
  | none =>
    have hopen := ends_self openIndex s
    have halike := openIndex_alike hopen
    obtain ⟨hok, g, hg⟩ := openIndex_ok hs.intact hopen
    rw [hok] at hopen
    obtain ⟨w, m, hstart⟩ := startWriter_returns (halike.intact hs.intact).there
      (halike.lock.trans (hs.free hw)) hg
    exact ⟨w, m, (ends_useWriter_idle hw).mpr (ends_bind_ok.mpr ⟨(), _, hopen, hstart⟩)⟩

theorem startWriter_free {w : Writer} (h : Ends startWriter s (.ok w) s') :
    s.directory.lock = none := by
  unfold startWriter at h
  simp only [ends_read_bind] at h
  split at h
  · exact absurd (ends_fail.mp h).1 (by simp)
  · split at h
    · exact absurd (ends_fail.mp h).1 (by simp)
    · next hlock => simpa using hlock

/-- A writer can be had only where nobody else writes. -/
theorem useWriter_free {w : Writer} (h : Ends useWriter s (.ok w) s') : s.Free := by
  intro hw
  rw [ends_useWriter_idle hw, ends_bind_ok] at h
  obtain ⟨_, m, hopen, hstart⟩ := h
  exact (openIndex_alike hopen).lock.symm.trans (startWriter_free hstart)

theorem delete_free {qs : List Query} {n : Nat} (h : Ends (delete qs false) s (.ok n) s') :
    s.Free := by
  obtain ⟨w, m, huse, _⟩ := ends_bind_ok.mp h
  exact useWriter_free huse

theorem put_free {ds : List Document} {publish : Bool} (h : Ends (put ds publish) s (.ok ()) s') :
    s.Free := by
  obtain ⟨w, m, huse, _⟩ := ends_bind_ok.mp h
  exact useWriter_free huse

/-- A commit gives the lock back. -/
theorem flush_unlocks {w : Writer} (hw : s.handle.writer = some w) (hh : s.Held)
    {r : Except Failure Unit} (h : Ends flush s r s') : s'.directory.lock = none := by
  obtain ⟨hlock, _⟩ := hh w hw
  rcases flush_held hw hh h with ⟨_, _, rfl⟩ | ⟨_, g, rfl⟩
  · exact Directory.lock_unlock hlock
  · exact Directory.lock_unlock ((Directory.lock_setCatalogue _ _).trans hlock)

theorem flush_available (hs : Available s) {r : Except Failure Unit} (h : Ends flush s r s') :
    r = .ok () ∧ Available s' := by
  obtain ⟨hintact, _, hok, _⟩ := flush_intact hs.intact h
  refine ⟨hok, hintact, (flush_closed hs.intact.held h).trans hs.opened, fun _ => ?_⟩
  cases hw : s.handle.writer with
  | none => exact (flush_idle hw h).1.lock.trans (hs.free hw)
  | some w => exact flush_unlocks hw hs.intact.held h

theorem delete_returns (hs : Available s) (qs : List Query) :
    ∃ n m, Ends (delete qs false) s (.ok n) m ∧ Available m := by
  obtain ⟨w, m, huse⟩ := useWriter_returns hs
  have hm := useWriter_ok huse
  have hbase := (hm.intact hs.intact hs.opened).base w hm.writer
  obtain ⟨n, k, herase⟩ : ∃ n k, Ends (eraseAll qs) m (.ok n) k := by
    have hend := ends_self (eraseAll qs) m
    rcases eraseAll_cases hm.writer hend with ⟨hlost, _⟩ | ⟨n, _, hn, _⟩
    · exact absurd (hlost.symm.trans (any_isLost_eq_false.mpr hbase)) (by simp)
    · exact ⟨n, _, hn, rfl⟩
  have hdelete : Ends (delete qs false) s (.ok n) k := by
    unfold delete
    rw [ends_bind_ok]
    refine ⟨w, m, huse, ?_⟩
    rw [ends_bind_ok]
    exact ⟨n, k, herase, ends_pure.mpr ⟨rfl, rfl⟩⟩
  rcases delete_cases hdelete with ⟨f, hf, _⟩ | ⟨_, _, hmarked⟩
  · exact absurd hf (by simp)
  · exact ⟨n, k, hdelete, hmarked.available hs⟩

theorem put_returns (hs : Available s) {ds : List Document} {xs : List Stored}
    (hx : List.Forall₂ (fun d x => Stored.ofDocument d = .ok x) ds xs) (publish : Bool) :
    ∃ m, Ends (put ds publish) s (.ok ()) m ∧ Available m := by
  obtain ⟨w, m, huse⟩ := useWriter_returns hs
  have hstage := ends_self (stageAll ds) m
  obtain ⟨hok, hstaged⟩ := stageAll_ends (useWriter_ok huse).writer hx hstage
  rw [hok, hstaged] at hstage
  have havailable := (staged_setWriter huse xs).available hs
  have hput {r : Except Failure Unit} {s' : Session}
      (h : Ends (if publish then flush else pure ())
        (m.setWriter (some { w with added := w.added ++ xs })) r s') :
      Ends (put ds publish) s r s' :=
    ends_bind.mpr (Or.inl ⟨w, m, huse, ends_bind.mpr (Or.inl ⟨(), _, hstage, h⟩)⟩)
  cases publish with
  | false => exact ⟨_, hput (ends_pure.mpr ⟨rfl, rfl⟩), havailable⟩
  | true =>
    have hflush := ends_self flush (m.setWriter (some { w with added := w.added ++ xs }))
    obtain ⟨hdone, hafter⟩ := flush_available havailable hflush
    rw [hdone] at hflush
    exact ⟨_, hput hflush, hafter⟩

end Work

section

variable {cwd : File.Path} {config : IndexConfig} {st : Session}

theorem remove_returns (hs : Available st) (files : List File.Reference) :
    ∃ n m, Ends ((service cwd config).remove files) st (.ok n) m ∧ Available m := by
  unfold Service.remove
  split
  · exact ⟨0, st, ends_succeed.mpr ⟨rfl, rfl⟩, hs⟩
  · obtain ⟨n, m, hdelete, hm⟩ := delete_returns hs
      (files.map fun f => Query.forFile (File.uri (service cwd config).cwd f))
    refine ⟨n, m, ?_, hm⟩
    rw [ends_bind_logged]
    refine ends_guarded_whileOpen.mpr (Or.inr ⟨hs.opened, .ok (n : Int), ?_, rfl⟩)
    exact ends_bind_pure_ok.mpr ⟨n, hdelete, rfl⟩

theorem commit_returns (hi : st.Intact) (hopen : st.handle.closed = false) :
    ∃ m, Ends (service cwd config).commit st (.ok ()) m ∧ Ends flush st (.ok ()) m := by
  have hend := ends_self (service cwd config).commit st
  rcases commit_cases hend with ⟨hclosed, _⟩ | ⟨x, _, hflush, hok⟩
  · exact absurd (hopen.symm.trans hclosed) (by simp)
  · obtain ⟨_, _, hx, _⟩ := flush_intact hi hflush
    exact ⟨_, ⟨hok hx, rfl⟩, hx ▸ hflush⟩

/-- Once a session that can write is shut down, everybody else can write. -/
theorem shutdown_unlocks (hs : Available st) {r : Except Failure Unit} {st' : Session}
    (h : Ends (service cwd config).shutdown st r st') : st'.directory.lock = none := by
  rcases shutdown_cases h with ⟨hclosed, _⟩ | ⟨m, x, _, _, hm, hst⟩
  · exact absurd (hs.opened.symm.trans hclosed) (by simp)
  · have hlock : m.directory.lock = none := by
      rcases hm with ⟨hw, _, rfl⟩ | ⟨_, hflush⟩
      · exact hs.free hw
      · obtain ⟨_, hidle, _⟩ := flush_intact hs.intact hflush
        exact (flush_available hs hflush).2.free hidle
    rcases hst with rfl | rfl
    · exact hlock
    · exact hlock

/-- Symbols of which all documents can be built are indexed. -/
theorem persist_returns (hs : Available st) {symbols : List Submission} {prioritized : Bool}
    {ds : List Document} (hds : (service cwd config).documentsOf prioritized symbols = .ok ds)
    (publish : Bool) :
    ∃ m, Ends ((service cwd config).persist symbols publish prioritized) st (.ok ()) m ∧
      Available m := by
  unfold Service.persist
  rw [hds]
  simp only [ends_ok_bind]
  split
  · cases publish with
    | false => exact ⟨st, ends_succeed.mpr ⟨rfl, rfl⟩, hs⟩
    | true =>
      obtain ⟨m, hcommit, hflush⟩ := commit_returns hs.intact hs.opened
      exact ⟨m, hcommit, (flush_available hs hflush).2⟩
  · obtain ⟨m, hput, hm⟩ := put_returns hs (Service.buildDocuments_stored hds) publish
    refine ⟨m, ?_, hm⟩
    rw [ends_bind_log]
    exact ends_guarded_whileOpen.mpr (Or.inr ⟨hs.opened, .ok (), hput, rfl⟩)

/-- An indexing of which some document cannot be built is refused before anything is written. -/
theorem persist_available (hs : Available st) {symbols : List Submission}
    {publish prioritized : Bool} {r : Except Failure Unit} {m : Session}
    (h : Ends ((service cwd config).persist symbols publish prioritized) st r m) :
    Available m ∧
      ∀ ds, (service cwd config).documentsOf prioritized symbols = .ok ds → r = .ok () := by
  cases hds : (service cwd config).documentsOf prioritized symbols with
  | ok ds =>
    obtain ⟨k, hk, havailable⟩ := persist_returns hs hds publish
    obtain ⟨hr, rfl⟩ := h.unique hk
    exact ⟨havailable, fun _ _ => hr⟩
  | error f =>
    unfold Service.persist at h
    rw [hds, ends_error_bind] at h
    rw [h.2]
    exact ⟨hs, fun _ hds => absurd hds (by simp)⟩

/-- A reindexing returns just where its two stages do, one right after the other. -/
theorem reindex_stages {files : List File.Reference} {symbols : List Submission}
    {prioritized : Bool} {st' : Session} :
    Ends ((service cwd config).perform (.reindex files symbols prioritized)) st (.ok .done) st' ↔
      ∃ n m, Ends ((service cwd config).remove files) st (.ok n) m ∧
        Ends ((service cwd config).persist symbols true prioritized) m (.ok ()) st' := by
  constructor
  · intro h
    obtain ⟨_, hreindex, _⟩ := ends_bind_pure_ok.mp h
    exact ends_bind_ok.mp hreindex
  · intro h
    have hreindex : Ends ((service cwd config).reindex files symbols prioritized) st (.ok ()) st' :=
      ends_bind_ok.mpr h
    exact ends_bind_pure_ok.mpr ⟨(), hreindex, rfl⟩

/-- A reindexing of which all documents can be built returns. -/
theorem reindex_returns (hs : Available st) (files : List File.Reference)
    {symbols : List Submission} {prioritized : Bool} {ds : List Document}
    (hds : (service cwd config).documentsOf prioritized symbols = .ok ds) :
    ∃ m, Ends ((service cwd config).perform (.reindex files symbols prioritized)) st (.ok .done) m ∧
      Available m := by
  obtain ⟨n, k, hremove, hk⟩ := remove_returns hs files
  obtain ⟨m, hpersist, hm⟩ := persist_returns hk hds true
  exact ⟨m, reindex_stages.mpr ⟨n, k, hremove, hpersist⟩, hm⟩

/-- With nothing to do it returns also where somebody else writes. -/
theorem reindex_nothing_returns (hi : st.Intact) (hopen : st.handle.closed = false)
    {symbols : List Submission} {prioritized : Bool}
    (hds : (service cwd config).documentsOf prioritized symbols = .ok []) :
    ∃ m, Ends ((service cwd config).perform (.reindex [] symbols prioritized)) st (.ok .done) m ∧
      m.handle.closed = false := by
  obtain ⟨m, hcommit, hflush⟩ := commit_returns hi hopen
  have hremove : Ends ((service cwd config).remove []) st (.ok 0) st :=
    ends_succeed.mpr ⟨rfl, rfl⟩
  have hpersist : Ends ((service cwd config).persist symbols true prioritized) st (.ok ()) m := by
    unfold Service.persist
    rw [hds]
    exact hcommit
  exact ⟨m, reindex_stages.mpr ⟨0, st, hremove, hpersist⟩,
    (flush_closed hi.held hflush).trans hopen⟩

/-- A removal that returns had nothing to remove, or nobody else writes. -/
theorem remove_free {files : List File.Reference} {n : Int} {m : Session}
    (h : Ends ((service cwd config).remove files) st (.ok n) m) :
    (files = [] ∧ m = st) ∨ (st.Free ∧ m.Free ∧ m.handle.closed = st.handle.closed) := by
  unfold Service.remove at h
  split at h
  · next hnil => exact Or.inl ⟨by simpa using hnil, (ends_succeed.mp h).2⟩
  · right
    rw [ends_bind_logged] at h
    rcases ends_guarded_whileOpen.mp h with ⟨_, hf, _⟩ | ⟨_, x, hdelete, hx⟩
    · exact absurd hf (by simp)
    · obtain ⟨y, hy, rfl⟩ := ends_bind_pure.mp hdelete
      cases y with
      | error f => exact absurd hx (by simp [Except.map, Except.mapError])
      | ok k =>
        rcases delete_cases hy with ⟨f, hf, _⟩ | ⟨_, _, hm⟩
        · exact absurd hf (by simp)
        · obtain ⟨w, hw, _⟩ := hm.pending
          exact ⟨delete_free hy, free_of_writer hw, hm.closed⟩

/-- An indexing that returns had no documents, or nobody else writes. -/
theorem persist_free (hi : st.Intact) {symbols : List Submission} {prioritized : Bool} {m : Session}
    (h : Ends ((service cwd config).persist symbols true prioritized) st (.ok ()) m) :
    st.handle.closed = false ∧ ∃ ds,
      (service cwd config).documentsOf prioritized symbols = .ok ds ∧
        ((st.Free ∧ m.Free) ∨ (¬ st.Free ∧ ¬ m.Free ∧ ds = [])) := by
  rcases persist_cases h with ⟨⟨f, hf⟩, _⟩ | ⟨ds, hds, hcases⟩
  · exact absurd hf (by simp)
  have hopen : st.handle.closed = false := by
    rcases hcases with ⟨_, hf, _⟩ | ⟨_, _, hcommit⟩ | ⟨_, hopen, _⟩
    · exact absurd hf (by simp)
    · rcases commit_cases hcommit with ⟨_, _, f, hf⟩ | ⟨_, hopen, _⟩
      · exact absurd hf (by simp)
      · exact hopen
    · exact hopen
  refine ⟨hopen, ds, hds, ?_⟩
  by_cases hfree : st.Free
  · left
    obtain ⟨k, hk, havailable⟩ := persist_returns ⟨hi, hopen, hfree⟩ hds true
    rw [(h.unique hk).2]
    exact ⟨hfree, havailable.free⟩
  · right
    rcases hcases with ⟨_, hf, _⟩ | ⟨hnil, _, hcommit⟩ | ⟨_, _, x, hput, hx⟩
    · exact absurd hf (by simp)
    · have hw : st.handle.writer = none := by
        by_contra hw
        exact hfree fun hnone => absurd hnone hw
      obtain ⟨k, hk, hflush⟩ : ∃ k, Ends (service cwd config).commit st (.ok ()) k ∧
          Ends flush st (.ok ()) k := commit_returns hi hopen
      rw [(hcommit.unique hk).2]
      exact ⟨hfree, fun hm => hfree ((flush_idle hw hflush).1.free_iff.mp hm), hnil⟩
    · cases x with
      | error f => exact absurd hx (by simp [Except.mapError])
      | ok _ => exact absurd (put_free hput) hfree

end

end GoToSymbol.Store
