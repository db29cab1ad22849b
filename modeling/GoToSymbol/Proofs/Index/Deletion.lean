import GoToSymbol.Proofs.Index.Effects
import GoToSymbol.Proofs.Index.Keeping

namespace GoToSymbol.Store

open GoToSymbol.Action Session Work

namespace Session

/-- Where its directory is there, the session is intact. A writer outlives the directory, but no
session has one that did not open the index before. -/
structure Coherent (s : Session) : Prop where
  intact : s.directory.contents.isSome = true → s.Intact
  numbered : s.directory.lost ≤ s.directory.segments
  opened : s.handle.writer.isSome = true → s.handle.opened = true
  closed : s.handle.closed = true → s.handle.writer = none

variable {s : Session}

theorem Intact.coherent (h : s.Intact) (hw : s.handle.writer = none) : s.Coherent where
  intact _ := h
  numbered := h.directory.numbered
  opened hsome := absurd hw (Option.isSome_iff_ne_none.mp hsome)
  closed := h.closed

theorem coherent_start {d : Directory} (h : d.Intact) : (start d).Coherent :=
  (intact_start h).coherent rfl

theorem Coherent.erase (h : s.Coherent) : (s.setDirectory s.directory.erase).Coherent where
  intact hthere := absurd hthere (by simp [Directory.erase])
  numbered := Nat.le_refl _
  opened := h.opened
  closed := h.closed

/-- A session without a writer that lets go of an index, or whose index is gone. -/
theorem Coherent.letGo (h : s.Coherent) (hw : s.handle.writer = none) :
    (s.setOpened false).Coherent where
  intact hthere := (Alike.letGo s).intact (h.intact hthere)
  numbered := h.numbered
  opened hsome := absurd hw (Option.isSome_iff_ne_none.mp hsome)
  closed := h.closed

theorem Coherent.close (h : s.Coherent) (hw : s.handle.writer = none) : s.close.Coherent where
  intact hthere := intact_close (h.intact hthere) hw
  numbered := h.numbered
  opened := h.opened
  closed _ := hw

theorem Coherent.setWriter {v w : Writer} (h : s.Coherent) (hw : s.handle.writer = some w)
    (hn : v.number = w.number)
    (hb : s.directory.contents.isSome = true → ∀ t ∈ v.base, s.directory.lost ≤ t.serial) :
    (s.setWriter (some v)).Coherent where
  intact hthere := intact_setWriter (h.intact hthere) hw hn (hb hthere)
  numbered := h.numbered
  opened _ := h.opened (by rw [hw]; rfl)
  closed hc := absurd (hw.symm.trans (h.closed hc)) (by simp)

theorem Coherent.addDocument (h : s.Coherent) (x : Stored) : (s.addDocument x).Coherent := by
  cases hw : s.handle.writer with
  | none =>
    have hsame : s.addDocument x = s := by
      simp only [Session.addDocument, hw, Option.map_none]
      exact setWriter_self hw
    rw [hsame]
    exact h
  | some w =>
    have hstep : s.addDocument x = s.setWriter (some { w with added := w.added ++ [x] }) := by
      simp [Session.addDocument, hw]
    rw [hstep]
    exact h.setWriter hw rfl fun hthere => (h.intact hthere).base w hw

/-- A coherent session that was not closed. -/
structure Active (s : Session) : Prop where
  coherent : s.Coherent
  opened : s.handle.closed = false

theorem Active.same {m : Session} (h : s.Active) (hm : m.Coherent)
    (hc : m.handle.closed = s.handle.closed) : m.Active := ⟨hm, hc.trans h.opened⟩

end Session

namespace Work

variable {s s' : Session}

/-- An index that is created anew is there, with no document in it. -/
theorem coherent_created (hs : s.Coherent) (hw : s.handle.writer = none) :
    ((s.setDirectory (s.directory.make.setCatalogue (.sound 0 []))).setOpened true).Coherent := by
  have hmade := Directory.isSome_contents_make s.directory
  have hcat := Directory.catalogue_setCatalogue (.sound 0 []) hmade
  refine Intact.coherent ⟨?_, ⟨?_, ?_, ?_⟩, fun _ => ⟨0, [], hcat⟩, held_of_idle hw, ?_,
    fun _ => hw⟩ hw
  · simp
  · simp [hcat]
  · simpa using hs.numbered
  · simp [Directory.committed_of_sound hcat]
  · intro w hwriter
    exact absurd (hw.symm.trans hwriter) (by simp)

theorem keeps_openIndex : Keeps Active openIndex := by
  intro s r s' hs h
  have halike := openIndex_alike h
  refine hs.same ?_ halike.closed
  have hc := hs.coherent
  unfold openIndex at h
  simp only [ends_read_bind] at h
  split at h
  · rw [(ends_pure.mp h).2]
    exact hc
  · next hopened =>
    -- A session that did not open the index has no writer.
    have hw : s.handle.writer = none := by
      by_contra hw
      exact hopened (hc.opened (Option.isSome_iff_ne_none.mpr hw))
    cases hcontents : s.directory.contents with
    | some c =>
      have hthere : s.directory.contents.isSome = true := by rw [hcontents]; rfl
      exact (halike.intact (hc.intact hthere)).coherent (halike.writer.trans hw)
    | none =>
      have habsent : s.directory.catalogue = .absent := by simp [Directory.catalogue, hcontents]
      rw [habsent] at h
      rw [(ends_update.mp h).2]
      exact coherent_created hc hw

theorem keeps_useWriter : Keeps Active useWriter := by
  intro s r s' hs h
  cases hw : s.handle.writer with
  | some w =>
    rw [((ends_useWriter_pending hw).mp h).2]
    exact hs
  | none =>
    rcases ends_bind.mp ((ends_useWriter_idle hw).mp h) with
      ⟨_, m, hopen, hstart⟩ | ⟨f, hopen, _⟩
    · have hm := keeps_openIndex s _ m hs hopen
      rcases startWriter_cases hstart with ⟨_, _, rfl⟩ | ⟨w, g, _, hthere, hg, ha, hstarted⟩
      · exact hm
      · have halike := openIndex_alike hopen
        have hused := using_started (halike.writer.trans hw) hthere hg ha hstarted
        have hintact := hused.intact (hm.coherent.intact hthere) hm.opened
        refine hm.same ⟨fun _ => hintact, hintact.directory.numbered, fun _ => ?_,
          hintact.closed⟩ hused.closed
        have hopened : m.handle.opened = true := openIndex_opened hopen
        rw [hstarted]
        exact hopened
    · exact keeps_openIndex s _ s' hs hopen

theorem keeps_eraseBy (q : Query) : Keeps Active (eraseBy q) := by
  intro s r s' hs h
  rcases ends_bind.mp h with ⟨w, m, huse, hrest⟩ | ⟨f, huse, _⟩
  · have hm := keeps_useWriter s _ m hs huse
    have hw := (useWriter_ok huse).writer
    rw [ends_read_bind] at hrest
    split at hrest
    · rw [(ends_fail.mp hrest).2]
      exact hm
    · rw [ends_update_bind, ends_pure] at hrest
      rw [hrest.2]
      refine hm.same (hm.coherent.setWriter hw rfl fun hthere t ht => ?_) rfl
      obtain ⟨u, hu, rfl⟩ := List.mem_map.mp ht
      exact (hm.coherent.intact hthere).base w hw u hu
  · exact keeps_useWriter s _ s' hs huse

/-- Where the directory is gone, a commit forgets what was pending and says so. -/
theorem flush_gone (hgone : s.directory.contents = none)
    (h : s.handle.writer ≠ none ∨ s.handle.opened = true) {r : Except Failure Unit} :
    Ends flush s r s' ↔ r = .error .missing ∧ s' = (s.setWriter none).setOpened false := by
  have habsent : s.directory.catalogue = .absent := by simp [Directory.catalogue, hgone]
  have hpending : (s.handle.writer.isNone && !s.handle.opened) = false := by
    rcases h with hw | hopened
    · simp [hw]
    · simp [hopened]
  have habandon {x : Except Failure Unit} {m : Session} :
      Ends abandonWriter s x m ↔ x = .ok () ∧ m = s.setWriter none := by
    unfold abandonWriter
    cases hw : s.handle.writer with
    | none => simp [hw, setWriter_self hw]
    | some w =>
      have hunlock : s.directory.unlock w.number = s.directory := by
        simp only [Directory.unlock, hgone, Option.map_none]
        rw [← hgone]
      rw [ends_read_bind, hw, ends_update_bind, ends_log, hunlock]
      rfl
  unfold flush
  rw [ends_read_bind, hpending, habsent]
  simp [ends_bind, habandon]

theorem flush_coherent (hs : s.Coherent) {r : Except Failure Unit} (h : Ends flush s r s') :
    s'.Coherent ∧ s'.handle.writer = none ∧ s'.handle.closed = s.handle.closed := by
  -- Where the directory is there all is as without deletions; else nothing is left to write.
  cases hcontents : s.directory.contents with
  | some c =>
    have hi := hs.intact (by rw [hcontents]; rfl)
    obtain ⟨hintact, hw, _⟩ := flush_intact hi h
    exact ⟨hintact.coherent hw, hw, flush_closed hi.held h⟩
  | none =>
    by_cases hidle : s.handle.writer = none ∧ s.handle.opened = false
    · obtain ⟨hw, hopened⟩ := hidle
      unfold flush at h
      rw [ends_read_bind, if_pos (by simp [hw, hopened])] at h
      rw [(ends_pure.mp h).2]
      exact ⟨hs, hw, rfl⟩
    · have hpending : s.handle.writer ≠ none ∨ s.handle.opened = true := by
        rw [← Bool.not_eq_false]
        exact not_and_or.mp hidle
      obtain ⟨_, rfl⟩ := (flush_gone hcontents hpending).mp h
      refine ⟨⟨?_, hs.numbered, ?_, fun _ => rfl⟩, rfl, rfl⟩
      · intro hthere
        exact absurd hthere (by simp [hcontents])
      · simp

theorem keeps_flush : Keeps Active flush := by
  intro s r s' hs h
  obtain ⟨hc, _, hclosed⟩ := flush_coherent hs.coherent h
  exact hs.same hc hclosed

theorem keeps_shutdown : Keeps Coherent Work.shutdown := by
  intro s r s' hs h
  rcases closing_cases h with ⟨_, rfl, _⟩ | ⟨m, x, _, _, hm, hst⟩
  · exact hs
  · have hmid : m.Coherent ∧ m.handle.writer = none := by
      rcases hm with ⟨hw, _, rfl⟩ | ⟨_, hflush⟩
      · exact ⟨hs, hw⟩
      · obtain ⟨hc, hw, _⟩ := flush_coherent hs hflush
        exact ⟨hc, hw⟩
    obtain ⟨hc, hw⟩ := hmid
    rcases hst with rfl | rfl
    · exact hc.close hw
    · exact (hc.letGo hw).close hw

end Work

theorem kept_active : Kept Active where
  openIndex := keeps_openIndex
  useWriter := keeps_useWriter
  addDocument _ x hs := hs.same (hs.coherent.addDocument x) rfl
  eraseBy := keeps_eraseBy
  flush := keeps_flush

theorem keeps_engine : engine.Keeps Coherent :=
  kept_active.engine (fun _ hs hopen => ⟨hs, hopen⟩) (fun _ hs => hs.coherent) keeps_shutdown

/-- The sessions that calls can lead to from a directory that may be deleted at any time. -/
inductive Reached (s : Service Session) (d : Directory) : Session → Prop where
  | start : Reached s d (start d)
  | called {st st' : Session} (h : Reached s d st) {c : Call} {r : Except Failure Answer}
      (hend : Ends (s.perform c) st r st') : Reached s d st'
  | deleted {st : Session} (h : Reached s d st) :
      Reached s d (st.setDirectory st.directory.erase)

theorem Reached.coherent {cwd : File.Path} {config : IndexConfig} {d : Directory} (hd : d.Intact)
    {st : Session} (h : Reached (service cwd config) d st) : st.Coherent := by
  induction h with
  | start => exact coherent_start hd
  | called _ hend ih => exact Service.keeps_perform keeps_engine _ _ _ _ ih hend
  | deleted _ ih => exact ih.erase

end GoToSymbol.Store
