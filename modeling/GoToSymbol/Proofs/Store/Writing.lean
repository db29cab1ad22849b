import GoToSymbol.Proofs.Store.Ledger
import Mathlib.Data.List.Forall2

namespace GoToSymbol.Store

open GoToSymbol.Action Session

namespace Directory

variable {d : Directory} (generation : Nat) (w : Writer)

/-- The directory once a writer published on it. -/
def written (d : Directory) (generation : Nat) (w : Writer) : Directory :=
  (({ d with segments := d.segments + 1 } : Directory).setCatalogue
    (.sound (generation + 1) (merge d.segments w.added (plan w.base)))).unlock w.number

theorem isSome_contents_of_lock {n : Nat} (h : d.lock = some n) : d.contents.isSome = true := by
  cases hc : d.contents with
  | some c => rfl
  | none => simp [lock, hc] at h

/-- The table of contents that a writer publishes is the one that is read from then on. -/
theorem catalogue_written (hthere : d.contents.isSome = true) :
    (d.written generation w).catalogue =
      .sound (generation + 1) (merge d.segments w.added (plan w.base)) := by
  unfold written
  rw [catalogue_unlock]
  exact catalogue_setCatalogue _ hthere

theorem committed_written (hthere : d.contents.isSome = true) :
    (d.written generation w).committed = merge d.segments w.added (plan w.base) :=
  committed_of_sound (catalogue_written generation w hthere)

end Directory

namespace Work

variable {s s' : Session}

theorem ends_useWriter_pending {w : Writer} (hw : s.handle.writer = some w)
    {r : Except Failure Writer} : Ends useWriter s r s' ↔ r = .ok w ∧ s' = s := by
  unfold useWriter
  simp [hw]

theorem ends_useWriter_idle (hw : s.handle.writer = none) {r : Except Failure Writer} :
    Ends useWriter s r s' ↔ Ends (openIndex >>= fun _ => startWriter) s r s' := by
  unfold useWriter
  simp [hw]

/-- A writer starts on the committed segments, and only where no lock is held. -/
theorem startWriter_cases {r : Except Failure Writer} (h : Ends startWriter s r s') :
    (∃ f, r = .error f ∧ s' = s) ∨
      ∃ w g, r = .ok w ∧ s.directory.contents.isSome = true ∧
        s.directory.catalogue = .sound g w.base ∧ w.added = [] ∧
        s' = (s.setDirectory { s.directory.setLock (some w.number) with
          writers := s.directory.writers + 1 }).setWriter (some w) := by
  unfold startWriter at h
  simp only [ends_read_bind] at h
  split at h
  · rw [ends_fail] at h
    exact Or.inl ⟨_, h⟩
  · next hthere =>
    split at h
    · rw [ends_fail] at h
      exact Or.inl ⟨_, h⟩
    · split at h
      · rw [ends_fail] at h
        exact Or.inl ⟨_, h⟩
      · rw [ends_fail] at h
        exact Or.inl ⟨_, h⟩
      · next g ss hg =>
        simp only [ends_update_bind, ends_pure] at h
        refine Or.inr ⟨⟨s.directory.writers, ss, []⟩, g, h.1, ?_, hg, rfl, h.2⟩
        simpa [Option.isNone_iff_eq_none, Option.isSome_iff_ne_none] using hthere

/-- A writer was started, or was pending already. -/
structure Using (s s' : Session) (w : Writer) : Prop where
  writer : s'.handle.writer = some w
  ledger : s'.ledger = s.ledger
  closed : s'.handle.closed = s.handle.closed
  lost : s'.directory.lost = s.directory.lost
  held : s.Held → s'.Held
  intact : s.Intact → s.handle.closed = false → s'.Intact

theorem using_started {m : Session} {w : Writer} {g : Nat} (hi : m.handle.writer = none)
    (hthere : m.directory.contents.isSome = true) (hg : m.directory.catalogue = .sound g w.base)
    (ha : w.added = [])
    (hs : s' = (m.setDirectory { m.directory.setLock (some w.number) with
      writers := m.directory.writers + 1 }).setWriter (some w)) : Using m s' w := by
  have hcat : s'.directory.catalogue = m.directory.catalogue := by
    rw [hs]
    exact Directory.catalogue_setLock _ _
  have hcommitted : s'.directory.committed = m.directory.committed :=
    Directory.committed_congr hcat
  have hbase : m.directory.committed = w.base := Directory.committed_of_sound hg
  have hwriter : s'.handle.writer = some w := by rw [hs]; rfl
  have hlock : s'.directory.lock = some w.number := by
    rw [hs]
    exact Directory.lock_setLock _ hthere
  have hheld : s'.Held := by
    intro v hv
    rw [hwriter] at hv
    cases hv
    exact ⟨hlock, g, w.base, hcat.trans hg⟩
  refine ⟨hwriter, ?_, by rw [hs]; rfl, by rw [hs]; rfl, fun _ => hheld, fun hm hopen => ?_⟩
  · rw [ledger_of_writer hwriter, ledger_of_idle hi, hcommitted, ha, Directory.documents, hbase]
  · refine ⟨?_, ⟨?_, ?_, ?_⟩, fun _ => ⟨g, w.base, hcat.trans hg⟩, hheld, ?_, ?_⟩
    · rw [hs]
      exact (Directory.isSome_contents_setLock _ _).trans hthere
    · rw [hcat]
      exact hm.directory.readable
    · rw [hs]
      exact hm.directory.numbered
    · rw [hcommitted, hs]
      exact hm.directory.unlost
    · intro v hv
      rw [hwriter] at hv
      cases hv
      rw [← hbase, hs]
      exact hm.directory.unlost
    · intro hc
      rw [hs] at hc
      exact absurd (hopen.symm.trans hc) (by simp)

theorem useWriter_ok {w : Writer} (h : Ends useWriter s (.ok w) s') : Using s s' w := by
  cases hw : s.handle.writer with
  | some v =>
    rw [ends_useWriter_pending hw] at h
    obtain ⟨hv, rfl⟩ := h
    cases hv
    exact ⟨hw, rfl, rfl, rfl, id, fun hi _ => hi⟩
  | none =>
    rw [ends_useWriter_idle hw, ends_bind_ok] at h
    obtain ⟨_, m, hopen, hstart⟩ := h
    have halike := openIndex_alike hopen
    rcases startWriter_cases hstart with ⟨f, hf, _⟩ | ⟨v, g, hv, hthere, hg, ha, hs⟩
    · exact absurd hf (by simp)
    · cases hv
      have hm := using_started (halike.writer.trans hw) hthere hg ha hs
      exact ⟨hm.writer, hm.ledger.trans halike.ledger, hm.closed.trans halike.closed,
        hm.lost.trans halike.lost, fun hh => hm.held (halike.held hh),
        fun hh hc => hm.intact (halike.intact hh) (halike.closed.trans hc)⟩

/-- Where no writer can be had, none was pending and none is. -/
theorem useWriter_error {f : Failure} (h : Ends useWriter s (.error f) s') :
    s.handle.writer = none ∧ Alike s s' := by
  cases hw : s.handle.writer with
  | some v =>
    rw [ends_useWriter_pending hw] at h
    exact absurd h.1 (by simp)
  | none =>
    refine ⟨rfl, ?_⟩
    rw [ends_useWriter_idle hw, ends_bind] at h
    rcases h with ⟨_, m, hopen, hstart⟩ | ⟨g, hopen, _⟩
    · rcases startWriter_cases hstart with ⟨_, _, rfl⟩ | ⟨v, g, hv, _⟩
      · exact openIndex_alike hopen
      · exact absurd hv (by simp)
    · exact openIndex_alike hopen

/-- A writer that only staged something is still the same to everybody else. -/
theorem intact_setWriter {w v : Writer} (hi : s.Intact) (hw : s.handle.writer = some w)
    (hn : v.number = w.number) (hb : ∀ t ∈ v.base, s.directory.lost ≤ t.serial) :
    (s.setWriter (some v)).Intact where
  there := hi.there
  directory := hi.directory
  opened := hi.opened
  held u hu := by
    cases hu
    rw [hn]
    exact hi.held w hw
  base u hu := by
    cases hu
    exact hb
  closed hc := by
    have hnone := hi.closed hc
    rw [hw] at hnone
    exact absurd hnone (by simp)

theorem held_setWriter {w v : Writer} (hh : s.Held) (hw : s.handle.writer = some w)
    (hn : v.number = w.number) : (s.setWriter (some v)).Held := by
  intro u hu
  cases hu
  rw [hn]
  exact hh w hw

/-- Of some documents either all are accepted, or there is a first one that is refused. -/
theorem accepted_or_refused (ds : List Document) :
    (∃ xs, List.Forall₂ (fun d x => Stored.ofDocument d = .ok x) ds xs) ∨
      ∃ good bad rest xs f, ds = good ++ bad :: rest ∧
        List.Forall₂ (fun d x => Stored.ofDocument d = .ok x) good xs ∧
        Stored.ofDocument bad = .error f := by
  induction ds with
  | nil => exact Or.inl ⟨[], .nil⟩
  | cons d ds ih =>
    cases hd : Stored.ofDocument d with
    | error f => exact Or.inr ⟨[], d, ds, [], f, rfl, .nil, hd⟩
    | ok x =>
      rcases ih with ⟨xs, hxs⟩ | ⟨good, bad, rest, xs, f, hds, hgood, hbad⟩
      · exact Or.inl ⟨x :: xs, .cons hd hxs⟩
      · refine Or.inr ⟨d :: good, bad, rest, x :: xs, f, ?_, .cons hd hgood, hbad⟩
        rw [hds]
        rfl

theorem exists_of_mem_accepted {ds : List Document} {xs : List Stored}
    (h : List.Forall₂ (fun d x => Stored.ofDocument d = .ok x) ds xs) {x : Stored} (hx : x ∈ xs) :
    ∃ d ∈ ds, Stored.ofDocument d = .ok x := by
  induction h with
  | nil => exact absurd hx List.not_mem_nil
  | @cons d y ds xs hd _ ih =>
    rcases List.mem_cons.mp hx with rfl | hx
    · exact ⟨d, List.mem_cons_self, hd⟩
    · obtain ⟨e, he, hey⟩ := ih hx
      exact ⟨e, List.mem_cons_of_mem d he, hey⟩

/-- Documents that are accepted are staged before those that follow. -/
theorem ends_stageAll_append {w : Writer} (hw : s.handle.writer = some w)
    {ds rest : List Document} {xs : List Stored}
    (hx : List.Forall₂ (fun d x => Stored.ofDocument d = .ok x) ds xs)
    {r : Except Failure Unit} :
    Ends (stageAll (ds ++ rest)) s r s' ↔
      Ends (stageAll rest) (s.setWriter (some { w with added := w.added ++ xs })) r s' := by
  induction hx generalizing s w with
  | nil =>
    have hsame : s.setWriter (some { w with added := w.added ++ [] }) = s := by
      rw [List.append_nil]
      exact setWriter_self hw
    rw [hsame, List.nil_append]
  | @cons d x ds xs hd _ ih =>
    have hstep : s.addDocument x = s.setWriter (some { w with added := w.added ++ [x] }) := by
      simp [addDocument, hw]
    simp only [List.cons_append, stageAll, hd, ends_ok_bind, ends_update_bind, hstep]
    rw [ih (writer_setWriter s _), setWriter_setWriter, List.append_assoc]
    rfl

theorem stageAll_ends {w : Writer} (hw : s.handle.writer = some w) {ds : List Document}
    {xs : List Stored} (hx : List.Forall₂ (fun d x => Stored.ofDocument d = .ok x) ds xs)
    {r : Except Failure Unit} (h : Ends (stageAll ds) s r s') :
    r = .ok () ∧ s' = s.setWriter (some { w with added := w.added ++ xs }) := by
  rw [← List.append_nil ds, ends_stageAll_append hw hx] at h
  exact ends_succeed.mp h

/-- Documents are staged up to the first one that is refused, which says why. -/
theorem stageAll_refused {w : Writer} (hw : s.handle.writer = some w) {good rest : List Document}
    {bad : Document} {xs : List Stored} {f : Failure}
    (hgood : List.Forall₂ (fun d x => Stored.ofDocument d = .ok x) good xs)
    (hbad : Stored.ofDocument bad = .error f) {r : Except Failure Unit}
    (h : Ends (stageAll (good ++ bad :: rest)) s r s') :
    r = .error f ∧ s' = s.setWriter (some { w with added := w.added ++ xs }) := by
  rw [ends_stageAll_append hw hgood, stageAll, hbad, ends_error_bind] at h
  exact h

/-- Whatever documents are staged, they were accepted. -/
theorem stageAll_accepted {w : Writer} (hw : s.handle.writer = some w) {ds : List Document}
    {r : Except Failure Unit} (h : Ends (stageAll ds) s r s') :
    ∃ xs, (∀ x ∈ xs, ∃ d ∈ ds, Stored.ofDocument d = .ok x) ∧
      s' = s.setWriter (some { w with added := w.added ++ xs }) ∧
      (r = .ok () ∧ List.Forall₂ (fun d x => Stored.ofDocument d = .ok x) ds xs ∨
        ∃ f, r = .error f) := by
  rcases accepted_or_refused ds with ⟨xs, hxs⟩ | ⟨good, bad, rest, xs, f, rfl, hgood, hbad⟩
  · obtain ⟨hr, hs⟩ := stageAll_ends hw hxs h
    exact ⟨xs, fun _ hx => exists_of_mem_accepted hxs hx, hs, Or.inl ⟨hr, hxs⟩⟩
  · obtain ⟨hr, hs⟩ := stageAll_refused hw hgood hbad h
    refine ⟨xs, fun x hx => ?_, hs, Or.inr ⟨f, hr⟩⟩
    obtain ⟨d, hd, hdx⟩ := exists_of_mem_accepted hgood hx
    exact ⟨d, List.mem_append_left _ hd, hdx⟩

theorem any_isLost_congr {d : Directory} {xs ys : List Segment}
    (h : xs.map (·.serial) = ys.map (·.serial)) : xs.any d.isLost = ys.any d.isLost := by
  have hany (zs : List Segment) : zs.any d.isLost = (zs.map (·.serial)).any (· < d.lost) := by
    rw [List.any_map]
    rfl
  rw [hany, hany, h]

theorem eraseBy_cases {w : Writer} (hw : s.handle.writer = some w) {q : Query}
    {r : Except Failure Nat} (h : Ends (eraseBy q) s r s') :
    (w.base.any s.directory.isLost = true ∧ r = .error .missing ∧ s' = s) ∨
      (w.base.any s.directory.isLost = false ∧ r = .ok (w.base.foldl (fun n t => n + t.countMet q) 0) ∧
        s' = s.setWriter (some { w with base := w.base.map (·.erase q) })) := by
  unfold eraseBy at h
  simp only [ends_bind, ends_useWriter_pending hw, ends_read, and_assoc] at h
  rcases h with ⟨v, m, hv, rfl, h⟩ | ⟨f, hf, _⟩
  · cases hv
    rcases h with ⟨t, m', ht, rfl, h⟩ | ⟨f, hf, _⟩
    · cases ht
      split at h
      · next hl =>
        rw [ends_fail] at h
        exact Or.inl ⟨hl, h⟩
      · next hl =>
        rw [ends_update_bind, ends_pure] at h
        exact Or.inr ⟨by simpa using hl, h⟩
    · exact absurd hf (by simp)
  · exact absurd hf (by simp)

/-- What the writer keeps once the deletion by some queries is staged. -/
structure Erased (d : Directory) (qs : List Query) (base base' : List Segment) : Prop where
  documents : documents base' = (documents base).filter fun x => !Query.acceptsAny qs x
  serials : base'.map (·.serial) = base.map (·.serial)
  unlost : qs ≠ [] → base.any d.isLost = false

/-- Deletions are staged one after the other. A lost file stops the first of them. -/
theorem eraseAll_cases {w : Writer} (hw : s.handle.writer = some w) {qs : List Query}
    {r : Except Failure Nat} (h : Ends (eraseAll qs) s r s') :
    (w.base.any s.directory.isLost = true ∧ r = .error .missing ∧ s' = s) ∨
      ∃ n base, r = .ok n ∧ Erased s.directory qs w.base base ∧
        s' = s.setWriter (some { w with base := base }) := by
  induction qs generalizing s w r s' with
  | nil =>
    simp only [eraseAll, ends_succeed] at h
    refine Or.inr ⟨0, w.base, h.1, ⟨?_, rfl, fun hne => absurd rfl hne⟩, ?_⟩
    · exact (List.filter_eq_self.mpr (by simp [Query.acceptsAny])).symm
    · rw [h.2]
      exact (setWriter_self hw).symm
  | cons q qs ih =>
    simp only [eraseAll, ends_bind] at h
    rcases h with ⟨n, m, hhead, htail⟩ | ⟨f, hhead, rfl⟩
    · rcases eraseBy_cases hw hhead with ⟨_, hf, _⟩ | ⟨hl, _, rfl⟩
      · exact absurd hf (by simp)
      · have hserials : (w.base.map (·.erase q)).map (·.serial) = w.base.map (·.serial) := by
          simp [Segment.erase, Segment.mapSlots, Function.comp_def]
        have hwriter := writer_setWriter s (some { w with base := w.base.map (·.erase q) })
        rcases htail with ⟨k, m', htail, hend⟩ | ⟨f, htail, rfl⟩
        · rcases ih hwriter htail with ⟨_, hf, _⟩ | ⟨k', base, _, herased, rfl⟩
          · exact absurd hf (by simp)
          · rw [ends_pure] at hend
            refine Or.inr ⟨n + k, base, hend.1, ⟨?_, ?_, fun _ => hl⟩, hend.2⟩
            · rw [herased.documents, documents_erase, List.filter_filter]
              apply List.filter_congr
              intro x _
              simp [Query.acceptsAny, Bool.and_comm]
            · rw [herased.serials]
              exact hserials
        · -- The first deletion found all files, so none is lost for the others.
          rcases ih hwriter htail with ⟨hl', _, _⟩ | ⟨k, base, hk, _, _⟩
          · have hsame := any_isLost_congr (d := s.directory) hserials
            rw [hl] at hsame
            exact absurd (hl'.symm.trans hsame) (by simp)
          · exact absurd hk (by simp)
    · rcases eraseBy_cases hw hhead with h | ⟨_, hr, _⟩
      · exact Or.inl h
      · exact absurd hr (by simp)

/-- A commit without a writer publishes nothing; where the index is gone, it is let go of. -/
theorem flush_idle (hw : s.handle.writer = none) {r : Except Failure Unit}
    (h : Ends flush s r s') : Alike s s' ∧ (s.Intact → r = .ok ()) := by
  unfold flush at h
  rw [ends_read_bind] at h
  split at h
  · rw [ends_pure] at h
    exact ⟨h.2 ▸ Alike.refl s, fun _ => h.1⟩
  · next hopen =>
    split at h
    · next hg =>
      rw [ends_fail] at h
      exact ⟨h.2 ▸ Alike.refl s, fun hi => absurd hg hi.directory.readable⟩
    · next habs =>
      have hs : s' = s.setOpened false := by
        have habandon {r : Except Failure Unit} {m : Session} :
            Ends abandonWriter s r m ↔ r = .ok () ∧ m = s := by
          unfold abandonWriter
          simp [hw]
        simp only [ends_bind, habandon, ends_update, ends_fail] at h
        rcases h with ⟨_, m, ⟨_, rfl⟩, h⟩ | ⟨f, ⟨hf, _⟩, _⟩
        · rcases h with ⟨_, m', ⟨_, rfl⟩, _, rfl⟩ | ⟨f, ⟨hf, _⟩, _⟩
          · rfl
          · exact absurd hf (by simp)
        · exact absurd hf (by simp)
      refine ⟨hs ▸ Alike.letGo s, fun hi => ?_⟩
      obtain ⟨g, ss, hg⟩ := hi.opened (by simpa [hw] using hopen)
      exact absurd (habs.symm.trans hg) (by simp)
    · rw [hw] at h
      rw [ends_succeed] at h
      exact ⟨h.2 ▸ Alike.refl s, fun _ => h.1⟩

theorem abandonWriter_ok {r : Except Failure Unit} (h : Ends abandonWriter s r s') :
    r = .ok () := by
  unfold abandonWriter at h
  rw [ends_read_bind] at h
  split at h
  · exact (ends_succeed.mp h).1
  · rw [ends_update_bind, ends_log] at h
    exact h.1

theorem ends_abandonWriter_bind {next : Unit → Work Unit} {r : Except Failure Unit}
    (h : Ends (abandonWriter >>= next) s r s') :
    ∃ k, Ends abandonWriter s (.ok ()) k ∧ Ends (next ()) k r s' := by
  rcases ends_bind.mp h with ⟨_, k, habandon, hnext⟩ | ⟨f, hf, _⟩
  · exact ⟨k, habandon, hnext⟩
  · exact absurd (abandonWriter_ok hf) (by simp)

/-- All that a publication does: it needs the lock and the files that are to be merged. -/
theorem publish_ends {g : Nat} {w : Writer} {r : Except Failure Unit}
    (h : Ends (publish g w) s r s') :
    (r = .error .missing ∧
      (s.directory.lock ≠ some w.number ∨ (plan w.base).merged.any s.directory.isLost = true) ∧
      (s.directory.lock = some w.number →
        s' = (s.setDirectory (s.directory.unlock w.number)).setWriter none)) ∨
      (r = .ok () ∧ s.directory.lock = some w.number ∧
        (plan w.base).merged.any s.directory.isLost = false ∧
        s' = (s.setDirectory (s.directory.written g w)).setWriter none) := by
  unfold publish at h
  simp only [ends_read_bind] at h
  split at h
  · next hlock =>
    obtain ⟨k, _, hfail⟩ := ends_abandonWriter_bind h
    exact Or.inl ⟨(ends_fail.mp hfail).1, Or.inl hlock, fun hl => absurd hl hlock⟩
  · next hlock =>
    split at h
    · next hlost =>
      rw [ends_update_bind, ends_fail] at h
      exact Or.inl ⟨h.1, Or.inr hlost, fun _ => h.2⟩
    · next hlost =>
      rw [ends_update] at h
      exact Or.inr ⟨h.1, not_not.mp hlock, by simpa using hlost, h.2⟩

/-- All that a commit does with a pending writer: it needs an index that can be read. -/
theorem flush_ends {w : Writer} (hw : s.handle.writer = some w) {r : Except Failure Unit}
    (h : Ends flush s r s') :
    (s.directory.catalogue = .garbled ∧ r = .error .unreadable) ∨
      (s.directory.catalogue = .absent ∧ r = .error .missing) ∨
        ∃ g ss, s.directory.catalogue = .sound g ss ∧ Ends (publish g w) s r s' := by
  unfold flush at h
  rw [ends_read_bind, if_neg (by simp [hw])] at h
  split at h
  · next hgarbled => exact Or.inl ⟨hgarbled, (ends_fail.mp h).1⟩
  · next habsent =>
    obtain ⟨k, _, h⟩ := ends_abandonWriter_bind h
    rw [ends_update_bind, ends_fail] at h
    exact Or.inr (Or.inl ⟨habsent, h.1⟩)
  · next g ss hg =>
    rw [hw] at h
    exact Or.inr (Or.inr ⟨g, ss, hg, h⟩)

/-- A commit of a writer that holds the lock needs only the files that are to be merged. -/
theorem flush_held {w : Writer} (hw : s.handle.writer = some w) (hh : s.Held)
    {r : Except Failure Unit} (h : Ends flush s r s') :
    (r = .error .missing ∧ (plan w.base).merged.any s.directory.isLost = true ∧
      s' = (s.setDirectory (s.directory.unlock w.number)).setWriter none) ∨
      (r = .ok () ∧ ∃ g, s' = (s.setDirectory (s.directory.written g w)).setWriter none) := by
  obtain ⟨hlock, g, ss, hg⟩ := hh w hw
  rcases flush_ends hw h with ⟨hc, _⟩ | ⟨hc, _⟩ | ⟨g, ss, _, hpublish⟩
  · exact absurd (hg.symm.trans hc) (by simp)
  · exact absurd (hg.symm.trans hc) (by simp)
  · rcases publish_ends hpublish with ⟨hr, hlost, hs⟩ | ⟨hr, _, _, hs⟩
    · exact Or.inl ⟨hr, hlost.resolve_left (not_not.mpr hlock), hs hlock⟩
    · exact Or.inr ⟨hr, g, hs⟩

/-- What a writer publishes is committed, and nothing is pending any more. -/
theorem published_written {w : Writer} (hw : s.handle.writer = some w)
    (hlock : s.directory.lock = some w.number) (g : Nat) :
    Ledger.Published s.ledger
      ((s.setDirectory (s.directory.written g w)).setWriter none).ledger := by
  have hcommitted := Directory.committed_written g w (Directory.isSome_contents_of_lock hlock)
  rw [ledger_of_writer hw, ledger_of_idle rfl]
  refine ⟨?_, rfl, rfl⟩
  rw [directory_setWriter, directory_setDirectory, hcommitted]
  exact documents_merge _ _ _

/-- A commit either publishes all that was staged, or drops it and leaves what was committed. -/
theorem flush_writer {w : Writer} (hw : s.handle.writer = some w) (hh : s.Held)
    {r : Except Failure Unit} (h : Ends flush s r s') :
    s'.handle.writer = none ∧ s'.handle.closed = s.handle.closed ∧
      ((r = .error .missing ∧ s'.directory.committed = s.directory.committed) ∨
        (r = .ok () ∧ Ledger.Published s.ledger s'.ledger)) ∧
      ((∀ t ∈ w.base, s.directory.lost ≤ t.serial) → r = .ok ()) ∧
      (s.Intact → s'.Intact) := by
  obtain ⟨hlock, _⟩ := hh w hw
  have hthere := Directory.isSome_contents_of_lock hlock
  rcases flush_held hw hh h with ⟨rfl, hl, rfl⟩ | ⟨rfl, g, rfl⟩
  · obtain ⟨t, ht, hlost⟩ : ∃ t ∈ w.base, ¬ s.directory.lost ≤ t.serial := by
      obtain ⟨t, ht, hlost⟩ := List.any_eq_true.mp hl
      exact ⟨t, mem_of_plan (Or.inl ht), by simpa [Directory.isLost] using hlost⟩
    refine ⟨rfl, rfl, Or.inl ⟨rfl, ?_⟩, fun hb => absurd (hb t ht) hlost, fun hi => ?_⟩
    · exact Directory.committed_unlock _ _
    · exact absurd (hi.base w hw t ht) hlost
  · have hcat := Directory.catalogue_written g w hthere
    refine ⟨rfl, rfl, Or.inr ⟨rfl, published_written hw hlock g⟩, fun _ => rfl, fun hi => ?_⟩
    refine ⟨?_, ⟨?_, ?_, ?_⟩, fun _ => ⟨_, _, hcat⟩, held_of_idle rfl,
      fun v hv => absurd hv (by simp), fun _ => rfl⟩
    · simpa [Directory.written] using hthere
    · simp [hcat]
    · exact Nat.le_succ_of_le hi.directory.numbered
    · intro t ht
      rw [directory_setWriter, directory_setDirectory, Directory.committed_of_sound hcat] at ht
      rcases mem_merge ht with ht | ht
      · exact hi.base w hw t ht
      · rw [ht]
        exact hi.directory.numbered

/-- A commit that succeeds publishes all that was staged. -/
theorem flush_published (h : Ends flush s (.ok ()) s') : Ledger.Published s.ledger s'.ledger := by
  cases hw : s.handle.writer with
  | none =>
    rw [(flush_idle hw h).1.ledger, ledger_of_idle hw]
    exact Ledger.published_self _
  | some w =>
    rcases flush_ends hw h with ⟨_, hf⟩ | ⟨_, hf⟩ | ⟨g, _, _, hpublish⟩
    · exact absurd hf (by simp)
    · exact absurd hf (by simp)
    · rcases publish_ends hpublish with ⟨hf, _⟩ | ⟨_, hlock, _, rfl⟩
      · exact absurd hf (by simp)
      · exact published_written hw hlock g

theorem flush_closed (hh : s.Held) {r : Except Failure Unit} (h : Ends flush s r s') :
    s'.handle.closed = s.handle.closed := by
  cases hw : s.handle.writer with
  | none => exact (flush_idle hw h).1.closed
  | some w => exact (flush_writer hw hh h).2.1

/-- Where all files are there, a commit publishes. -/
theorem flush_intact (hi : s.Intact) {r : Except Failure Unit} (h : Ends flush s r s') :
    s'.Intact ∧ s'.handle.writer = none ∧ r = .ok () ∧ Ledger.Published s.ledger s'.ledger := by
  cases hw : s.handle.writer with
  | none =>
    obtain ⟨halike, hok⟩ := flush_idle hw h
    refine ⟨halike.intact hi, halike.writer.trans hw, hok hi, ?_⟩
    rw [halike.ledger, ledger_of_idle hw]
    exact Ledger.published_self _
  | some w =>
    obtain ⟨hnone, _, hend, hok, hintact⟩ := flush_writer hw hi.held h
    have hr := hok (hi.base w hw)
    rcases hend with ⟨hf, _⟩ | ⟨_, hpublished⟩
    · exact absurd (hf.symm.trans hr) (by simp)
    · exact ⟨hintact hi, hnone, hr, hpublished⟩

/-- A session once documents were staged. -/
structure Staged (s : Session) (xs : List Stored) (m : Session) : Prop where
  pending : ∃ w, m.handle.writer = some w ∧ ∀ v, s.handle.writer = some v → w.base = v.base
  ledger : m.ledger = s.ledger.stage xs
  closed : m.handle.closed = s.handle.closed
  lost : m.directory.lost = s.directory.lost
  held : s.Held → m.Held
  intact : s.Intact → s.handle.closed = false → m.Intact

theorem staged_setWriter {w : Writer} {m : Session} (h : Ends useWriter s (.ok w) m)
    (xs : List Stored) :
    Staged s xs (m.setWriter (some { w with added := w.added ++ xs })) := by
  have hm := useWriter_ok h
  have hbase : ∀ v, s.handle.writer = some v → w.base = v.base := by
    intro v hv
    rw [ends_useWriter_pending hv] at h
    have hwv := h.1
    simp only [Except.ok.injEq] at hwv
    rw [hwv]
  refine ⟨⟨_, rfl, hbase⟩, ?_, hm.closed, hm.lost, ?_, ?_⟩
  · rw [← hm.ledger, ledger_of_writer hm.writer, ledger_of_writer (writer_setWriter m _)]
    rfl
  · intro hs
    exact held_setWriter (hm.held hs) hm.writer rfl
  · intro hs hc
    have hi := hm.intact hs hc
    exact intact_setWriter hi hm.writer rfl (hi.base w hm.writer)

/-- Documents are all staged before anything is published; without a writer nothing happens. -/
theorem put_cases {ds : List Document} {xs : List Stored} {publish : Bool}
    (hx : List.Forall₂ (fun d x => Stored.ofDocument d = .ok x) ds xs)
    {r : Except Failure Unit} (h : Ends (put ds publish) s r s') :
    (∃ f, r = .error f ∧ s.handle.writer = none ∧ Alike s s') ∨
      ∃ m, Staged s xs m ∧ ((publish = false ∧ r = .ok () ∧ s' = m) ∨
        (publish = true ∧ Ends flush m r s')) := by
  unfold put at h
  rw [ends_bind] at h
  rcases h with ⟨w, m, huse, h⟩ | ⟨f, huse, hr⟩
  · right
    have hm := useWriter_ok huse
    rw [ends_bind] at h
    rcases h with ⟨_, k, hstage, h⟩ | ⟨f, hstage, _⟩
    · obtain ⟨_, rfl⟩ := stageAll_ends hm.writer hx hstage
      refine ⟨_, staged_setWriter huse xs, ?_⟩
      cases publish with
      | false =>
        rw [if_neg (by simp), ends_pure] at h
        exact Or.inl ⟨rfl, h⟩
      | true =>
        rw [if_pos rfl] at h
        exact Or.inr ⟨rfl, h⟩
    · have hok := (stageAll_ends hm.writer hx hstage).1
      exact absurd hok (by simp)
  · left
    obtain ⟨hw, halike⟩ := useWriter_error huse
    exact ⟨f, hr, hw, halike⟩

/-- Whatever documents are put: no writer can be had, or those that are accepted are staged. All are
staged before anything is published; a refused one ends the call. -/
theorem put_ends {ds : List Document} {publish : Bool} {r : Except Failure Unit}
    (h : Ends (put ds publish) s r s') :
    (∃ f, r = .error f ∧ Ends useWriter s (.error f) s') ∨
      ∃ m xs, Staged s xs m ∧ (∀ x ∈ xs, ∃ d ∈ ds, Stored.ofDocument d = .ok x) ∧
        (List.Forall₂ (fun d x => Stored.ofDocument d = .ok x) ds xs ∧
            ((publish = false ∧ r = .ok () ∧ s' = m) ∨ (publish = true ∧ Ends flush m r s')) ∨
          ∃ f, r = .error f ∧ s' = m) := by
  rcases ends_bind.mp h with ⟨w, k, huse, hrest⟩ | ⟨f, huse, hr⟩
  · right
    have hw := (useWriter_ok huse).writer
    rcases ends_bind.mp hrest with ⟨_, m, hstage, hend⟩ | ⟨f, hstage, hr⟩
    · obtain ⟨xs, hxs, rfl, ⟨_, hall⟩ | ⟨f, hf⟩⟩ := stageAll_accepted hw hstage
      · refine ⟨_, xs, staged_setWriter huse xs, hxs, Or.inl ⟨hall, ?_⟩⟩
        cases publish with
        | false => exact Or.inl ⟨rfl, ends_pure.mp hend⟩
        | true => exact Or.inr ⟨rfl, hend⟩
      · exact absurd hf (by simp)
    · obtain ⟨xs, hxs, rfl, _⟩ := stageAll_accepted hw hstage
      exact ⟨_, xs, staged_setWriter huse xs, hxs, Or.inr ⟨f, hr, rfl⟩⟩
  · exact Or.inl ⟨f, hr, huse⟩

/-- A session once deletions were staged. -/
structure Marked (s : Session) (qs : List Query) (m : Session) : Prop where
  pending : ∃ w, m.handle.writer = some w ∧
    (qs ≠ [] → ∀ t ∈ w.base, m.directory.lost ≤ t.serial)
  ledger : m.ledger = s.ledger.erase qs
  closed : m.handle.closed = s.handle.closed
  held : s.Held → m.Held
  intact : s.Intact → s.handle.closed = false → m.Intact

/-- A deletion stages all that its queries match, or nothing; then it may publish. -/
theorem delete_stages {qs : List Query} {publish : Bool} {r : Except Failure Nat}
    (h : Ends (delete qs publish) s r s') :
    (∃ f, r = .error f ∧ s'.ledger = s.ledger ∧ s'.handle.closed = s.handle.closed ∧
      (s.Held → s'.Held) ∧ (s.Intact → s.handle.closed = false → s'.Intact)) ∨
      ∃ n m, Marked s qs m ∧ ((publish = false ∧ r = .ok n ∧ s' = m) ∨
        (publish = true ∧ ∃ x, Ends flush m x s' ∧ r = x.map fun _ => n)) := by
  unfold delete at h
  rw [ends_bind] at h
  rcases h with ⟨w, m, huse, h⟩ | ⟨f, huse, hr⟩
  · have hm := useWriter_ok huse
    rw [ends_bind] at h
    rcases h with ⟨n, k, herase, h⟩ | ⟨f, herase, hr⟩
    · rcases eraseAll_cases hm.writer herase with ⟨_, hn, _⟩ | ⟨k', base, _, he, rfl⟩
      · exact absurd hn (by simp)
      · have hsame : base.any m.directory.isLost = w.base.any m.directory.isLost :=
          any_isLost_congr he.serials
        refine Or.inr ⟨n, m.setWriter (some { w with base := base }),
          ⟨⟨_, rfl, fun hne => ?_⟩, ?_, hm.closed, ?_, ?_⟩, ?_⟩
        · rw [← any_isLost_eq_false]
          exact hsame.trans (he.unlost hne)
        · rw [← hm.ledger, ledger_of_writer hm.writer, ledger_of_writer (writer_setWriter m _),
            he.documents]
          rfl
        · intro hs
          exact held_setWriter (hm.held hs) hm.writer rfl
        · intro hs hc
          have hi := hm.intact hs hc
          refine intact_setWriter hi hm.writer rfl ?_
          rw [← any_isLost_eq_false] at ⊢
          exact hsame.trans (any_isLost_eq_false.mpr (hi.base w hm.writer))
        · cases publish with
          | false =>
            rw [if_neg (by simp), ends_pure] at h
            exact Or.inl ⟨rfl, h⟩
          | true =>
            rw [if_pos rfl] at h
            exact Or.inr ⟨rfl, ends_bind_pure.mp h⟩
    · rcases eraseAll_cases hm.writer herase with ⟨_, _, rfl⟩ | ⟨k', base, hn, _⟩
      · exact Or.inl ⟨f, hr, hm.ledger, hm.closed, hm.held, hm.intact⟩
      · exact absurd hn (by simp)
  · obtain ⟨_, halike⟩ := useWriter_error huse
    exact Or.inl ⟨f, hr, halike.ledger, halike.closed, halike.held,
      fun hs _ => halike.intact hs⟩

theorem delete_cases {qs : List Query} {r : Except Failure Nat}
    (h : Ends (delete qs false) s r s') :
    (∃ f, r = .error f ∧ s'.ledger = s.ledger ∧ s'.handle.closed = s.handle.closed ∧
      (s.Held → s'.Held) ∧ (s.Intact → s.handle.closed = false → s'.Intact)) ∨
      ∃ n, r = .ok n ∧ Marked s qs s' := by
  rcases delete_stages h with hfailed | ⟨n, m, hm, ⟨_, hr, rfl⟩ | ⟨hpublish, _⟩⟩
  · exact Or.inl hfailed
  · exact Or.inr ⟨n, hr, hm⟩
  · exact absurd hpublish (by simp)

end Work

end GoToSymbol.Store
