import GoToSymbol.Proofs.Index.Laws
import GoToSymbol.Proofs.Index.Locks

namespace GoToSymbol.Store

open GoToSymbol.Action

namespace Site

/-- The documents of the index in a directory, if there is one. -/
def indexed (x : Site) : Option (List Stored) :=
  match x.directory.catalogue with
  | .sound _ segments => some (documents segments)
  | .absent | .garbled => none

/-- What a directory shows of its index, and of the writer that works on it. -/
def view : View Site Nat where
  indexed := indexed
  draft x n := (x.draft.filter (·.number = n)).map fun w => ⟨documents w.base, w.added⟩
  ranking x q := Store.ranking q x.directory.committed
  meets := Query.accepts
  deleted x := x.setDirectory x.directory.erase

variable {x y : Site} {n : Nat} {l : Draft}

theorem indexed_congr (h : x.directory.catalogue = y.directory.catalogue) :
    x.indexed = y.indexed := by
  unfold indexed
  rw [h]

theorem draft_view_eq_some : view.draft x n = some l ↔
    ∃ w, x.draft = some w ∧ w.number = n ∧ ⟨documents w.base, w.added⟩ = l := by
  simp [view, Option.filter_eq_some_iff, and_assoc]

/-- What a writer does is done with its draft. -/
theorem ends_withDraft {α : Type} {t : Writer → Action Site α} {w : Writer} (hdraft : x.draft = some w)
    (hn : w.number = n) {r : Except Failure α} : Ends (withDraft n t) x r y ↔ Ends (t w) x r y := by
  unfold Ends
  rw [withDraft_eq hdraft hn]

theorem quiet_withDraft {α : Type} {t : Writer → Action Site α} (ht : ∀ w, view.Quiet (t w)) :
    view.Quiet (withDraft n t) := by
  intro x r y h
  unfold withDraft at h
  rw [ends_read_bind] at h
  split at h
  · rw [(ends_fail.mp h).2]
  · split at h
    · exact ht _ h
    · rw [(ends_fail.mp h).2]

theorem search_ok {q : Query} {limit : Int} {found : List Document}
    (h : Ends (search q limit) x (.ok found) y) :
    found = ((Store.ranking q x.directory.committed).take limit.toNat).map Stored.document := by
  obtain ⟨segments, hread, rfl⟩ := ends_bind_pure_ok.mp h
  unfold readSegments at hread
  rw [ends_read_bind] at hread
  split at hread
  · exact absurd (ends_fail.mp hread).1 (by simp)
  · exact absurd (ends_fail.mp hread).1 (by simp)
  · next hsound =>
    split at hread
    · exact absurd (ends_fail.mp hread).1 (by simp)
    · cases (ends_succeed.mp hread).1
      rw [Directory.committed_of_sound hsound]

theorem laws_medium : medium.Laws view where
  hasIndex x := by
    change x.directory.hasIndex = x.indexed.isSome
    unfold Directory.hasIndex indexed
    cases x.directory.catalogue <;> rfl
  openIndex := by
    intro x y h
    change Ends openIndex x (.ok ()) y at h
    change y.indexed = some (x.indexed.getD [])
    unfold openIndex at h
    rw [ends_read_bind] at h
    split at h
    · exact absurd (ends_fail.mp h).1 (by simp)
    · next g ss hsound =>
      rw [(ends_succeed.mp h).2]
      simp [indexed, hsound]
    · next habsent =>
      have hcreated := Directory.catalogue_setCatalogue (.sound 0 [])
        (Directory.isSome_contents_make x.directory)
      rw [(ends_update.mp h).2]
      simp [indexed, setDirectory, hcreated, habsent, documents]
  startWriter := by
    intro x n y h
    rcases startWriter_cases h with ⟨_, hr, _⟩ | ⟨_, _, segments, hr, hfound, _, _, hdraft⟩
    · exact absurd hr (by simp)
    · cases hr
      refine ⟨documents segments, ?_, draft_view_eq_some.mpr ⟨_, hdraft, rfl, rfl⟩⟩
      simp [view, indexed, hfound]
  add := by
    intro x n l d stored hl hd
    obtain ⟨w, hdraft, hn, rfl⟩ := draft_view_eq_some.mp hl
    have hstaged : Ends (add n d) x (.ok ())
        (x.setDraft (some { w with added := w.added ++ [stored] })) := by
      unfold add
      rw [ends_withDraft hdraft hn, hd, ends_ok_bind, ends_update]
      exact ⟨rfl, rfl⟩
    exact ⟨_, hstaged, draft_view_eq_some.mpr ⟨_, rfl, hn, rfl⟩⟩
  refuse := by
    intro x n l d name hl hd
    obtain ⟨w, hdraft, hn, rfl⟩ := draft_view_eq_some.mp hl
    have hrefused : Ends (add n d) x (.error (.unknownField name)) x := by
      unfold add
      rw [ends_withDraft hdraft hn, hd, ends_error_bind]
      exact ⟨rfl, rfl⟩
    exact ⟨x, hrefused, hl⟩
  erase := by
    intro x n l q k y hl h
    obtain ⟨w, hdraft, hn, rfl⟩ := draft_view_eq_some.mp hl
    change Ends (erase n q) x (.ok k) y at h
    unfold erase at h
    rw [ends_withDraft hdraft hn, ends_read_bind] at h
    split at h
    · exact absurd (ends_fail.mp h).1 (by simp)
    · rw [ends_update_bind, ends_pure] at h
      obtain ⟨hk, rfl⟩ := h
      cases hk
      refine ⟨by rw [foldl_countMet, Nat.zero_add]; rfl, draft_view_eq_some.mpr ⟨_, rfl, hn, ?_⟩⟩
      rw [documents_erase]
      rfl
  commit := by
    intro x n l y hl h
    obtain ⟨w, hdraft, hn, rfl⟩ := draft_view_eq_some.mp hl
    rcases commit_cases h with ⟨_, hr, _⟩ | ⟨generation, w', hdraft', _, hlock, hy⟩
    · exact absurd hr (by simp)
    · cases hdraft.symm.trans hdraft'
      have hwritten := Directory.catalogue_written generation w
        (Directory.isSome_contents_of_lock hlock)
      refine ⟨_, ?_, documents_merge x.directory.segments w.added w.base⟩
      simp [view, indexed, hy, hwritten]
  cancel := by
    intro x n r y h
    rw [Option.eq_none_iff_forall_ne_some]
    intro l hl
    obtain ⟨w, hdraft, hn, _⟩ := draft_view_eq_some.mp hl
    rw [(cancel_ends h).2, Option.filter_eq_some_iff] at hdraft
    exact absurd hn (by simpa using hdraft.2)
  search h := search_ok h
  ranking := by
    intro x ds q hds
    change x.indexed = some ds at hds
    unfold indexed at hds
    split at hds
    · next g ss hsound =>
      cases hds
      change (Store.ranking q x.directory.committed).Perm _
      rw [Directory.committed_of_sound hsound]
      exact ranking_perm q ss
    · exact absurd hds (by simp)
    · exact absurd hds (by simp)
  matching := Query.laws_accepts
  deleted x := rfl
  deleted_draft x n := rfl
  quiet_startWriter := by
    intro x r y h
    rcases startWriter_cases h with ⟨_, _, rfl⟩ | ⟨_, _, _, _, hfound, hleft, _⟩
    · rfl
    · exact indexed_congr (hleft.trans hfound.symm)
  quiet_add n d := quiet_withDraft fun w => by
    intro x r y h
    rcases ends_bind.mp h with ⟨stored, z, hstored, hset⟩ | ⟨f, hstored, _⟩
    · rw [(ends_update.mp hset).2, (ends_ofExcept.mp hstored).2]
      rfl
    · rw [(ends_ofExcept.mp hstored).2]
  quiet_erase n q := quiet_withDraft fun w => by
    intro x r y h
    rw [ends_read_bind] at h
    split at h
    · rw [(ends_fail.mp h).2]
    · rw [ends_update_bind, ends_pure] at h
      rw [h.2]
      rfl
  quiet_cancel n := by
    intro x r y h
    refine indexed_congr ?_
    rw [(cancel_ends h).1, Directory.catalogue_unlock]

end Site

namespace Access

variable {a : Access Site Nat} {s : Session}

/-- What is pending in a session is what its ledger says. -/
theorem Shows.view (hs : Shows a s) : Site.view.Drafted a ∧
    Site.view.pending a = ⟨s.ledger.kept, s.ledger.staged⟩ ∧
    Site.view.committed a = s.directory.documents := by
  have hcommitted : Site.view.committed a = s.directory.documents := by
    rw [hs.directory]
    change a.storage.indexed.getD [] = documents a.storage.directory.committed
    unfold Site.indexed Directory.committed
    cases a.storage.directory.catalogue <;> rfl
  cases hw : a.writer with
  | none =>
    refine ⟨fun w h => absurd (hw.symm.trans h) (by simp), ?_, hcommitted⟩
    rw [Session.ledger_of_idle (hs.idle hw), View.pending, hw, hcommitted]
    rfl
  | some n =>
    obtain ⟨w, hwriter, hdraft, hnumber⟩ := (hs.pending hw).draft
    have hl : Site.view.draft a.storage n = some ⟨documents w.base, w.added⟩ :=
      Site.draft_view_eq_some.mpr ⟨w, hdraft, hnumber, rfl⟩
    refine ⟨View.drafted_of_draft hw hl, ?_, hcommitted⟩
    rw [View.pending_of_draft hw hl, Session.ledger_of_writer hwriter]

/-- Every session whose table of contents can be read is an access to a directory. -/
theorem exists_shows (h : s.directory.catalogue ≠ .garbled) : ∃ a, Shows a s :=
  ⟨⟨⟨s.directory, s.handle.writer⟩, s.handle.opened, s.handle.writer.map (·.number),
    s.handle.closed, []⟩, rfl, rfl, h⟩

end Access

/-- The engine of a directory is the one on a storage that keeps to all laws. -/
theorem engine_laws : Site.medium.Laws Site.view ∧ Site.medium.Locks Site.Holds ∧
    (∀ s : Session, s.directory.catalogue ≠ .garbled → ∃ a, Access.Shows a s) ∧
    ∀ o : Operation, Agree Access.Shows Eq (Site.medium.run o) o.run :=
  ⟨Site.laws_medium, Site.locks_medium, fun _ => Access.exists_shows, Access.agree_run⟩

end GoToSymbol.Store
