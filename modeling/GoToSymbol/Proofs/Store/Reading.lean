import GoToSymbol.Proofs.Store.Ledger
import GoToSymbol.Proofs.Store.Matches

namespace GoToSymbol.Store

open GoToSymbol.Action Session

namespace Work

variable {s s' : Session}

theorem openIndex_ok (hi : s.Intact) {r : Except Failure Unit} (h : Ends openIndex s r s') :
    r = .ok () ∧ ∃ g, s'.directory.catalogue = .sound g s.directory.committed := by
  have halike := openIndex_alike h
  have hr : r = .ok () := by
    unfold openIndex at h
    simp only [ends_read_bind] at h
    split at h
    · exact (ends_pure.mp h).1
    · split at h
      · next hg => exact absurd hg hi.directory.readable
      · exact (ends_update.mp h).1
      · exact (ends_update.mp h).1
  rw [hr] at h
  obtain ⟨g, ss, hg⟩ := (halike.intact hi).opened (openIndex_opened h)
  refine ⟨hr, g, ?_⟩
  rw [hg, ← halike.committed, Directory.committed_of_sound hg]

theorem readSegments_committed {g : Nat} {ss : List Segment}
    (hg : s.directory.catalogue = .sound g ss) (hl : ∀ t ∈ ss, s.directory.lost ≤ t.serial)
    {r : Except Failure (List Segment)} :
    Ends readSegments s r s' ↔ r = .ok ss ∧ s' = s := by
  have hany : ss.any s.directory.isLost = false := any_isLost_eq_false.mpr hl
  unfold readSegments
  rw [ends_read_bind, hg]
  simp only [hany]
  exact ends_succeed

theorem readSegments_same {r : Except Failure (List Segment)}
    (h : Ends readSegments s r s') : s' = s := by
  unfold readSegments at h
  rw [ends_read_bind] at h
  split at h
  · exact (ends_fail.mp h).2
  · exact (ends_fail.mp h).2
  · split at h
    · exact (ends_fail.mp h).2
    · exact (ends_succeed.mp h).2

/-- Whatever a search answers, it leaves the ledger as it was. -/
theorem search_alike {q : Query} {limit : Int} {r : Except Failure (List Document)}
    (h : Ends (search q limit) s r s') : Alike s s' := by
  unfold search at h
  split at h
  · rw [ends_pure] at h
    exact h.2 ▸ Alike.refl s
  · rw [ends_bind] at h
    rcases h with ⟨_, m, hopen, h⟩ | ⟨f, hopen, _⟩
    · have hm : s' = m := by
        rw [ends_bind] at h
        rcases h with ⟨ss, k, hread, h⟩ | ⟨f, hread, _⟩
        · rw [ends_pure] at h
          rw [h.2]
          exact readSegments_same hread
        · exact readSegments_same hread
      rw [hm]
      exact openIndex_alike hopen
    · exact openIndex_alike hopen

/-- A search answers the head of the ranking of what is committed. -/
theorem search_ok (hi : s.Intact) {q : Query} {limit : Int}
    {r : Except Failure (List Document)} (h : Ends (search q limit) s r s') :
    r = .ok (((ranking q s.directory.committed).take limit.toNat).map Stored.document) := by
  unfold search at h
  split at h
  · next hlimit =>
    have hzero : limit.toNat = 0 := by omega
    rw [ends_pure] at h
    rw [h.1, hzero]
    rfl
  · rw [ends_bind] at h
    rcases h with ⟨_, m, hopen, h⟩ | ⟨f, hopen, _⟩
    · obtain ⟨_, g, hg⟩ := openIndex_ok hi hopen
      have hm := (openIndex_alike hopen).intact hi
      have hl : ∀ t ∈ s.directory.committed, m.directory.lost ≤ t.serial := by
        intro t ht
        rw [← (openIndex_alike hopen).committed] at ht
        exact hm.directory.unlost t ht
      simp only [ends_bind, readSegments_committed hg hl, ends_pure] at h
      rcases h with ⟨ss, k, ⟨hss, rfl⟩, h⟩ | ⟨f, ⟨hf, _⟩, _⟩
      · cases hss
        exact h.1
      · exact absurd hf (by simp)
    · exact absurd (openIndex_ok hi hopen).1 (by simp)

theorem stats_alike {r : Except Failure (List (String × Value))}
    (h : Ends stats s r s') : Alike s s' := by
  unfold stats at h
  rw [ends_bind] at h
  rcases h with ⟨_, m, hopen, h⟩ | ⟨f, hopen, _⟩
  · have hm : s' = m := by
      rw [ends_read_bind] at h
      split at h
      · exact (ends_fail.mp h).2
      · rw [ends_bind] at h
        rcases h with ⟨ss, k, hread, h⟩ | ⟨f, hread, _⟩
        · rw [ends_pure] at h
          rw [h.2]
          exact readSegments_same hread
        · exact readSegments_same hread
    rw [hm]
    exact openIndex_alike hopen
  · exact openIndex_alike hopen

/-- The figures count the committed documents. -/
theorem stats_ok (hi : s.Intact) {r : Except Failure (List (String × Value))}
    (h : Ends stats s r s') :
    ∃ others, r = .ok (("document_count", .int s.directory.documents.length) :: others) := by
  unfold stats at h
  rw [ends_bind] at h
  rcases h with ⟨_, m, hopen, h⟩ | ⟨f, hopen, _⟩
  · obtain ⟨_, g, hg⟩ := openIndex_ok hi hopen
    have hm := (openIndex_alike hopen).intact hi
    have hl : ∀ t ∈ s.directory.committed, m.directory.lost ≤ t.serial := by
      intro t ht
      rw [← (openIndex_alike hopen).committed] at ht
      exact hm.directory.unlost t ht
    have hthere : m.directory.contents.isNone = false := by
      rw [Option.isNone_eq_false_iff]
      exact hm.there
    rw [ends_read_bind, if_neg (by simp [hthere])] at h
    simp only [ends_bind, readSegments_committed hg hl, ends_pure] at h
    rcases h with ⟨ss, k, ⟨hss, rfl⟩, h⟩ | ⟨f, ⟨hf, _⟩, _⟩
    · cases hss
      exact ⟨_, h.1⟩
    · exact absurd hf (by simp)
  · exact absurd (openIndex_ok hi hopen).1 (by simp)

end Work

end GoToSymbol.Store
