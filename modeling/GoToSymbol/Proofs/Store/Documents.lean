import GoToSymbol.Store.Matching
import GoToSymbol.Store.Merge

namespace GoToSymbol.Store

theorem documents_nil : documents [] = [] := rfl

theorem documents_perm {xs ys : List Segment} (h : xs.Perm ys) :
    (documents xs).Perm (documents ys) := h.flatMap_right _

/-- A deletion takes away the documents that match, and keeps the others in their order. -/
theorem documents_erase (q : Query) (segments : List Segment) :
    documents (segments.map (·.erase q)) = (documents segments).filter fun d => !q.accepts d := by
  induction segments with
  | nil => rfl
  | cons s ss ih =>
    simp only [documents, List.map_cons, List.flatMap_cons, List.filter_append] at ih ⊢
    rw [ih, Segment.live_erase, List.filter_map]
    rfl

namespace Segment

theorem live_added (serial : Nat) (ds : List Stored) (copies : List Slot)
    (h : ∀ s ∈ copies, s.deleted = false) :
    (Segment.mk serial (ds.map Slot.fresh ++ copies)).live = ds.map Slot.fresh ++ copies := by
  simp only [live, List.filter_append]
  congr 1
  · rw [List.filter_eq_self]
    intro s hs
    obtain ⟨d, _, rfl⟩ := List.mem_map.mp hs
    rfl
  · rw [List.filter_eq_self]
    intro s hs
    simp [h s hs]

theorem deleted_of_mem_live {s : Slot} {t : Segment} (h : s ∈ t.live) : s.deleted = false := by
  have hs := (List.mem_filter.mp h).2
  simpa using hs

end Segment

theorem documents_copied (segments : List Segment) :
    ((segments.flatMap Segment.live).map Slot.copied).map (·.doc) = documents segments := by
  simp [documents, List.map_flatMap, Function.comp_def, Slot.copied]

/-- The segments of a plan are those that were planned. -/
theorem mem_of_plan {segments : List Segment} {s : Segment}
    (h : s ∈ (plan segments).merged ∨ s ∈ (plan segments).kept) : s ∈ segments :=
  (plan_perm segments).mem_iff.mp (List.mem_append.mpr h)

/-- A commit keeps the documents that were not deleted and adds the new ones. -/
theorem documents_merge (serial : Nat) (added : List Stored) (base : List Segment) :
    (documents (merge serial added (plan base))).Perm (documents base ++ added) := by
  have hbase : (documents (plan base).merged ++ documents (plan base).kept).Perm
      (documents base) := by
    rw [← documents_append]
    exact documents_perm (plan_perm base)
  unfold merge
  split
  · next h =>
    simp only [Bool.and_eq_true, List.isEmpty_iff] at h
    rw [h.2, documents_nil, List.nil_append] at hbase
    rw [h.1, List.append_nil]
    exact hbase
  · have hcopies : ∀ s ∈ ((plan base).merged.flatMap Segment.live).map Slot.copied,
        s.deleted = false := by
      intro s hs
      obtain ⟨t, ht, rfl⟩ := List.mem_map.mp hs
      obtain ⟨u, _, hu⟩ := List.mem_flatMap.mp ht
      change t.deleted = false
      exact Segment.deleted_of_mem_live hu
    have hnew : documents [Segment.mk serial (added.map Slot.fresh
        ++ ((plan base).merged.flatMap Segment.live).map Slot.copied)]
        = added ++ documents (plan base).merged := by
      simp only [documents, List.flatMap_cons, List.flatMap_nil, List.append_nil]
      rw [Segment.live_added serial added _ hcopies, List.map_append]
      congr 1
      · simp [Slot.fresh, Function.comp_def]
      · exact documents_copied _
    rw [documents_append, hnew]
    refine List.perm_append_comm.trans ?_
    rw [List.append_assoc]
    exact (hbase.append_left added).trans List.perm_append_comm

/-- The segments after a commit are old ones or the one that was written. -/
theorem mem_merge {serial : Nat} {added : List Stored} {base : List Segment} {s : Segment}
    (h : s ∈ merge serial added (plan base)) : s ∈ base ∨ s.serial = serial := by
  unfold merge at h
  split at h
  · exact Or.inl (mem_of_plan (Or.inr h))
  · rcases List.mem_append.mp h with h | h
    · exact Or.inl (mem_of_plan (Or.inr h))
    · exact Or.inr (by rw [List.mem_singleton.mp h])

end GoToSymbol.Store
