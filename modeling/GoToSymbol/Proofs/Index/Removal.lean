import GoToSymbol.Proofs.Index.Entries
import GoToSymbol.Proofs.Index.Epoch

namespace GoToSymbol

open GoToSymbol.Action Store Store.Session

namespace Store

section

variable {cwd : File.Path} {config : IndexConfig} {d : Directory} {st marked ended : Session}

theorem remove_commit_ledger (hi : st.Intact) {files : List File.Reference} {n : Int}
    (hremove : Ends ((service cwd config).remove files) st (.ok n) marked)
    (hcommit : Ends (service cwd config).commit marked (.ok ()) ended) :
    ended.Intact ∧ Ledger.Published (st.ledger.drop (files.map (File.uri cwd))) ended.ledger := by
  obtain ⟨hmarked, hdrop⟩ := remove_ok hi hremove
  rw [← hdrop]
  exact commit_ok hmarked hcommit

/-- What stays of the files is what was staged of them. -/
theorem published_isOf {l l' : Ledger} {uris : List String}
    (h : Ledger.Published (l.drop uris) l') :
    ((documents l'.committed).filter (Stored.isOf uris)).Perm
      (l.staged.filter (Stored.isOf uris)) := by
  have hkept : (l.drop uris).kept.filter (Stored.isOf uris) = [] := by
    rw [Ledger.kept_drop, List.filter_filter, List.filter_eq_nil_iff]
    intro x _
    simp
  have hperm := h.committed.filter (Stored.isOf uris)
  rw [List.filter_append, hkept, List.nil_append] at hperm
  exact hperm

/-- What holds of every document before some calls, and of those that they hand over, holds of every
document after them. -/
theorem history_every {now : Session} {later : List (Call × Except Failure Answer)}
    (h : (service cwd config).History ended later now) (hi : ended.Intact) {p : Stored → Prop}
    (hadded : ∀ x ∈ (service cwd config).addedBy later, p x) (hp : ended.ledger.Every p) :
    now.ledger.Every p := by
  refine history_preserves h hi (fun c r l l' hcall heffect hl => ?_) hp
  exact heffect.every (fun x hx => hadded x (List.mem_flatMap.mpr ⟨(c, r), hcall, hx⟩)) hl

/-- Of the files that were removed, the commit leaves just the documents that were staged, but not
yet committed, when the removal was asked for. None is left where none was staged; from then on all
that is committed of the files, or found, was handed over by later calls. -/
theorem remove_commit_leaves_staged (hd : d.Intact)
    {calls : List (Call × Except Failure Answer)}
    (hcalls : (service cwd config).History (start d) calls st) {files : List File.Reference}
    {n : Int} (hremove : Ends ((service cwd config).remove files) st (.ok n) marked)
    (hcommit : Ends (service cwd config).commit marked (.ok ()) ended) :
    let uris := files.map (File.uri cwd)
    (ended.directory.documents.filter (Stored.isOf uris)).Perm
        (st.ledger.staged.filter (Stored.isOf uris)) ∧
      ((∀ x ∈ ended.directory.documents, x.isOf uris = false) ↔
        ∀ x ∈ st.ledger.staged, x.isOf uris = false) ∧
      ∀ later now, (service cwd config).History ended later now →
        let Remains (x : Stored) := x.isOf uris = true →
          x ∈ st.ledger.staged ∨ x ∈ (service cwd config).addedBy later
        (∀ x ∈ now.directory.documents, Remains x) ∧
          ∀ c es st', Ends ((service cwd config).perform c) now (.ok (.found es)) st' →
            ∀ e ∈ es, ∃ x ∈ now.directory.documents, e = x.entry ∧ Remains x := by
  intro uris
  have hi := history_intact hcalls (intact_start hd)
  obtain ⟨hended, hpublished⟩ := remove_commit_ledger hi hremove hcommit
  have hperm := published_isOf hpublished
  rw [documents_ledger] at hperm
  have hmem {x : Stored} (hx : x.isOf uris = true) :
      x ∈ ended.directory.documents ↔ x ∈ st.ledger.staged := by
    have h := hperm.mem_iff (a := x)
    rw [List.mem_filter, List.mem_filter] at h
    exact ⟨fun hmem => (h.mp ⟨hmem, hx⟩).1, fun hmem => (h.mpr ⟨hmem, hx⟩).1⟩
  refine ⟨hperm, ?_, ?_⟩
  · constructor
    · intro h x hx
      by_contra hof
      exact hof (h x ((hmem (by simpa using hof)).mpr hx))
    · intro h x hx
      by_contra hof
      exact hof (h x ((hmem (by simpa using hof)).mp hx))
  · intro later now hlater Remains
    have hstart : ended.ledger.Every Remains :=
      .of_published hpublished fun x hx hof => Or.inl ((hmem hof).mp (documents_ledger ended ▸ hx))
    have hnow := history_every hlater hended (fun x hx _ => Or.inr hx) hstart
    have hremains (x : Stored) (hx : x ∈ now.directory.documents) : Remains x := by
      refine hnow.committed x ?_
      rwa [documents_ledger]
    refine ⟨hremains, fun c es st' hfound e he => ?_⟩
    obtain ⟨x, hx, heq⟩ := found_committed (history_intact hlater hended) hfound e he
    exact ⟨x, hx, heq, hremains x hx⟩

/-- A class is staged, its file removed: the commit puts the class among the committed ones. -/
theorem remove_commit_leaves_bee :
    ∃ st marked ended,
      sampleService.History (start (.fresh "/index"))
        [(.persist [sampleClass "/a.kt" "a.Bee"] false false, .ok .done)] st ∧
      Ends (sampleService.remove [.text "/a.kt"]) st (.ok 0) marked ∧
      Ends sampleService.commit marked (.ok ()) ended ∧
      (ended.directory.documents.filter (Stored.isOf ["file:///a.kt"])).length = 1 := by
  obtain ⟨st, marked, ended, hcalls, hremove, hcommit⟩ : ∃ st marked ended,
      sampleService.History (start (.fresh "/index"))
        [(.persist [sampleClass "/a.kt" "a.Bee"] false false, .ok .done)] st ∧
      Ends (sampleService.remove [.text "/a.kt"]) st (.ok 0) marked ∧
      Ends sampleService.commit marked (.ok ()) ended :=
    ⟨_, _, _, .cons ⟨rfl, rfl⟩ (.nil _), ⟨rfl, rfl⟩, ⟨rfl, rfl⟩⟩
  obtain ⟨hleft, _, _⟩ := remove_commit_leaves_staged (Directory.intact_fresh "/index") hcalls
    hremove hcommit
  refine ⟨st, marked, ended, hcalls, hremove, hcommit, hleft.length_eq.trans ?_⟩
  cases hcalls with
  | cons head tail =>
    cases tail
    obtain ⟨_, rfl⟩ := head
    rfl

/-- A removal and a commit do not always clear the index of a file. -/
theorem remove_commit_not_all :
    ¬ ∀ (calls : List (Call × Except Failure Answer)) (st marked ended : Session)
      (files : List File.Reference) (n : Int),
      sampleService.History (start (.fresh "/index")) calls st →
      Ends (sampleService.remove files) st (.ok n) marked →
      Ends sampleService.commit marked (.ok ()) ended →
      ∀ x ∈ ended.directory.documents, x.file ∉ (files.map (File.uri ⟨.single, []⟩)).map some := by
  intro hclaim
  have hstaged : sampleService.History (start (.fresh "/index"))
      [(.persist [sampleClass "/a.kt" "a.Bee"] false false, .ok .done)] _ :=
    .cons ⟨rfl, rfl⟩ (.nil _)
  have hnone := hclaim _ _ _ _ [.text "/a.kt"] 0 hstaged ⟨rfl, rfl⟩ ⟨rfl, rfl⟩
  obtain ⟨b, hdocuments⟩ : ∃ b, (sampleService.commit (sampleService.remove [.text "/a.kt"]
      (sampleService.perform (.persist [sampleClass "/a.kt" "a.Bee"] false false)
        (start (.fresh "/index"))).state).state).state.directory.documents =
      [⟨some "a.Bee", some "file:///a.kt", some "ClassIndex", b⟩] := ⟨_, rfl⟩
  rw [hdocuments] at hnone
  exact hnone _ List.mem_cons_self (List.mem_singleton.mpr rfl)

end

end Store

end GoToSymbol
