import GoToSymbol.Proofs.Index.Publishing
import GoToSymbol.Proofs.Index.Removal
import GoToSymbol.Proofs.Store.Renumbering

namespace GoToSymbol.Store

open GoToSymbol.Action Session Work

namespace Session

/-- The sessions are the same but for the directory, which one of them makes when it opens it. -/
inductive MadeLater : Session → Session → Prop where
  | same (s : Session) : MadeLater s s
  | unmade {s : Session} (gone : s.directory.contents = none) (handle : s.handle.opened = false)
      (idle : s.handle.writer = none) : MadeLater s (s.setDirectory s.directory.make)

theorem MadeLater.handle {s s' : Session} (h : MadeLater s s') : s'.handle = s.handle := by
  cases h with
  | same => rfl
  | unmade => rfl

theorem MadeLater.documents {s s' : Session} (h : MadeLater s s') :
    s'.directory.documents = s.directory.documents := by
  cases h with
  | same => rfl
  | unmade =>
    exact congrArg Store.documents (Directory.committed_congr (Directory.catalogue_make _))

end Session

namespace Work

/-- An action respects where directories are made if it does so while one of them is not made. -/
theorem respects_of_unmade {α : Type} {t : Work α}
    (h : ∀ s : Session, s.directory.contents = none → s.handle.opened = false →
      s.handle.writer = none → (t s).Agree MadeLater Eq (t (s.setDirectory s.directory.make))) :
    Respects MadeLater t := by
  intro s s' hs
  cases hs with
  | same => exact ⟨matching_self _, .same _, rfl⟩
  | unmade hgone hopened hidle => exact h s hgone hopened hidle

theorem respects_of_eq {α : Type} {t : Work α}
    (h : ∀ s : Session, s.directory.contents = none → s.handle.opened = false →
      s.handle.writer = none → t (s.setDirectory s.directory.make) = t s) :
    Respects MadeLater t := by
  apply respects_of_unmade
  intro s hgone hopened hidle
  rw [h s hgone hopened hidle]
  exact ⟨matching_self _, .same _, rfl⟩

theorem made_whileOpen {α : Type} {t : Work α} (h : Respects MadeLater t) :
    Respects MadeLater (whileOpen t) := by
  apply agree_read_bind
  intro s s' hs
  refine agree_ite ?_ (fun _ => agree_fail _ _ _ hs) (fun _ => h _ _ hs)
  rw [hs.handle]

/-- A directory that is gone is made when the index is opened, if it was not made before. -/
theorem openIndex_make {s : Session} (hgone : s.directory.contents = none)
    (hopened : s.handle.opened = false) :
    openIndex (s.setDirectory s.directory.make) = openIndex s := by
  have habsent : s.directory.catalogue = .absent := by simp [Directory.catalogue, hgone]
  have hmake : s.directory.make.make = s.directory.make := by simp [Directory.make, hgone]
  unfold openIndex
  rw [read_bind, read_bind, handle_setDirectory, directory_setDirectory, Directory.catalogue_make,
    hopened, habsent]
  exact congrArg (fun d => Outcome.mk (.ok ())
    ((s.setDirectory (d.setCatalogue (.sound 0 []))).setOpened true) []) hmake

theorem bind_eq_of_eq {α β : Type} {t : Work α} {s s' : Session} (h : t s' = t s)
    (next : α → Work β) : (t >>= next) s' = (t >>= next) s := by
  simp only [Bind.bind, andThen]
  rw [h]

theorem useWriter_make {s : Session} (hgone : s.directory.contents = none)
    (hopened : s.handle.opened = false) (hidle : s.handle.writer = none) :
    useWriter (s.setDirectory s.directory.make) = useWriter s := by
  have hnew (m : Session) (hm : m.handle.writer = none) :
      useWriter m = (openIndex >>= fun _ => startWriter) m := by
    unfold useWriter
    rw [read_bind, hm]
  rw [hnew s hidle, hnew (s.setDirectory s.directory.make) hidle]
  exact bind_eq_of_eq (openIndex_make hgone hopened) _

theorem made_flush : Respects MadeLater flush := by
  apply respects_of_unmade
  intro s hgone hopened hidle
  have hnothing (m : Session) (hm : m.handle = s.handle) : flush m = ⟨.ok (), m, []⟩ := by
    unfold flush
    rw [read_bind, hm, hopened, hidle]
    rfl
  rw [hnothing s rfl, hnothing (s.setDirectory s.directory.make) rfl]
  exact ⟨.ok rfl, .unmade hgone hopened hidle, rfl⟩

theorem made_search (q : Query) (limit : Int) : Respects MadeLater (search q limit) := by
  unfold search
  split
  · exact agree_pure rfl
  · exact respects_of_eq fun s hgone hopened _ => bind_eq_of_eq (openIndex_make hgone hopened) _

theorem made_release : Respects MadeLater release := by
  apply agree_read_bind
  intro s s' hs
  have hlet : Respects MadeLater (update (·.setOpened false) : Work Unit) := by
    refine agree_update fun m m' hm => ?_
    cases hm with
    | same => exact .same _
    | unmade hgone hopened hidle => exact .unmade (s := m.setOpened false) hgone rfl hidle
  refine agree_ite ?_ (fun _ => made_flush.bind (fun _ => hlet) _ _ hs) (fun _ => hlet _ _ hs)
  rw [hs.handle]

theorem made_shutdown : Respects MadeLater Work.shutdown := by
  apply agree_read_bind
  intro s s' hs
  refine agree_ite ?_ (fun _ => agree_pure rfl _ _ hs) fun _ => ?_
  · rw [hs.handle]
  · refine Agree.ensure made_release (agree_update fun m m' hm => ?_) _ _ hs
    cases hm with
    | same => exact .same _
    | unmade hgone hopened hidle => exact .unmade (s := m.close) hgone hopened hidle

end Work

/-- No operation tells whether the directory was made before. -/
theorem made_engine : engine.Respects MadeLater where
  put _ _ := made_whileOpen <| respects_of_eq fun _ hgone hopened hidle =>
    bind_eq_of_eq (useWriter_make hgone hopened hidle) _
  delete _ _ := made_whileOpen <| respects_of_eq fun _ hgone hopened hidle =>
    bind_eq_of_eq (bind_eq_of_eq (useWriter_make hgone hopened hidle) _) _
  commit := made_whileOpen made_flush
  search q limit := made_whileOpen (made_search q limit)
  shutdown := made_shutdown
  stats := made_whileOpen <| respects_of_eq fun _ hgone hopened _ =>
    bind_eq_of_eq (openIndex_make hgone hopened) _

section

variable {cwd : File.Path} {config : IndexConfig} {st m : Session}

/-- A commit of an open session whose directory is gone returns. All that is left of the session is
the directory. -/
theorem commit_gone (hopen : st.handle.closed = false) (hgone : st.directory.contents = none) :
    Ends (service cwd config).commit st (.ok ()) ⟨st.directory, .new⟩ := by
  have hcommit {x : Except Failure Unit} {m : Session} (h : Ends flush st x m)
      (hx : Service.overlook x = .ok ()) : Ends (service cwd config).commit st (.ok ()) m := by
    refine Service.ends_commit.mpr ⟨x, ?_, hx.symm⟩
    exact (ends_whileOpen_of_open hopen).mpr h
  obtain ⟨d, opened, writer, closed⟩ := st
  cases hopen
  by_cases hpending : writer ≠ none ∨ opened = true
  · exact hcommit ((flush_gone hgone hpending).mpr ⟨rfl, rfl⟩) rfl
  · obtain ⟨hidle, hunopened⟩ := not_or.mp hpending
    have hidle : writer = none := not_not.mp hidle
    have hunopened : opened = false := Bool.eq_false_iff.mpr hunopened
    subst hidle hunopened
    exact hcommit ⟨rfl, rfl⟩ rfl

/-- A new directory, of which writers and segments are numbered on. -/
theorem made_erase (d : Directory) :
    Session.setDirectory d.erase.make ⟨d.erase, .new⟩ =
      (start (.fresh d.path)).renumber d.writers d.segments := by
  simp [Session.setDirectory, start, Session.renumber, Directory.renumber, Directory.fresh,
    Directory.gone, Directory.make, Directory.erase, Handle.new, Contents.renumber,
    Contents.empty, Catalogue.renumber]

/-- Whatever an open session has committed and staged, once its directory is deleted a commit
returns, and from then on all calls answer, log and leave behind what they would in a new session on
an empty directory. What is committed from then on was handed over by these calls. -/
theorem commit_recovers (hopen : st.handle.closed = false) :
    ∃ m, Ends (service cwd config).commit (st.setDirectory st.directory.erase) (.ok ()) m ∧
      ∀ calls,
        let new := start (.fresh st.directory.path)
        let now := (service cwd config).after m calls
        (service cwd config).answers calls m = (service cwd config).answers calls new ∧
          now.directory.documents = ((service cwd config).after new calls).directory.documents ∧
          ∀ x ∈ now.directory.documents, ∃ c ∈ calls, x ∈ (service cwd config).added c := by
  refine ⟨_, commit_gone hopen rfl, fun calls => ?_⟩
  intro new now
  -- What is left differs from a new session by its numbers, and its directory is not made yet.
  have hmade : MadeLater ⟨st.directory.erase, .new⟩
      (new.renumber st.directory.writers st.directory.segments) := by
    have hunmade : MadeLater ⟨st.directory.erase, .new⟩ _ := .unmade rfl rfl rfl
    rw [← made_erase]
    exact hunmade
  have hnumbers : Renumbered st.directory.writers st.directory.segments new
      (new.renumber st.directory.writers st.directory.segments) := rfl
  obtain ⟨hanswers, hafter⟩ :=
    Service.answers_eq_of_respects (s := service cwd config) made_engine calls hmade
  obtain ⟨hanswers', hafter'⟩ :=
    Service.answers_eq_of_respects (s := service cwd config) (renumber_engine _ _) calls hnumbers
  have hdocuments : now.directory.documents =
      ((service cwd config).after new calls).directory.documents := by
    have hsame := hafter.documents.symm
    rw [hafter'] at hsame
    exact hsame.trans (Directory.documents_renumber _ _ _)
  refine ⟨hanswers.trans hanswers'.symm, hdocuments, fun x hx => ?_⟩
  -- Nothing was there before the calls, so all that is committed comes from them.
  obtain ⟨made, rfl, hhistory⟩ := (service cwd config).exists_history calls new
  have hnew : new.Intact := intact_start (Directory.intact_fresh st.directory.path)
  have hempty : new.ledger = ⟨[], [], []⟩ := ledger_of_idle rfl
  have hevery := history_every hhistory hnew
    (p := fun x => ∃ c ∈ made.map (·.1), x ∈ (service cwd config).added c) ?_ ?_
  · apply hevery.committed
    rw [documents_ledger, ← hdocuments]
    exact hx
  · intro y hy
    obtain ⟨⟨c, r⟩, hc, hy⟩ := List.mem_flatMap.mp hy
    exact ⟨c, List.mem_map_of_mem hc, hy⟩
  · rw [hempty]
    exact ⟨nofun, nofun, nofun⟩

/-- One class was committed, another one staged. Neither is left once the directory was deleted. -/
theorem commit_recovers_sample :
    ∃ st m,
      sampleService.History sampleSession
        [(.persist [sampleClass "/c.kt" "a.Cat"] false false, .ok .done)] st ∧
      Ends sampleService.commit (st.setDirectory st.directory.erase) (.ok ()) m ∧
      (sampleService.after m
        [.persist [sampleClass "/d.kt" "a.Dog"] true false]).directory.documents.map (·.fqn) =
          [some "a.Dog"] := by
  obtain ⟨st, hst, hopen, hpath⟩ : ∃ st, sampleService.History sampleSession
      [(.persist [sampleClass "/c.kt" "a.Cat"] false false, .ok .done)] st ∧
        st.handle.closed = false ∧ st.directory.path = "/index" :=
    ⟨_, .cons ⟨rfl, rfl⟩ (.nil _), rfl, rfl⟩
  obtain ⟨m, hcommit, hcalls⟩ := @commit_recovers sampleService.cwd sampleService.config st hopen
  obtain ⟨_, hdocuments, _⟩ := hcalls [.persist [sampleClass "/d.kt" "a.Dog"] true false]
  have hnames := congrArg (List.map (·.fqn)) hdocuments
  rw [hpath] at hnames
  exact ⟨st, m, hst, hcommit, hnames⟩

end

end GoToSymbol.Store
