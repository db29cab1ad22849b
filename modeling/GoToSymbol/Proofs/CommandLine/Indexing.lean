import GoToSymbol.Proofs.CommandLine.Tree
import GoToSymbol.Proofs.Index.Replacement

namespace GoToSymbol.CommandLine

open GoToSymbol.Action GoToSymbol.File Store Workspace

/-- Arguments that ask for a command, with preferences that can be read. -/
def Asks (w : Workspace) (env : Config.Environment) (args : List String) (p : Preferences)
    (c : Command) : Prop :=
  ∃ parsed name rest v, parse mainOptions false args = some parsed ∧
    parsed.first? ["version", "help"] = none ∧ parsed.others = name :: rest ∧
    Verb.ofName? name = some v ∧ Preferences.ofOptions w env parsed = .ok p ∧
    v.command? rest = some c

section DistinctFiles

variable {seen fs gs : List Check}

/-- Files can be told apart just where all their timestamps are scalars. -/
theorem distinctFiles_ok_iff :
    (∃ gs, distinctFiles seen fs = .ok gs) ↔
      ∀ f ∈ fs, f.timestamp.scalarKey?.isSome = true := by
  induction fs generalizing seen with
  | nil => simp [distinctFiles]
  | cons f fs ih =>
    rw [List.forall_mem_cons]
    cases hkey : f.timestamp.scalarKey? with
    | none => simp [distinctFiles, hkey]
    | some key =>
      by_cases hseen : (seen.any fun g => Entry.sameFile (some f) (some g)) = true
      · simp [distinctFiles, hkey, hseen, ih]
      · rw [← @ih (f :: seen)]
        cases htail : distinctFiles (f :: seen) fs with
        | error e => simp [distinctFiles, hkey, hseen, htail, Except.map]
        | ok gs => simp [distinctFiles, hkey, hseen, htail, Except.map]

theorem distinctFiles_error {e : Ending} (h : distinctFiles seen fs = .error e) :
    e.exitCode = 1 := by
  induction fs generalizing seen with
  | nil => exact absurd h (by simp [distinctFiles])
  | cons f fs ih =>
    unfold distinctFiles at h
    split at h
    · cases h
      rfl
    · split at h
      · exact ih h
      · cases htail : distinctFiles (f :: seen) fs with
        | error e' =>
          rw [htail] at h
          cases h
          exact ih htail
        | ok gs =>
          rw [htail] at h
          exact absurd h (by simp [Except.map])

/-- Every file is among the distinct ones by its path, and no other file is. -/
theorem distinctFiles_paths (h : distinctFiles seen fs = .ok gs) :
    (∀ g ∈ gs, g ∈ fs) ∧ ∀ f ∈ fs, ∃ g ∈ seen ++ gs, g.path = f.path := by
  -- A file that is left out is the same as one seen before, which has its path.
  induction fs generalizing seen gs with
  | nil =>
    cases h
    simp
  | cons f fs ih =>
    unfold distinctFiles at h
    split at h
    · exact absurd h (by simp)
    · split at h
      · next hseen =>
        obtain ⟨hsub, hpaths⟩ := ih h
        refine ⟨fun g hg => List.mem_cons_of_mem f (hsub g hg), ?_⟩
        rw [List.forall_mem_cons]
        refine ⟨?_, hpaths⟩
        obtain ⟨g, hg, hsame⟩ := List.any_eq_true.mp hseen
        simp only [Entry.sameFile, Bool.and_eq_true, beq_iff_eq] at hsame
        exact ⟨g, List.mem_append_left _ hg, hsame.1.symm⟩
      · cases htail : distinctFiles (f :: seen) fs with
        | error e =>
          rw [htail] at h
          exact absurd h (by simp [Except.map])
        | ok rest =>
          rw [htail] at h
          cases h
          obtain ⟨hsub, hpaths⟩ := ih htail
          rw [List.forall_mem_cons, List.forall_mem_cons]
          refine ⟨⟨List.mem_cons_self, fun g hg => List.mem_cons_of_mem f (hsub g hg)⟩,
            ⟨f, by simp, rfl⟩, fun k hk => ?_⟩
          obtain ⟨g, hg, hpath⟩ := hpaths k hk
          exact ⟨g, by simpa [or_left_comm] using hg, hpath⟩

end DistinctFiles

section

variable {w w' : Workspace} {env : Config.Environment} {args : List String} {p : Preferences}

theorem ofArguments_of_asks {c : Command} (h : Asks w env args p c) :
    Job.ofArguments w env args =
      ((c.action w p (service w.cwd p.settings.index)).map
        fun a => ⟨p, service w.cwd p.settings.index, a⟩).mapError
          fun e => ⟨e, some p.logging, []⟩ := by
  obtain ⟨parsed, name, rest, v, hparse, hfirst, hothers, hverb, hprefs, hcommand⟩ := h
  have hverb' : Job.ofVerb w p v rest = (c.action w p (service w.cwd p.settings.index)).map
      fun a => ⟨p, service w.cwd p.settings.index, a⟩ := by
    simp only [Job.ofVerb, hcommand]
    rfl
  unfold Job.ofArguments
  simp only [hparse, hfirst, hothers, hverb, hprefs, Except.mapError]
  rw [← hverb']
  rfl

/-- A command that cannot be made an action leaves everything as it was. -/
theorem run_action_error {c : Command} (hasks : Asks w env args p c) {e : Ending}
    (h : c.action w p (service w.cwd p.settings.index) = .error e) :
    run w env args = (w, ⟨e, some p.logging, []⟩) := by
  refine run_eq_self_of_error ?_
  rw [ofArguments_of_asks hasks, h]
  rfl

/-- Asked once more, a command is asked for again, or the run ends before anything is done. -/
theorem asks_again (h : Extends w w') {c : Command} (hasks : Asks w env args p c) :
    Asks w' env args p c ∨ ∃ r, run w' env args = (w', r) := by
  obtain ⟨parsed, name, rest, v, hparse, hfirst, hothers, hverb, hprefs, hcommand⟩ := hasks
  cases hprefs' : Preferences.ofOptions w' env parsed with
  | ok p' =>
    cases ofOptions_again h hprefs hprefs'
    exact Or.inl ⟨parsed, name, rest, v, hparse, hfirst, hothers, hverb, hprefs', hcommand⟩
  | error e =>
    refine Or.inr ⟨⟨e, none, []⟩, run_eq_self_of_error ?_⟩
    unfold Job.ofArguments
    simp only [hparse, hfirst, hothers, hverb, hprefs', Except.mapError]
    rfl

theorem exitCode_ofFailure (verbose : Bool) (f : Failure) :
    (Ending.ofFailure verbose f).exitCode = 1 := by
  cases f <;> rfl

theorem perform_ends {j : Job} {d : Store.Directory} {r : Except Failure String} {st : Session}
    (h : Ends (j.action.ensure j.service.shutdown) (.start d) r st) :
    (j.perform d).1 = st.directory ∧
      ((j.perform d).2.ending.exitCode = 0 ↔ ∃ output, r = .ok output) := by
  obtain ⟨hresult, hstate⟩ := h
  unfold Job.perform
  simp only [hresult, hstate]
  refine ⟨trivial, ?_⟩
  cases r with
  | ok output => exact iff_of_true rfl ⟨output, rfl⟩
  | error f =>
    have hone := exitCode_ofFailure j.preferences.verbose f
    simp [Job.report, hone]

theorem indexFor_setIndex {l : Location} {q : Path} (hl : l = (w.walk q).2)
    (d : Store.Directory) :
    (w.setIndex l d).indexFor q = { d with path := String.ofList q.text } := by
  have hwalk := (extends_setIndex w l d).walk q
  unfold indexFor
  rw [hwalk, ← hl]
  exact indexAt_setIndex w l d _

/-- A job that finds its place is one session on the index there. -/
theorem run_job {j : Job} (hjob : Job.ofArguments w env args = .ok j) {q : Path} (hq : j.path = q)
    {wd : Workspace} {l : Location} (hmake : w.makeDirectory q = .ok (wd, l))
    {r : Except Failure String} {st : Session}
    (hend : Ends (j.action.ensure j.service.shutdown) (.start (w.indexFor q)) r st) :
    Extends w (run w env args).1 ∧
      (run w env args).1.indexFor q = { st.directory with path := String.ofList q.text } ∧
      ((run w env args).2.ending.exitCode = 0 ↔ ∃ output, r = .ok output) := by
  obtain ⟨hextends, hindexes, hl⟩ := makeDirectory_ok hmake
  have hindex : wd.indexAt l (String.ofList q.text) = w.indexFor q := by
    rw [hextends.indexAt hindexes, hl]
    rfl
  obtain ⟨hdirectory, hexit⟩ := perform_ends hend
  have hrun : run w env args =
      (wd.setIndex l (j.perform (w.indexFor q)).1, (j.perform (w.indexFor q)).2) := by
    simp only [run, hjob, Job.run, hq, hmake, hindex]
  rw [hrun, hdirectory]
  refine ⟨hextends.trans (extends_setIndex wd l _), indexFor_setIndex ?_ _, hexit⟩
  rw [hl, hextends.walk]

/-- The job of putting symbols into an index. -/
def indexJob (w : Workspace) (p : Preferences) (prioritized : Bool) (symbols : List Symbol)
    (files : List Check) : Job where
  preferences := p
  service := service w.cwd p.settings.index
  action := do
    (service w.cwd p.settings.index).reindex (files.map .check) (symbols.map .symbol) prioritized
    return p.say (indexedText symbols.length files.length)

theorem indexJob_path (w : Workspace) (p : Preferences) (prioritized : Bool)
    (symbols : List Symbol) (files : List Check) :
    (indexJob w p prioritized symbols files).path = p.settings.indexPath := rfl

/-- What an index must have so that a dump can be put into it: files that can be told apart, a
place, and documents for all that is indexed. -/
structure Feasible (w : Workspace) (p : Preferences) (prioritized : Bool) (symbols : List Symbol) :
    Prop where
  files : ∃ fs, distinctFiles [] (symbols.map (·.file)) = .ok fs
  place : ∃ x, w.makeDirectory p.settings.indexPath = .ok x
  documents : ∃ ds, (service w.cwd p.settings.index).documentsOf prioritized
    (symbols.map .symbol) = .ok ds

/-- The URIs of the files that symbols come from. -/
def urisOf (cwd : Path) (symbols : List Symbol) : List String :=
  symbols.map fun s => uri cwd (.check s.file)

/-- The documents of an index once a dump was put into it: those of its files are gone, and there is
one of each symbol that is indexed. -/
def Replaced (cwd : Path) (policy : Relevance.Policy) (prioritized : Bool) (symbols : List Symbol)
    (old new : List Stored) : Prop :=
  ∃ added, (symbols.filter (·.isIndexed)).map (·.stored? cwd policy prioritized) = added.map some ∧
    new.Perm (old.filter (fun x => !x.isOf (urisOf cwd symbols)) ++ added)

variable {file content : String} {prioritized : Bool}

theorem ofArguments_index (hasks : Asks w env args p (.index file prioritized))
    (hlook : w.look file = .text content) {files : List Check}
    (hfiles : distinctFiles [] ((Dump.read content).symbols.map (·.file)) = .ok files) :
    Job.ofArguments w env args =
      .ok (indexJob w p prioritized (Dump.read content).symbols files) := by
  rw [ofArguments_of_asks hasks]
  simp only [Command.action, hlook, indexing, hfiles]
  rfl

/-- The files that are told apart have the same URIs as all files. -/
theorem isOf_distinctFiles {cwd : Path} {symbols : List Symbol} {files : List Check}
    (h : distinctFiles [] (symbols.map (·.file)) = .ok files) (x : Stored) :
    x.isOf ((files.map Reference.check).map (uri cwd)) =
      x.isOf (urisOf cwd symbols) := by
  obtain ⟨hsub, hpaths⟩ := distinctFiles_paths h
  refine Stored.isOf_congr (fun u => ?_) x
  simp only [urisOf, List.mem_map]
  constructor
  · intro hu
    obtain ⟨_, ⟨g, hg, rfl⟩, rfl⟩ := hu
    obtain ⟨s, hs, rfl⟩ := List.mem_map.mp (hsub g hg)
    exact ⟨s, hs, rfl⟩
  · intro hu
    obtain ⟨s, hs, rfl⟩ := hu
    obtain ⟨g, hg, hpath⟩ := hpaths s.file (List.mem_map_of_mem hs)
    refine ⟨.check g, ⟨g, by simpa using hg, rfl⟩, ?_⟩
    simp only [uri, hpath]

theorem index_feasible (hasks : Asks w env args p (.index file prioritized))
    (hlook : w.look file = .text content)
    (hfeasible : Feasible w p prioritized (Dump.read content).symbols)
    (hd : (w.indexFor p.settings.indexPath).Intact)
    (hfree : (w.indexFor p.settings.indexPath).lock = none) :
    (run w env args).2.ending.exitCode = 0 ∧ Extends w (run w env args).1 ∧
      ((run w env args).1.indexFor p.settings.indexPath).Intact ∧
      ((run w env args).1.indexFor p.settings.indexPath).lock = none ∧
      Replaced w.cwd p.settings.index.policy prioritized (Dump.read content).symbols
        (w.indexFor p.settings.indexPath).documents
        ((run w env args).1.indexFor p.settings.indexPath).documents := by
  obtain ⟨⟨files, hfiles⟩, ⟨⟨wd, l⟩, hmake⟩, ⟨ds, hds⟩⟩ := hfeasible
  obtain ⟨st, hend, hintact, hunlocked, hdocuments⟩ := reindexOnce_ok hd hfree hds
  obtain ⟨hextends, hindex, hexit⟩ :=
    run_job (ofArguments_index hasks hlook hfiles) (indexJob_path ..) hmake hend
  rw [hindex]
  refine ⟨hexit.mpr ⟨_, rfl⟩, hextends, ?_, hunlocked, _, Service.stored?_indexed hds, ?_⟩
  · exact ⟨hintact.readable, hintact.numbered, hintact.unlost⟩
  · simp only [isOf_distinctFiles hfiles] at hdocuments
    exact hdocuments

/-- A dump that cannot be put into an index adds nothing to it. -/
theorem index_infeasible (hasks : Asks w env args p (.index file prioritized))
    (hlook : w.look file = .text content)
    (hfeasible : ¬ Feasible w p prioritized (Dump.read content).symbols)
    (hd : (w.indexFor p.settings.indexPath).Intact)
    (hfree : (w.indexFor p.settings.indexPath).lock = none) :
    (run w env args).2.ending.exitCode ≠ 0 ∧
      ∀ x ∈ ((run w env args).1.indexFor p.settings.indexPath).documents,
        x ∈ (w.indexFor p.settings.indexPath).documents := by
  cases hfiles : distinctFiles [] ((Dump.read content).symbols.map (·.file)) with
  | error e =>
    have haction : Command.action w p (service w.cwd p.settings.index)
        (.index file prioritized) = .error e := by
      simp only [Command.action, hlook, indexing, hfiles]
      rfl
    rw [run_action_error hasks haction]
    exact ⟨by simp [distinctFiles_error hfiles], fun x => id⟩
  | ok files =>
    cases hmake : w.makeDirectory p.settings.indexPath with
    | error f =>
      have hplace : w.makeDirectory (indexJob w p prioritized (Dump.read content).symbols
          files).path = .error f := hmake
      have hone := exitCode_ofFailure p.verbose f
      simp only [run, ofArguments_index hasks hlook hfiles, Job.run, hplace]
      refine ⟨fun hzero => ?_, fun x => id⟩
      exact absurd (hone.symm.trans hzero) (by decide)
    | ok made =>
      cases hds : (service w.cwd p.settings.index).documentsOf prioritized
          ((Dump.read content).symbols.map .symbol) with
      | ok ds => exact absurd ⟨⟨files, hfiles⟩, ⟨_, hmake⟩, ⟨ds, hds⟩⟩ hfeasible
      | error f =>
        obtain ⟨st, hend, hdocuments⟩ := reindexOnce_error hd hfree hds
        obtain ⟨_, hindex, hexit⟩ :=
          run_job (ofArguments_index hasks hlook hfiles) (indexJob_path ..) hmake hend
        rw [hindex]
        refine ⟨fun hzero => ?_, hdocuments⟩
        obtain ⟨output, houtput⟩ := hexit.mp hzero
        exact absurd houtput (by simp)

theorem index_unreadable (hasks : Asks w env args p (.index file prioritized))
    (hlook : ∀ content, w.look file ≠ .text content) :
    (run w env args).2.ending.exitCode ≠ 0 := by
  have hends {e : Ending} (he : e.exitCode ≠ 0)
      (haction : Command.action w p (service w.cwd p.settings.index) (.index file prioritized)
        = .error e) : (run w env args).2.ending.exitCode ≠ 0 := by
    rw [run_action_error hasks haction]
    exact he
  cases hfound : w.look file with
  | text content => exact absurd hfound (hlook content)
  | undecodable =>
    refine @hends (.fault .undecodable) (by decide) ?_
    simp only [Command.action, hfound]
  | missing =>
    refine @hends .usage (by decide) ?_
    simp only [Command.action, hfound]
  | directory =>
    refine @hends .usage (by decide) ?_
    simp only [Command.action, hfound]

end

end GoToSymbol.CommandLine
