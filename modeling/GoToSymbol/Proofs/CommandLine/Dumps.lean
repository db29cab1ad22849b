import GoToSymbol.Proofs.CommandLine.Indexing
import GoToSymbol.Proofs.Relevance.Boosts
import GoToSymbol.Proofs.Symbol.Dump

namespace GoToSymbol.CommandLine

open GoToSymbol.File Store Workspace

section

variable {cwd : Path} {policy : Relevance.Policy} {prioritized : Bool} {symbols : List Symbol}

theorem isOf_stored? {s : Symbol} (hs : s ∈ symbols) {x : Stored}
    (hx : s.stored? cwd policy prioritized = some x) : x.isOf (urisOf cwd symbols) = true := by
  have hfile := Service.file_stored? hx
  simp only [Stored.isOf, hfile, decide_eq_true_eq]
  exact List.mem_map_of_mem (List.mem_map_of_mem hs)

/-- A dump that is put into an index twice takes the place of itself. -/
theorem Replaced.again {old new last : List Stored}
    (h : Replaced cwd policy prioritized symbols old new)
    (h' : Replaced cwd policy prioritized symbols new last) : last.Perm new := by
  obtain ⟨added, hadded, hnew⟩ := h
  obtain ⟨added', hadded', hlast⟩ := h'
  have hsame : added' = added :=
    List.map_injective_iff.mpr (fun _ _ => Option.some.inj) (hadded'.symm.trans hadded)
  rw [hsame] at hlast
  -- What was added is of the files of the dump, so it is taken out again.
  have hgone : added.filter (fun x => !x.isOf (urisOf cwd symbols)) = [] := by
    rw [List.filter_eq_nil_iff]
    intro x hx
    have hstored : some x ∈ (symbols.filter (·.isIndexed)).map
        (·.stored? cwd policy prioritized) := hadded ▸ List.mem_map_of_mem hx
    obtain ⟨s, hs, hsx⟩ := List.mem_map.mp hstored
    simp [isOf_stored? (List.mem_of_mem_filter hs) hsx]
  have hkept := hnew.filter (fun x => !x.isOf (urisOf cwd symbols))
  rw [List.filter_append, hgone, List.append_nil, List.filter_filter] at hkept
  simp only [Bool.and_self] at hkept
  exact (hlast.trans (hkept.append_right added)).trans hnew.symm

variable {w w' : Workspace} {env : Config.Environment} {args : List String} {p : Preferences}

theorem Feasible.extends (h : Extends w w') (hw : Feasible w p prioritized symbols) :
    Feasible w' p prioritized symbols where
  files := hw.files
  place := h.makeDirectory hw.place
  documents := by
    rw [h.cwd]
    exact hw.documents

variable {file content : String}

/-- A dump that is put into an index replaces what its files had there, whatever their timestamps,
and leaves the other files alone. To put it there once more changes nothing. -/
theorem index_replaces (hasks : Asks w env args p (.index file prioritized))
    (hd : (w.indexFor p.settings.indexPath).Intact)
    (hfree : (w.indexFor p.settings.indexPath).lock = none)
    (hexit : (run w env args).2.ending.exitCode = 0) :
    ∃ content, w.look file = .text content ∧
      Replaced w.cwd p.settings.index.policy prioritized (Dump.read content).symbols
        (w.indexFor p.settings.indexPath).documents
        ((run w env args).1.indexFor p.settings.indexPath).documents ∧
      ((run (run w env args).1 env args).1.indexFor p.settings.indexPath).documents.Perm
        ((run w env args).1.indexFor p.settings.indexPath).documents := by
  have htext : ∃ content, w.look file = .text content := by
    by_contra hnone
    exact index_unreadable hasks (not_exists.mp hnone) hexit
  obtain ⟨content, hlook⟩ := htext
  have hfeasible : Feasible w p prioritized (Dump.read content).symbols := by
    by_contra hnot
    exact (index_infeasible hasks hlook hnot hd hfree).1 hexit
  obtain ⟨_, hextends, hd', hfree', hreplaced⟩ := index_feasible hasks hlook hfeasible hd hfree
  refine ⟨content, hlook, hreplaced, ?_⟩
  -- The run left the dump and the settings as they were, so it is the same dump once more.
  rcases asks_again hextends hasks with hasks' | ⟨r, hrun⟩
  · have hlook' : (run w env args).1.look file = .text content := by
      rw [hextends.look (by simp [hlook]), hlook]
    obtain ⟨_, _, _, _, hreplaced'⟩ :=
      index_feasible hasks' hlook' (hfeasible.extends hextends) hd' hfree'
    rw [hextends.cwd] at hreplaced'
    exact hreplaced.again hreplaced'
  · rw [hrun]

/-- A record of a class, with further members. -/
def classRecord (file fqn more : String) : String :=
  "\x7b\"kind\":\"class\",\"file\":\"" ++ file ++ "\",\"fqn\":\"" ++ fqn ++ "\"" ++ more ++ "\x7d\n"

/-- A file tree with a dump in it, and with an index where one is by default. -/
def sampleTree (dump : String) (indexes : List Store.Directory) : Workspace :=
  ⟨.ofText "/tmp".toList, [(["tmp".toList, "t.jsonl".toList], .text dump)], [],
    indexes.map fun d => (["tmp".toList, "data".toList, "symbol_index".toList], d)⟩

/-- The settings that decide what becomes of a dump are the default ones, and so is the log. -/
structure Preferences.Default (p : Preferences) : Prop where
  policy : p.settings.index.policy = .default
  logging : p.settings.logging = .default

/-- In the sample tree a dump is there to be put into the index by default. -/
theorem asks_sampleTree (dump : String) (indexes : List Store.Directory) :
    ∃ p, Asks (sampleTree dump indexes) [] ["index", "t.jsonl"] p (.index "t.jsonl" false) ∧
      p.Default ∧ p.settings.indexPath = .ofText "data/symbol_index".toList := by
  have hread : (Settings.read [] []).toOption.map (fun s =>
      (s.index.policy.penaltyStep, s.index.policy.priorityBonus, s.logging, s.indexPath)) =
        some (0.25, 0.25, .default, .ofText "data/symbol_index".toList) := by decide +kernel
  cases hs : Settings.read [] [] with
  | error e =>
    rw [hs] at hread
    exact absurd hread (by simp [Except.toOption])
  | ok s =>
    rw [hs] at hread
    simp only [Except.toOption, Option.map_some, Option.some.injEq, Prod.mk.injEq] at hread
    obtain ⟨hstep, hbonus, hlogging, hpath⟩ := hread
    have hmembers : Settings.readers.ofMembers [] (sampleTree dump indexes).dotenv [] = .ok s := by
      change (Settings.read [] []).mapError Settings.FileError.read = .ok s
      rw [hs]
      rfl
    have hsettings : Preferences.readSettings (sampleTree dump indexes) [] none = .ok s := by
      simp [Preferences.readSettings, Preferences.readSettingsBy, hmembers, Except.mapError]
    have hoptions : Preferences.ofOptions (sampleTree dump indexes) [] ⟨[], ["index", "t.jsonl"]⟩ =
        .ok ⟨s, s.debug, false⟩ := by
      have hsound : Preferences.arePathsSound (sampleTree dump indexes)
          ⟨[], ["index", "t.jsonl"]⟩ = true := rfl
      have hvalue (name : String) : Parsed.value? ⟨[], ["index", "t.jsonl"]⟩ name = none := rfl
      simp [Preferences.ofOptions, hsound, hvalue, hsettings, Parsed.has,
        Preferences.overrideDirectory]
    refine ⟨⟨s, s.debug, false⟩, ?_, ⟨congrArg₂ Relevance.Policy.mk hstep hbonus, hlogging⟩, hpath⟩
    exact ⟨⟨[], ["index", "t.jsonl"]⟩, "index", ["t.jsonl"], .index, rfl, rfl, rfl, rfl, hoptions,
      rfl⟩

/-- Two classes, each in a file of its own. -/
def twoFilesCall : Call :=
  .persist [sampleClass "/a.kt" "a.Bee", sampleClass "/b.kt" "b.Ant"] true false

/-- A directory to which the two classes were committed. -/
def twoFiles : Store.Directory :=
  (sampleService.perform twoFilesCall (.start (.fresh "/index"))).state.directory

theorem intact_twoFiles : twoFiles.Intact := by
  have hcalls : sampleService.History (.start (.fresh "/index")) [(twoFilesCall, .ok .done)]
      (sampleService.perform twoFilesCall (.start (.fresh "/index"))).state :=
    .cons ⟨rfl, rfl⟩ (.nil _)
  exact (history_intact hcalls (Session.intact_start (Directory.intact_fresh "/index"))).directory

/-- A class takes the place of what its file had, another file keeps its class, and a line that is
no record is passed over. To put it there once more changes nothing. -/
theorem index_replaces_bee : ∃ w p content,
    Asks w [] ["index", "t.jsonl"] p (.index "t.jsonl" false) ∧
      w.look "t.jsonl" = .text content ∧
      (Dump.read content).symbols.map (fun s => (s.file.path, s.fqn)) = [("/a.kt", "a.Cat")] ∧
      (w.indexFor p.settings.indexPath).documents.map (·.fqn) = [some "a.Bee", some "b.Ant"] ∧
      Replaced w.cwd p.settings.index.policy false (Dump.read content).symbols
        (w.indexFor p.settings.indexPath).documents
        ((run w [] ["index", "t.jsonl"]).1.indexFor p.settings.indexPath).documents ∧
      (((run w [] ["index", "t.jsonl"]).1.indexFor p.settings.indexPath).documents.map
        (·.fqn)).Perm [some "b.Ant", some "a.Cat"] ∧
      ((run (run w [] ["index", "t.jsonl"]).1 [] ["index", "t.jsonl"]).1.indexFor
        p.settings.indexPath).documents.Perm
          ((run w [] ["index", "t.jsonl"]).1.indexFor p.settings.indexPath).documents := by
  obtain ⟨p, hasks, _, hpath⟩ :=
    asks_sampleTree (classRecord "/a.kt" "a.Cat" "" ++ "no record\n") [twoFiles]
  have hexit : (run (sampleTree (classRecord "/a.kt" "a.Cat" "" ++ "no record\n") [twoFiles]) []
      ["index", "t.jsonl"]).2.ending.exitCode = 0 := by decide +kernel
  have hsymbols : (Dump.read (classRecord "/a.kt" "a.Cat" "" ++ "no record\n")).symbols.map
      (fun s => (s.file.path, s.fqn)) = [("/a.kt", "a.Cat")] := by decide +kernel
  have hleft : (((run (sampleTree (classRecord "/a.kt" "a.Cat" "" ++ "no record\n") [twoFiles]) []
      ["index", "t.jsonl"]).1.indexFor (.ofText "data/symbol_index".toList)).documents.map
        (·.fqn)).Perm [some "b.Ant", some "a.Cat"] := by decide +kernel
  have hintact := intact_twoFiles
  obtain ⟨content, hlook, hreplaced, hagain⟩ := index_replaces hasks
    (hpath ▸ ⟨hintact.readable, hintact.numbered, hintact.unlost⟩) (hpath ▸ rfl) hexit
  cases hlook
  exact ⟨_, p, _, hasks, rfl, hsymbols, hpath ▸ rfl, hreplaced, hpath ▸ hleft, hagain⟩

/-- With the default settings a dump that can be read is put into an index if and only if all
timestamps are scalars and no name that is indexed is nested deeper than 1075 levels. Else nothing of
it is. -/
theorem index_default_iff {dump : Dump} (hasks : Asks w env args p (.index file false))
    (hdefault : p.Default) (hlook : w.look file = .text content)
    (hread : Dump.readWithin? Json.maxLevels content = some dump)
    (hplace : ∃ x, w.makeDirectory p.settings.indexPath = .ok x)
    (hd : (w.indexFor p.settings.indexPath).Intact)
    (hfree : (w.indexFor p.settings.indexPath).lock = none) :
    let before := (w.indexFor p.settings.indexPath).documents
    let after := ((run w env args).1.indexFor p.settings.indexPath).documents
    ((run w env args).2.ending.exitCode = 0 ↔
        (∀ s ∈ dump.symbols, s.file.timestamp.scalarKey?.isSome = true) ∧
          ∀ s ∈ dump.symbols, s.isIndexed = true → Relevance.nestedDepth s.fqn.toList ≤ 1075) ∧
      ((run w env args).2.ending.exitCode = 0 →
        Replaced w.cwd p.settings.index.policy false dump.symbols before after) ∧
      ((run w env args).2.ending.exitCode ≠ 0 → ∀ x ∈ after, x ∈ before) := by
  intro before after
  obtain ⟨rfl, _⟩ := Dump.readWithin?_eq_some hread
  have hfiles : (∃ fs, distinctFiles [] ((Dump.read content).symbols.map (·.file)) = .ok fs) ↔
      ∀ s ∈ (Dump.read content).symbols, s.file.timestamp.scalarKey?.isSome = true := by
    rw [distinctFiles_ok_iff, List.forall_mem_map]
  have hdocuments : (∃ ds, (service w.cwd p.settings.index).documentsOf false
      ((Dump.read content).symbols.map .symbol) = .ok ds) ↔
        ∀ s ∈ (Dump.read content).symbols, s.isIndexed = true →
          Relevance.nestedDepth s.fqn.toList ≤ 1075 := by
    refine Service.buildDocuments_ok_iff.trans ?_
    have hpolicy : (service w.cwd p.settings.index).config.policy = .default := hdefault.policy
    rw [hpolicy]
    refine forall₂_congr fun s _ => imp_congr_right fun _ => ?_
    obtain ⟨b, hb, hpositive⟩ := Relevance.boost_default s.fqn.toList
    rw [hb]
    simp only [Except.ok.injEq, exists_eq_left', hpositive]
    omega
  by_cases hfeasible : Feasible w p false (Dump.read content).symbols
  · obtain ⟨hexit, _, _, _, hreplaced⟩ := index_feasible hasks hlook hfeasible hd hfree
    refine ⟨iff_of_true hexit ⟨hfiles.mp hfeasible.files, hdocuments.mp hfeasible.documents⟩,
      fun _ => hreplaced, fun hfailed => absurd hexit hfailed⟩
  · obtain ⟨hexit, hnothing⟩ := index_infeasible hasks hlook hfeasible hd hfree
    refine ⟨iff_of_false hexit fun hall => hfeasible ?_, fun hzero => absurd hzero hexit,
      fun _ => hnothing⟩
    exact ⟨hfiles.mpr hall.1, hplace, hdocuments.mpr hall.2⟩

/-- A dump of one class is put into an index, and its class is there afterwards. -/
theorem index_default_bee : ∃ w p content dump,
    Asks w [] ["index", "t.jsonl"] p (.index "t.jsonl" false) ∧
      w.look "t.jsonl" = .text content ∧ Dump.readWithin? Json.maxLevels content = some dump ∧
      dump.symbols.map (·.fqn) = ["a.Bee"] ∧
      (run w [] ["index", "t.jsonl"]).2.ending.exitCode = 0 ∧
      ((run w [] ["index", "t.jsonl"]).1.indexFor p.settings.indexPath).documents.map (·.fqn) =
        [some "a.Bee"] := by
  obtain ⟨p, hasks, hdefault, hpath⟩ := asks_sampleTree (classRecord "/a.kt" "a.Bee" "") []
  have hread : Dump.readWithin? Json.maxLevels (classRecord "/a.kt" "a.Bee" "") =
      some (Dump.read (classRecord "/a.kt" "a.Bee" "")) := if_pos (by decide +kernel)
  have hsymbols : (Dump.read (classRecord "/a.kt" "a.Bee" "")).symbols.map (·.fqn) = ["a.Bee"] := by
    decide +kernel
  have hscalar : ∀ s ∈ (Dump.read (classRecord "/a.kt" "a.Bee" "")).symbols,
      s.file.timestamp.scalarKey?.isSome = true := by decide +kernel
  have hdepth : ∀ s ∈ (Dump.read (classRecord "/a.kt" "a.Bee" "")).symbols,
      s.isIndexed = true → Relevance.nestedDepth s.fqn.toList ≤ 1075 := by decide +kernel
  have hafter : ((run (sampleTree (classRecord "/a.kt" "a.Bee" "") []) []
      ["index", "t.jsonl"]).1.indexFor (.ofText "data/symbol_index".toList)).documents.map (·.fqn) =
        [some "a.Bee"] := by decide +kernel
  obtain ⟨hexit, _⟩ := index_default_iff hasks hdefault rfl hread (hpath ▸ ⟨_, rfl⟩)
    (hpath ▸ Directory.intact_fresh "data/symbol_index") (hpath ▸ rfl)
  exact ⟨_, p, _, _, hasks, rfl, hread, hsymbols, hexit.mpr ⟨hscalar, hdepth⟩, hpath ▸ hafter⟩

/-- One record whose timestamp is a list keeps the others out. -/
theorem index_default_not_always :
    ¬ ∀ (w : Workspace) (p : Preferences) (content : String) (dump : Dump),
      Asks w [] ["index", "t.jsonl"] p (.index "t.jsonl" false) → p.Default →
      w.look "t.jsonl" = .text content → Dump.readWithin? Json.maxLevels content = some dump →
      (∃ x, w.makeDirectory p.settings.indexPath = .ok x) →
      (w.indexFor p.settings.indexPath).Intact → (w.indexFor p.settings.indexPath).lock = none →
      (run w [] ["index", "t.jsonl"]).2.ending.exitCode = 0 := by
  intro hclaim
  obtain ⟨p, hasks, hdefault, hpath⟩ := asks_sampleTree
    (classRecord "/a.kt" "a.Bee" "" ++ classRecord "/c.kt" "a.Cat" ",\"timestamp\":[1]") []
  have hexit := hclaim _ p _ _ hasks hdefault rfl (if_pos (by decide +kernel)) (hpath ▸ ⟨_, rfl⟩)
    (hpath ▸ Directory.intact_fresh "data/symbol_index") (hpath ▸ rfl)
  have hone : (run (sampleTree (classRecord "/a.kt" "a.Bee" "" ++
      classRecord "/c.kt" "a.Cat" ",\"timestamp\":[1]") []) []
      ["index", "t.jsonl"]).2.ending.exitCode = 1 := by decide +kernel
  exact absurd (hone.symm.trans hexit) (by decide)

end

end GoToSymbol.CommandLine
