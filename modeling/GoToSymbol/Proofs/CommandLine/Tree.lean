import GoToSymbol.CommandLine.Job

namespace GoToSymbol

open GoToSymbol.File

namespace Workspace

/-- The second tree has the files of the first, and directories where the first has some. -/
structure Extends (w w' : Workspace) : Prop where
  cwd : w'.cwd = w.cwd
  files : w'.files = w.files
  directories : ∀ l ∈ w.directories, l ∈ w'.directories

theorem extends_setIndex (w : Workspace) (l : Location) (d : Store.Directory) :
    Extends w (w.setIndex l d) := ⟨rfl, rfl, fun _ => id⟩

theorem makeDirectory_ok {w w' : Workspace} {p : Path} {l : Location}
    (h : w.makeDirectory p = .ok (w', l)) :
    Extends w w' ∧ w'.indexes = w.indexes ∧ l = (w.walk p).2 := by
  unfold makeDirectory at h
  simp only at h
  split at h
  · exact absurd h (by simp)
  · split at h
    · exact absurd h (by simp)
    · cases h
      refine ⟨⟨rfl, rfl, fun k hk => ?_⟩, rfl, rfl⟩
      exact List.mem_append_right _ hk

namespace Extends

variable {w m w' : Workspace}

theorem trans (h : Extends w m) (h' : Extends m w') : Extends w w' where
  cwd := h'.cwd.trans h.cwd
  files := h'.files.trans h.files
  directories l hl := h'.directories l (h.directories l hl)

theorem walk (h : Extends w w') (p : Path) : w'.walk p = w.walk p := by
  unfold Workspace.walk
  rw [h.cwd]

/-- What is found at a place is found there later on. -/
theorem contentAt (h : Extends w w') {l : Location} (hl : w.contentAt l ≠ .missing) :
    w'.contentAt l = w.contentAt l := by
  unfold Workspace.contentAt at hl ⊢
  rw [h.files, h.cwd]
  cases hfile : w.files.lookup l with
  | some c => rfl
  | none =>
    rw [hfile] at hl
    simp only at hl ⊢
    by_cases habove : (w.cwd.components :: w.directories ++ w.files.map (·.1)).any l.isPrefixOf
    · have habove' : (w.cwd.components :: w'.directories ++ w.files.map (·.1)).any
          l.isPrefixOf = true := by
        obtain ⟨k, hk, hprefix⟩ := List.any_eq_true.mp habove
        refine List.any_eq_true.mpr ⟨k, ?_, hprefix⟩
        simp only [List.cons_append, List.mem_cons, List.mem_append] at hk ⊢
        exact hk.imp_right (Or.imp_left (h.directories k))
      rw [if_pos habove, if_pos habove']
    · rw [if_neg habove] at hl
      exact absurd rfl hl

/-- What a text leads to, it leads to later on. -/
theorem look (h : Extends w w') {text : String} (hl : w.look text ≠ .missing) :
    w'.look text = w.look text := by
  unfold Workspace.look at hl ⊢
  simp only [h.walk] at hl ⊢
  split at hl
  · exact absurd rfl hl
  · next hfound =>
    simp only [Bool.or_eq_true, not_or, Bool.not_eq_true] at hfound
    obtain ⟨⟨hsome, hway⟩, hslash⟩ := hfound
    have hlast := h.contentAt hl
    have hway' : (w.walk (.ofText text.toList)).1.any (w'.contentAt · != .directory) = false := by
      rw [List.any_eq_false] at hway ⊢
      intro k hk
      have hdirectory : w.contentAt k = .directory := by simpa using hway k hk
      rw [h.contentAt (by simp [hdirectory]), hdirectory]
      simp
    rw [hlast, hsome, hway, hway', hslash]

/-- Where there is a file, there is one later on, and there is no other. -/
theorem isFile (h : Extends w w') (l : Location) :
    (w'.contentAt l).isFile = (w.contentAt l).isFile := by
  unfold Workspace.contentAt
  rw [h.files, h.cwd]
  cases w.files.lookup l with
  | some c => rfl
  | none =>
    have hno (b : Bool) : (if b then Content.directory else .missing).isFile = false := by
      cases b <;> rfl
    exact (hno _).trans (hno _).symm

theorem makeDirectory (h : Extends w w') {p : Path} (hp : ∃ x, w.makeDirectory p = .ok x) :
    ∃ x, w'.makeDirectory p = .ok x := by
  obtain ⟨x, hx⟩ := hp
  unfold Workspace.makeDirectory at hx ⊢
  simp only [h.walk, h.isFile] at hx ⊢
  split at hx
  · exact absurd hx (by simp)
  · next hway =>
    split at hx
    · exact absurd hx (by simp)
    · next hlast =>
      rw [if_neg hway, if_neg hlast]
      exact ⟨_, rfl⟩

theorem indexAt (h : Extends w w') (hindexes : w'.indexes = w.indexes) (l : Location)
    (path : String) : w'.indexAt l path = w.indexAt l path := by
  unfold Workspace.indexAt Workspace.namesAt
  rw [hindexes, h.files]

end Extends

/-- The index in the directory of a path. -/
def indexFor (w : Workspace) (p : Path) : Store.Directory :=
  w.indexAt (w.walk p).2 (String.ofList p.text)

end Workspace

namespace CommandLine

open Workspace

variable {w w' : Workspace} {env : Config.Environment}

/-- The file of variables sets later on what it sets. -/
theorem variablesIn_again (h : Extends w w') (r : Settings.Readers) :
    r.variablesIn env w'.dotenv = r.variablesIn env w.dotenv := by
  unfold Workspace.dotenv Settings.Readers.variablesIn
  rw [h.walk, h.isFile]
  split
  · next hfile =>
    rw [h.contentAt]
    intro hmissing
    rw [hmissing] at hfile
    exact absurd hfile (by decide)
  · rfl

theorem readSettings_again (h : Extends w w') {config : Option String} {s : Settings}
    (hs : Preferences.readSettings w env config = .ok s) :
    Preferences.readSettings w' env config = .ok s := by
  unfold Preferences.readSettings Preferences.readSettingsBy at hs ⊢
  have hmembers (members : List (Option String × Setting)) :
      Settings.readers.ofMembers env w'.dotenv members =
        Settings.readers.ofMembers env w.dotenv members := by
    unfold Settings.Readers.ofMembers
    rw [variablesIn_again h]
  cases config with
  | none =>
    simp only [hmembers] at hs ⊢
    exact hs
  | some file =>
    have hthere : w.look file ≠ .missing := by
      intro hmissing
      simp only [hmissing] at hs
      exact nomatch hs
    simp only [h.look hthere, Settings.Readers.ofFile, hmembers] at hs ⊢
    exact hs

theorem ofOptions_ok {parsed : Parsed} {p : Preferences}
    (h : Preferences.ofOptions w env parsed = .ok p) :
    ∃ s, Preferences.readSettings w env (parsed.value? "config") = .ok s ∧
      p = ⟨Preferences.overrideDirectory w.cwd s (parsed.value? "index-dir"),
        parsed.has "verbose" || (s.debug && !parsed.has "quiet"), parsed.has "quiet"⟩ := by
  simp only [Preferences.ofOptions, Bind.bind, Except.bind] at h
  split at h
  · exact absurd h (by simp [throw, throwThe, MonadExceptOf.throw])
  · cases hs : Preferences.readSettings w env (parsed.value? "config") with
    | error e =>
      rw [hs] at h
      exact absurd h (by simp)
    | ok s =>
      rw [hs] at h
      cases h
      exact ⟨s, rfl, rfl⟩

theorem ofOptions_again (h : Extends w w') {parsed : Parsed} {p p' : Preferences}
    (hp : Preferences.ofOptions w env parsed = .ok p)
    (hp' : Preferences.ofOptions w' env parsed = .ok p') : p' = p := by
  obtain ⟨s, hs, rfl⟩ := ofOptions_ok hp
  obtain ⟨s', hs', rfl⟩ := ofOptions_ok hp'
  cases (readSettings_again h hs).symm.trans hs'
  rw [h.cwd]

end CommandLine

end GoToSymbol
