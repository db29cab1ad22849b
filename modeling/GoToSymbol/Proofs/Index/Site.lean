import GoToSymbol.Proofs.Index.Access
import GoToSymbol.Proofs.Index.Agreement

namespace GoToSymbol.Store

open GoToSymbol.Action

def Directory.hasIndex (d : Directory) : Bool :=
  match d.catalogue with
  | .sound _ _ => true
  | .absent | .garbled => false

theorem Directory.hasIndex_of_sound {d : Directory} {generation : Nat} {segments : List Segment}
    (h : d.catalogue = .sound generation segments) : d.hasIndex = true := by
  simp [hasIndex, h]

theorem Directory.hasIndex_of_absent {d : Directory} (h : d.catalogue = .absent) :
    d.hasIndex = false := by
  simp [hasIndex, h]

/-- A directory as a writer works on it, with what the writer staged. -/
structure Site where
  directory : Directory
  draft : Option Writer

namespace Site

variable {α : Type}

def start (d : Directory) : Site := ⟨d.make, none⟩

def setDirectory (d : Directory) (x : Site) : Site := { x with directory := d }

def setDraft (w : Option Writer) (x : Site) : Site := { x with draft := w }

/-- Does something with the draft, if it is the one of the writer with this number. -/
def withDraft (n : Nat) (t : Writer → Action Site α) : Action Site α := do
  let x ← read
  match x.draft with
  | none => fail (.other "This writer is closed")
  | some w => if w.number = n then t w else fail (.other "This writer is closed")

def openIndex : Action Site Unit := do
  let x ← read
  match x.directory.catalogue with
  | .garbled => fail .unreadable
  | .sound _ _ => succeed ()
  | .absent => update fun x => x.setDirectory (x.directory.make.setCatalogue (.sound 0 []))

def startWriter : Action Site Nat := do
  let x ← read
  let d := x.directory
  if d.contents.isNone then fail .missing
  else if d.lock.isSome then fail .locked
  else match d.catalogue with
    | .absent => fail (.noIndex d.path)
    | .garbled => fail .unreadable
    | .sound _ segments => do
      update fun x => (x.setDirectory { d.setLock (some d.writers) with
        writers := d.writers + 1 }).setDraft (some ⟨d.writers, segments, []⟩)
      return d.writers

def add (n : Nat) (document : Document) : Action Site Unit := withDraft n fun w => do
  let stored ← ofExcept (Stored.ofDocument document)
  update (setDraft (some { w with added := w.added ++ [stored] }))

def erase (n : Nat) (q : Query) : Action Site Nat := withDraft n fun w => do
  let x ← read
  if w.base.any x.directory.isLost then fail .missing
  else do
    update (setDraft (some { w with base := w.base.map (·.erase q) }))
    return w.base.foldl (fun n t => n + t.countMet q) 0

def commit (n : Nat) : Action Site Unit := withDraft n fun w => do
  let x ← read
  let d := x.directory
  match d.catalogue with
  | .absent | .garbled => fail .missing
  | .sound generation _ =>
    if d.lock ≠ some n then fail .missing
    else if (plan w.base).merged.any d.isLost then fail .missing
    else update fun x => (x.setDirectory (d.written generation w)).setDraft none

/-- The files that a writer cleans up may be gone. The lock is given back all the same. -/
def cancel (n : Nat) : Action Site Unit := do
  let x ← read
  let d := x.directory
  update fun x => (x.setDirectory (d.unlock n)).setDraft (x.draft.filter (·.number ≠ n))
  if d.hasIndex && d.lock = some n then succeed () else fail .missing

def readSegments : Action Site (List Segment) := do
  let x ← read
  match x.directory.catalogue with
  | .absent => fail (.noIndex x.directory.path)
  | .garbled => fail .unreadable
  | .sound _ segments =>
    if segments.any x.directory.isLost then fail .missing else succeed segments

def search (q : Query) (limit : Int) : Action Site (List Document) := do
  let segments ← readSegments
  return ((ranking q segments).take limit.toNat).map Stored.document

def stats : Action Site (List (String × Value)) := do
  let x ← read
  if x.directory.contents.isNone then fail .missing
  else do
    let segments ← readSegments
    return [("document_count", .int (documents segments).length),
      ("field_count", .int Stored.fieldNames.length),
      ("index_directory", .text x.directory.path)]

/-- A directory as a storage. Its writers are known by their numbers. -/
def medium : Medium Site Nat where
  hasIndex x := x.directory.hasIndex
  openIndex := openIndex
  closeIndex := succeed ()
  startWriter := startWriter
  add := add
  erase := erase
  commit := commit
  cancel := cancel
  search := search
  stats := stats

/-- The session is on this directory, and has the draft of the writer with this number, if there is
one. The table of contents can be read. -/
structure Shows (opened : Bool) (writer : Option Nat) (closed : Bool) (x : Site) (s : Session) :
    Prop where
  session : s = ⟨x.directory, opened, x.draft, closed⟩
  writer : x.draft.map (·.number) = writer
  readable : x.directory.catalogue ≠ .garbled

variable {opened closed : Bool} {writer : Option Nat}

theorem Shows.directory {x : Site} {s : Session} (h : Shows opened writer closed x s) :
    s.directory = x.directory := by rw [h.session]

theorem openIndex_shows {x : Site} {s : Session} (h : Shows false writer closed x s) :
    ∃ y s', openIndex x = ⟨.ok (), y, []⟩ ∧ Work.openIndex s = ⟨.ok (), s', []⟩ ∧
      Shows true writer closed y s' := by
  obtain ⟨rfl, hwriter, hreadable⟩ := h
  unfold openIndex Work.openIndex
  simp only [read_bind]
  cases hcat : x.directory.catalogue with
  | garbled => exact absurd hcat hreadable
  | sound g ss => exact ⟨_, _, rfl, rfl, rfl, hwriter, hreadable⟩
  | absent =>
    refine ⟨_, _, rfl, rfl, rfl, hwriter, ?_⟩
    have hcreated := Directory.catalogue_setCatalogue (.sound 0 [])
      (Directory.isSome_contents_make x.directory)
    change (x.directory.make.setCatalogue (.sound 0 [])).catalogue ≠ .garbled
    rw [hcreated]
    simp

/-- A directory and a session on it refuse a writer alike, or start the same one. -/
theorem startWriter_shows {x : Site} {s : Session} (h : Shows opened writer closed x s) :
    (∃ f, startWriter x = ⟨.error f, x, []⟩ ∧ Work.startWriter s = ⟨.error f, s, []⟩) ∨
      ∃ w y s', startWriter x = ⟨.ok w.number, y, []⟩ ∧ Work.startWriter s = ⟨.ok w, s', []⟩ ∧
        Shows opened (some w.number) closed y s' := by
  obtain ⟨rfl, _, hreadable⟩ := h
  unfold startWriter Work.startWriter
  simp only [read_bind]
  by_cases hnone : x.directory.contents.isNone = true
  · rw [if_pos hnone]
    exact Or.inl ⟨_, rfl, by rw [if_pos hnone]; rfl⟩
  by_cases hlock : x.directory.lock.isSome = true
  · refine Or.inl ⟨.locked, ?_, ?_⟩
    · rw [if_neg hnone, if_pos hlock]; rfl
    · rw [if_neg hnone, if_pos hlock]; rfl
  rw [if_neg hnone, if_neg hlock, if_neg hnone, if_neg hlock]
  cases hcat : x.directory.catalogue with
  | garbled => exact absurd hcat hreadable
  | absent => exact Or.inl ⟨_, rfl, rfl⟩
  | sound g ss =>
    refine Or.inr ⟨⟨x.directory.writers, ss, []⟩, _, _, rfl, rfl, rfl, rfl, ?_⟩
    change (x.directory.setLock _).catalogue ≠ .garbled
    rw [Directory.catalogue_setLock]
    exact hreadable

section

variable {n : Nat} {x : Site} {s : Session} {w : Writer}

theorem Shows.draft (h : Shows opened (some n) closed x s) :
    ∃ w, s.handle.writer = some w ∧ x.draft = some w ∧ w.number = n := by
  obtain ⟨rfl, hwriter, _⟩ := h
  obtain ⟨w, hdraft, hnumber⟩ := Option.map_eq_some_iff.mp hwriter
  exact ⟨w, hdraft, hdraft, hnumber⟩

theorem Shows.setDraft (h : Shows opened (some n) closed x s) (hn : w.number = n) :
    Shows opened (some n) closed (x.setDraft (some w)) (s.setWriter (some w)) := by
  obtain ⟨rfl, _, hreadable⟩ := h
  exact ⟨rfl, congrArg some hn, hreadable⟩

theorem withDraft_eq {α : Type} {t : Writer → Action Site α} (hdraft : x.draft = some w)
    (hn : w.number = n) : withDraft n t x = t w x := by
  rw [withDraft, read_bind, hdraft]
  simp only
  rw [if_pos hn]

theorem useWriter_eq (hw : s.handle.writer = some w) : Work.useWriter s = ⟨.ok w, s, []⟩ := by
  rw [Work.useWriter, read_bind, hw]
  rfl

/-- A document is refused in both places, or staged in both. -/
theorem add_shows (h : Shows opened (some n) closed x s) (d : Document) :
    (∃ f, Stored.ofDocument d = .error f ∧ add n d x = ⟨.error f, x, []⟩) ∨
      ∃ stored y, Stored.ofDocument d = .ok stored ∧ add n d x = ⟨.ok (), y, []⟩ ∧
        Shows opened (some n) closed y (s.addDocument stored) := by
  obtain ⟨w, hw, hdraft, hnumber⟩ := h.draft
  unfold add
  rw [withDraft_eq hdraft hnumber]
  cases hd : Stored.ofDocument d with
  | error f => exact Or.inl ⟨f, rfl, rfl⟩
  | ok stored =>
    refine Or.inr ⟨stored, _, rfl, rfl, ?_⟩
    have hstaged := h.setDraft (w := { w with added := w.added ++ [stored] }) hnumber
    have hsame : s.addDocument stored =
        s.setWriter (some { w with added := w.added ++ [stored] }) := by
      simp [Session.addDocument, hw]
    rw [hsame]
    exact hstaged

theorem erase_shows (h : Shows opened (some n) closed x s) (q : Query) :
    (erase n q x).Agree (Shows opened (some n) closed) Eq (Work.eraseBy q s) := by
  obtain ⟨w, hw, hdraft, hnumber⟩ := h.draft
  -- The session has its writer already, so no other is started.
  have hpending : Work.eraseBy q s = (do
      let s ← read
      if w.base.any s.directory.isLost then fail .missing
      else do
        update (·.setWriter (some { w with base := w.base.map (·.erase q) }))
        return w.base.foldl (fun n t => n + t.countMet q) 0 : Work Nat) s := by
    simp only [Work.eraseBy, Bind.bind, andThen, useWriter_eq hw]
    rfl
  unfold erase
  rw [withDraft_eq hdraft hnumber, hpending, read_bind, read_bind, h.directory]
  exact agree_ite Iff.rfl (fun _ => ⟨.error .missing, h, rfl⟩)
    fun _ => ⟨.ok rfl, h.setDraft hnumber, rfl⟩

/-- The session is left without its writer, who gives back the lock if it is still held. -/
theorem cancel_shows (h : Shows opened (some n) closed x s) :
    ∃ y, cancel n x = ⟨if x.directory.hasIndex && x.directory.lock = some n then .ok ()
        else .error .missing, y, []⟩ ∧
      Shows opened none closed y ((s.setDirectory (s.directory.unlock n)).setWriter none) := by
  obtain ⟨w, hw, hdraft, hnumber⟩ := h.draft
  have hfilter : x.draft.filter (·.number ≠ n) = none := by simp [hdraft, hnumber]
  refine ⟨(x.setDirectory (x.directory.unlock n)).setDraft none, ?_, ?_⟩
  · unfold cancel
    rw [read_bind, update_bind, hfilter]
    by_cases hheld : (x.directory.hasIndex && x.directory.lock = some n) = true
    · rw [if_pos hheld, if_pos hheld]
      rfl
    · rw [if_neg hheld, if_neg hheld]
      rfl
  · obtain ⟨rfl, _, hreadable⟩ := h
    refine ⟨rfl, rfl, ?_⟩
    change (x.directory.unlock n).catalogue ≠ .garbled
    rw [Directory.catalogue_unlock]
    exact hreadable

/-- A commit fails and leaves everything as it is, or it publishes what the writer staged. -/
theorem commit_eq (h : Shows opened (some n) closed x s) (hw : s.handle.writer = some w)
    {generation : Nat} {segments : List Segment}
    (hcatalogue : x.directory.catalogue = .sound generation segments) :
    commit n x =
      if x.directory.lock ≠ some n ∨ (plan w.base).merged.any x.directory.isLost = true then
        ⟨.error .missing, x, []⟩
      else ⟨.ok (), (x.setDirectory (x.directory.written generation w)).setDraft none, []⟩ := by
  obtain ⟨v, hv, hdraft, hnumber⟩ := h.draft
  obtain rfl : v = w := Option.some.inj (hv.symm.trans hw)
  unfold commit
  rw [withDraft_eq hdraft hnumber, read_bind]
  simp only [hcatalogue]
  by_cases hlock : x.directory.lock ≠ some n
  · rw [if_pos hlock, if_pos (Or.inl hlock)]
    rfl
  · by_cases hlost : (plan v.base).merged.any x.directory.isLost = true
    · rw [if_neg hlock, if_pos hlost, if_pos (Or.inr hlost)]
      rfl
    · rw [if_neg hlock, if_neg hlost, if_neg (not_or.mpr ⟨hlock, hlost⟩)]
      rfl

end

theorem readSegments_shows {x : Site} {s : Session} (h : Shows opened writer closed x s) :
    (readSegments x).Agree (Shows opened writer closed) Eq (Work.readSegments s) := by
  unfold readSegments Work.readSegments
  rw [read_bind, read_bind, h.directory]
  cases x.directory.catalogue with
  | absent => exact ⟨.error _, h, rfl⟩
  | garbled => exact ⟨.error _, h, rfl⟩
  | sound g ss => exact agree_ite Iff.rfl (fun _ => ⟨.error _, h, rfl⟩) fun _ => ⟨.ok rfl, h, rfl⟩

end Site

end GoToSymbol.Store
