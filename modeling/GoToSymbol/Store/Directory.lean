import GoToSymbol.Store.Merge

namespace GoToSymbol.Store

/-- The table of contents of an index. -/
inductive Catalogue where
  /-- No index was written yet. -/
  | absent
  /-- The segments, after a number of commits. -/
  | sound (generation : Nat) (segments : List Segment)
  | garbled

/-- What a directory holds: a table of contents, and the number of the writer that locks it. -/
structure Contents where
  catalogue : Catalogue
  lock : Option Nat

def Contents.empty : Contents := ⟨.absent, none⟩

/-- A directory for an index; `none` stands for one that is gone. Writers and segments are numbered
as they come, and the files of the segments numbered below `lost` are gone. -/
structure Directory where
  path : String
  contents : Option Contents
  writers : Nat
  segments : Nat
  lost : Nat

namespace Directory

/-- A directory that does not exist. -/
def gone (path : String) : Directory := ⟨path, none, 0, 0, 0⟩

/-- Makes the directory unless it is there. -/
def make (d : Directory) : Directory :=
  match d.contents with
  | some _ => d
  | none => { d with contents := some .empty }

/-- An empty directory. -/
def fresh (path : String) : Directory := (gone path).make

def setCatalogue (catalogue : Catalogue) (d : Directory) : Directory :=
  { d with contents := d.contents.map fun c => { c with catalogue := catalogue } }

def setLock (lock : Option Nat) (d : Directory) : Directory :=
  { d with contents := d.contents.map fun c => { c with lock := lock } }

/-- Gives the lock back if the writer of this number holds it. -/
def unlock (writer : Nat) (d : Directory) : Directory :=
  { d with contents := d.contents.map fun c =>
      if c.lock = some writer then { c with lock := none } else c }

def catalogue (d : Directory) : Catalogue := (d.contents.map (·.catalogue)).getD .absent

def lock (d : Directory) : Option Nat := d.contents.bind (·.lock)

/-- The segments of a sound table of contents. -/
def committed (d : Directory) : List Segment :=
  match d.catalogue with
  | .sound _ segments => segments
  | _ => []

/-- The documents that a search can see. -/
def documents (d : Directory) : List Stored := Store.documents d.committed

def isLost (d : Directory) (s : Segment) : Bool := s.serial < d.lost

/-- Deletes the directory with all its files. -/
def erase (d : Directory) : Directory := { d with contents := none, lost := d.segments }

/-- Deletes the files of all segments, but not the table of contents. -/
def dropSegments (d : Directory) : Directory := { d with lost := d.segments }

/-- The generation that a file name stands for, if it is one of a table of contents. -/
def generationOf? (name : List Char) : Option Nat := do
  let rest ← if "_MAIN_".toList.isPrefixOf name then some (name.drop 6) else none
  let digits := rest.takeWhile fun c => '0' ≤ c && c ≤ '9'
  if digits.isEmpty || rest.drop digits.length != ".toc".toList then none
  else some (digits.foldl (fun n c => n * 10 + (c.toNat - '0'.toNat)) 0)

/-- Whether a table of contents of this generation would be the one that is read. -/
def isCurrent (d : Directory) (generation : Nat) : Bool :=
  match d.catalogue with
  | .sound g _ => g ≤ generation
  | _ => true

/-- Puts a file of foreign text among the files of the index. -/
def writeFile (name : String) (d : Directory) : Directory :=
  match generationOf? name.toList with
  | some g => if d.isCurrent g then d.setCatalogue .garbled else d
  | none => d

@[simp] theorem lost_make (d : Directory) : d.make.lost = d.lost := by
  unfold make; split <;> rfl

@[simp] theorem segments_make (d : Directory) : d.make.segments = d.segments := by
  unfold make; split <;> rfl

@[simp] theorem isSome_contents_make (d : Directory) : d.make.contents.isSome = true := by
  unfold make
  split
  · next h => simp [h]
  · rfl

@[simp] theorem catalogue_make (d : Directory) : d.make.catalogue = d.catalogue := by
  unfold make
  split
  · rfl
  · next h => simp [catalogue, h, Contents.empty]

@[simp] theorem lock_make (d : Directory) : d.make.lock = d.lock := by
  unfold make
  split
  · rfl
  · next h => simp [lock, h, Contents.empty]

@[simp] theorem lost_setCatalogue (c : Catalogue) (d : Directory) :
    (d.setCatalogue c).lost = d.lost := rfl

@[simp] theorem segments_setCatalogue (c : Catalogue) (d : Directory) :
    (d.setCatalogue c).segments = d.segments := rfl

@[simp] theorem isSome_contents_setCatalogue (c : Catalogue) (d : Directory) :
    (d.setCatalogue c).contents.isSome = d.contents.isSome := by
  simp [setCatalogue]

theorem catalogue_setCatalogue (c : Catalogue) {d : Directory} (h : d.contents.isSome = true) :
    (d.setCatalogue c).catalogue = c := by
  obtain ⟨x, hx⟩ := Option.isSome_iff_exists.mp h
  simp [setCatalogue, catalogue, hx]

@[simp] theorem lock_setCatalogue (c : Catalogue) (d : Directory) :
    (d.setCatalogue c).lock = d.lock := by
  cases h : d.contents <;> simp [setCatalogue, lock, h]

@[simp] theorem lost_setLock (l : Option Nat) (d : Directory) : (d.setLock l).lost = d.lost := rfl

@[simp] theorem segments_setLock (l : Option Nat) (d : Directory) :
    (d.setLock l).segments = d.segments := rfl

@[simp] theorem isSome_contents_setLock (l : Option Nat) (d : Directory) :
    (d.setLock l).contents.isSome = d.contents.isSome := by
  simp [setLock]

@[simp] theorem catalogue_setLock (l : Option Nat) (d : Directory) :
    (d.setLock l).catalogue = d.catalogue := by
  cases h : d.contents <;> simp [setLock, catalogue, h]

theorem lock_setLock (l : Option Nat) {d : Directory} (h : d.contents.isSome = true) :
    (d.setLock l).lock = l := by
  obtain ⟨x, hx⟩ := Option.isSome_iff_exists.mp h
  simp [setLock, lock, hx]

@[simp] theorem lost_unlock (n : Nat) (d : Directory) : (d.unlock n).lost = d.lost := rfl

@[simp] theorem segments_unlock (n : Nat) (d : Directory) :
    (d.unlock n).segments = d.segments := rfl

@[simp] theorem isSome_contents_unlock (n : Nat) (d : Directory) :
    (d.unlock n).contents.isSome = d.contents.isSome := by
  simp [unlock]

@[simp] theorem catalogue_unlock (n : Nat) (d : Directory) :
    (d.unlock n).catalogue = d.catalogue := by
  cases h : d.contents with
  | none => simp [unlock, catalogue, h]
  | some c =>
    by_cases hl : c.lock = some n <;> simp [unlock, catalogue, h, hl]

theorem committed_of_sound {d : Directory} {generation : Nat} {segments : List Segment}
    (h : d.catalogue = .sound generation segments) : d.committed = segments := by
  simp [committed, h]

theorem committed_congr {d e : Directory} (h : d.catalogue = e.catalogue) :
    d.committed = e.committed := by
  simp [committed, h]

theorem committed_unlock (writer : Nat) (d : Directory) :
    (d.unlock writer).committed = d.committed := committed_congr (catalogue_unlock writer d)

example : generationOf? "_MAIN_17.toc".toList = some 17 := by decide
example : generationOf? "_MAIN_.toc".toList = none := by decide

end Directory

end GoToSymbol.Store
