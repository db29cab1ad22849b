import GoToSymbol.Index.Action
import GoToSymbol.Store.Directory
import GoToSymbol.Store.Ranking

namespace GoToSymbol.Store

/-- A writer: the committed segments as it found them, with the deletions it staged, and the
documents it staged. -/
structure Writer where
  number : Nat
  base : List Segment
  added : List Stored

/-- One user's access to a directory: whether its index is open, its writer if one is pending, and
whether the access was closed for good. -/
structure Handle where
  opened : Bool
  writer : Option Writer
  closed : Bool

def Handle.new : Handle := ⟨false, none, false⟩

/-- A directory together with one access to it. -/
structure Session where
  directory : Directory
  handle : Handle

namespace Session

def setDirectory (d : Directory) (s : Session) : Session := { s with directory := d }

def setOpened (opened : Bool) (s : Session) : Session :=
  { s with handle := { s.handle with opened := opened } }

def setWriter (w : Option Writer) (s : Session) : Session :=
  { s with handle := { s.handle with writer := w } }

def addDocument (d : Stored) (s : Session) : Session :=
  s.setWriter (s.handle.writer.map fun w => { w with added := w.added ++ [d] })

def close (s : Session) : Session := { s with handle := { s.handle with closed := true } }

/-- A session on a directory, which is made unless it is there. -/
def start (d : Directory) : Session := ⟨d.make, .new⟩

variable (s : Session)

@[simp] theorem directory_setDirectory (d : Directory) : (s.setDirectory d).directory = d := rfl

@[simp] theorem handle_setDirectory (d : Directory) : (s.setDirectory d).handle = s.handle := rfl

@[simp] theorem directory_setOpened (b : Bool) : (s.setOpened b).directory = s.directory := rfl

@[simp] theorem opened_setOpened (b : Bool) : (s.setOpened b).handle.opened = b := rfl

@[simp] theorem writer_setOpened (b : Bool) :
    (s.setOpened b).handle.writer = s.handle.writer := rfl

@[simp] theorem closed_setOpened (b : Bool) :
    (s.setOpened b).handle.closed = s.handle.closed := rfl

@[simp] theorem directory_setWriter (w : Option Writer) :
    (s.setWriter w).directory = s.directory := rfl

@[simp] theorem opened_setWriter (w : Option Writer) :
    (s.setWriter w).handle.opened = s.handle.opened := rfl

@[simp] theorem writer_setWriter (w : Option Writer) : (s.setWriter w).handle.writer = w := rfl

@[simp] theorem closed_setWriter (w : Option Writer) :
    (s.setWriter w).handle.closed = s.handle.closed := rfl

@[simp] theorem setWriter_setWriter (v w : Option Writer) :
    (s.setWriter v).setWriter w = s.setWriter w := rfl

@[simp] theorem directory_close : s.close.directory = s.directory := rfl

@[simp] theorem opened_close : s.close.handle.opened = s.handle.opened := rfl

@[simp] theorem writer_close : s.close.handle.writer = s.handle.writer := rfl

@[simp] theorem closed_close : s.close.handle.closed = true := rfl

theorem setWriter_self {s : Session} {w : Option Writer} (h : s.handle.writer = w) :
    s.setWriter w = s := by
  subst h; rfl

end Session

open GoToSymbol.Action

/-- An action on a session. -/
abbrev Work (α : Type) : Type := Action Session α

namespace Work

/-- Refuses an action on a session that was closed. -/
def whileOpen {α : Type} (t : Work α) : Work α := do
  let s ← read
  if s.handle.closed then fail .stopped else t

/-- Opens the index, which is created where there is none. -/
def openIndex : Work Unit := do
  let s ← read
  if s.handle.opened then return
  match s.directory.catalogue with
  | .garbled => fail .unreadable
  | .sound _ _ => update (·.setOpened true)
  | .absent =>
    update fun s => (s.setDirectory (s.directory.make.setCatalogue (.sound 0 []))).setOpened true

/-- Starts a writer on the committed segments and takes the lock. -/
def startWriter : Work Writer := do
  let s ← read
  let d := s.directory
  if d.contents.isNone then fail .missing
  else if d.lock.isSome then fail .locked
  else match d.catalogue with
    | .absent => fail (.noIndex d.path)
    | .garbled => fail .unreadable
    | .sound _ segments =>
      let w : Writer := ⟨d.writers, segments, []⟩
      update fun s =>
        (s.setDirectory { d.setLock (some w.number) with writers := d.writers + 1 }).setWriter (some w)
      return w

/-- The pending writer, or a new one. -/
def useWriter : Work Writer := do
  let s ← read
  match s.handle.writer with
  | some w => return w
  | none => do
    openIndex
    startWriter

/-- Stages documents one by one; those before a refused one stay staged. -/
def stageAll : List Document → Work Unit
  | [] => succeed ()
  | d :: ds => do
    let stored ← ofExcept (Stored.ofDocument d)
    update (·.addDocument stored)
    stageAll ds

/-- Drops the writer although its files are gone, which is worth a warning. -/
def abandonWriter : Work Unit := do
  let s ← read
  match s.handle.writer with
  | none => succeed ()
  | some w => do
    update fun s => (s.setDirectory (s.directory.unlock w.number)).setWriter none
    log ⟨.warning, "Could not cancel index writer", []⟩

/-- Publishes what a writer staged. Segments that are to be merged must be readable. -/
def publish (generation : Nat) (w : Writer) : Work Unit := do
  let s ← read
  let d := s.directory
  if d.lock ≠ some w.number then do
    abandonWriter
    fail .missing
  else if (plan w.base).merged.any d.isLost then do
    update fun s => (s.setDirectory (d.unlock w.number)).setWriter none
    fail .missing
  else
    update fun s => (s.setDirectory
      (({ d with segments := d.segments + 1 }.setCatalogue
        (.sound (generation + 1) (merge d.segments w.added (plan w.base)))).unlock
          w.number)).setWriter none

/-- Publishes what is pending. Where the index is gone, nothing is kept of it. -/
def flush : Work Unit := do
  let s ← read
  if s.handle.writer.isNone && !s.handle.opened then return
  match s.directory.catalogue with
  | .garbled => fail .unreadable
  | .absent => do
    abandonWriter
    update (·.setOpened false)
    fail .missing
  | .sound generation _ =>
    match s.handle.writer with
    | none => succeed ()
    | some w => publish generation w

def put (documents : List Document) (commit : Bool) : Work Unit := do
  let _ ← useWriter
  stageAll documents
  if commit then flush

/-- Marks what a query matches among the segments of the writer and counts what was marked. -/
def eraseBy (q : Query) : Work Nat := do
  let w ← useWriter
  let s ← read
  if w.base.any s.directory.isLost then fail .missing
  else do
    update (·.setWriter (some { w with base := w.base.map (·.erase q) }))
    return w.base.foldl (fun n t => n + t.countMet q) 0

def eraseAll : List Query → Work Nat
  | [] => succeed 0
  | q :: qs => do
    let n ← eraseBy q
    let m ← eraseAll qs
    return n + m

def delete (queries : List Query) (commit : Bool) : Work Nat := do
  let _ ← useWriter
  let n ← eraseAll queries
  if commit then flush
  return n

/-- The committed segments, all of which must be readable. -/
def readSegments : Work (List Segment) := do
  let s ← read
  match s.directory.catalogue with
  | .absent => fail (.noIndex s.directory.path)
  | .garbled => fail .unreadable
  | .sound _ segments =>
    if segments.any s.directory.isLost then fail .missing else succeed segments

/-- The first documents of the ranking of all committed ones. -/
def search (q : Query) (limit : Int) : Work (List Document) := do
  if limit < 1 then return []
  openIndex
  let segments ← readSegments
  return ((ranking q segments).take limit.toNat).map Stored.document

/-- The figures of an index. -/
def stats : Work (List (String × Value)) := do
  openIndex
  let s ← read
  if s.directory.contents.isNone then fail .missing
  else do
    let segments ← readSegments
    return [("document_count", .int (documents segments).length),
      ("field_count", .int Stored.fieldNames.length),
      ("index_directory", .text s.directory.path)]

/-- Publishes what is pending and lets go of the index. -/
def release : Work Unit := do
  let s ← read
  if s.handle.writer.isSome then flush
  update (·.setOpened false)

/-- Releases the index and closes the session, also where the release fails; once closed, it stays
so. -/
def shutdown : Work Unit := do
  let s ← read
  if s.handle.closed then return
  ensure release (update Session.close)

end Work

end GoToSymbol.Store
