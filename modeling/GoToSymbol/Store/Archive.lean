import GoToSymbol.Store.Directory

namespace GoToSymbol.Store

/-- Reads all values of a list, or none. -/
def readAll {α : Type} (read : Value → Option α) : List Value → Option (List α)
  | [] => some []
  | v :: vs => do
    let a ← read v
    let as ← readAll read vs
    return a :: as

theorem readAll_map {α : Type} {read : Value → Option α} {write : α → Value}
    (h : ∀ a, read (write a) = some a) (as : List α) : readAll read (as.map write) = some as := by
  induction as with
  | nil => rfl
  | cons a as ih => simp [readAll, h, ih]

def writeText : Option String → Value
  | some s => .text s
  | none => .null

def readText : Value → Option (Option String)
  | .text s => some (some s)
  | .null => some none
  | _ => none

namespace Slot

def archive (s : Slot) : Value :=
  .list [writeText s.doc.fqn, writeText s.doc.file, writeText s.doc.tag, .float s.doc.boost,
    .int s.length, .bool s.deleted]

def ofArchive? : Value → Option Slot
  | .list [fqn, file, tag, .float boost, .int (.ofNat length), .bool deleted] => do
    return ⟨⟨← readText fqn, ← readText file, ← readText tag, boost⟩, length, deleted⟩
  | _ => none

theorem ofArchive?_archive (s : Slot) : ofArchive? s.archive = some s := by
  obtain ⟨⟨fqn, file, tag, boost⟩, length, deleted⟩ := s
  cases fqn <;> cases file <;> cases tag <;> rfl

end Slot

namespace Segment

def archive (s : Segment) : Value := .list [.int s.serial, .list (s.slots.map Slot.archive)]

def ofArchive? : Value → Option Segment
  | .list [.int (.ofNat serial), .list slots] => do
    return ⟨serial, ← readAll Slot.ofArchive? slots⟩
  | _ => none

theorem ofArchive?_archive (s : Segment) : ofArchive? s.archive = some s := by
  simp [archive, ofArchive?, readAll_map Slot.ofArchive?_archive]

end Segment

/-- A table of contents with its segments; an absent or a garbled one has no archive. -/
def Catalogue.archive? : Catalogue → Option Value
  | .sound generation segments =>
    some (.list [.int generation, .list (segments.map Segment.archive)])
  | .absent | .garbled => none

def Catalogue.ofArchive : Value → Catalogue
  | .list [.int (.ofNat generation), .list segments] =>
    match readAll Segment.ofArchive? segments with
    | some segments => .sound generation segments
    | none => .garbled
  | _ => .garbled

theorem Catalogue.ofArchive_archive {c : Catalogue} {v : Value} (h : c.archive? = some v) :
    ofArchive v = c := by
  cases c with
  | absent => simp [archive?] at h
  | garbled => simp [archive?] at h
  | sound generation segments =>
    simp only [archive?, Option.some.injEq] at h
    subst h
    simp [ofArchive, readAll_map Segment.ofArchive?_archive]

/-- A directory with a table of contents read from an archive. -/
def Directory.ofCatalogue (path : String) (c : Catalogue) : Directory :=
  let used := match c with
    | .sound _ segments => segments.foldl (fun n s => max n (s.serial + 1)) 0
    | .absent | .garbled => 0
  { (fresh path).setCatalogue c with segments := used }

end GoToSymbol.Store
