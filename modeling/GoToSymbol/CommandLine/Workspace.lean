import GoToSymbol.File.Content
import GoToSymbol.Store.Directory

namespace GoToSymbol

namespace File

/-- A place in a file tree: the names from the root down. -/
abbrev Location : Type := List (List Char)

namespace Location

/-- The place one name further; two dots lead back. -/
def step (l : Location) (name : List Char) : Location :=
  if name = ['.', '.'] then l.dropLast else l ++ [name]

/-- The places that a path leads through, and the place where it ends. -/
def walk (l : Location) : List (List Char) → List Location × Location
  | [] => ([], l)
  | name :: names =>
    let r := walk (l.step name) names
    (l :: r.1, r.2)

end Location

end File

open File

/-- A file tree with indexes in it, seen from a current directory. -/
structure Workspace where
  cwd : Path
  files : List (Location × Content)
  directories : List Location
  indexes : List (Location × Store.Directory)

namespace Workspace

/-- What is found at a place; what lies above another place is a directory. -/
def contentAt (w : Workspace) (l : Location) : Content :=
  match w.files.lookup l with
  | some c => c
  | none =>
    if (w.cwd.components :: w.directories ++ w.files.map (·.1)).any l.isPrefixOf then .directory
    else .missing

def walk (w : Workspace) (p : Path) : List Location × Location :=
  Location.walk [] (w.cwd.join p).components

/-- Whether a path in text form asks for a directory. -/
def endsInSlash (s : List Char) : Bool :=
  let last := (Text.splitOn '/' s).getLast?
  last == some [] || last == some ['.']

/-- What a path in text form leads to. All that it leads through must be directories, and the empty
text leads nowhere. -/
def look (w : Workspace) (text : String) : Content :=
  let s := text.toList
  let (way, last) := w.walk (.ofText s)
  let found := w.contentAt last
  if s.isEmpty || way.any (w.contentAt · != .directory) || (endsInSlash s && found.isFile) then
    .missing
  else found

/-- The file of variables in the current directory. -/
def dotenv (w : Workspace) : Content := w.contentAt (w.walk (.ofText ".env".toList)).2

/-- Makes a directory with all that are above it. -/
def makeDirectory (w : Workspace) (p : Path) : Except Failure (Workspace × Location) :=
  let (way, last) := w.walk p
  if way.any fun l => (w.contentAt l).isFile then .error (.notADirectory (String.ofList p.text))
  else if (w.contentAt last).isFile then .error (.fileExists (String.ofList p.text))
  else .ok ({ w with directories := last :: way ++ w.directories }, last)

/-- The names of the files that lie directly at a place. -/
def namesAt (w : Workspace) (l : Location) : List String :=
  w.files.filterMap fun f =>
    if f.1.dropLast = l then f.1.getLast?.map String.ofList else none

/-- The index at a place, known by a path. A new one finds the files that lie there. -/
def indexAt (w : Workspace) (l : Location) (path : String) : Store.Directory :=
  match w.indexes.lookup l with
  | some d => { d with path := path }
  | none => (w.namesAt l).foldl (fun d name => d.writeFile name) (.fresh path)

def setIndex (l : Location) (d : Store.Directory) (w : Workspace) : Workspace :=
  { w with indexes := (l, d) :: w.indexes.filter (·.1 != l) }

theorem indexAt_setIndex (w : Workspace) (l : Location) (d : Store.Directory) (path : String) :
    (w.setIndex l d).indexAt l path = { d with path := path } := by
  simp [setIndex, indexAt]

end Workspace

end GoToSymbol
