import GoToSymbol.Config.Settings
import GoToSymbol.Index.Engine

namespace GoToSymbol

open GoToSymbol.Action

/-- What is handed over to be indexed: a symbol, or a value that is none. -/
inductive Submission where
  | symbol (s : Symbol)
  | unsupported (v : Value)

def Submission.entry : Submission → Except Failure (Option Entry)
  | symbol s => .ok (Entry.ofSymbol? s)
  | unsupported v => .error (.unsupported v)

/-- An index of symbols on a storage: where relative paths start, the storage, and the settings. -/
structure Service (σ : Type) where
  cwd : File.Path
  engine : Engine σ
  config : IndexConfig

namespace Service

variable {σ : Type}

/-- The document of an entry, its name boosted. -/
def boostedDocument (cwd : File.Path) (policy : Relevance.Policy) (prioritized : Bool) (e : Entry) :
    Except Failure Document := do
  let d ← e.toDocument cwd
  let b ← (Relevance.boost policy prioritized e.fqn.plain.toList).mapError .step
  d.setBoost fqnField b

/-- The documents of what is handed over, in order; what is not worth an entry has none. -/
def buildDocuments (cwd : File.Path) (policy : Relevance.Policy) (prioritized : Bool) :
    List Submission → Except Failure (List Document)
  | [] => .ok []
  | s :: rest => do
    match ← s.entry with
    | none => buildDocuments cwd policy prioritized rest
    | some e => do
      let d ← boostedDocument cwd policy prioritized e
      let ds ← buildDocuments cwd policy prioritized rest
      return d :: ds

/-- Runs an operation of the storage. A missing file and an error of the index pass; any other
failure is logged and told as a failed operation. -/
def guarded {α : Type} (operation : String) (t : Action σ α) : Action σ α :=
  rescue t fun f =>
    match f with
    | .missing => fail .missing
    | .index e => fail (.index e)
    | f => do
      log ⟨.error, "Index operation failed", [("operation", .text operation), ("error", .text f.text)]⟩
      fail (.index (.operation operation f.text))

variable (s : Service σ)

/-- Publishes what is staged. That the files are gone is logged and else passed over. -/
def commit : Action σ Unit :=
  rescue (guarded "commit" s.engine.commit) fun f =>
    match f with
    | .missing => log ⟨.error, "The symbol index database was deleted", []⟩
    | f => fail f

def documentsOf (prioritized : Bool) (symbols : List Submission) : Except Failure (List Document) :=
  buildDocuments s.cwd s.config.policy prioritized symbols

/-- Indexes symbols, and publishes them if asked to. -/
def persist (symbols : List Submission) (publish prioritized : Bool) : Action σ Unit := do
  let documents ← ofExcept (s.documentsOf prioritized symbols)
  if documents.isEmpty then
    if publish then s.commit else succeed ()
  else do
    guarded "put" (s.engine.put documents publish)
    log ⟨.info, "Persisted symbols", [("symbols", .int symbols.length),
      ("documents", .int documents.length), ("commit", .bool publish), ("boost", .bool prioritized)]⟩

/-- Stages the deletion of all entries of some files and counts them. -/
def remove (files : List File.Reference) : Action σ Int :=
  if files.isEmpty then succeed 0
  else do
    let queries := files.map fun f => Query.forFile (File.uri s.cwd f)
    let deleted ← guarded "delete" (s.engine.delete queries false)
    log ⟨.info, "Removed file entries", [("files", .int files.length), ("deleted", .int deleted)]⟩
    return deleted

/-- Replaces the entries of some files. -/
def reindex (files : List File.Reference) (symbols : List Submission) (prioritized : Bool) :
    Action σ Unit := do
  let _ ← s.remove files
  s.persist symbols true prioritized

/-- The first results; a negative limit leaves out as many at the end. -/
def firstResults {α : Type} (limit : Int) (xs : List α) : List α :=
  if 0 ≤ limit then xs.take limit.toNat else xs.take (xs.length - limit.natAbs)

def limit (max : Option Int) : Int := max.getD s.config.maxResults

/-- The distinct entries that a query finds. -/
def find (q : Query) (limit : Int) : Action σ (List Entry) := do
  let documents ← guarded "search" (s.engine.search q limit)
  let entries ← ofExcept (documents.mapM Entry.ofDocument)
  return firstResults limit (Entry.distinct entries)

/-- Finds classes by name. -/
def searchClasses (text : String) (max : Option Int) : Action σ (List Entry) :=
  s.find (.forClass text) (s.limit max)

/-- Finds classes and methods by any of some names. -/
def searchClassesMethods (terms : List String) (max : Option Int) : Action σ (List Entry) :=
  if terms.isEmpty then succeed [] else s.find (.forTerms terms) (s.limit max)

def stats : Action σ (List (String × Value)) := guarded "stats" s.engine.stats

def shutdown : Action σ Unit := guarded "shutdown" s.engine.shutdown

end Service

end GoToSymbol
