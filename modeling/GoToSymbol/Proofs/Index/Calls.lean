import GoToSymbol.Proofs.Index.Stored
import GoToSymbol.Proofs.Store.Reading
import GoToSymbol.Proofs.Store.Writing

namespace GoToSymbol

open GoToSymbol.Action Store

/-- What a user can ask of a service. -/
inductive Call where
  | persist (symbols : List Submission) (publish prioritized : Bool)
  | remove (files : List File.Reference)
  | commit
  | reindex (files : List File.Reference) (symbols : List Submission) (prioritized : Bool)
  | searchClasses (text : String) (max : Option Int)
  | searchNames (terms : List String) (max : Option Int)
  | stats
  | shutdown

inductive Answer where
  | done
  | removed (count : Int)
  | found (entries : List Entry)
  | figures (members : List (String × Value))

namespace Call

/-- The calls that publish what was staged. -/
def isCommitPoint : Call → Bool
  | persist _ publish _ => publish
  | commit | reindex _ _ _ | shutdown => true
  | remove _ | searchClasses _ _ | searchNames _ _ | stats => false

/-- The calls that only look at what is committed. -/
def isReading : Call → Bool
  | searchClasses _ _ | searchNames _ _ | stats => true
  | persist _ _ _ | remove _ | commit | reindex _ _ _ | shutdown => false

/-- The symbols that a call hands over. -/
def symbols : Call → List Submission
  | persist symbols _ _ | reindex _ symbols _ => symbols
  | _ => []

/-- The files whose entries a call removes. -/
def removals : Call → List File.Reference
  | remove files | reindex files _ _ => files
  | _ => []

end Call

namespace Service

variable {σ : Type} (s : Service σ)

def perform : Call → Action σ Answer
  | .persist symbols publish prioritized => do
    let _ ← s.persist symbols publish prioritized
    return .done
  | .remove files => do return .removed (← s.remove files)
  | .commit => do
    let _ ← s.commit
    return .done
  | .reindex files symbols prioritized => do
    let _ ← s.reindex files symbols prioritized
    return .done
  | .searchClasses text max => do return .found (← s.searchClasses text max)
  | .searchNames terms max => do return .found (← s.searchClassesMethods terms max)
  | .stats => do return .figures (← s.stats)
  | .shutdown => do
    let _ ← s.shutdown
    return .done

/-- What the store keeps of the symbols that a call hands over. -/
def added : Call → List Stored
  | .persist symbols _ prioritized | .reindex _ symbols prioritized =>
    symbols.filterMap (·.stored? s.cwd s.config.policy prioritized)
  | _ => []

/-- The URIs of the files whose entries a call removes. -/
def removedUris (c : Call) : List String := c.removals.map (File.uri s.cwd)

/-- The calls made one after the other, each with its result, and the states they lead between. -/
inductive History : σ → List (Call × Except Failure Answer) → σ → Prop where
  | nil (st : σ) : History st [] st
  | cons {st m st' : σ} {c : Call} {r : Except Failure Answer}
      {rest : List (Call × Except Failure Answer)} (head : Ends (s.perform c) st r m)
      (tail : History m rest st') : History st ((c, r) :: rest) st'

variable {s}

theorem history_append {st st' : σ} {xs ys : List (Call × Except Failure Answer)} :
    s.History st (xs ++ ys) st' ↔ ∃ m, s.History st xs m ∧ s.History m ys st' := by
  constructor
  · intro h
    induction xs generalizing st with
    | nil => exact ⟨st, .nil st, h⟩
    | cons x xs ih =>
      cases h with
      | cons head tail =>
        obtain ⟨m, hxs, hys⟩ := ih tail
        exact ⟨m, .cons head hxs, hys⟩
  · intro h
    obtain ⟨m, hxs, hys⟩ := h
    induction hxs with
    | nil => exact hys
    | cons head _ ih => exact .cons head (ih hys)

theorem history_single {st st' : σ} {c : Call} {r : Except Failure Answer} :
    s.History st [(c, r)] st' ↔ Ends (s.perform c) st r st' := by
  constructor
  · intro h
    cases h with
    | cons head tail =>
      cases tail
      exact head
  · intro h
    exact .cons h (.nil st')

end Service

namespace Store

/-- The service on the storage of a directory. -/
def service (cwd : File.Path) (config : IndexConfig) : Service Session := ⟨cwd, engine, config⟩

/-- A service with the default policy that works in the root directory. -/
def sampleService : Service Session := service ⟨.single, []⟩ ⟨"/index", .default, 10, 1⟩

def sampleClass (file fqn : String) : Submission :=
  .symbol ⟨.classLike false false, ⟨file, .null⟩, fqn⟩

/-- The call that indexes the one class of a file. -/
def sampleCall : Call := .reindex [.text "/a.kt"] [sampleClass "/a.kt" "a.Bee"] false

/-- A new index to which one class was committed. -/
def sampleSession : Session :=
  (sampleService.perform sampleCall (Session.start (.fresh "/index"))).state

theorem history_sampleSession :
    sampleService.History (Session.start (.fresh "/index")) [(sampleCall, .ok .done)]
      sampleSession := .cons ⟨rfl, rfl⟩ (.nil _)

/-- The default limit leaves room for all that the sample holds. -/
theorem countP_sampleSession (p : Stored → Bool) :
    (sampleSession.directory.documents.countP p : Int) ≤ sampleService.limit none := by
  have hcount := List.countP_le_length (p := p) (l := sampleSession.directory.documents)
  have hone : sampleSession.directory.documents.length = 1 := rfl
  have hten : sampleService.limit none = 10 := rfl
  omega

end Store

end GoToSymbol
