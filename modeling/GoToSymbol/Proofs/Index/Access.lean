import GoToSymbol.Proofs.Index.Closing

namespace GoToSymbol.Store

open GoToSymbol.Action

/-- What an access asks of a storage with the states `σ` and the writers `ω`. Whatever is asked may
fail, at any time and for any reason, and may find the storage changed or deleted by others or leave it
half changed. Only whether it holds an index can always be told. -/
structure Medium (σ ω : Type) where
  hasIndex : σ → Bool
  /-- Opens the index, which is created where there is none. -/
  openIndex : Action σ Unit
  closeIndex : Action σ Unit
  startWriter : Action σ ω
  add : ω → Document → Action σ Unit
  /-- Marks what a query matches and counts what was marked. -/
  erase : ω → Query → Action σ Nat
  commit : ω → Action σ Unit
  cancel : ω → Action σ Unit
  search : Query → Int → Action σ (List Document)
  stats : Action σ (List (String × Value))

/-- What was asked of a storage concerning writers, and how it ended. -/
inductive Deed (σ ω : Type) where
  /-- A new writer was asked for while the storage was in this state. -/
  | asked (x : σ) (r : Except Failure ω)
  | committed (w : ω) (r : Except Failure Unit)
  | cancelled (w : ω) (r : Except Failure Unit)

/-- A storage with one access to it: whether its index is open, its writer if one is pending, and
whether the access was closed for good. No operation looks at the record of what was done. -/
structure Access (σ ω : Type) where
  storage : σ
  opened : Bool
  writer : Option ω
  closed : Bool
  record : List (Deed σ ω)

namespace Access

variable {σ ω α : Type}

def start (x : σ) : Access σ ω := ⟨x, false, none, false, []⟩

def setStorage (x : σ) (a : Access σ ω) : Access σ ω := { a with storage := x }

def setOpened (opened : Bool) (a : Access σ ω) : Access σ ω := { a with opened := opened }

def setWriter (w : Option ω) (a : Access σ ω) : Access σ ω := { a with writer := w }

def close (a : Access σ ω) : Access σ ω := { a with closed := true }

def note (d : Deed σ ω) (a : Access σ ω) : Access σ ω := { a with record := a.record ++ [d] }

/-- Something is asked of the storage that concerns no writer, or none but the pending one. -/
def ask (t : Action σ α) : Action (Access σ ω) α := fun a =>
  let o := t a.storage
  ⟨o.result, a.setStorage o.state, o.events⟩

/-- Something is asked of the storage and recorded. -/
def askNoting (deed : σ → Except Failure α → Deed σ ω) (t : Action σ α) :
    Action (Access σ ω) α := fun a =>
  let o := t a.storage
  ⟨o.result, (a.setStorage o.state).note (deed a.storage o.result), o.events⟩

theorem ends_ask {t : Action σ α} {a a' : Access σ ω} {r : Except Failure α} :
    Ends (ask t) a r a' ↔ ∃ x, Ends t a.storage r x ∧ a' = a.setStorage x := by
  constructor
  · intro h
    obtain ⟨hr, rfl⟩ := h
    exact ⟨_, ⟨hr, rfl⟩, rfl⟩
  · intro h
    obtain ⟨x, ⟨hr, rfl⟩, rfl⟩ := h
    exact ⟨hr, rfl⟩

theorem ends_askNoting {deed : σ → Except Failure α → Deed σ ω} {t : Action σ α}
    {a a' : Access σ ω} {r : Except Failure α} :
    Ends (askNoting deed t) a r a' ↔
      ∃ x, Ends t a.storage r x ∧ a' = (a.setStorage x).note (deed a.storage r) := by
  constructor
  · intro h
    obtain ⟨rfl, rfl⟩ := h
    exact ⟨_, ⟨rfl, rfl⟩, rfl⟩
  · intro h
    obtain ⟨x, ⟨rfl, rfl⟩, rfl⟩ := h
    exact ⟨rfl, rfl⟩

/-- Refuses an action by way of an access that was closed. -/
def whileOpen (t : Action (Access σ ω) α) : Action (Access σ ω) α := do
  let a ← read
  if a.closed then fail .stopped else t

/-- Closes an access for good, also where what is to be done before fails. -/
def closeAfter (t : Action (Access σ ω) Unit) : Action (Access σ ω) Unit := do
  let a ← read
  if a.closed then return else ensure t (update close)

theorem ends_whileOpen {t : Action (Access σ ω) α} {a a' : Access σ ω} {r : Except Failure α} :
    Ends (whileOpen t) a r a' ↔
      (a.closed = true ∧ r = .error .stopped ∧ a' = a) ∨ (a.closed = false ∧ Ends t a r a') := by
  unfold whileOpen
  rw [ends_read_bind]
  cases a.closed <;> simp

end Access

namespace Medium

open Access

variable {σ ω : Type} (m : Medium σ ω)

def useIndex : Action (Access σ ω) Unit := do
  let a ← read
  if a.opened then return
  else do
    ask m.openIndex
    update (setOpened true)

/-- The pending writer, or a new one. -/
def useWriter : Action (Access σ ω) ω := do
  let a ← read
  match a.writer with
  | some w => return w
  | none => do
    m.useIndex
    let w ← askNoting .asked m.startWriter
    update (setWriter (some w))
    return w

/-- Cancels a writer. That this fails is worth a warning and no more. -/
def giveUp (w : ω) : Action (Access σ ω) Unit :=
  rescue (askNoting (fun _ => .cancelled w) (m.cancel w)) fun _ =>
    log ⟨.warning, "Could not cancel index writer", []⟩

/-- Gives up the pending writer and lets go of the index, which is gone. -/
def abandon : Action (Access σ ω) Unit := do
  let a ← read
  match a.writer with
  | none => update (setOpened false)
  | some w => do
    update (setWriter none)
    m.giveUp w
    update (setOpened false)

/-- Commits a writer, which is given up if this fails. -/
def publish (w : ω) : Action (Access σ ω) Unit :=
  rescue (askNoting (fun _ => .committed w) (m.commit w)) fun f => do
    m.giveUp w
    fail f

/-- Publishes what is pending. Where the index is gone, nothing is kept of it. -/
def flush : Action (Access σ ω) Unit := do
  let a ← read
  if a.writer.isNone && !a.opened then return
  else if m.hasIndex a.storage then
    match a.writer with
    | none => return
    | some w => do
      update (setWriter none)
      m.publish w
  else do
    m.abandon
    fail .missing

def addAll (w : ω) : List Document → Action (Access σ ω) Unit
  | [] => succeed ()
  | d :: ds => do
    ask (m.add w d)
    addAll w ds

def put (documents : List Document) (commit : Bool) : Action (Access σ ω) Unit := do
  let w ← m.useWriter
  m.addAll w documents
  if commit then m.flush

def eraseAll (w : ω) : List Query → Action (Access σ ω) Nat
  | [] => succeed 0
  | q :: qs => do
    let n ← ask (m.erase w q)
    let k ← eraseAll w qs
    return n + k

def delete (queries : List Query) (commit : Bool) : Action (Access σ ω) Nat := do
  let w ← m.useWriter
  let n ← m.eraseAll w queries
  if commit then m.flush
  return n

def find (q : Query) (limit : Int) : Action (Access σ ω) (List Document) :=
  if limit < 1 then succeed []
  else do
    m.useIndex
    ask (m.search q limit)

def figures : Action (Access σ ω) (List (String × Value)) := do
  m.useIndex
  ask m.stats

def letGo : Action (Access σ ω) Unit := do
  let a ← read
  if a.opened then do
    ask m.closeIndex
    update (setOpened false)
  else return

/-- Publishes what is pending and lets go of the index. -/
def release : Action (Access σ ω) Unit := do
  let a ← read
  if a.writer.isSome then do
    m.flush
    m.letGo
  else m.letGo

/-- Releases the index by way of the workers, who refuse it once they are stopped. -/
def shutdown : Action (Access σ ω) Unit := closeAfter (whileOpen m.release)

/-- Releases the index without the workers. -/
def close : Action (Access σ ω) Unit := closeAfter m.release

/-- The storage as an engine of a service. -/
def engine : Engine (Access σ ω) where
  put documents commit := whileOpen (m.put documents commit)
  delete queries commit := whileOpen do
    let n ← m.delete queries commit
    return (n : Int)
  commit := whileOpen m.flush
  search q limit := whileOpen (m.find q limit)
  shutdown := m.shutdown
  stats := whileOpen m.figures

def run : Operation → Action (Access σ ω) Unit
  | .request q => m.engine.perform q
  | .search q limit => do
    let _ ← m.engine.search q limit
    return ()
  | .stats => do
    let _ ← m.engine.stats
    return ()
  | .shutdown => m.engine.shutdown
  | .close => m.close

end Medium

/-- What happens to an access: an operation, or a change that somebody else makes to the storage. -/
inductive Turn (σ : Type) where
  | operation (o : Operation)
  | meanwhile (change : σ → σ)

namespace Medium

variable {σ ω : Type} (m : Medium σ ω)

def take (a : Access σ ω) : Turn σ → Access σ ω
  | .operation o => (m.run o a).state
  | .meanwhile change => a.setStorage (change a.storage)

/-- The access after some turns, whether the operations succeed or fail. -/
def after (a : Access σ ω) (turns : List (Turn σ)) : Access σ ω := turns.foldl m.take a

end Medium

end GoToSymbol.Store
