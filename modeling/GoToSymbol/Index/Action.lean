import GoToSymbol.Index.Failure
import GoToSymbol.Log.Event

namespace GoToSymbol

/-- What an action leaves behind: its result or failure, the state after it, and what it logged. -/
structure Outcome (σ α : Type) where
  result : Except Failure α
  state : σ
  events : List Log.Event

/-- A computation on a state; what it did before a failure stays done. -/
def Action (σ α : Type) : Type := σ → Outcome σ α

namespace Action

variable {σ α β : Type}

def succeed (a : α) : Action σ α := fun s => ⟨.ok a, s, []⟩

def fail (f : Failure) : Action σ α := fun s => ⟨.error f, s, []⟩

def andThen (t : Action σ α) (next : α → Action σ β) : Action σ β := fun s =>
  let o := t s
  match o.result with
  | .ok a =>
    let p := next a o.state
    { p with events := o.events ++ p.events }
  | .error f => ⟨.error f, o.state, o.events⟩

instance : Monad (Action σ) where
  pure := succeed
  bind := andThen

def read : Action σ σ := fun s => ⟨.ok s, s, []⟩

def update (f : σ → σ) : Action σ Unit := fun s => ⟨.ok (), f s, []⟩

def log (e : Log.Event) : Action σ Unit := fun s => ⟨.ok (), s, [e]⟩

def ofExcept : Except Failure α → Action σ α
  | .ok a => succeed a
  | .error f => fail f

/-- Runs `t`, and `handler` where `t` fails. -/
def rescue (t : Action σ α) (handler : Failure → Action σ α) : Action σ α := fun s =>
  let o := t s
  match o.result with
  | .ok a => ⟨.ok a, o.state, o.events⟩
  | .error f =>
    let p := handler f o.state
    { p with events := o.events ++ p.events }

/-- Runs `last` after `t`, whether `t` fails or not. A failure of `last` hides how `t` ended. -/
def ensure (t : Action σ α) (last : Action σ Unit) : Action σ α := fun s =>
  let o := t s
  let p := last o.state
  ⟨p.result.bind fun _ => o.result, p.state, o.events ++ p.events⟩

theorem andThen_assoc {γ : Type} (t : Action σ α) (f : α → Action σ β) (g : β → Action σ γ) :
    (t.andThen f).andThen g = t.andThen fun a => (f a).andThen g := by
  funext s
  simp only [andThen]
  cases (t s).result with
  | error e => rfl
  | ok a =>
    simp only
    cases (f a (t s).state).result with
    | error e => rfl
    | ok b => simp [List.append_assoc]

theorem ensure_update_result (t : Action σ α) (f : σ → σ) (s : σ) :
    (t.ensure (update f) s).result = (t s).result := rfl

theorem ensure_update_state (t : Action σ α) (f : σ → σ) (s : σ) :
    (t.ensure (update f) s).state = f (t s).state := rfl

end Action

end GoToSymbol
