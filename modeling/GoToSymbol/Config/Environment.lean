import GoToSymbol.Config.Field

namespace GoToSymbol.Config

/-- The variables of an environment. Their names are compared without regard to case. -/
abbrev Environment : Type := List (String × String)

namespace Environment

def foldCase (name : String) : String := String.ofList (Text.lower name.toList)

/-- The value of a variable; of several spellings the last one counts. -/
def get? (env : Environment) (name : String) : Option String :=
  ((env.filter fun v => foldCase v.1 == name).getLast?).map (·.2)

end Environment

/-- Where the values of a section come from: what is given, and the variables whose names begin with
the section's stem. -/
structure Source where
  givens : Givens
  environment : Environment
  stem : String

namespace Source

/-- The value of a field: what is given counts before the environment. -/
def value? (s : Source) (name : String) : Option Setting :=
  match s.givens.get? name with
  | some v => some v
  | none => (s.environment.get? (s.stem ++ name)).map .text

/-- Reads a field, which has a default. -/
def field {α : Type} (s : Source) (name : String) (default : α)
    (read : Setting → Except Violation α) : Except (List FieldError) α :=
  match s.value? name with
  | none => .ok default
  | some v => (read v).mapError fun e => [⟨[name], e⟩]

/-- The errors for names that are no fields. -/
def unknown (s : Source) (names : List String) : List FieldError :=
  (s.givens.filter fun g => !names.contains g.1).map fun g => ⟨[g.1], .unknownName⟩

end Source

/-- The errors of a reading. -/
def errorsOf {α : Type} : Except (List FieldError) α → List FieldError
  | .ok _ => []
  | .error es => es

/-- A value, unless there are errors; it must be there if there are none. -/
def settle {α : Type} (errors : List FieldError) (value : Option α) : Except (List FieldError) α :=
  match errors, value with
  | [], some a => .ok a
  | es, _ => .error es

end GoToSymbol.Config
