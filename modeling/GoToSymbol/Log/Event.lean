import GoToSymbol.Value.Basic

namespace GoToSymbol.Log

/-- How much a log line matters. -/
inductive Level where
  | debug
  | info
  | warning
  | error
  | critical
deriving Repr, DecidableEq

def Level.name : Level → String
  | debug => "debug"
  | info => "info"
  | warning => "warning"
  | error => "error"
  | critical => "critical"

def Level.rank : Level → Nat
  | debug => 10
  | info => 20
  | warning => 30
  | error => 40
  | critical => 50

/-- Something worth a log line: what happened, and the values that go with it. -/
structure Event where
  level : Level
  event : String
  fields : List (String × Value)

end GoToSymbol.Log
