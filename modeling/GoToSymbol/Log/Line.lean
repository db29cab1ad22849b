import GoToSymbol.Decimal.Rounding
import GoToSymbol.Log.Event
import GoToSymbol.Log.Template

namespace GoToSymbol.Log

/-- How a log is kept. -/
structure Options where
  level : String
  json : Bool
  performance : Bool

def Options.default : Options := ⟨"INFO", true, true⟩

/-- The capital of a letter, where it is an ASCII one; two letters beside the ASCII ones have such a
capital. -/
def asciiCapital (c : Char) : Char :=
  if 'a' ≤ c ∧ c ≤ 'z' then Char.ofNat (c.toNat - 32)
  else if c = 'ı' then 'I'
  else if c = 'ſ' then 'S'
  else c

def upperAscii (s : String) : String := String.ofList (s.toList.map asciiCapital)

/-- The names of the thresholds. -/
def thresholds : List (String × Nat) := [
  ("NOTSET", 0), ("DEBUG", 10), ("INFO", 20), ("WARN", 30), ("WARNING", 30), ("ERROR", 40),
  ("CRITICAL", 50), ("FATAL", 50)]

/-- The rank from which events are kept; an unknown name stands for the rank of information. -/
def threshold (level : String) : Nat := (thresholds.lookup (upperAscii level)).getD 20

/-- Whether a name can stand for a threshold. A few stand for something else, and any other for the
one that is usual. -/
def canBeLevel (name : String) : Bool :=
  !(["BASIC_FORMAT", "_STYLES"].contains (upperAscii name))

def Options.keeps (o : Options) (e : Event) : Bool := threshold o.level ≤ e.level.rank

/-- A duration to three decimal places; an integer is exact. -/
def roundDuration : Value → Value
  | .float x => .float (Decimal.roundPlaces 3 x)
  | v => v

/-- The event of a measured operation. -/
def performance (operation : String) (duration : Value) (context : List (String × Value)) : Event :=
  ⟨.debug, "Performance metric", [("operation", .text operation),
    ("duration_ms", roundDuration duration), ("metric_type", .text "performance")] ++ context⟩

/-- An event with the logger that it comes from. -/
structure Line where
  logger : String
  event : Event

namespace Line

/-- The members of a line in JSON. -/
def members (l : Line) : List (String × Value) :=
  Value.ofPairs (l.event.fields ++ [("event", .text l.event.event), ("logger", .text l.logger),
    ("level", .text l.event.level.name)])

def padTo (width : Nat) (s : String) : String :=
  s ++ String.ofList (List.replicate (width - s.length) ' ')

/-- Characters that put a text between quotes. -/
def needsQuotes (c : Char) : Bool :=
  [' ', '\t', '=', '\r', '\n', '\x22', '\x27'].contains c

def consoleValue : Value → String
  | .text s => if s.toList.any needsQuotes then Text.quoted s else s
  | v => v.literal

def insertMember (m : String × Value) : List (String × Value) → List (String × Value)
  | [] => [m]
  | n :: ns => if m.1 ≤ n.1 then m :: n :: ns else n :: insertMember m ns

/-- The members by name. -/
def sortMembers (members : List (String × Value)) : List (String × Value) :=
  members.foldr insertMember []

def consoleMember (m : String × Value) : String := " " ++ m.1 ++ "=" ++ consoleValue m.2

def dropTrailingBlanks (s : String) : String :=
  String.ofList ((s.toList.reverse.dropWhile (· == ' ')).reverse)

/-- A line for the console, without its time. -/
def console (l : Line) : String :=
  let own := ["event", "logger", "level"]
  let others := (Value.ofPairs l.event.fields).filter fun m => !own.contains m.1
  dropTrailingBlanks ("[" ++ padTo 9 l.event.level.name ++ "] " ++ padTo 30 l.event.event ++ " ["
    ++ l.logger ++ "]" ++ String.join ((sortMembers others).map consoleMember))

end Line

example : (Line.console ⟨"t", .warning, "w", [("b", .int 1), ("a", .text "x y")]⟩)
    = "[warning  ] w                              [t] a='x y' b=1" := by decide +kernel

end GoToSymbol.Log
