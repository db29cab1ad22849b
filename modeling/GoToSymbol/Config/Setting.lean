import GoToSymbol.Value.Basic

namespace GoToSymbol

/-- A setting as it is given, before it is checked. A mapping may have keys that are no texts; they
are not told apart. -/
inductive Setting where
  | null
  | bool (b : Bool)
  | int (n : Int)
  | float (x : Float)
  | text (s : String)
  | date
  | list (items : List Setting)
  | mapping (members : List (Option String × Setting))
deriving Inhabited

namespace Setting

mutual
def ofValue : Value → Setting
  | .null => .null
  | .bool b => .bool b
  | .int n => .int n
  | .float x => .float x
  | .text s => .text s
  | .list items => .list (ofItems items)
  | .object members => .mapping (ofMembers members)

def ofItems : List Value → List Setting
  | [] => []
  | v :: vs => ofValue v :: ofItems vs

def ofMembers : List (String × Value) → List (Option String × Setting)
  | [] => []
  | m :: ms => ofMember m :: ofMembers ms

def ofMember : String × Value → Option String × Setting
  | (k, v) => (some k, ofValue v)
end

/-- Zero, emptiness, `null` and `false` stand for nothing at all. -/
def isTruthy : Setting → Bool
  | null => false
  | bool b => b
  | int n => n != 0
  | float x => x != 0.0
  | text s => !s.isEmpty
  | date => true
  | list items => !items.isEmpty
  | mapping members => !members.isEmpty

/-- The members of a mapping; what stands for nothing has none. -/
def topMembers? (s : Setting) : Option (List (Option String × Setting)) :=
  match s.isTruthy, s with
  | false, _ => some []
  | true, mapping members => some members
  | true, _ => none

end Setting

/-- Settings by name. -/
abbrev Givens : Type := List (String × Setting)

namespace Givens

def get? (name : String) : Givens → Option Setting
  | [] => none
  | (k, v) :: rest => if k = name then some v else get? name rest

/-- Sets a name: one that is there keeps its place, a new one goes to the end. -/
def set (name : String) (value : Setting) : Givens → Givens
  | [] => [(name, value)]
  | (k, v) :: rest => if k = name then (k, value) :: rest else (k, v) :: set name value rest

/-- Both together; where a name stands in both, the second value counts. -/
def merge (base top : Givens) : Givens := top.foldl (fun g m => set m.1 m.2 g) base

/-- The members of a mapping whose keys are all texts. -/
def ofMembers? : List (Option String × Setting) → Option Givens
  | [] => some []
  | (some k, v) :: rest => (ofMembers? rest).map ((k, v) :: ·)
  | (none, _) :: _ => none

end Givens

end GoToSymbol
