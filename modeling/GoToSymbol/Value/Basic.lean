import GoToSymbol.Decimal.Notation

namespace GoToSymbol

/-- A value of a JSON document; the members of an object keep their order. -/
inductive Value where
  | null
  | bool (b : Bool)
  | int (n : Int)
  | float (x : Float)
  | text (s : String)
  | list (items : List Value)
  | object (members : List (String × Value))
deriving Inhabited

namespace Value

/-- Zero, emptiness, `null` and `false` are the values that count as false. -/
def isTruthy : Value → Bool
  | null => false
  | bool b => b
  | int n => n != 0
  | float x => x != 0.0
  | text s => !s.isEmpty
  | list items => !items.isEmpty
  | object members => !members.isEmpty

def text? : Value → Option String
  | text s => some s
  | _ => none

/-- A member of an object. -/
def get? (key : String) : List (String × Value) → Option Value
  | [] => none
  | (k, v) :: rest => if k = key then some v else get? key rest

/-- Sets a member: a present key keeps its place, a new one goes to the end. -/
def set (key : String) (value : Value) : List (String × Value) → List (String × Value)
  | [] => [(key, value)]
  | (k, v) :: rest => if k = key then (k, value) :: rest else (k, v) :: set key value rest

/-- The members read in order; of a repeated key the last value counts. -/
def ofPairs (pairs : List (String × Value)) : List (String × Value) :=
  pairs.foldl (fun members p => set p.1 p.2 members) []

theorem get?_set_of_ne {key other : String} (h : other ≠ key) (value : Value)
    (members : List (String × Value)) :
    get? other (set key value members) = get? other members := by
  induction members with
  | nil => simp [set, get?, Ne.symm h]
  | cons m rest ih =>
    obtain ⟨k, v⟩ := m
    by_cases hk : k = key
    · subst hk; simp [set, get?, Ne.symm h]
    · by_cases ho : k = other
      · subst ho; simp [set, get?, hk]
      · simp [set, get?, hk, ho, ih]

end Value

/-- What tells two scalar values apart: numbers count by their value, whatever their type. -/
inductive ScalarKey where
  | null
  | text (s : String)
  | number (q : Rat)
  | infinite (negative : Bool)
  | notANumber
deriving DecidableEq

namespace Value

/-- The key of a scalar; a list or an object has none. -/
def scalarKey? : Value → Option ScalarKey
  | null => some .null
  | bool b => some (.number (if b then 1 else 0))
  | int n => some (.number n)
  | float x =>
    match Decimal.Binary.ofFloat? x with
    | some b => some (.number b.toRat)
    | none => some (if x.isNaN then .notANumber else .infinite (x < 0.0))
  | text s => some (.text s)
  | list _ | object _ => none

def sameScalar (v w : Value) : Bool :=
  match v.scalarKey?, w.scalarKey? with
  | some a, some b => a == b
  | _, _ => false

mutual
/-- Equality of values: scalars by their key, lists item by item, objects member by member in any
order. -/
def same : Value → Value → Bool
  | list xs, list ys => sameItems xs ys
  | object xs, object ys => xs.length == ys.length && sameMembers xs ys
  | null, w => sameScalar null w
  | bool b, w => sameScalar (bool b) w
  | int n, w => sameScalar (int n) w
  | float x, w => sameScalar (float x) w
  | text s, w => sameScalar (text s) w
  | _, _ => false

def sameItems : List Value → List Value → Bool
  | [], [] => true
  | x :: xs, y :: ys => same x y && sameItems xs ys
  | _, _ => false

def sameMembers : List (String × Value) → List (String × Value) → Bool
  | [], _ => true
  | m :: ms, ys => sameMember m ys && sameMembers ms ys

def sameMember : String × Value → List (String × Value) → Bool
  | (k, v), ys =>
    match get? k ys with
    | some w => same v w
    | none => false
end

end Value

end GoToSymbol
