import GoToSymbol.Decimal.Binary

namespace GoToSymbol.Relevance

/-- The number of `$` in a name, without one that ends it. -/
def nestedDepth (name : List Char) : Nat :=
  name.count '$' - if name.getLast? = some '$' then 1 else 0

/-- Why a step gives no penalty. -/
inductive StepError where
  | zero
  | tooSmall
  | notANumber
deriving Repr, DecidableEq

def StepError.message : StepError → String
  | .zero => "float division by zero"
  | .tooSmall => "cannot convert float infinity to integer"
  | .notANumber => "cannot convert float NaN to integer"

/-- The arithmetic a penalty is computed in. -/
structure Arithmetic (α : Type) where
  ofInt : Int → α
  sub : α → α → α
  mul : α → α → α
  isPositive : α → Bool
  /-- One half to the given power. -/
  halfPower : Nat → α
  /-- The least integer not below the reciprocal. -/
  ceilInverse : α → Except StepError Int

namespace Arithmetic

variable {α : Type} (A : Arithmetic α)

/-- What is left of one after `level` steps. -/
def linear (step : α) (level : Int) : α := A.sub (A.ofInt 1) (A.mul step (A.ofInt level))

/-- The largest level up to `n` that leaves something, and zero if none does. -/
def lastPositive (step : α) : Nat → Nat
  | 0 => 0
  | n + 1 => if A.isPositive (A.linear step (n + 1 : Nat)) then n + 1 else lastPositive step n

/-- The deepest level the linear rule still covers. -/
def lastLinear (step : α) : Except StepError Int := do
  let n := (← A.ceilInverse step) - 1
  return if n ≤ 0 then n else A.lastPositive step n.toNat

/-- One step is taken off per level as long as something is left; beyond that every level halves
the rest. -/
def penalty (step : α) (depth : Nat) : Except StepError α := do
  let last ← A.lastLinear step
  return if (depth : Int) ≤ last then A.linear step depth
    else A.mul (A.linear step last) (A.halfPower ((depth : Int) - last).toNat)

theorem linear_lastPositive (step : α) (n : Nat) :
    A.lastPositive step n = 0 ∨ A.isPositive (A.linear step (A.lastPositive step n)) = true := by
  induction n with
  | zero => exact Or.inl rfl
  | succ n ih =>
    simp only [lastPositive]
    split
    · next h => exact Or.inr h
    · exact ih

end Arithmetic

/-- One half to a power; beyond 1100 halvings nothing is left of it. -/
def halfPowerFloat : Nat → Float
  | 0 => 1.0
  | n + 1 => 0.5 * halfPowerFloat n

/-- Arithmetic in binary64. -/
def binary64 : Arithmetic Float where
  ofInt := Decimal.floatOfInt
  sub := (· - ·)
  mul := (· * ·)
  isPositive x := !(x ≤ 0.0)
  halfPower n := halfPowerFloat (min n 1100)
  ceilInverse step :=
    if step == 0.0 then .error .zero
    else
      let inverse := 1.0 / step
      match Decimal.Binary.ofFloat? inverse with
      | some b => .ok b.ceil
      | none => .error (if inverse.isNaN then .notANumber else .tooSmall)

/-- Arithmetic in exact fractions. -/
def exact : Arithmetic Rat where
  ofInt n := n
  sub := (· - ·)
  mul := (· * ·)
  isPositive x := 0 < x
  halfPower n := (1 / 2) ^ n
  ceilInverse step := if step = 0 then .error .zero else .ok (1 / step).ceil

/-- The two numbers a boost is computed from. -/
structure Policy where
  penaltyStep : Float
  priorityBonus : Float

def Policy.default : Policy := ⟨0.25, 0.25⟩

def penalty (step : Float) (name : List Char) : Except StepError Float :=
  binary64.penalty step (nestedDepth name)

/-- The boost of a name: its penalty, and the bonus on top if it is prioritized. -/
def boost (policy : Policy) (prioritized : Bool) (name : List Char) : Except StepError Float := do
  let p ← penalty policy.penaltyStep name
  return if prioritized then p + policy.priorityBonus else p

example : nestedDepth "a$b$".toList = 1 := by decide

end GoToSymbol.Relevance
