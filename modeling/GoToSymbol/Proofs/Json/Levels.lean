import GoToSymbol.Json.Reader

namespace GoToSymbol.Json

/-- What a reading comes to unless it goes too deep, another reading comes to as well. -/
def Follows {α : Type} (x y : Except ReadError α) : Prop := x ≠ .error .tooDeep → y = x

namespace Follows

variable {α β : Type} {x y : Except ReadError α}

theorem refl (x : Except ReadError α) : Follows x x := fun _ => rfl

theorem bind {f g : α → Except ReadError β} (h : Follows x y) (hf : ∀ a, Follows (f a) (g a)) :
    Follows (x >>= f) (y >>= g) := by
  intro hne
  cases x with
  | error e =>
    have hy : y = .error e := h fun he => hne (by rw [Except.error.inj he]; rfl)
    rw [hy]
    rfl
  | ok a =>
    have hy : y = .ok a := h (by simp)
    rw [hy]
    exact hf a hne

theorem map (h : Follows x y) (f : α → β) : Follows (x.map f) (y.map f) := by
  intro hne
  cases x with
  | error e =>
    have hy : y = .error e := h fun he => hne (by rw [Except.error.inj he]; rfl)
    rw [hy]
  | ok a =>
    have hy : y = .ok a := h (by simp)
    rw [hy]

/-- A reading with no limit goes in wherever another one does. -/
theorem enter (n : Nat) (h : Follows x y) :
    Follows (if some n = some 0 then .error .tooDeep else x)
      (if none = some 0 then .error .tooDeep else y) := by
  intro hne
  rw [if_neg (by simp)]
  split at hne
  · exact absurd rfl hne
  · next hn =>
    rw [if_neg hn]
    exact h hne

end Follows

/-- With this fuel no limit changes what is read, as long as it is not met. -/
structure Unlimited (fuel : Nat) : Prop where
  value : ∀ n s, Follows (readValue (some n) fuel s) (readValue none fuel s)
  items : ∀ n done s, Follows (readItems (some n) fuel done s) (readItems none fuel done s)
  members : ∀ n done s, Follows (readMembers (some n) fuel done s) (readMembers none fuel done s)

theorem unlimited_zero : Unlimited 0 where
  value n s := by
    simp only [readValue]
    exact .refl _
  items n done s := by
    simp only [readItems]
    exact .refl _
  members n done s := by
    simp only [readMembers]
    exact .refl _

theorem Unlimited.succ {fuel : Nat} (ih : Unlimited fuel) : Unlimited (fuel + 1) where
  value n s := by
    simp only [readValue]
    split
    · exact .refl _
    · refine .enter n ?_
      split
      · exact .refl _
      · exact (ih.items _ _ _).map _
    · refine .enter n ?_
      split
      · exact .refl _
      · exact (ih.members _ _ _).map _
    · exact .refl _
  items n done s := by
    simp only [readItems]
    refine (ih.value n s).bind fun a => ?_
    split
    · exact ih.items n _ _
    · exact .refl _
    · exact .refl _
  members n done s := by
    simp only [readMembers]
    split
    · refine (Follows.refl _).bind fun a => ?_
      split
      · refine (ih.value n _).bind fun b => ?_
        split
        · exact ih.members n _ _
        · exact .refl _
        · exact .refl _
      · exact .refl _
    · exact .refl _

theorem unlimited (fuel : Nat) : Unlimited fuel := by
  induction fuel with
  | zero => exact unlimited_zero
  | succ fuel ih => exact ih.succ

/-- A text that does not nest too deep is read as it is without a limit. -/
theorem follows_read (n : Nat) (s : List Char) : Follows (read (some n) s) (read none s) :=
  ((unlimited _).value n _).bind fun _ => .refl _

end GoToSymbol.Json
