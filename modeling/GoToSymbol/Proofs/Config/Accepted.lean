import GoToSymbol.Config.Settings

namespace GoToSymbol

open Config

/-- The numbers of an index lie within their bounds. -/
structure IndexConfig.WithinBounds (c : IndexConfig) : Prop where
  stepPositive : 0.0 < c.policy.penaltyStep
  stepBelowOne : c.policy.penaltyStep < 1.0
  bonusNotNegative : 0.0 ≤ c.policy.priorityBonus
  resultsPositive : 0 < c.maxResults
  someWorkers : 1 ≤ c.workers

namespace Config

section Fields

variable {α β : Type} {v : Setting}

theorem of_bind_ok {ε : Type} {r : Except ε α} {f : α → Except ε β} {b : β}
    (h : (r >>= f) = .ok b) : ∃ a, r = .ok a ∧ f a = .ok b := by
  cases r with
  | error e => cases h
  | ok a => exact ⟨a, rfl, h⟩

theorem of_check_ok {c : Prop} [Decidable c] {e : Violation} {r : Except Violation α} {a : α}
    (h : (if c then .error e else r) = .ok a) : ¬ c ∧ r = .ok a := by
  split at h
  · cases h
  · next hc => exact ⟨hc, h⟩

theorem readFraction_bounds {x : Float} (h : readFraction v = .ok x) : 0.0 < x ∧ x < 1.0 := by
  obtain ⟨y, _, hy⟩ := of_bind_ok h
  obtain ⟨hbelow, hy⟩ := of_check_ok hy
  obtain ⟨habove, hy⟩ := of_check_ok hy
  cases hy
  exact ⟨by simpa using habove, by simpa using hbelow⟩

theorem readFraction_float {x : Float} (h : 0.0 < x) (h' : x < 1.0) :
    readFraction (.float x) = .ok x := by
  simp [readFraction, readNumber, h, h', Bind.bind, Except.bind]

theorem readNonNegative_bound {x : Float} (h : readNonNegative v = .ok x) : 0.0 ≤ x := by
  obtain ⟨y, _, hy⟩ := of_bind_ok h
  obtain ⟨hbound, hy⟩ := of_check_ok hy
  cases hy
  simpa using hbound

theorem readPositive_bound {n : Int} (h : readPositive v = .ok n) : 0 < n := by
  obtain ⟨m, _, hm⟩ := of_bind_ok h
  obtain ⟨hbound, hm⟩ := of_check_ok hm
  cases hm
  omega

theorem readAtLeastOne_bound {n : Int} (h : readAtLeastOne v = .ok n) : 1 ≤ n := by
  obtain ⟨m, _, hm⟩ := of_bind_ok h
  obtain ⟨hbound, hm⟩ := of_check_ok hm
  cases hm
  omega

/-- What holds of the default and of all that is read holds of a field. -/
theorem Source.field_ok {s : Source} {name : String} {default : α}
    {read : Setting → Except Violation α} {P : α → Prop} (hdefault : P default)
    (hread : ∀ v x, read v = .ok x → P x) {x : α}
    (h : (s.field name default read).toOption = some x) : P x := by
  unfold Source.field at h
  split at h
  · cases h
    exact hdefault
  · next v _ =>
    cases hv : read v with
    | error e =>
      rw [hv] at h
      cases h
    | ok y =>
      rw [hv] at h
      cases h
      exact hread v _ hv

theorem settle_ok {errors : List FieldError} {value : Option α} {a : α}
    (h : settle errors value = .ok a) : value = some a := by
  unfold settle at h
  split at h
  · cases h
    rfl
  · cases h

end Fields

end Config

namespace IndexConfig

theorem default_withinBounds : default.WithinBounds :=
  ⟨by decide +kernel, by decide +kernel, by decide +kernel, by decide, by decide⟩

/-- Settings that are read keep their bounds, whatever is given and whatever the environment says. -/
theorem read_withinBounds {env : Environment} {givens : Givens} {config : IndexConfig}
    (h : read env givens = .ok config) : config.WithinBounds := by
  have hdefault := default_withinBounds
  have hvalue := settle_ok h
  simp only [Option.bind_eq_bind, Option.bind_eq_some_iff] at hvalue
  obtain ⟨_, _, step, hstep, bonus, hbonus, results, hresults, workers, hworkers, hsame⟩ := hvalue
  cases hsame
  have hbounds : 0.0 < step ∧ step < 1.0 :=
    Source.field_ok (P := fun x => 0.0 < x ∧ x < 1.0) ⟨hdefault.stepPositive, hdefault.stepBelowOne⟩
      (fun _ _ => readFraction_bounds) hstep
  exact {
    stepPositive := hbounds.1
    stepBelowOne := hbounds.2
    bonusNotNegative := Source.field_ok hdefault.bonusNotNegative
      (fun _ _ => readNonNegative_bound) hbonus
    resultsPositive := Source.field_ok hdefault.resultsPositive (fun _ _ => readPositive_bound) hresults
    someWorkers := Source.field_ok hdefault.someWorkers (fun _ _ => readAtLeastOne_bound) hworkers }

/-- Every step between zero and one is accepted. -/
theorem read_step {x : Float} (h : 0.0 < x) (h' : x < 1.0) :
    read [] [("penalty_step", .float x)] =
      .ok { default with policy := { default.policy with penaltyStep := x } } := by
  have hstep : (source [] [("penalty_step", .float x)]).field "penalty_step"
      default.policy.penaltyStep readFraction = .ok x := by
    change (readFraction (.float x)).mapError _ = _
    rw [readFraction_float h h']
    rfl
  rw [read]
  simp only [hstep]
  rfl

end IndexConfig

end GoToSymbol
