import GoToSymbol.Index.Service

namespace GoToSymbol

namespace Action

variable {σ α β : Type}

/-- From state `s` an action ends with the result `r` in state `s'`; what it logs is left out. -/
def Ends (t : Action σ α) (s : σ) (r : Except Failure α) (s' : σ) : Prop :=
  (t s).result = r ∧ (t s).state = s'

theorem ends_self (t : Action σ α) (s : σ) : Ends t s (t s).result (t s).state := ⟨rfl, rfl⟩

theorem Ends.unique {t : Action σ α} {s s₁ s₂ : σ} {r₁ r₂ : Except Failure α}
    (h₁ : Ends t s r₁ s₁) (h₂ : Ends t s r₂ s₂) : r₁ = r₂ ∧ s₁ = s₂ :=
  ⟨h₁.1.symm.trans h₂.1, h₁.2.symm.trans h₂.2⟩

@[simp] theorem ends_succeed {a : α} {s s' : σ} {r : Except Failure α} :
    Ends (succeed a) s r s' ↔ r = .ok a ∧ s' = s := by
  constructor
  · intro h
    obtain ⟨hr, hs⟩ := h
    exact ⟨hr.symm, hs.symm⟩
  · intro h
    obtain ⟨rfl, rfl⟩ := h
    exact ⟨rfl, rfl⟩

@[simp] theorem ends_pure {a : α} {s s' : σ} {r : Except Failure α} :
    Ends (pure a : Action σ α) s r s' ↔ r = .ok a ∧ s' = s := ends_succeed

@[simp] theorem ends_fail {f : Failure} {s s' : σ} {r : Except Failure α} :
    Ends (fail f : Action σ α) s r s' ↔ r = .error f ∧ s' = s := by
  constructor
  · intro h
    obtain ⟨hr, hs⟩ := h
    exact ⟨hr.symm, hs.symm⟩
  · intro h
    obtain ⟨rfl, rfl⟩ := h
    exact ⟨rfl, rfl⟩

@[simp] theorem ends_read {s s' : σ} {r : Except Failure σ} :
    Ends (read : Action σ σ) s r s' ↔ r = .ok s ∧ s' = s := ends_succeed

@[simp] theorem ends_update {g : σ → σ} {s s' : σ} {r : Except Failure Unit} :
    Ends (update g) s r s' ↔ r = .ok () ∧ s' = g s := by
  constructor
  · intro h
    obtain ⟨hr, hs⟩ := h
    exact ⟨hr.symm, hs.symm⟩
  · intro h
    obtain ⟨rfl, rfl⟩ := h
    exact ⟨rfl, rfl⟩

@[simp] theorem ends_log {e : Log.Event} {s s' : σ} {r : Except Failure Unit} :
    Ends (log e : Action σ Unit) s r s' ↔ r = .ok () ∧ s' = s := by
  constructor
  · intro h
    obtain ⟨hr, hs⟩ := h
    exact ⟨hr.symm, hs.symm⟩
  · intro h
    obtain ⟨rfl, rfl⟩ := h
    exact ⟨rfl, rfl⟩

@[simp] theorem ends_ofExcept {x : Except Failure α} {s s' : σ} {r : Except Failure α} :
    Ends (ofExcept x) s r s' ↔ r = x ∧ s' = s := by
  cases x with
  | ok a => exact ends_succeed
  | error f => exact ends_fail

/-- A sequence ends where its first part fails, or where its second part ends. -/
theorem ends_bind {t : Action σ α} {next : α → Action σ β} {s s' : σ} {r : Except Failure β} :
    Ends (t >>= next) s r s' ↔
      (∃ a m, Ends t s (.ok a) m ∧ Ends (next a) m r s') ∨
        ∃ f, Ends t s (.error f) s' ∧ r = .error f := by
  simp only [Bind.bind, Ends, andThen]
  cases h : (t s).result with
  | ok a =>
    constructor
    · intro he
      exact Or.inl ⟨a, (t s).state, ⟨rfl, rfl⟩, he⟩
    · intro h
      rcases h with ⟨b, m, ⟨hb, rfl⟩, he⟩ | ⟨f, ⟨hf, _⟩, _⟩
      · cases hb
        exact he
      · exact absurd hf (by simp)
  | error f =>
    constructor
    · intro h
      obtain ⟨rfl, hs⟩ := h
      exact Or.inr ⟨f, ⟨rfl, hs⟩, rfl⟩
    · intro h
      rcases h with ⟨b, m, ⟨hb, _⟩, _⟩ | ⟨g, ⟨hg, hs⟩, rfl⟩
      · exact absurd hb (by simp)
      · cases hg
        exact ⟨rfl, hs⟩

theorem ends_bind_ok {t : Action σ α} {next : α → Action σ β} {s s' : σ} {b : β} :
    Ends (t >>= next) s (.ok b) s' ↔ ∃ a m, Ends t s (.ok a) m ∧ Ends (next a) m (.ok b) s' := by
  simp [ends_bind]

@[simp] theorem ends_read_bind {next : σ → Action σ β} {s s' : σ} {r : Except Failure β} :
    Ends (read >>= next) s r s' ↔ Ends (next s) s r s' := Iff.rfl

@[simp] theorem ends_update_bind {g : σ → σ} {next : Unit → Action σ β} {s s' : σ}
    {r : Except Failure β} : Ends (update g >>= next) s r s' ↔ Ends (next ()) (g s) r s' := Iff.rfl

@[simp] theorem ends_log_bind {e : Log.Event} {next : Unit → Action σ β} {s s' : σ}
    {r : Except Failure β} : Ends (log e >>= next) s r s' ↔ Ends (next ()) s r s' := Iff.rfl

@[simp] theorem ends_ok_bind {a : α} {next : α → Action σ β} {s s' : σ} {r : Except Failure β} :
    Ends (ofExcept (.ok a) >>= next) s r s' ↔ Ends (next a) s r s' := Iff.rfl

@[simp] theorem ends_error_bind {f : Failure} {next : α → Action σ β} {s s' : σ}
    {r : Except Failure β} :
    Ends (ofExcept (.error f) >>= next) s r s' ↔ r = .error f ∧ s' = s := ends_fail

/-- What is done with a result does not touch the state. -/
theorem ends_bind_pure {t : Action σ α} {g : α → β} {s s' : σ} {r : Except Failure β} :
    Ends (t >>= fun a => pure (g a)) s r s' ↔ ∃ x, Ends t s x s' ∧ r = x.map g := by
  rw [ends_bind]
  constructor
  · intro h
    rcases h with ⟨a, m, ht, hg⟩ | ⟨f, ht, rfl⟩
    · obtain ⟨hr, rfl⟩ := ends_pure.mp hg
      exact ⟨.ok a, ht, hr⟩
    · exact ⟨.error f, ht, rfl⟩
  · intro h
    obtain ⟨x, ht, rfl⟩ := h
    cases x with
    | ok a => exact Or.inl ⟨a, s', ht, ends_pure.mpr ⟨rfl, rfl⟩⟩
    | error f => exact Or.inr ⟨f, ht, rfl⟩

theorem ends_bind_pure_ok {t : Action σ α} {g : α → β} {s s' : σ} {b : β} :
    Ends (t >>= fun a => pure (g a)) s (.ok b) s' ↔ ∃ a, Ends t s (.ok a) s' ∧ b = g a := by
  rw [ends_bind_ok]
  constructor
  · intro h
    obtain ⟨a, m, ht, hg⟩ := h
    obtain ⟨hb, rfl⟩ := ends_pure.mp hg
    cases hb
    exact ⟨a, ht, rfl⟩
  · intro h
    obtain ⟨a, ht, rfl⟩ := h
    exact ⟨a, s', ht, ends_pure.mpr ⟨rfl, rfl⟩⟩

/-- What is logged of a result does not change how an action ends. -/
theorem ends_bind_logged {t : Action σ α} {e : α → Log.Event} {s s' : σ} {r : Except Failure α} :
    Ends (t >>= fun a => log (e a) >>= fun _ => pure a) s r s' ↔ Ends t s r s' := by
  rw [ends_bind]
  constructor
  · intro h
    rcases h with ⟨a, m, ht, hlog⟩ | ⟨f, ht, rfl⟩
    · rw [ends_log_bind, ends_pure] at hlog
      rw [hlog.1, hlog.2]
      exact ht
    · exact ht
  · intro h
    cases r with
    | ok a => exact Or.inl ⟨a, s', h, ends_pure.mpr ⟨rfl, rfl⟩⟩
    | error f => exact Or.inr ⟨f, h, rfl⟩

theorem ends_bind_log {t : Action σ Unit} {e : Log.Event} {s s' : σ} {r : Except Failure Unit} :
    Ends (t >>= fun _ => log e) s r s' ↔ Ends t s r s' := by
  rw [ends_bind]
  constructor
  · intro h
    rcases h with ⟨a, m, ht, hlog⟩ | ⟨f, ht, rfl⟩
    · obtain ⟨rfl, rfl⟩ := ends_log.mp hlog
      exact ht
    · exact ht
  · intro h
    cases r with
    | ok a => exact Or.inl ⟨a, s', h, ends_log.mpr ⟨rfl, rfl⟩⟩
    | error f => exact Or.inr ⟨f, h, rfl⟩

theorem ends_rescue {t : Action σ α} {handler : Failure → Action σ α} {s s' : σ}
    {r : Except Failure α} :
    Ends (rescue t handler) s r s' ↔
      (∃ a, Ends t s (.ok a) s' ∧ r = .ok a) ∨
        ∃ f m, Ends t s (.error f) m ∧ Ends (handler f) m r s' := by
  simp only [Ends, rescue]
  cases h : (t s).result with
  | ok a =>
    constructor
    · intro h
      obtain ⟨rfl, hs⟩ := h
      exact Or.inl ⟨a, ⟨rfl, hs⟩, rfl⟩
    · intro h
      rcases h with ⟨b, ⟨hb, hs⟩, rfl⟩ | ⟨f, m, ⟨hf, _⟩, _⟩
      · cases hb
        exact ⟨rfl, hs⟩
      · exact absurd hf (by simp)
  | error f =>
    constructor
    · intro he
      exact Or.inr ⟨f, (t s).state, ⟨rfl, rfl⟩, he⟩
    · intro h
      rcases h with ⟨b, ⟨hb, _⟩, _⟩ | ⟨g, m, ⟨hg, rfl⟩, he⟩
      · exact absurd hb (by simp)
      · cases hg
        exact he

/-- What runs at the end runs in any case, and may hide how the rest ended. -/
theorem ends_ensure {t : Action σ α} {last : Action σ Unit} {s s' : σ} {r : Except Failure α} :
    Ends (ensure t last) s r s' ↔
      ∃ x m y, Ends t s x m ∧ Ends last m y s' ∧ r = y.bind fun _ => x := by
  constructor
  · intro h
    obtain ⟨hr, hs⟩ := h
    exact ⟨_, _, _, ends_self t s, ⟨rfl, hs⟩, hr.symm⟩
  · intro h
    obtain ⟨x, m, y, ⟨rfl, rfl⟩, ⟨rfl, rfl⟩, rfl⟩ := h
    exact ⟨rfl, rfl⟩

theorem ends_ensure_update {t : Action σ α} {g : σ → σ} {s s' : σ} {r : Except Failure α} :
    Ends (ensure t (update g)) s r s' ↔ ∃ m, Ends t s r m ∧ s' = g m := by
  simp only [Ends, ensure_update_result, ensure_update_state]
  constructor
  · intro h
    obtain ⟨hr, hs⟩ := h
    exact ⟨(t s).state, ⟨hr, rfl⟩, hs.symm⟩
  · intro h
    obtain ⟨m, ⟨hr, rfl⟩, rfl⟩ := h
    exact ⟨hr, rfl⟩

end Action

namespace Service

open GoToSymbol.Action

variable {σ α : Type}

/-- What a caller is told of a failure of the storage. -/
def told (operation : String) : Failure → Failure
  | .missing => .missing
  | .index e => .index e
  | f => .index (.operation operation f.text)

theorem ends_guarded {operation : String} {t : Action σ α} {s s' : σ} {r : Except Failure α} :
    Ends (guarded operation t) s r s' ↔
      (∃ a, Ends t s (.ok a) s' ∧ r = .ok a) ∨
        ∃ f, Ends t s (.error f) s' ∧ r = .error (told operation f) := by
  have handled (f : Failure) (m : σ) :
      Ends (match f with
        | .missing => fail .missing
        | .index e => fail (.index e)
        | f => do
          log ⟨.error, "Index operation failed",
            [("operation", .text operation), ("error", .text f.text)]⟩
          fail (.index (.operation operation f.text)) : Action σ α) m r s' ↔
        r = .error (told operation f) ∧ s' = m := by
    cases f <;> simp [told, ends_bind]
  rw [guarded, ends_rescue]
  refine or_congr Iff.rfl ?_
  constructor
  · intro h
    obtain ⟨f, m, hf, he⟩ := h
    obtain ⟨hr, rfl⟩ := (handled f m).1 he
    exact ⟨f, hf, hr⟩
  · intro h
    obtain ⟨f, hf, hr⟩ := h
    exact ⟨f, s', hf, (handled f s').2 ⟨hr, rfl⟩⟩

end Service

end GoToSymbol
