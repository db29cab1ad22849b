import GoToSymbol.Proofs.Index.Keeping
import GoToSymbol.Proofs.Index.Site

namespace GoToSymbol.Store

open GoToSymbol.Action

variable {σ ω α : Type}

/-- No writer comes to hold the lock by this. -/
def Harmless (holds : σ → ω → Prop) (t : Action σ α) : Prop :=
  ∀ w, Keeps (fun x => ¬ holds x w) t

/-- A writer comes to hold the lock only as it is started. It gives the lock back as it is committed
or cancelled; a commit that fails may leave it the lock. -/
structure Medium.Locks (m : Medium σ ω) (holds : σ → ω → Prop) : Prop where
  openIndex : Harmless holds m.openIndex
  closeIndex : Harmless holds m.closeIndex
  startWriter : ∀ {x r x'}, Ends m.startWriter x r x' → ∀ w, holds x' w → holds x w ∨ r = .ok w
  add : ∀ w d, Harmless holds (m.add w d)
  erase : ∀ w q, Harmless holds (m.erase w q)
  commit : ∀ w, Harmless holds (m.commit w)
  committed : ∀ {w x x'}, Ends (m.commit w) x (.ok ()) x' → ¬ holds x' w
  cancel : ∀ w, Harmless holds (m.cancel w)
  cancelled : ∀ {w x r x'}, Ends (m.cancel w) x r x' → ¬ holds x' w
  search : ∀ q limit, Harmless holds (m.search q limit)
  stats : Harmless holds m.stats

/-- Nobody else makes a writer of the access hold the lock. -/
def Turn.Harmless (holds : σ → ω → Prop) : Turn σ → Prop
  | .operation _ => True
  | .meanwhile change => ∀ x w, holds (change x) w → holds x w

/-- Where nobody ever holds a lock, any storage keeps to this. -/
theorem Medium.locks_unheld (m : Medium σ ω) : m.Locks fun _ _ => False where
  openIndex _ _ _ _ _ _ := id
  closeIndex _ _ _ _ _ _ := id
  startWriter _ _ := False.elim
  add _ _ _ _ _ _ _ _ := id
  erase _ _ _ _ _ _ _ _ := id
  commit _ _ _ _ _ _ _ := id
  committed _ := id
  cancel _ _ _ _ _ _ _ := id
  cancelled _ := id
  search _ _ _ _ _ _ _ _ := id
  stats _ _ _ _ _ _ := id

section Faults

/-- Fails without doing anything if the next fault says so. Every call uses up one. -/
def risk (t : Action σ α) : Action (List Bool × σ) α := fun p =>
  if p.1.head? = some true then ⟨.error (.other "Fault"), (p.1.tail, p.2), []⟩
  else
    let o := t p.2
    ⟨o.result, (p.1.tail, o.state), o.events⟩

def spare (t : Action σ α) : Action (List Bool × σ) α := fun p =>
  let o := t p.2
  ⟨o.result, (p.1, o.state), o.events⟩

/-- The storage with a list of the calls that fail. A cancellation is spared. -/
def Medium.faulty (m : Medium σ ω) : Medium (List Bool × σ) ω where
  hasIndex p := m.hasIndex p.2
  openIndex := risk m.openIndex
  closeIndex := risk m.closeIndex
  startWriter := risk m.startWriter
  add w d := risk (m.add w d)
  erase w q := risk (m.erase w q)
  commit w := risk (m.commit w)
  cancel w := spare (m.cancel w)
  search q limit := risk (m.search q limit)
  stats := risk m.stats

variable {holds : σ → ω → Prop} {t : Action σ α}

theorem risk_cases {p q : List Bool × σ} {r : Except Failure α} (h : Ends (risk t) p r q) :
    (∃ f, r = .error f ∧ q.2 = p.2) ∨ Ends t p.2 r q.2 := by
  obtain ⟨hr, rfl⟩ := h
  unfold risk at hr ⊢
  split
  · next hfault =>
    rw [if_pos hfault] at hr
    exact Or.inl ⟨_, hr.symm, rfl⟩
  · next hnone =>
    rw [if_neg hnone] at hr
    exact Or.inr ⟨hr, rfl⟩

theorem harmless_risk (ht : Harmless holds t) : Harmless (fun p => holds p.2) (risk t) := by
  intro w p r q hp h
  rcases risk_cases h with ⟨f, _, hq⟩ | h
  · change ¬ holds q.2 w
    rw [hq]
    exact hp
  · exact ht w _ _ _ hp h

theorem harmless_spare (ht : Harmless holds t) : Harmless (fun p => holds p.2) (spare t) :=
  fun w p _ _ hp h => ht w p.2 _ _ hp ⟨h.1, congrArg Prod.snd h.2⟩

/-- A storage whose calls fail keeps to its locks as it does otherwise. -/
theorem Medium.Locks.faulty {m : Medium σ ω} (hm : m.Locks holds) :
    m.faulty.Locks fun p => holds p.2 where
  openIndex := harmless_risk hm.openIndex
  closeIndex := harmless_risk hm.closeIndex
  startWriter h w hw := by
    rcases risk_cases h with ⟨f, _, hq⟩ | h
    · rw [hq] at hw
      exact Or.inl hw
    · exact hm.startWriter h w hw
  add w d := harmless_risk (hm.add w d)
  erase w q := harmless_risk (hm.erase w q)
  commit w := harmless_risk (hm.commit w)
  committed h := by
    rcases risk_cases h with ⟨f, hf, _⟩ | h
    · exact absurd hf (by simp)
    · exact hm.committed h
  cancel w := harmless_spare (hm.cancel w)
  cancelled h := hm.cancelled ⟨h.1, congrArg Prod.snd h.2⟩
  search q limit := harmless_risk (hm.search q limit)
  stats := harmless_risk hm.stats

end Faults

theorem Directory.lock_unlock_iff {d : Directory} {n v : Nat} :
    (d.unlock n).lock = some v ↔ d.lock = some v ∧ v ≠ n := by
  cases hc : d.contents with
  | none => simp [unlock, lock, hc]
  | some c =>
    by_cases hl : c.lock = some n
    · simp [unlock, lock, hc, hl, eq_comm]
    · have hne (h : c.lock = some v) : v ≠ n := fun hv => hl (hv ▸ h)
      simp only [unlock, lock, hc, Option.map_some, if_neg hl, Option.bind_some]
      exact ⟨fun h => ⟨h, hne h⟩, And.left⟩

theorem Directory.lock_written_iff {d : Directory} {generation v : Nat} {w : Writer} :
    (d.written generation w).lock = some v ↔ d.lock = some v ∧ v ≠ w.number := by
  unfold written
  rw [lock_unlock_iff, lock_setCatalogue]
  rfl

namespace Site

/-- The writer with this number holds the lock of the directory. -/
def Holds (x : Site) (n : Nat) : Prop := x.directory.lock = some n

theorem harmless_of_lock {t : Action Site α}
    (h : ∀ {x r y}, Ends t x r y → y.directory.lock = x.directory.lock) : Harmless Holds t := by
  intro w x r y hx hend
  unfold Holds
  rw [h hend]
  exact hx

theorem harmless_openIndex : Harmless Holds openIndex := by
  refine harmless_of_lock fun h => ?_
  unfold openIndex at h
  rw [ends_read_bind] at h
  split at h
  · rw [(ends_fail.mp h).2]
  · rw [(ends_succeed.mp h).2]
  · rw [(ends_update.mp h).2]
    exact (Directory.lock_setCatalogue _ _).trans (Directory.lock_make _)

theorem harmless_withDraft {n : Nat} {t : Writer → Action Site α} (ht : ∀ w, Harmless Holds (t w)) :
    Harmless Holds (withDraft n t) := by
  intro v
  refine keeps_read.bind fun x => ?_
  split
  · exact keeps_fail _
  · split
    · exact ht _ v
    · exact keeps_fail _

theorem harmless_readSegments : Harmless Holds readSegments := by
  refine harmless_of_lock fun h => ?_
  unfold readSegments at h
  rw [ends_read_bind] at h
  split at h
  · rw [(ends_fail.mp h).2]
  · rw [(ends_fail.mp h).2]
  · split at h
    · rw [(ends_fail.mp h).2]
    · rw [(ends_succeed.mp h).2]

/-- A writer finds the segments and takes the lock as it is started, or nothing happens. -/
theorem startWriter_cases {x y : Site} {r : Except Failure Nat} (h : Ends startWriter x r y) :
    (∃ f, r = .error f ∧ y = x) ∨ ∃ n generation segments, r = .ok n ∧
      x.directory.catalogue = .sound generation segments ∧
      y.directory.catalogue = .sound generation segments ∧ y.directory.lock = some n ∧
      y.draft = some ⟨n, segments, []⟩ := by
  unfold startWriter at h
  rw [ends_read_bind] at h
  simp only at h
  split at h
  · exact Or.inl ⟨_, ends_fail.mp h⟩
  · next hthere =>
    split at h
    · exact Or.inl ⟨_, ends_fail.mp h⟩
    · split at h
      · exact Or.inl ⟨_, ends_fail.mp h⟩
      · exact Or.inl ⟨_, ends_fail.mp h⟩
      · next generation segments hsound =>
        rw [ends_update_bind, ends_pure] at h
        obtain ⟨hr, rfl⟩ := h
        refine Or.inr ⟨_, generation, segments, hr, hsound, ?_, ?_, rfl⟩
        · exact (Directory.catalogue_setLock _ _).trans hsound
        · exact Directory.lock_setLock _ (by simpa [Option.isSome_iff_ne_none] using hthere)

/-- A commit publishes what the writer staged, or nothing happens. -/
theorem commit_cases {x y : Site} {n : Nat} {r : Except Failure Unit} (h : Ends (commit n) x r y) :
    (∃ f, r = .error f ∧ y = x) ∨ ∃ generation w, x.draft = some w ∧ w.number = n ∧
      x.directory.lock = some n ∧ y.directory = x.directory.written generation w := by
  unfold commit withDraft at h
  rw [ends_read_bind] at h
  split at h
  · exact Or.inl ⟨_, ends_fail.mp h⟩
  · next w hdraft =>
    split at h
    · next hnumber =>
      rw [ends_read_bind] at h
      simp only at h
      split at h
      · exact Or.inl ⟨_, ends_fail.mp h⟩
      · exact Or.inl ⟨_, ends_fail.mp h⟩
      · next generation _ _ =>
        split at h
        · exact Or.inl ⟨_, ends_fail.mp h⟩
        · next hlock =>
          split at h
          · exact Or.inl ⟨_, ends_fail.mp h⟩
          · refine Or.inr ⟨generation, w, hdraft, hnumber, not_not.mp hlock, ?_⟩
            rw [(ends_update.mp h).2]
            rfl
    · exact Or.inl ⟨_, ends_fail.mp h⟩

theorem cancel_ends {x y : Site} {n : Nat} {r : Except Failure Unit} (h : Ends (cancel n) x r y) :
    y.directory = x.directory.unlock n ∧ y.draft = x.draft.filter (·.number ≠ n) := by
  unfold cancel at h
  simp only [ends_read_bind, ends_update_bind] at h
  split at h
  · rw [(ends_succeed.mp h).2]
    exact ⟨rfl, rfl⟩
  · rw [(ends_fail.mp h).2]
    exact ⟨rfl, rfl⟩

theorem locks_medium : medium.Locks Holds where
  openIndex := harmless_openIndex
  closeIndex _ := keeps_succeed ()
  startWriter h w hw := by
    rcases startWriter_cases h with ⟨f, _, rfl⟩ | ⟨n, _, _, rfl, _, _, hlock, _⟩
    · exact Or.inl hw
    · exact Or.inr (congrArg Except.ok (Option.some.inj (hlock.symm.trans hw)))
  add n d := harmless_withDraft fun w v =>
    (keeps_ofExcept _).bind fun _ => keeps_update fun _ hx => hx
  erase n q := harmless_withDraft fun w v => by
    refine keeps_read.bind fun x => ?_
    split
    · exact keeps_fail _
    · refine Keeps.bind ?_ fun _ => keeps_pure _
      exact keeps_update fun _ hx => hx
  commit n v x r y hx h hv := by
    rcases commit_cases h with ⟨f, _, rfl⟩ | ⟨generation, w, _, _, _, hy⟩
    · exact hx hv
    · rw [Holds, hy, Directory.lock_written_iff] at hv
      exact hx hv.1
  committed h hn := by
    rcases commit_cases h with ⟨f, hr, _⟩ | ⟨generation, w, _, hnumber, _, hy⟩
    · exact absurd hr (by simp)
    · rw [Holds, hy, Directory.lock_written_iff] at hn
      exact hn.2 hnumber.symm
  cancel n v x r y hx h hv := by
    rw [Holds, (cancel_ends h).1, Directory.lock_unlock_iff] at hv
    exact hx hv.1
  cancelled h hn := by
    rw [Holds, (cancel_ends h).1, Directory.lock_unlock_iff] at hn
    exact hn.2 rfl
  search q limit v := (harmless_readSegments v).bind fun _ => keeps_pure _
  stats v := by
    refine keeps_read.bind fun x => ?_
    split
    · exact keeps_fail _
    · exact (harmless_readSegments v).bind fun _ => keeps_pure _

end Site

end GoToSymbol.Store
