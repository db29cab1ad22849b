import GoToSymbol.Proofs.Index.Calls

namespace GoToSymbol

open GoToSymbol.Action

/-- Both results are values, which are related, or both are the same failure. -/
inductive Matching {α β : Type} (A : α → β → Prop) :
    Except Failure α → Except Failure β → Prop where
  | ok {a : α} {b : β} (h : A a b) : Matching A (.ok a) (.ok b)
  | error (f : Failure) : Matching A (.error f) (.error f)

theorem matching_eq {α : Type} {x y : Except Failure α} (h : Matching Eq x y) : x = y := by
  cases h with
  | ok h => rw [h]
  | error f => rfl

theorem matching_self {α : Type} (x : Except Failure α) : Matching Eq x x := by
  cases x with
  | ok a => exact .ok rfl
  | error f => exact .error f

/-- The results and the states are related, and the same was logged. -/
structure Outcome.Agree {σ τ α β : Type} (R : σ → τ → Prop) (A : α → β → Prop) (o : Outcome σ α)
    (p : Outcome τ β) : Prop where
  result : Matching A o.result p.result
  state : R o.state p.state
  events : o.events = p.events

namespace Action

variable {σ τ α β γ δ : Type} {R : σ → τ → Prop} {A : α → β → Prop} {B : γ → δ → Prop}

/-- From related states the two actions end alike. -/
def Agree (R : σ → τ → Prop) (A : α → β → Prop) (t : Action σ α) (u : Action τ β) : Prop :=
  ∀ s s', R s s' → (t s).Agree R A (u s')

theorem agree_succeed {a : α} {b : β} (h : A a b) : Agree R A (succeed a) (succeed b) :=
  fun _ _ hs => ⟨.ok h, hs, rfl⟩

theorem agree_pure {a : α} {b : β} (h : A a b) :
    Agree R A (pure a : Action σ α) (pure b : Action τ β) := agree_succeed h

theorem agree_fail (f : Failure) : Agree R A (fail f : Action σ α) (fail f : Action τ β) :=
  fun _ _ hs => ⟨.error f, hs, rfl⟩

theorem agree_update {f : σ → σ} {g : τ → τ} (h : ∀ s s', R s s' → R (f s) (g s')) :
    Agree R Eq (update f) (update g) :=
  fun s s' hs => ⟨.ok rfl, h s s' hs, rfl⟩

theorem read_bind (t : σ → Action σ α) (s : σ) : (read >>= t) s = t s s := rfl

theorem update_bind (f : σ → σ) (t : Unit → Action σ α) (s : σ) :
    (update f >>= t) s = t () (f s) := rfl

theorem bind_of_ok {t : Action σ α} {a : α} {s s' : σ} (h : t s = ⟨.ok a, s', []⟩)
    (next : α → Action σ γ) : (t >>= next) s = next a s' := by
  simp [Bind.bind, andThen, h]

theorem bind_of_error {t : Action σ α} {f : Failure} {s s' : σ} (h : t s = ⟨.error f, s', []⟩)
    (next : α → Action σ γ) : (t >>= next) s = ⟨.error f, s', []⟩ := by
  simp [Bind.bind, andThen, h]

theorem rescue_of_ok {t : Action σ α} {a : α} {s s' : σ} (h : t s = ⟨.ok a, s', []⟩)
    (handler : Failure → Action σ α) : rescue t handler s = ⟨.ok a, s', []⟩ := by
  simp [rescue, h]

theorem rescue_of_error {t : Action σ α} {f : Failure} {s s' : σ} (h : t s = ⟨.error f, s', []⟩)
    (handler : Failure → Action σ α) : rescue t handler s = handler f s' := by
  simp [rescue, h]

/-- What an action does with the state it starts from may depend on that state. -/
theorem agree_read_bind {t : σ → Action σ α} {u : τ → Action τ β}
    (h : ∀ s s', R s s' → (t s s).Agree R A (u s' s')) : Agree R A (read >>= t) (read >>= u) := h

/-- Two choices end alike if they are made alike and both of their branches end alike. -/
theorem agree_ite {c d : Prop} [Decidable c] [Decidable d] {t t' : Action σ α}
    {u u' : Action τ β} {s : σ} {s' : τ} (hcd : c ↔ d) (h : c → (t s).Agree R A (u s'))
    (h' : ¬ c → (t' s).Agree R A (u' s')) :
    ((if c then t else t') s).Agree R A ((if d then u else u') s') := by
  by_cases hc : c
  · rw [if_pos hc, if_pos (hcd.mp hc)]
    exact h hc
  · rw [if_neg hc, if_neg (hcd.not.mp hc)]
    exact h' hc

/-- A sequence ends alike from two states if its first part does, and its second part from where
that leads when it succeeds. -/
theorem agree_bind_at {t : Action σ α} {u : Action τ β} {next : α → Action σ γ}
    {next' : β → Action τ δ} {s : σ} {s' : τ} (h : (t s).Agree R A (u s'))
    (hnext : ∀ a b, Ends t s (.ok a) (t s).state → A a b →
      (next a (t s).state).Agree R B (next' b (u s').state)) :
    ((t >>= next) s).Agree R B ((u >>= next') s') := by
  obtain ⟨hresult, hstate, hevents⟩ := h
  unfold Ends at hnext
  simp only [Bind.bind, andThen]
  generalize (t s).result = x at hresult hnext ⊢
  generalize (u s').result = y at hresult ⊢
  cases hresult with
  | error f => exact ⟨.error f, hstate, hevents⟩
  | ok hab =>
    have hrest := hnext _ _ ⟨rfl, rfl⟩ hab
    exact ⟨hrest.result, hrest.state, congrArg₂ (· ++ ·) hevents hrest.events⟩

/-- A sequence ends alike if its parts do. -/
theorem Agree.bind {t : Action σ α} {u : Action τ β} {next : α → Action σ γ}
    {next' : β → Action τ δ} (h : Agree R A t u)
    (hnext : ∀ a b, A a b → Agree R B (next a) (next' b)) :
    Agree R B (t >>= next) (u >>= next') := by
  intro s s' hs
  have hfirst := h s s' hs
  exact agree_bind_at hfirst fun a b _ hab => hnext a b hab _ _ hfirst.state

/-- What runs last ends alike too. -/
theorem Agree.ensure {t : Action σ α} {u : Action τ β} {last : Action σ Unit}
    {last' : Action τ Unit} (h : Agree R A t u) (hlast : Agree R Eq last last') :
    Agree R A (ensure t last) (ensure u last') := by
  intro s s' hs
  have hfirst := h s s' hs
  have hrest := hlast _ _ hfirst.state
  unfold Action.ensure
  refine ⟨?_, hrest.state, congrArg₂ (· ++ ·) hfirst.events hrest.events⟩
  simp only
  rw [matching_eq hrest.result]
  cases (last' (u s').state).result with
  | ok _ => exact hfirst.result
  | error f => exact .error f

section

variable {R : σ → σ → Prop}

/-- From related states the action ends alike. -/
def Respects (R : σ → σ → Prop) (t : Action σ α) : Prop := Agree R Eq t t

theorem agree_log (e : Log.Event) : Respects R (log e) :=
  fun _ _ hs => ⟨.ok rfl, hs, rfl⟩

theorem agree_ofExcept (x : Except Failure α) : Respects R (ofExcept x) := by
  cases x with
  | ok a => exact agree_succeed rfl
  | error f => exact agree_fail f

theorem Respects.bind {t : Action σ α} {next : α → Action σ γ} (h : Respects R t)
    (hnext : ∀ a, Respects R (next a)) : Respects R (t >>= next) := by
  refine Agree.bind h fun a b hab => ?_
  rw [hab]
  exact hnext b

theorem Respects.rescue {t : Action σ α} {handler : Failure → Action σ α} (h : Respects R t)
    (hhandler : ∀ f, Respects R (handler f)) : Respects R (rescue t handler) := by
  intro s s' hs
  obtain ⟨hresult, hstate, hevents⟩ := h s s' hs
  unfold Action.rescue
  simp only
  generalize (t s).result = x at hresult ⊢
  generalize (t s').result = y at hresult ⊢
  cases hresult with
  | ok hab => exact ⟨.ok hab, hstate, hevents⟩
  | error f =>
    have hrest := hhandler f _ _ hstate
    exact ⟨hrest.result, hrest.state, congrArg₂ (· ++ ·) hevents hrest.events⟩

theorem Respects.guarded {t : Action σ α} (h : Respects R t) (operation : String) :
    Respects R (Service.guarded operation t) := by
  refine h.rescue fun f => ?_
  cases f with
  | missing => exact agree_fail _
  | index e => exact agree_fail _
  | _ => exact (agree_log _).bind fun _ => agree_fail _

end

end Action

/-- No operation of a storage tells related states apart. -/
structure Engine.Respects {σ : Type} (R : σ → σ → Prop) (e : Engine σ) : Prop where
  put : ∀ documents publish, Action.Respects R (e.put documents publish)
  delete : ∀ queries publish, Action.Respects R (e.delete queries publish)
  commit : Action.Respects R e.commit
  search : ∀ q limit, Action.Respects R (e.search q limit)
  shutdown : Action.Respects R e.shutdown
  stats : Action.Respects R e.stats

namespace Service

variable {σ : Type} {s : Service σ} {R : σ → σ → Prop}

section

variable (h : s.engine.Respects R)
include h

theorem respects_commit : Respects R s.commit := by
  refine (h.commit.guarded "commit").rescue fun f => ?_
  cases f with
  | missing => exact agree_log _
  | _ => exact agree_fail _

theorem respects_persist (symbols : List Submission) (publish prioritized : Bool) :
    Respects R (s.persist symbols publish prioritized) := by
  refine Respects.bind (agree_ofExcept _) fun documents => ?_
  split
  · split
    · exact respects_commit h
    · exact agree_succeed rfl
  · exact ((h.put documents publish).guarded "put").bind fun _ => agree_log _

theorem respects_remove (files : List File.Reference) : Respects R (s.remove files) := by
  unfold remove
  split
  · exact agree_succeed rfl
  · exact ((h.delete _ false).guarded "delete").bind fun _ =>
      (agree_log _).bind fun _ => agree_pure rfl

theorem respects_find (q : Query) (limit : Int) : Respects R (s.find q limit) := by
  refine ((h.search q limit).guarded "search").bind fun documents => ?_
  exact Respects.bind (agree_ofExcept _) fun _ => agree_pure rfl

/-- A call sees no more of a state than the storage does. -/
theorem respects_perform (c : Call) : Respects R (s.perform c) := by
  cases c with
  | persist symbols publish prioritized =>
    exact (respects_persist h symbols publish prioritized).bind fun _ => agree_pure rfl
  | remove files => exact (respects_remove h files).bind fun _ => agree_pure rfl
  | commit => exact (respects_commit h).bind fun _ => agree_pure rfl
  | reindex files symbols prioritized =>
    refine Respects.bind ?_ fun _ => agree_pure rfl
    exact (respects_remove h files).bind fun _ => respects_persist h symbols true prioritized
  | searchClasses text max => exact (respects_find h _ _).bind fun _ => agree_pure rfl
  | searchNames terms max =>
    refine Respects.bind ?_ fun _ => agree_pure rfl
    unfold searchClassesMethods
    split
    · exact agree_succeed rfl
    · exact respects_find h _ _
  | stats => exact (h.stats.guarded "stats").bind fun _ => agree_pure rfl
  | shutdown => exact (h.shutdown.guarded "shutdown").bind fun _ => agree_pure rfl

end

variable (s)

/-- What calls, made one after the other, answer and log. -/
def answers : List Call → σ → List (Except Failure Answer × List Log.Event)
  | [], _ => []
  | c :: calls, st =>
    let o := s.perform c st
    (o.result, o.events) :: answers calls o.state

/-- The state after some calls, whether they return or fail. -/
def after (st : σ) (calls : List Call) : σ := calls.foldl (fun st c => (s.perform c st).state) st

variable {s}

/-- No run of calls tells related states apart, and it leads to related states. -/
theorem answers_eq_of_respects (h : s.engine.Respects R) (calls : List Call) {st st' : σ}
    (hst : R st st') :
    s.answers calls st = s.answers calls st' ∧ R (s.after st calls) (s.after st' calls) := by
  induction calls generalizing st st' with
  | nil => exact ⟨rfl, hst⟩
  | cons c calls ih =>
    have hhead := respects_perform h c st st' hst
    obtain ⟨htail, hafter⟩ := ih hhead.state
    refine ⟨?_, hafter⟩
    simp only [answers]
    rw [matching_eq hhead.result, hhead.events, htail]

/-- Every run of calls is a history of them. -/
theorem exists_history (calls : List Call) (st : σ) :
    ∃ made, made.map (·.1) = calls ∧ s.History st made (s.after st calls) := by
  induction calls generalizing st with
  | nil => exact ⟨[], rfl, .nil st⟩
  | cons c calls ih =>
    obtain ⟨made, hmade, hhistory⟩ := ih (s.perform c st).state
    refine ⟨(c, (s.perform c st).result) :: made, ?_, .cons (ends_self _ st) hhistory⟩
    rw [List.map_cons, hmade]

end Service

end GoToSymbol
