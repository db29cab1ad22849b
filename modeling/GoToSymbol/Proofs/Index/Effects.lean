import GoToSymbol.Proofs.Index.Operations

namespace GoToSymbol

open GoToSymbol.Action Store Store.Session Store.Work

namespace Service

variable {σ : Type} (s : Service σ)

/-- A ledger once the removals of a call and then its documents were staged. -/
def staging (c : Call) (l : Ledger) : Ledger := (l.drop (s.removedUris c)).stage (s.added c)

/-- How a call may leave a ledger. A call that fails may still have staged its removals. -/
inductive Effect (c : Call) (l : Ledger) : Except Failure Answer → Ledger → Prop where
  | stages (a : Answer) (h : c.isCommitPoint = false) : Effect c l (.ok a) (s.staging c l)
  | publishes (a : Answer) (l' : Ledger) (h : c.isCommitPoint = true)
      (published : Ledger.Published (s.staging c l) l') : Effect c l (.ok a) l'
  | nothing (f : Failure) : Effect c l (.error f) l
  | removals (f : Failure) : Effect c l (.error f) (l.drop (s.removedUris c))

variable {s} {c : Call} {a : Answer} {l l' : Ledger}

variable (s) in
/-- A call that only reads asks for no change. -/
theorem reading_quiet (hc : c.isReading = true) :
    c.isCommitPoint = false ∧ c.removals = [] ∧ s.added c = [] := by
  cases c <;> simp_all [Call.isReading, Call.isCommitPoint, Call.removals, added]

theorem Effect.staged (h : s.Effect c l (.ok a) l') (hc : c.isCommitPoint = false) :
    l' = s.staging c l := by
  cases h with
  | stages => rfl
  | publishes _ _ hpublishes => exact absurd (hc.symm.trans hpublishes) (by simp)

theorem Effect.published (h : s.Effect c l (.ok a) l') (hc : c.isCommitPoint = true) :
    Ledger.Published (s.staging c l) l' := by
  cases h with
  | stages _ hstages => exact absurd (hc.symm.trans hstages) (by simp)
  | publishes _ _ _ hpublished => exact hpublished

/-- What a call adds is pending or published after it. -/
theorem Effect.pending_added (h : s.Effect c l (.ok a) l') {x : Stored} (hx : x ∈ s.added c) :
    Ledger.Pending x l' := by
  have hstaging : Ledger.Pending x (s.staging c l) := Ledger.pending_stage hx _
  cases h with
  | stages => exact hstaging
  | publishes _ _ _ hpublished => exact (hstaging.shown hpublished).pending

theorem Effect.shown_added (h : s.Effect c l (.ok a) l') (hc : c.isCommitPoint = true) {x : Stored}
    (hx : x ∈ s.added c) : Ledger.Shown x l' :=
  (Ledger.pending_stage hx _).shown (h.published hc)

/-- A pending document stays so unless its file is removed. -/
theorem Effect.pending {r : Except Failure Answer} (h : s.Effect c l r l') {x : Stored}
    (hx : x.file ∉ (s.removedUris c).map some) (hl : Ledger.Pending x l) :
    Ledger.Pending x l' := by
  have hstaging : Ledger.Pending x (s.staging c l) := (hl.drop hx).stage _
  cases h with
  | stages => exact hstaging
  | publishes _ _ _ hpublished => exact (hstaging.shown hpublished).pending
  | nothing => exact hl
  | removals => exact hl.drop hx

theorem Effect.shown {r : Except Failure Answer} (h : s.Effect c l r l') {x : Stored}
    (hx : x.file ∉ (s.removedUris c).map some) (hl : Ledger.Shown x l) : Ledger.Shown x l' := by
  cases h with
  | stages => exact hl.drop hx
  | publishes _ _ _ hpublished => exact ((hl.pending.drop hx).stage _).shown hpublished
  | nothing => exact hl
  | removals => exact hl.drop hx

theorem Effect.every {r : Except Failure Answer} (h : s.Effect c l r l') {p : Stored → Prop}
    (hadded : ∀ x ∈ s.added c, p x) (hl : l.Every p) : l'.Every p := by
  have hstaging : (s.staging c l).Every p := (hl.drop _).stage hadded
  cases h with
  | stages => exact hstaging
  | publishes _ _ _ hpublished => exact hstaging.published hpublished
  | nothing => exact hl
  | removals => exact hl.drop _

end Service

namespace Store

section

variable {cwd : File.Path} {config : IndexConfig} {st st' : Session}

theorem commit_ledger (hi : st.Intact) {r : Except Failure Unit}
    (h : Ends (service cwd config).commit st r st') :
    st'.Intact ∧ ((∃ f, r = .error f ∧ st'.ledger = st.ledger) ∨
      (r = .ok () ∧ Ledger.Published st.ledger st'.ledger)) := by
  rcases commit_cases h with ⟨_, rfl, f, hf⟩ | ⟨x, _, hflush, hr⟩
  · exact ⟨hi, Or.inl ⟨f, hf, rfl⟩⟩
  · obtain ⟨hintact, _, hx, hpublished⟩ := flush_intact hi hflush
    exact ⟨hintact, Or.inr ⟨hr hx, hpublished⟩⟩

theorem shutdown_ledger (hi : st.Intact) {r : Except Failure Unit}
    (h : Ends (service cwd config).shutdown st r st') :
    st'.Intact ∧ r = .ok () ∧ Ledger.Published st.ledger st'.ledger := by
  rcases shutdown_cases h with ⟨hclosed, rfl, hr⟩ | ⟨m, x, hopen, hx, hm, hst⟩
  · refine ⟨hi, hr, ?_⟩
    rw [ledger_of_idle (hi.closed hclosed)]
    exact Ledger.published_self _
  · have hmid : m.Intact ∧ m.handle.writer = none ∧ x = .ok () ∧
        Ledger.Published st.ledger m.ledger := by
      rcases hm with ⟨hw, hok, rfl⟩ | ⟨_, hflush⟩
      · refine ⟨hi, hw, hok, ?_⟩
        rw [ledger_of_idle hw]
        exact Ledger.published_self _
      · exact flush_intact hi hflush
    obtain ⟨hintact, hidle, hok, hpublished⟩ := hmid
    rcases hst with rfl | rfl
    · exact ⟨intact_close hintact hidle, hx hok, hpublished⟩
    · exact ⟨intact_close ((Alike.letGo m).intact hintact) hidle, hx hok, hpublished⟩

theorem remove_ledger (hi : st.Intact) {files : List File.Reference} {r : Except Failure Int}
    (h : Ends ((service cwd config).remove files) st r st') :
    st'.Intact ∧ ((∃ f, r = .error f ∧ st'.ledger = st.ledger) ∨
      ∃ n, r = .ok n ∧ st'.ledger = st.ledger.drop (files.map (File.uri cwd))) := by
  rcases remove_cases h with ⟨hnil, rfl, hr⟩ | ⟨_, ⟨f, hr⟩, hl, _, _, hintact⟩ |
    ⟨_, ⟨n, hr⟩, hopen, hm⟩
  · refine ⟨hi, Or.inr ⟨0, hr, ?_⟩⟩
    rw [hnil, List.map_nil, Ledger.drop_nil]
  · exact ⟨hintact hi, Or.inl ⟨f, hr, hl⟩⟩
  · refine ⟨hm.intact hi hopen, Or.inr ⟨n, hr, ?_⟩⟩
    rw [hm.ledger, Ledger.erase_forFile]

theorem persist_ledger (hi : st.Intact) {symbols : List Submission} {publish prioritized : Bool}
    {r : Except Failure Unit}
    (h : Ends ((service cwd config).persist symbols publish prioritized) st r st') :
    st'.Intact ∧ ((∃ f, r = .error f ∧ st'.ledger = st.ledger) ∨
      (r = .ok () ∧ publish = false ∧ st'.ledger = st.ledger.stage
        (symbols.filterMap (·.stored? cwd config.policy prioritized))) ∨
      (r = .ok () ∧ publish = true ∧ Ledger.Published (st.ledger.stage
        (symbols.filterMap (·.stored? cwd config.policy prioritized))) st'.ledger)) := by
  rcases persist_cases h with ⟨⟨f, hr⟩, rfl⟩ | ⟨ds, hds, hcases⟩
  · exact ⟨hi, Or.inl ⟨f, hr, rfl⟩⟩
  · have hstored := Service.buildDocuments_stored hds
    have hnothing : ds = [] →
        symbols.filterMap (·.stored? cwd config.policy prioritized) = [] := by
      intro h
      subst h
      exact List.forall₂_nil_left_iff.mp hstored
    rcases hcases with ⟨hnil, hp, hr, rfl⟩ | ⟨hnil, hp, hcommit⟩ | ⟨_, hopen, x, hput, hr⟩
    · refine ⟨hi, Or.inr (Or.inl ⟨hr, hp, ?_⟩)⟩
      rw [hnothing hnil, Ledger.stage_nil]
    · obtain ⟨hintact, ⟨f, hf, hl⟩ | ⟨hok, hpublished⟩⟩ := commit_ledger hi hcommit
      · exact ⟨hintact, Or.inl ⟨f, hf, hl⟩⟩
      · refine ⟨hintact, Or.inr (Or.inr ⟨hok, hp, ?_⟩)⟩
        rw [hnothing hnil, Ledger.stage_nil]
        exact hpublished
    · rcases put_cases hstored hput with ⟨f, hf, _, halike⟩ | ⟨m, hm, hend⟩
      · rw [hf] at hr
        exact ⟨halike.intact hi, Or.inl ⟨_, hr, halike.ledger⟩⟩
      · have hmi := hm.intact hi hopen
        have hok (hx : x = .ok ()) : r = .ok () := by
          rw [hr, hx]
          rfl
        rcases hend with ⟨hp, hx, rfl⟩ | ⟨hp, hflush⟩
        · exact ⟨hmi, Or.inr (Or.inl ⟨hok hx, hp, hm.ledger⟩)⟩
        · obtain ⟨hintact, _, hx, hpublished⟩ := flush_intact hmi hflush
          rw [hm.ledger] at hpublished
          exact ⟨hintact, Or.inr (Or.inr ⟨hok hx, hp, hpublished⟩)⟩

section

variable (hi : st.Intact)
include hi

theorem commit_ok (h : Ends (service cwd config).commit st (.ok ()) st') :
    st'.Intact ∧ Ledger.Published st.ledger st'.ledger := by
  obtain ⟨hintact, ⟨f, hf, _⟩ | ⟨_, hpublished⟩⟩ := commit_ledger hi h
  · exact absurd hf (by simp)
  · exact ⟨hintact, hpublished⟩

theorem remove_ok {files : List File.Reference} {n : Int}
    (h : Ends ((service cwd config).remove files) st (.ok n) st') :
    st'.Intact ∧ st'.ledger = st.ledger.drop (files.map (File.uri cwd)) := by
  obtain ⟨hintact, ⟨f, hf, _⟩ | ⟨_, _, hl⟩⟩ := remove_ledger hi h
  · exact absurd hf (by simp)
  · exact ⟨hintact, hl⟩

theorem persist_ok {symbols : List Submission} {prioritized : Bool}
    (h : Ends ((service cwd config).persist symbols true prioritized) st (.ok ()) st') :
    st'.Intact ∧ Ledger.Published (st.ledger.stage
      (symbols.filterMap (·.stored? cwd config.policy prioritized))) st'.ledger := by
  obtain ⟨hintact, ⟨f, hf, _⟩ | ⟨_, hf, _⟩ | ⟨_, _, hpublished⟩⟩ := persist_ledger hi h
  · exact absurd hf (by simp)
  · exact absurd hf (by simp)
  · exact ⟨hintact, hpublished⟩

end

theorem staging_persist (symbols : List Submission) (publish prioritized : Bool) (l : Ledger) :
    (service cwd config).staging (.persist symbols publish prioritized) l =
      l.stage (symbols.filterMap (·.stored? cwd config.policy prioritized)) := by
  have hdrop : l.drop ((service cwd config).removedUris (.persist symbols publish prioritized)) = l :=
    Ledger.drop_nil l
  unfold Service.staging
  rw [hdrop]
  rfl

theorem staging_remove (files : List File.Reference) (l : Ledger) :
    (service cwd config).staging (.remove files) l = l.drop (files.map (File.uri cwd)) :=
  Ledger.stage_nil _

theorem staging_self {c : Call} (hr : c.removals = []) (ha : (service cwd config).added c = [])
    (l : Ledger) : (service cwd config).staging c l = l := by
  unfold Service.staging Service.removedUris
  rw [hr, ha, List.map_nil, Ledger.drop_nil, Ledger.stage_nil]

theorem reading_effect {c : Call} {r : Except Failure Answer} (hc : c.isReading = true)
    (hl : st'.ledger = st.ledger) :
    (service cwd config).Effect c st.ledger r st'.ledger := by
  obtain ⟨hpoint, hr, ha⟩ := (service cwd config).reading_quiet hc
  rw [hl]
  cases r with
  | error f => exact .nothing f
  | ok a =>
    have heffect := Service.Effect.stages (s := service cwd config) (l := st.ledger) a hpoint
    rwa [staging_self hr ha] at heffect

/-- A call that only reads leaves everything as it was. -/
theorem reading_alike {c : Call} (hc : c.isReading = true) {r : Except Failure Answer}
    (h : Ends ((service cwd config).perform c) st r st') : Alike st st' := by
  cases c with
  | searchClasses text max =>
    obtain ⟨x, hx, _⟩ := ends_bind_pure.mp h
    exact (find_cases hx).1
  | searchNames terms max =>
    obtain ⟨x, hx, _⟩ := ends_bind_pure.mp h
    unfold Service.searchClassesMethods at hx
    split at hx
    · rw [ends_succeed] at hx
      exact hx.2 ▸ Alike.refl _
    · exact (find_cases hx).1
  | stats =>
    obtain ⟨x, hx, _⟩ := ends_bind_pure.mp h
    exact (stats_cases hx).1
  | persist _ _ _ => exact absurd hc (by simp [Call.isReading])
  | remove _ => exact absurd hc (by simp [Call.isReading])
  | commit => exact absurd hc (by simp [Call.isReading])
  | reindex _ _ _ => exact absurd hc (by simp [Call.isReading])
  | shutdown => exact absurd hc (by simp [Call.isReading])

/-- Every call keeps the files as they must be, and stages or publishes just what it is asked for. -/
theorem perform_effect (hi : st.Intact) {c : Call} {r : Except Failure Answer}
    (h : Ends ((service cwd config).perform c) st r st') :
    st'.Intact ∧ (service cwd config).Effect c st.ledger r st'.ledger := by
  have reading (hc : c.isReading = true) :
      st'.Intact ∧ (service cwd config).Effect c st.ledger r st'.ledger := by
    have halike := reading_alike hc h
    exact ⟨halike.intact hi, reading_effect hc halike.ledger⟩
  cases c with
  | persist symbols publish prioritized =>
    obtain ⟨x, hx, rfl⟩ := ends_bind_pure.mp h
    obtain ⟨hintact, ⟨f, rfl, hl⟩ | ⟨rfl, hp, hl⟩ | ⟨rfl, hp, hl⟩⟩ := persist_ledger hi hx
    · rw [hl]
      exact ⟨hintact, .nothing f⟩
    · rw [hl, ← staging_persist symbols publish prioritized]
      exact ⟨hintact, .stages .done hp⟩
    · rw [← staging_persist symbols publish prioritized] at hl
      exact ⟨hintact, .publishes .done _ hp hl⟩
  | remove files =>
    obtain ⟨x, hx, rfl⟩ := ends_bind_pure.mp h
    obtain ⟨hintact, ⟨f, rfl, hl⟩ | ⟨n, rfl, hl⟩⟩ := remove_ledger hi hx
    · rw [hl]
      exact ⟨hintact, .nothing f⟩
    · rw [hl, ← staging_remove]
      exact ⟨hintact, .stages (.removed n) rfl⟩
  | commit =>
    obtain ⟨x, hx, rfl⟩ := ends_bind_pure.mp h
    obtain ⟨hintact, ⟨f, rfl, hl⟩ | ⟨rfl, hl⟩⟩ := commit_ledger hi hx
    · rw [hl]
      exact ⟨hintact, .nothing f⟩
    · have hstaging : (service cwd config).staging .commit st.ledger = st.ledger :=
        staging_self rfl rfl _
      rw [← hstaging] at hl
      exact ⟨hintact, .publishes .done _ rfl hl⟩
  | reindex files symbols prioritized =>
    obtain ⟨x, hx, rfl⟩ := ends_bind_pure.mp h
    unfold Service.reindex at hx
    rw [ends_bind] at hx
    rcases hx with ⟨n, m, hremove, hpersist⟩ | ⟨f, hremove, rfl⟩
    · obtain ⟨hmi, ⟨f, hf, _⟩ | ⟨_, _, hdrop⟩⟩ := remove_ledger hi hremove
      · exact absurd hf (by simp)
      · obtain ⟨hintact, ⟨f, rfl, hl⟩ | ⟨_, hp, _⟩ | ⟨rfl, _, hl⟩⟩ := persist_ledger hmi hpersist
        · rw [hl, hdrop]
          exact ⟨hintact, .removals f⟩
        · exact absurd hp (by simp)
        · rw [hdrop] at hl
          exact ⟨hintact, .publishes .done _ rfl hl⟩
    · obtain ⟨hintact, ⟨_, _, hl⟩ | ⟨_, hn, _⟩⟩ := remove_ledger hi hremove
      · rw [hl]
        exact ⟨hintact, .nothing f⟩
      · exact absurd hn (by simp)
  | shutdown =>
    obtain ⟨x, hx, rfl⟩ := ends_bind_pure.mp h
    obtain ⟨hintact, rfl, hl⟩ := shutdown_ledger hi hx
    have hstaging : (service cwd config).staging .shutdown st.ledger = st.ledger :=
      staging_self rfl rfl _
    rw [← hstaging] at hl
    exact ⟨hintact, .publishes .done _ rfl hl⟩
  | searchClasses text max => exact reading rfl
  | searchNames terms max => exact reading rfl
  | stats => exact reading rfl

theorem history_intact {calls : List (Call × Except Failure Answer)}
    (h : (service cwd config).History st calls st') (hi : st.Intact) : st'.Intact := by
  induction h with
  | nil => exact hi
  | cons head _ ih => exact ih (perform_effect hi head).1

/-- What every call keeps true of the ledger stays true. -/
theorem history_preserves {P : Ledger → Prop} {calls : List (Call × Except Failure Answer)}
    (h : (service cwd config).History st calls st') (hi : st.Intact)
    (hstep : ∀ c r l l', (c, r) ∈ calls → (service cwd config).Effect c l r l' → P l → P l')
    (hP : P st.ledger) : P st'.ledger := by
  induction h with
  | nil => exact hP
  | cons head _ ih =>
    obtain ⟨hm, heffect⟩ := perform_effect hi head
    have hrest := hstep _ _ _ _ List.mem_cons_self heffect hP
    exact ih hm (fun c r l l' hmem => hstep c r l l' (List.mem_cons_of_mem _ hmem)) hrest

end

end Store

end GoToSymbol
