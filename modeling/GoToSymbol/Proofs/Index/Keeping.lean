import GoToSymbol.Proofs.Index.Calls

namespace GoToSymbol

open GoToSymbol.Action

namespace Action

variable {σ α β : Type} {P : σ → Prop}

/-- The action keeps a property of the state, however it ends. -/
def Keeps (P : σ → Prop) (t : Action σ α) : Prop := ∀ s r s', P s → Ends t s r s' → P s'

theorem keeps_of_same {t : Action σ α} (h : ∀ s r s', Ends t s r s' → s' = s) : Keeps P t := by
  intro s r s' hs hend
  rw [h s r s' hend]
  exact hs

theorem keeps_succeed (a : α) : Keeps P (succeed a : Action σ α) :=
  keeps_of_same fun _ _ _ h => (ends_succeed.mp h).2

theorem keeps_pure (a : α) : Keeps P (pure a : Action σ α) := keeps_succeed a

theorem keeps_fail (f : Failure) : Keeps P (fail f : Action σ α) :=
  keeps_of_same fun _ _ _ h => (ends_fail.mp h).2

theorem keeps_read : Keeps P (read : Action σ σ) :=
  keeps_of_same fun _ _ _ h => (ends_read.mp h).2

theorem keeps_update {f : σ → σ} (h : ∀ s, P s → P (f s)) : Keeps P (update f) := by
  intro s r s' hs hend
  rw [(ends_update.mp hend).2]
  exact h s hs

theorem keeps_log (e : Log.Event) : Keeps P (log e : Action σ Unit) :=
  keeps_of_same fun _ _ _ h => (ends_log.mp h).2

theorem keeps_ofExcept (x : Except Failure α) : Keeps P (ofExcept x : Action σ α) :=
  keeps_of_same fun _ _ _ h => (ends_ofExcept.mp h).2

theorem Keeps.bind {t : Action σ α} {next : α → Action σ β} (ht : Keeps P t)
    (hnext : ∀ a, Keeps P (next a)) : Keeps P (t >>= next) := by
  intro s r s' hs h
  rcases ends_bind.mp h with ⟨a, m, hfirst, hrest⟩ | ⟨f, hfirst, _⟩
  · exact hnext a m r s' (ht s _ m hs hfirst) hrest
  · exact ht s _ s' hs hfirst

theorem Keeps.rescue {t : Action σ α} {handler : Failure → Action σ α} (ht : Keeps P t)
    (hhandler : ∀ f, Keeps P (handler f)) : Keeps P (rescue t handler) := by
  intro s r s' hs h
  rcases ends_rescue.mp h with ⟨a, hfirst, _⟩ | ⟨f, m, hfirst, hrest⟩
  · exact ht s _ s' hs hfirst
  · exact hhandler f m r s' (ht s _ m hs hfirst) hrest

theorem Keeps.guarded {t : Action σ α} (ht : Keeps P t) (operation : String) :
    Keeps P (Service.guarded operation t) := by
  intro s r s' hs h
  rcases Service.ends_guarded.mp h with ⟨a, hend, _⟩ | ⟨f, hend, _⟩
  · exact ht s _ s' hs hend
  · exact ht s _ s' hs hend

end Action

/-- Each operation of a storage keeps a property of its state. -/
structure Engine.Keeps {σ : Type} (P : σ → Prop) (e : Engine σ) : Prop where
  put : ∀ documents publish, Action.Keeps P (e.put documents publish)
  delete : ∀ queries publish, Action.Keeps P (e.delete queries publish)
  commit : Action.Keeps P e.commit
  search : ∀ q limit, Action.Keeps P (e.search q limit)
  shutdown : Action.Keeps P e.shutdown
  stats : Action.Keeps P e.stats

namespace Service

variable {σ : Type} {P : σ → Prop} {s : Service σ} (h : s.engine.Keeps P)
include h

theorem keeps_commit : Keeps P s.commit := by
  refine (h.commit.guarded "commit").rescue fun f => ?_
  cases f with
  | missing => exact keeps_log _
  | _ => exact keeps_fail _

theorem keeps_remove (files : List File.Reference) : Keeps P (s.remove files) := by
  unfold remove
  split
  · exact keeps_succeed 0
  · exact ((h.delete _ false).guarded "delete").bind fun _ =>
      (keeps_log _).bind fun _ => keeps_pure _

theorem keeps_persist (symbols : List Submission) (publish prioritized : Bool) :
    Keeps P (s.persist symbols publish prioritized) := by
  refine (keeps_ofExcept _).bind fun documents => ?_
  split
  · split
    · exact keeps_commit h
    · exact keeps_succeed ()
  · exact ((h.put documents publish).guarded "put").bind fun _ => keeps_log _

theorem keeps_find (q : Query) (limit : Int) : Keeps P (s.find q limit) :=
  ((h.search q limit).guarded "search").bind fun _ => (keeps_ofExcept _).bind fun _ => keeps_pure _

/-- A call does nothing but what the storage does for it. -/
theorem keeps_perform (c : Call) : Keeps P (s.perform c) := by
  cases c with
  | persist symbols publish prioritized =>
    exact (keeps_persist h symbols publish prioritized).bind fun _ => keeps_pure _
  | remove files => exact (keeps_remove h files).bind fun _ => keeps_pure _
  | commit => exact (keeps_commit h).bind fun _ => keeps_pure _
  | reindex files symbols prioritized =>
    refine ((keeps_remove h files).bind fun _ => ?_).bind fun _ => keeps_pure _
    exact keeps_persist h symbols true prioritized
  | searchClasses text max => exact (keeps_find h _ _).bind fun _ => keeps_pure _
  | searchNames terms max =>
    refine Keeps.bind ?_ fun _ => keeps_pure _
    unfold searchClassesMethods
    split
    · exact keeps_succeed []
    · exact keeps_find h _ _
  | stats => exact (h.stats.guarded "stats").bind fun _ => keeps_pure _
  | shutdown => exact (h.shutdown.guarded "shutdown").bind fun _ => keeps_pure _

end Service

namespace Store

open Store.Work

/-- The parts that the operations of a storage are made of keep a property of its sessions. -/
structure Kept (P : Session → Prop) : Prop where
  openIndex : Keeps P openIndex
  useWriter : Keeps P useWriter
  addDocument : ∀ s x, P s → P (s.addDocument x)
  eraseBy : ∀ q, Keeps P (eraseBy q)
  flush : Keeps P flush

namespace Kept

variable {P : Session → Prop} (h : Kept P)
include h

theorem stageAll (ds : List Document) : Keeps P (stageAll ds) := by
  induction ds with
  | nil => exact keeps_succeed ()
  | cons d ds ih =>
    exact (keeps_ofExcept _).bind fun x => (keeps_update fun s => h.addDocument s x).bind fun _ => ih

theorem eraseAll (qs : List Query) : Keeps P (eraseAll qs) := by
  induction qs with
  | nil => exact keeps_succeed 0
  | cons q qs ih => exact (h.eraseBy q).bind fun _ => ih.bind fun _ => keeps_pure _

theorem put (ds : List Document) (publish : Bool) : Keeps P (put ds publish) := by
  refine h.useWriter.bind fun _ => (h.stageAll ds).bind fun _ => ?_
  split
  · exact h.flush
  · exact keeps_pure ()

theorem delete (qs : List Query) (publish : Bool) : Keeps P (delete qs publish) := by
  refine h.useWriter.bind fun _ => (h.eraseAll qs).bind fun n => ?_
  split
  · exact h.flush.bind fun _ => keeps_pure n
  · exact keeps_pure n

omit h in
theorem readSegments : Keeps P readSegments := keeps_of_same fun _ _ _ => readSegments_same

theorem search (q : Query) (limit : Int) : Keeps P (search q limit) := by
  unfold Work.search
  split
  · exact keeps_pure []
  · exact h.openIndex.bind fun _ => readSegments.bind fun _ => keeps_pure _

theorem stats : Keeps P stats := by
  refine h.openIndex.bind fun _ => keeps_read.bind fun s => ?_
  split
  · exact keeps_fail .missing
  · exact readSegments.bind fun _ => keeps_pure _

/-- Of a session that was closed only the closing itself asks more. -/
theorem engine {Q : Session → Prop} (hopen : ∀ s, Q s → s.handle.closed = false → P s)
    (hQ : ∀ s, P s → Q s) (hshutdown : Keeps Q Work.shutdown) : engine.Keeps Q := by
  have keeps_whileOpen {α : Type} {t : Work α} (ht : Keeps P t) : Keeps Q (whileOpen t) := by
    intro s r s' hs hend
    rcases ends_whileOpen.mp hend with ⟨_, _, rfl⟩ | ⟨hc, hend⟩
    · exact hs
    · exact hQ s' (ht s r s' (hopen s hs hc) hend)
  exact {
    put := fun documents publish => keeps_whileOpen (h.put documents publish)
    delete := fun queries publish =>
      keeps_whileOpen ((h.delete queries publish).bind fun _ => keeps_pure _)
    commit := keeps_whileOpen h.flush
    search := fun q limit => keeps_whileOpen (h.search q limit)
    shutdown := hshutdown
    stats := keeps_whileOpen h.stats }

end Kept

end Store

end GoToSymbol
