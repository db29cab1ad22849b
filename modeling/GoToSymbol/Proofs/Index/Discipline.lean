import GoToSymbol.Proofs.Index.Locks
import GoToSymbol.Proofs.Index.Sessions

namespace GoToSymbol.Store

open GoToSymbol.Action Access

section

variable {σ ω α : Type}

/-- By this deed the writer was committed, or cancelled. -/
def Deed.Settles (w : ω) : Deed σ ω → Prop
  | .asked _ _ => False
  | .committed v r => v = w ∧ r = .ok ()
  | .cancelled v _ => v = w

/-- The writer was started, and was neither committed nor cancelled since. -/
def Standing (record : List (Deed σ ω)) (w : ω) : Prop :=
  ∃ before y since, record = before ++ .asked y (.ok w) :: since ∧ ∀ d ∈ since, ¬ d.Settles w

theorem not_standing_nil (w : ω) : ¬ Standing ([] : List (Deed σ ω)) w := by
  intro h
  obtain ⟨before, y, since, h, _⟩ := h
  exact absurd h (by simp)

/-- A writer stands if it was started last, or stood before and was not settled last. -/
theorem standing_concat {record : List (Deed σ ω)} {d : Deed σ ω} {w : ω} :
    Standing (record ++ [d]) w ↔
      (∃ y, d = .asked y (.ok w)) ∨ Standing record w ∧ ¬ d.Settles w := by
  constructor
  · intro h
    obtain ⟨before, y, since, h, hsince⟩ := h
    rcases List.eq_nil_or_concat' since with rfl | ⟨since, e, rfl⟩
    · obtain ⟨_, hd⟩ := List.append_inj' h rfl
      exact Or.inl ⟨y, List.singleton_inj.mp hd⟩
    · rw [← List.cons_append, ← List.append_assoc] at h
      obtain ⟨hrecord, hd⟩ := List.append_inj' h rfl
      obtain rfl := List.singleton_inj.mp hd
      refine Or.inr ⟨⟨before, y, since, hrecord, fun e he => ?_⟩, ?_⟩
      · exact hsince e (List.mem_append_left _ he)
      · exact hsince d (List.mem_append_right _ List.mem_cons_self)
  · intro h
    rcases h with ⟨y, rfl⟩ | ⟨⟨before, y, since, rfl, hsince⟩, hd⟩
    · exact ⟨record, y, [], rfl, by simp⟩
    · refine ⟨before, y, since ++ [d], by simp, fun e he => ?_⟩
      rcases List.mem_append.mp he with he | he
      · exact hsince e he
      · obtain rfl := List.mem_singleton.mp he
        exact hd

/-- On record the access has this writer, or none, and nobody else holds the lock. Within an
operation the pending writer may differ from it: a writer is kept after it was started, and let go of
before it is settled. -/
structure Accounts (holds : σ → ω → Prop) (w? : Option ω) (a : Access σ ω) : Prop where
  standing : ∀ w, Standing a.record w ↔ w? = some w
  holder : ∀ w, holds a.storage w → w? = some w
  asked : ∀ before y r, before ++ [.asked y r] <+: a.record →
    (∀ w, ¬ Standing before w) ∧ ∀ w, ¬ holds y w
  single : ∀ before, before <+: a.record → ∀ v w, Standing before v → Standing before w → v = w

namespace Accounts

variable {holds : σ → ω → Prop} {w? v? : Option ω} {a a' : Access σ ω} {x : σ} {d : Deed σ ω}

theorem congr (h : Accounts holds w? a) (hstorage : a'.storage = a.storage)
    (hrecord : a'.record = a.record) : Accounts holds w? a' := by
  refine ⟨?_, ?_, ?_, ?_⟩
  · rw [hrecord]
    exact h.standing
  · rw [hstorage]
    exact h.holder
  · rw [hrecord]
    exact h.asked
  · rw [hrecord]
    exact h.single

theorem setStorage (h : Accounts holds w? a) (hx : ∀ w, ¬ holds a.storage w → ¬ holds x w) :
    Accounts holds w? (a.setStorage x) :=
  ⟨h.standing, fun w hw => h.holder w (not_imp_not.mp (hx w) hw), h.asked, h.single⟩

/-- A deed is added to the record. Nobody may be asked for a writer while there is one. -/
theorem note (h : Accounts holds w? a)
    (hstanding : ∀ w, Standing (a.record ++ [d]) w ↔ v? = some w)
    (hholder : ∀ w, holds x w → v? = some w)
    (hasked : ∀ y r, d = .asked y r → w? = none ∧ y = a.storage) :
    Accounts holds v? ((a.setStorage x).note d) := by
  refine ⟨hstanding, hholder, fun before y r hprefix => ?_, fun before hprefix v w hv hw => ?_⟩
  · rcases List.prefix_concat_iff.mp hprefix with hlast | hearlier
    · obtain ⟨rfl, hd⟩ := List.append_inj' hlast rfl
      obtain ⟨rfl, rfl⟩ := hasked y r (List.singleton_inj.mp hd).symm
      refine ⟨fun w hw => ?_, fun w hw => ?_⟩
      · exact absurd ((h.standing w).mp hw) (by simp)
      · exact absurd (h.holder w hw) (by simp)
    · exact h.asked before y r hearlier
  · rcases List.prefix_concat_iff.mp hprefix with rfl | hearlier
    · exact Option.some.inj (((hstanding v).mp hv).symm.trans ((hstanding w).mp hw))
    · exact h.single before hearlier v w hv hw

variable {m : Medium σ ω} {w : ω}

/-- A new writer is started where there is none. -/
theorem started (hm : m.Locks holds) (h : Accounts holds none a) {r : Except Failure ω}
    (hend : Ends (askNoting .asked m.startWriter) a r a') : Accounts holds r.toOption a' := by
  obtain ⟨x, hstart, rfl⟩ := ends_askNoting.mp hend
  have hnone (w : ω) : ¬ Standing a.record w := by simp [h.standing]
  refine h.note (fun w => ?_) (fun w hw => ?_) ?_
  · rw [standing_concat]
    cases r <;> simp [hnone, Except.toOption]
  · rcases hm.startWriter hstart w hw with hbefore | rfl
    · exact absurd (h.holder w hbefore) (by simp)
    · rfl
  · intro y r' hd
    cases hd
    exact ⟨rfl, rfl⟩

/-- Once the writer is settled none is left, and nobody holds the lock. -/
theorem settled (h : Accounts holds (some w) a) (hd : d.Settles w) (hasked : ∀ y r, d ≠ .asked y r)
    (hx : ∀ v, ¬ holds a.storage v → ¬ holds x v) (hw : ¬ holds x w) :
    Accounts holds none ((a.setStorage x).note d) := by
  refine h.note (fun v => ?_) (fun v hv => ?_) fun y r hd => absurd hd (hasked y r)
  · refine iff_of_false (fun hv => ?_) (by simp)
    rcases standing_concat.mp hv with ⟨y, hd⟩ | ⟨hv, hnot⟩
    · exact hasked y _ hd
    · obtain rfl := Option.some.inj ((h.standing v).mp hv)
      exact hnot hd
  · obtain rfl := Option.some.inj (h.holder v (not_imp_not.mp (hx v) hv))
    exact absurd hv hw

/-- A commit that succeeds settles the writer. -/
theorem committed (hm : m.Locks holds) (h : Accounts holds (some w) a)
    (hend : Ends (askNoting (fun _ => .committed w) (m.commit w)) a (.ok ()) a') :
    Accounts holds none a' := by
  obtain ⟨x, hcommit, rfl⟩ := ends_askNoting.mp hend
  exact h.settled ⟨rfl, rfl⟩ nofun (fun v hv => hm.commit w v _ _ _ hv hcommit)
    (hm.committed hcommit)

/-- A commit that fails leaves the writer as it was. -/
theorem uncommitted (hm : m.Locks holds) (h : Accounts holds (some w) a) {f : Failure}
    (hend : Ends (askNoting (fun _ => .committed w) (m.commit w)) a (.error f) a') :
    Accounts holds (some w) a' := by
  obtain ⟨x, hcommit, rfl⟩ := ends_askNoting.mp hend
  refine h.note (fun v => ?_) (fun v hv => ?_) nofun
  · simp [standing_concat, h.standing, Deed.Settles]
  · exact h.holder v (not_imp_not.mp (fun hv => hm.commit w v _ _ _ hv hcommit) hv)

/-- A cancellation settles the writer, also if it fails. -/
theorem cancelled (hm : m.Locks holds) (h : Accounts holds (some w) a) {r : Except Failure Unit}
    (hend : Ends (askNoting (fun _ => .cancelled w) (m.cancel w)) a r a') :
    Accounts holds none a' := by
  obtain ⟨x, hcancel, rfl⟩ := ends_askNoting.mp hend
  exact h.settled rfl nofun (fun v hv => hm.cancel w v _ _ _ hv hcancel) (hm.cancelled hcancel)

end Accounts

/-- What is true of an access between its operations. -/
structure Orderly (holds : σ → ω → Prop) (a : Access σ ω) : Prop where
  accounts : Accounts holds a.writer a
  opened : ∀ w, a.writer = some w → a.opened = true
  closed : a.closed = true → a.writer = none

/-- What is true of an access that was not closed, also within an operation. -/
structure Live (holds : σ → ω → Prop) (a : Access σ ω) : Prop extends Orderly holds a where
  unclosed : a.closed = false

/-- What is true of an access that was not closed and has no writer. -/
structure Idle (holds : σ → ω → Prop) (a : Access σ ω) : Prop where
  accounts : Accounts holds none a
  writer : a.writer = none
  unclosed : a.closed = false

section

variable {holds : σ → ω → Prop} {m : Medium σ ω} {a a' : Access σ ω} {w : ω}

theorem orderly_start {x : σ} (hx : ∀ w, ¬ holds x w) : Orderly holds (start x : Access σ ω) where
  accounts := {
    standing := fun w => iff_of_false (not_standing_nil w) nofun
    holder := fun w hw => absurd hw (hx w)
    asked := fun before y r h => by simp [start] at h
    single := fun before h v w hv _ => by
      rw [List.prefix_nil.mp h] at hv
      exact absurd hv (not_standing_nil v) }
  opened := nofun
  closed := fun _ => rfl

theorem Idle.live (ha : Idle holds a) : Live holds a where
  accounts := by
    rw [ha.writer]
    exact ha.accounts
  opened w hw := absurd (ha.writer.symm.trans hw) (by simp)
  closed _ := ha.writer
  unclosed := ha.unclosed

theorem Live.idle (ha : Live holds a) (hwriter : a.writer = none) : Idle holds a where
  accounts := hwriter ▸ ha.accounts
  writer := hwriter
  unclosed := ha.unclosed

theorem Idle.setOpened (ha : Idle holds a) (opened : Bool) : Idle holds (a.setOpened opened) :=
  ⟨ha.accounts.congr rfl rfl, ha.writer, ha.unclosed⟩

theorem Orderly.setStorage (ha : Orderly holds a) {x : σ}
    (hx : ∀ w, ¬ holds a.storage w → ¬ holds x w) : Orderly holds (a.setStorage x) :=
  ⟨ha.accounts.setStorage hx, ha.opened, ha.closed⟩

theorem live_ask {t : Action σ α} (ht : Harmless holds t) :
    Keeps (Live holds) (ask t : Action (Access σ ω) α) := by
  intro a r a' ha hend
  obtain ⟨x, hx, rfl⟩ := ends_ask.mp hend
  exact ⟨ha.toOrderly.setStorage fun w hw => ht w _ _ _ hw hx, ha.unclosed⟩

/-- The access lets go of a writer before the writer is settled. -/
theorem Live.accounts_setWriter (ha : Live holds a) (hw : a.writer = some w) :
    Accounts holds (some w) (a.setWriter none) := by
  have haccounts := ha.accounts
  rw [hw] at haccounts
  exact haccounts.congr rfl rfl

theorem ends_bind_fail {τ β : Type} {t : Action τ α} {f : Failure} {s s' : τ} {r : Except Failure β}
    (h : Ends (t >>= fun _ => fail f) s r s') : ∃ x, Ends t s x s' := by
  rcases ends_bind.mp h with ⟨v, b, ht, hfail⟩ | ⟨g, ht, _⟩
  · rw [(ends_fail.mp hfail).2]
    exact ⟨.ok v, ht⟩
  · exact ⟨.error g, ht⟩

variable (hm : m.Locks holds)
include hm

theorem Live.useIndex (ha : Live holds a) {r : Except Failure Unit} (h : Ends m.useIndex a r a') :
    Live holds a' ∧ a'.writer = a.writer ∧ (r = .ok () → a'.opened = true) := by
  unfold Medium.useIndex at h
  rw [ends_read_bind] at h
  split at h
  · next hopened =>
    obtain ⟨_, rfl⟩ := ends_pure.mp h
    exact ⟨ha, rfl, fun _ => hopened⟩
  · rcases ends_bind.mp h with ⟨_, b, hask, hopen⟩ | ⟨f, hask, rfl⟩
    · have hb := live_ask hm.openIndex _ _ _ ha hask
      obtain ⟨x, _, rfl⟩ := ends_ask.mp hask
      rw [(ends_update.mp hopen).2]
      exact ⟨⟨⟨hb.accounts.congr rfl rfl, fun _ _ => rfl, hb.closed⟩, hb.unclosed⟩, rfl,
        fun _ => rfl⟩
    · have hb := live_ask hm.openIndex _ _ _ ha hask
      obtain ⟨x, _, rfl⟩ := ends_ask.mp hask
      exact ⟨hb, rfl, nofun⟩

/-- A writer is started only where none is pending, and on an open index. -/
theorem live_useWriter : Keeps (Live holds) m.useWriter := by
  intro a r a' ha h
  unfold Medium.useWriter at h
  rw [ends_read_bind] at h
  split at h
  · rw [(ends_pure.mp h).2]
    exact ha
  · next hnone =>
    rcases ends_bind.mp h with ⟨_, b, huse, h⟩ | ⟨f, huse, _⟩
    · obtain ⟨hb, hwriter, hopened⟩ := ha.useIndex hm huse
      have hidle := hb.idle (hwriter.trans hnone)
      rcases ends_bind.mp h with ⟨w, c, hstart, h⟩ | ⟨f, hstart, _⟩
      · have hstarted := hidle.accounts.started hm hstart
        obtain ⟨x, _, rfl⟩ := ends_askNoting.mp hstart
        rw [ends_update_bind, ends_pure] at h
        rw [h.2]
        exact ⟨⟨hstarted.congr rfl rfl, fun _ _ => hopened rfl,
          fun hclosed => absurd (hb.unclosed.symm.trans hclosed) (by simp)⟩, hb.unclosed⟩
      · have hstarted := hidle.accounts.started hm hstart
        obtain ⟨x, _, rfl⟩ := ends_askNoting.mp hstart
        exact Idle.live ⟨hstarted, hidle.writer, hidle.unclosed⟩
    · exact (ha.useIndex hm huse).1

/-- Whether the cancellation succeeds or fails, the writer is settled. -/
theorem Accounts.giveUp (ha : Accounts holds (some w) a) {r : Except Failure Unit}
    (h : Ends (m.giveUp w) a r a') :
    Accounts holds none a' ∧ a'.writer = a.writer ∧ a'.closed = a.closed := by
  rcases ends_rescue.mp h with ⟨_, hcancel, _⟩ | ⟨f, b, hcancel, hlog⟩
  · have hsettled := ha.cancelled hm hcancel
    obtain ⟨x, _, rfl⟩ := ends_askNoting.mp hcancel
    exact ⟨hsettled, rfl, rfl⟩
  · have hsettled := ha.cancelled hm hcancel
    obtain ⟨x, _, rfl⟩ := ends_askNoting.mp hcancel
    rw [(ends_log.mp hlog).2]
    exact ⟨hsettled, rfl, rfl⟩

/-- Whether the commit succeeds or fails, the writer is settled. -/
theorem Accounts.publish (ha : Accounts holds (some w) a) {r : Except Failure Unit}
    (h : Ends (m.publish w) a r a') :
    Accounts holds none a' ∧ a'.writer = a.writer ∧ a'.closed = a.closed := by
  rcases ends_rescue.mp h with ⟨_, hcommit, _⟩ | ⟨f, b, hcommit, hrest⟩
  · have hsettled := ha.committed hm hcommit
    obtain ⟨x, _, rfl⟩ := ends_askNoting.mp hcommit
    exact ⟨hsettled, rfl, rfl⟩
  · have hfailed := ha.uncommitted hm hcommit
    obtain ⟨x, _, rfl⟩ := ends_askNoting.mp hcommit
    obtain ⟨_, hgiven⟩ := ends_bind_fail hrest
    obtain ⟨hsettled, hwriter, hclosed⟩ := hfailed.giveUp hm hgiven
    exact ⟨hsettled, hwriter, hclosed⟩

theorem Live.abandon (ha : Live holds a) {r : Except Failure Unit} (h : Ends m.abandon a r a') :
    Idle holds a' := by
  unfold Medium.abandon at h
  rw [ends_read_bind] at h
  split at h
  · next hnone =>
    rw [(ends_update.mp h).2]
    exact (ha.idle hnone).setOpened false
  · next w hw =>
    rw [ends_update_bind] at h
    have hpending := ha.accounts_setWriter hw
    rcases ends_bind.mp h with ⟨_, b, hgiven, hdrop⟩ | ⟨f, hgiven, _⟩
    · obtain ⟨hsettled, hwriter, hclosed⟩ := hpending.giveUp hm hgiven
      rw [(ends_update.mp hdrop).2]
      exact Idle.setOpened ⟨hsettled, hwriter, hclosed.trans ha.unclosed⟩ false
    · obtain ⟨hsettled, hwriter, hclosed⟩ := hpending.giveUp hm hgiven
      exact ⟨hsettled, hwriter, hclosed.trans ha.unclosed⟩

/-- However a commit ends, no writer is pending. -/
theorem Live.flush (ha : Live holds a) {r : Except Failure Unit} (h : Ends m.flush a r a') :
    Idle holds a' := by
  unfold Medium.flush at h
  rw [ends_read_bind] at h
  split at h
  · next hnothing =>
    rw [(ends_pure.mp h).2]
    simp only [Bool.and_eq_true, Option.isNone_iff_eq_none] at hnothing
    exact ha.idle hnothing.1
  · split at h
    · split at h
      · next hnone =>
        rw [(ends_pure.mp h).2]
        exact ha.idle hnone
      · next w hw =>
        rw [ends_update_bind] at h
        obtain ⟨hsettled, hwriter, hclosed⟩ := (ha.accounts_setWriter hw).publish hm h
        exact ⟨hsettled, hwriter, hclosed.trans ha.unclosed⟩
    · obtain ⟨_, hdropped⟩ := ends_bind_fail h
      exact ha.abandon hm hdropped

theorem live_flush : Keeps (Live holds) m.flush := fun _ _ _ ha h => (ha.flush hm h).live

theorem live_addAll (w : ω) (ds : List Document) : Keeps (Live holds) (m.addAll w ds) := by
  induction ds with
  | nil => exact keeps_succeed ()
  | cons d ds ih => exact (live_ask (hm.add w d)).bind fun _ => ih

theorem live_eraseAll (w : ω) (qs : List Query) : Keeps (Live holds) (m.eraseAll w qs) := by
  induction qs with
  | nil => exact keeps_succeed 0
  | cons q qs ih => exact (live_ask (hm.erase w q)).bind fun _ => ih.bind fun _ => keeps_pure _

theorem live_put (ds : List Document) (commit : Bool) : Keeps (Live holds) (m.put ds commit) := by
  refine (live_useWriter hm).bind fun w => (live_addAll hm w ds).bind fun _ => ?_
  split
  · exact live_flush hm
  · exact keeps_pure ()

theorem live_delete (qs : List Query) (commit : Bool) :
    Keeps (Live holds) (m.delete qs commit) := by
  refine (live_useWriter hm).bind fun w => (live_eraseAll hm w qs).bind fun n => ?_
  split
  · exact (live_flush hm).bind fun _ => keeps_pure n
  · exact keeps_pure n

theorem live_useIndex : Keeps (Live holds) m.useIndex := fun _ _ _ ha h => (ha.useIndex hm h).1

theorem live_find (q : Query) (limit : Int) : Keeps (Live holds) (m.find q limit) := by
  unfold Medium.find
  split
  · exact keeps_succeed []
  · exact (live_useIndex hm).bind fun _ => live_ask (hm.search q limit)

theorem live_figures : Keeps (Live holds) m.figures :=
  (live_useIndex hm).bind fun _ => live_ask hm.stats

theorem Idle.letGo (ha : Idle holds a) {r : Except Failure Unit} (h : Ends m.letGo a r a') :
    Idle holds a' := by
  unfold Medium.letGo at h
  rw [ends_read_bind] at h
  split at h
  · rcases ends_bind.mp h with ⟨_, b, hclose, hdrop⟩ | ⟨f, hclose, _⟩
    · have hasked := live_ask hm.closeIndex _ _ _ ha.live hclose
      obtain ⟨x, _, rfl⟩ := ends_ask.mp hclose
      rw [(ends_update.mp hdrop).2]
      exact (hasked.idle ha.writer).setOpened false
    · have hasked := live_ask hm.closeIndex _ _ _ ha.live hclose
      obtain ⟨x, _, rfl⟩ := ends_ask.mp hclose
      exact hasked.idle ha.writer
  · rw [(ends_pure.mp h).2]
    exact ha

/-- Whether the release succeeds or fails, no writer is pending. -/
theorem Live.release (ha : Live holds a) {r : Except Failure Unit} (h : Ends m.release a r a') :
    Idle holds a' := by
  unfold Medium.release at h
  rw [ends_read_bind] at h
  split at h
  · rcases ends_bind.mp h with ⟨_, b, hflush, hclose⟩ | ⟨f, hflush, _⟩
    · exact (ha.flush hm hflush).letGo hm hclose
    · exact ha.flush hm hflush
  · next hnone =>
    exact (ha.idle (by simpa using hnone)).letGo hm h

omit hm in
/-- An access that was closed is asked no more. -/
theorem keeps_whileOpen {t : Action (Access σ ω) α} (ht : Keeps (Live holds) t) :
    Keeps (Orderly holds) (whileOpen t) := by
  intro a r a' ha h
  rcases ends_whileOpen.mp h with ⟨_, _, rfl⟩ | ⟨hopen, h⟩
  · exact ha
  · exact (ht a r a' ⟨ha, hopen⟩ h).toOrderly

omit hm in
/-- An access is closed once no writer is pending. -/
theorem Idle.close (ha : Idle holds a) : Orderly holds a.close where
  accounts := (ha.live.accounts).congr rfl rfl
  opened := ha.live.opened
  closed _ := ha.writer

theorem keeps_closeAfter {t : Action (Access σ ω) Unit}
    (ht : ∀ {a r a'}, Live holds a → Ends t a r a' → Ends m.release a r a') :
    Keeps (Orderly holds) (closeAfter t) := by
  intro a r a' ha h
  unfold closeAfter at h
  rw [ends_read_bind] at h
  split at h
  · rw [(ends_pure.mp h).2]
    exact ha
  · next hopen =>
    obtain ⟨b, hend, rfl⟩ := ends_ensure_update.mp h
    have hlive : Live holds a := ⟨ha, by simpa using hopen⟩
    exact (hlive.release hm (ht hlive hend)).close

theorem orderly_close : Keeps (Orderly holds) m.close := keeps_closeAfter hm fun _ h => h

theorem orderly_shutdown : Keeps (Orderly holds) m.shutdown := by
  refine keeps_closeAfter hm fun ha h => ?_
  rcases ends_whileOpen.mp h with ⟨hclosed, _⟩ | ⟨_, h⟩
  · exact absurd (ha.unclosed.symm.trans hclosed) (by simp)
  · exact h

theorem orderly_engine : m.engine.Keeps (Orderly holds) where
  put ds commit := keeps_whileOpen (live_put hm ds commit)
  delete qs commit := keeps_whileOpen ((live_delete hm qs commit).bind fun _ => keeps_pure _)
  commit := keeps_whileOpen (live_flush hm)
  search q limit := keeps_whileOpen (live_find hm q limit)
  shutdown := orderly_shutdown hm
  stats := keeps_whileOpen (live_figures hm)

theorem orderly_run (o : Operation) : Keeps (Orderly holds) (m.run o) := by
  have hengine := orderly_engine hm
  cases o with
  | request q =>
    cases q with
    | put ds commit => exact hengine.put ds commit
    | delete qs commit => exact (hengine.delete qs commit).bind fun _ => keeps_pure _
    | commit => exact hengine.commit
  | search q limit => exact (hengine.search q limit).bind fun _ => keeps_pure _
  | stats => exact hengine.stats.bind fun _ => keeps_pure _
  | shutdown => exact hengine.shutdown
  | close => exact orderly_close hm

theorem orderly_after {turns : List (Turn σ)} (hturns : ∀ t ∈ turns, t.Harmless holds)
    (ha : Orderly holds a) : Orderly holds (m.after a turns) := by
  induction turns generalizing a with
  | nil => exact ha
  | cons t turns ih =>
    refine ih (fun u hu => hturns u (List.mem_cons_of_mem t hu)) ?_
    cases t with
    | operation o => exact orderly_run hm o a _ _ ha (ends_self _ a)
    | meanwhile change =>
      exact ha.setStorage fun w => mt (hturns _ List.mem_cons_self a.storage w)

/-- After a commit no writer is pending, whether it returns or fails, or is refused as the access was
closed. -/
theorem Orderly.commit (ha : Orderly holds a) {r : Except Failure Unit}
    (h : Ends m.engine.commit a r a') : a'.writer = none := by
  rcases ends_whileOpen.mp h with ⟨hclosed, _, rfl⟩ | ⟨hopen, h⟩
  · exact ha.closed hclosed
  · exact (Live.flush hm ⟨ha, hopen⟩ h).writer

end

end

/-- A pending writer implies an open index, and after a commit none is pending, whether it returns or
fails. A new writer is only asked for when all writers before were committed or cancelled. So there is
one at most, the pending one, and where a storage keeps to its locks no writer is asked for while one
holds the lock. All this is so after any operations, any of whose calls may fail, and any changes that
others make to the storage. A directory keeps to its lock, and a session on it is such an access. -/
theorem writers_take_turns :
    (∀ (σ ω : Type) (m : Medium σ ω) (x : σ) (turns : List (Turn σ)),
      let a := m.after (.start x) turns
      (∀ w, a.writer = some w → a.opened = true) ∧
      (∀ r a', Ends m.engine.commit a r a' → a'.writer = none) ∧
      (∀ before y r, before ++ [Deed.asked y r] <+: a.record → ∀ w, ¬ Standing before w) ∧
      (∀ before, before <+: a.record → ∀ v w, Standing before v → Standing before w → v = w) ∧
      (∀ w, Standing a.record w ↔ a.writer = some w) ∧
      ∀ holds : σ → ω → Prop, m.Locks holds → (∀ w, ¬ holds x w) →
        (∀ t ∈ turns, t.Harmless holds) →
        (∀ y r, Deed.asked y r ∈ a.record → ∀ w, ¬ holds y w) ∧
          ∀ w, holds a.storage w → a.writer = some w) ∧
      Site.medium.Locks Site.Holds ∧
      ∀ (d : Directory) (events : List Event), d.catalogue ≠ .garbled →
        (∀ e ∈ events, e.Clean) →
          (Site.medium.after (.start (Site.start d)) (events.map Event.turn)).Shows
            (after (Session.start d) events) := by
  refine ⟨fun σ ω m x turns => ?_, Site.locks_medium, fun d events hd hevents => ?_⟩
  · intro a
    -- With a lock that nobody ever holds, the rest needs no assumption on the storage.
    have hunheld : Orderly (fun _ _ => False) a := by
      refine orderly_after m.locks_unheld (fun t _ => ?_) (orderly_start fun _ => id)
      cases t with
      | operation o => exact trivial
      | meanwhile change => exact fun _ _ => id
    have haccounts := hunheld.accounts
    refine ⟨hunheld.opened, fun r a' => hunheld.commit m.locks_unheld,
      fun before y r h => (haccounts.asked before y r h).1, haccounts.single, haccounts.standing,
      fun holds hm hx hturns => ?_⟩
    have hheld : Orderly holds a := orderly_after hm hturns (orderly_start hx)
    refine ⟨fun y r hy => ?_, hheld.accounts.holder⟩
    obtain ⟨before, later, hrecord⟩ := List.append_of_mem hy
    exact (hheld.accounts.asked before y r ⟨later, by simp [hrecord]⟩).2
  · exact shows_after (shows_start hd) hevents

/-- The commit of a writer fails, and the directory is deleted. A new writer is refused there until a
commit found the index gone. -/
def faultyTurns : List (Turn (List Bool × Site)) :=
  [.operation (.request (.put [] false)),
    .operation (.request .commit),
    .meanwhile fun p => (p.1, p.2.setDirectory p.2.directory.erase),
    .operation (.request (.put [] false)),
    .operation (.request .commit),
    .operation (.request (.put [] false))]

theorem writers_take_turns_deleted :
    let a := Site.medium.faulty.after
      (.start ([false, false, true], Site.start (.fresh "/index"))) faultyTurns
    (∃ x y z, a.record = [.asked x (.ok 0), .committed 0 (.error (.other "Fault")),
      .cancelled 0 (.ok ()), .asked y (.error .missing), .asked z (.ok 1)]) ∧
    a.opened = true ∧ (∀ n, Standing a.record n ↔ n = 1) ∧
    (∀ r a', Ends Site.medium.faulty.engine.commit a r a' → a'.writer = none) ∧
    (∀ y r, Deed.asked y r ∈ a.record → ∀ n, ¬ Site.Holds y.2 n) ∧
    (∀ n, Site.Holds a.storage.2 n → n = 1) ∧
    (Site.medium.after (.start (Site.start (.fresh "/index")))
      (deletedBeforeClosing.map Event.turn)).Shows
        (after (Session.start (.fresh "/index")) deletedBeforeClosing) := by
  intro a
  have hwriter : a.writer = some 1 := rfl
  obtain ⟨haccess, hlocks, hsessions⟩ := writers_take_turns
  obtain ⟨hopened, hcommit, _, _, hstanding, hholds⟩ := haccess _ _ Site.medium.faulty
    ([false, false, true], Site.start (.fresh "/index")) faultyTurns
  have hturns : ∀ t ∈ faultyTurns, t.Harmless fun p n => Site.Holds p.2 n := by
    intro t ht
    simp only [faultyTurns, List.mem_cons, List.not_mem_nil, or_false] at ht
    rcases ht with rfl | rfl | rfl | rfl | rfl | rfl
    all_goals first | exact trivial | exact fun p n hn => absurd hn nofun
  obtain ⟨hasked, hholder⟩ := hholds _ hlocks.faulty (fun n hn => absurd hn nofun) hturns
  refine ⟨⟨_, _, _, rfl⟩, hopened 1 hwriter, fun n => ?_, hcommit, hasked, fun n hn => ?_, ?_⟩
  · rw [hstanding, hwriter, Option.some_inj, eq_comm]
  · exact (Option.some.inj (hwriter.symm.trans (hholder n hn))).symm
  · refine hsessions _ _ (Directory.intact_fresh "/index").readable fun e he => ?_
    rcases List.mem_pair.mp he with rfl | rfl
    · exact trivial
    · exact Event.clean_erase

end GoToSymbol.Store
