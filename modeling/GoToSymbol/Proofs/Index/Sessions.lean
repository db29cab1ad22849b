import GoToSymbol.Proofs.Index.Site

namespace GoToSymbol.Store

open GoToSymbol.Action

namespace Access

open Site

section

variable {σ ω α : Type} (t : Action σ α) (a : Access σ ω) {r : Except Failure α} {x : σ}

theorem ask_of_eq (h : t a.storage = ⟨r, x, []⟩) : ask t a = ⟨r, a.setStorage x, []⟩ := by
  simp [ask, h]

theorem askNoting_of_eq {deed : σ → Except Failure α → Deed σ ω} (h : t a.storage = ⟨r, x, []⟩) :
    askNoting deed t a = ⟨r, (a.setStorage x).note (deed a.storage r), []⟩ := by
  simp [askNoting, h]

end

section

variable {σ ω : Type} {m : Medium σ ω} {w : ω} {a : Access σ ω} {x : σ} {f : Failure}

theorem giveUp_of_ok (h : m.cancel w a.storage = ⟨.ok (), x, []⟩) :
    m.giveUp w a = ⟨.ok (), (a.setStorage x).note (.cancelled w (.ok ())), []⟩ :=
  rescue_of_ok (askNoting_of_eq (m.cancel w) a h) _

/-- A writer that could not be cancelled is given up with a warning. -/
theorem giveUp_of_error (h : m.cancel w a.storage = ⟨.error f, x, []⟩) :
    m.giveUp w a = ⟨.ok (), (a.setStorage x).note (.cancelled w (.error f)),
      [⟨.warning, "Could not cancel index writer", []⟩]⟩ :=
  rescue_of_error (askNoting_of_eq (m.cancel w) a h) _

theorem publish_of_ok (h : m.commit w a.storage = ⟨.ok (), x, []⟩) :
    m.publish w a = ⟨.ok (), (a.setStorage x).note (.committed w (.ok ())), []⟩ :=
  rescue_of_ok (askNoting_of_eq (m.commit w) a h) _

/-- A writer that could not be committed is given up. -/
theorem publish_of_error (h : m.commit w a.storage = ⟨.error f, x, []⟩) :
    m.publish w a =
      (m.giveUp w >>= fun _ => fail f) ((a.setStorage x).note (.committed w (.error f))) :=
  rescue_of_error (askNoting_of_eq (m.commit w) a h) _

end

/-- The session is the access. -/
def Shows (a : Access Site Nat) (s : Session) : Prop :=
  Site.Shows a.opened a.writer a.closed a.storage s

variable {a : Access Site Nat} {s : Session} {n : Nat}

theorem Shows.pending (hs : Shows a s) (hwriter : a.writer = some n) :
    Site.Shows a.opened (some n) a.closed a.storage s := hwriter ▸ hs

theorem shows_setStorage {y : Site} (hwriter : a.writer = some n)
    (h : Site.Shows a.opened (some n) a.closed y s) : Shows (a.setStorage y) s := by
  rw [← hwriter] at h
  exact h

theorem Shows.idle (hs : Shows a s) (hwriter : a.writer = none) : s.handle.writer = none := by
  have hnone := hs.writer
  rw [hwriter, Option.map_eq_none_iff] at hnone
  rw [hs.session]
  exact hnone

theorem Shows.letGo (hs : Shows a s) : Shows (a.setOpened false) (s.setOpened false) := by
  obtain ⟨hsession, hwriter, hreadable⟩ := hs
  exact ⟨by rw [hsession]; rfl, hwriter, hreadable⟩

theorem Shows.close (hs : Shows a s) : Shows a.close s.close := by
  obtain ⟨hsession, hwriter, hreadable⟩ := hs
  exact ⟨by rw [hsession]; rfl, hwriter, hreadable⟩

theorem Shows.directory (hs : Shows a s) : s.directory = a.storage.directory :=
  Site.Shows.directory hs

theorem Shows.opened (hs : Shows a s) : s.handle.opened = a.opened := by rw [hs.session]

theorem Shows.closed (hs : Shows a s) : s.handle.closed = a.closed := by rw [hs.session]

theorem Shows.isSome_writer (hs : Shows a s) : s.handle.writer.isSome = a.writer.isSome := by
  rw [← hs.writer, hs.session, Option.isSome_map]

/-- What agrees on a directory agrees where an access asks it of the directory. -/
theorem agree_ask {α β : Type} {A : α → β → Prop} {t : Action Site α} {u : Work β}
    (h : (t a.storage).Agree (Site.Shows a.opened a.writer a.closed) A (u s)) :
    (ask t a).Agree Shows A (u s) := ⟨h.result, h.state, h.events⟩

theorem agree_useIndex : Agree Shows Eq medium.useIndex Work.openIndex := by
  refine agree_read_bind fun a s hs => ?_
  cases hopened : a.opened with
  | true =>
    rw [if_pos rfl, if_pos (hs.opened.trans hopened)]
    exact ⟨.ok rfl, hs, rfl⟩
  | false =>
    unfold Shows at hs
    rw [hopened] at hs
    obtain ⟨y, s', hask, hopen, hshown⟩ := openIndex_shows hs
    rw [if_neg (by simp), bind_of_ok (ask_of_eq medium.openIndex a hask)]
    change Outcome.Agree Shows Eq _ (Work.openIndex s)
    rw [hopen]
    exact ⟨.ok rfl, hshown, rfl⟩

theorem agree_useWriter : Agree Shows (fun n w => n = w.number) medium.useWriter Work.useWriter := by
  refine agree_read_bind fun a s hs => ?_
  cases hwriter : a.writer with
  | some n =>
    obtain ⟨w, hw, _, hnumber⟩ := (hs.pending hwriter).draft
    rw [hw]
    exact ⟨.ok hnumber.symm, hs, rfl⟩
  | none =>
    rw [hs.idle hwriter]
    refine (agree_useIndex.bind fun _ _ _ => ?_) a s hs
    intro a s hs
    rcases startWriter_shows hs with ⟨f, hask, hstart⟩ | ⟨w, y, s', hask, hstart, hshown⟩
    · rw [bind_of_error (askNoting_of_eq medium.startWriter a hask), hstart]
      exact ⟨.error f, hs, rfl⟩
    · rw [bind_of_ok (askNoting_of_eq medium.startWriter a hask), hstart]
      exact ⟨.ok rfl, hshown, rfl⟩

/-- A writer that could be had is the pending one. -/
theorem writer_of_useWriter {σ ω : Type} {m : Medium σ ω} {a a' : Access σ ω} {w : ω}
    (h : Ends m.useWriter a (.ok w) a') : a'.writer = some w := by
  unfold Medium.useWriter at h
  rw [ends_read_bind] at h
  split at h
  · next v hv =>
    obtain ⟨hw, rfl⟩ := ends_pure.mp h
    cases hw
    exact hv
  · obtain ⟨_, _, _, h⟩ := ends_bind_ok.mp h
    obtain ⟨_, _, _, h⟩ := ends_bind_ok.mp h
    rw [ends_update_bind, ends_pure] at h
    obtain ⟨hw, rfl⟩ := h
    cases hw
    rfl

/-- Documents are staged one by one in both places, up to the first one that is refused. -/
theorem addAll_shows (ds : List Document) (hs : Shows a s) (hwriter : a.writer = some n) :
    (medium.addAll n ds a).Agree Shows Eq (Work.stageAll ds s) := by
  induction ds generalizing a s with
  | nil => exact ⟨.ok rfl, hs, rfl⟩
  | cons d ds ih =>
    unfold Medium.addAll Work.stageAll
    rcases add_shows (hs.pending hwriter) d with ⟨f, hd, hask⟩ | ⟨stored, y, hd, hask, hshown⟩
    · rw [bind_of_error (ask_of_eq (medium.add n d) a hask), hd]
      exact ⟨.error f, hs, rfl⟩
    · rw [bind_of_ok (ask_of_eq (medium.add n d) a hask), hd]
      exact ih (shows_setStorage hwriter hshown) hwriter

theorem eraseAll_shows (qs : List Query) (hs : Shows a s) (hwriter : a.writer = some n) :
    (medium.eraseAll n qs a).Agree Shows Eq (Work.eraseAll qs s) := by
  induction qs generalizing a s with
  | nil => exact ⟨.ok rfl, hs, rfl⟩
  | cons q qs ih =>
    have hfirst : (ask (medium.erase n q) a).Agree Shows Eq (Work.eraseBy q s) :=
      agree_ask (hwriter.symm ▸ erase_shows (hs.pending hwriter) q)
    refine agree_bind_at hfirst fun k k' _ hk => ?_
    have hrest := ih hfirst.state hwriter
    exact agree_bind_at hrest fun l l' _ hl =>
      ⟨.ok (congrArg₂ (· + ·) hk hl), hrest.state, rfl⟩

theorem abandonWriter_eq {w : Writer} (hw : s.handle.writer = some w) :
    Work.abandonWriter s = ⟨.ok (), (s.setDirectory (s.directory.unlock w.number)).setWriter none,
      [⟨.warning, "Could not cancel index writer", []⟩]⟩ := by
  rw [Work.abandonWriter, read_bind, hw]
  rfl

section

variable {w : Writer}

/-- A writer that is given up leaves the session without one. -/
theorem giveUp_held (hs : Shows a s) (hwriter : a.writer = some n)
    (hindex : a.storage.directory.hasIndex = true) (hlock : a.storage.directory.lock = some n) :
    ∃ b, medium.giveUp n (a.setWriter none) = ⟨.ok (), b, []⟩ ∧
      Shows b ((s.setDirectory (s.directory.unlock n)).setWriter none) := by
  obtain ⟨y, hask, hshown⟩ := cancel_shows (hs.pending hwriter)
  rw [if_pos (by simp [hindex, hlock])] at hask
  exact ⟨_, giveUp_of_ok hask, hshown⟩

/-- Where nothing is left to cancel, a warning tells so. -/
theorem giveUp_lost (hs : Shows a s) (hwriter : a.writer = some n)
    (hlost : ¬ (a.storage.directory.hasIndex = true ∧ a.storage.directory.lock = some n)) :
    (medium.giveUp n (a.setWriter none)).Agree Shows Eq (Work.abandonWriter s) := by
  obtain ⟨w, hw, _, hnumber⟩ := (hs.pending hwriter).draft
  obtain ⟨y, hask, hshown⟩ := cancel_shows (hs.pending hwriter)
  rw [if_neg (by simpa using hlost)] at hask
  have hgiven : medium.giveUp n (a.setWriter none) = _ := giveUp_of_error hask
  rw [hgiven, abandonWriter_eq hw, hnumber]
  exact ⟨.ok rfl, hshown, rfl⟩

/-- A writer publishes in both places, or it is given up in both. -/
theorem publish_shows {generation : Nat} {segments : List Segment} (hs : Shows a s)
    (hwriter : a.writer = some n) (hw : s.handle.writer = some w)
    (hcatalogue : a.storage.directory.catalogue = .sound generation segments) :
    (medium.publish n (a.setWriter none)).Agree Shows Eq (Work.publish generation w s) := by
  obtain ⟨v, hv, _, rfl⟩ := (hs.pending hwriter).draft
  obtain rfl : v = w := Option.some.inj (hv.symm.trans hw)
  have hcommit := commit_eq (hs.pending hwriter) hw hcatalogue
  -- A failed commit is put on record. That changes nothing else.
  have hnoted : Shows (a.note (.committed v.number (.error .missing))) s := hs
  have hfailed (h : medium.commit v.number a.storage = ⟨.error .missing, a.storage, []⟩) :
      medium.publish v.number (a.setWriter none) =
        (medium.giveUp v.number >>= fun _ => fail .missing)
          ((a.note (.committed v.number (.error .missing))).setWriter none) :=
    publish_of_error h
  unfold Work.publish
  rw [read_bind, hs.directory]
  by_cases hlock : a.storage.directory.lock = some v.number
  · rw [if_neg (not_not.mpr hlock)]
    by_cases hlost : (plan v.base).merged.any a.storage.directory.isLost = true
    · have hindex := Directory.hasIndex_of_sound hcatalogue
      obtain ⟨b, hgiven, hshown⟩ := giveUp_held hnoted hwriter hindex hlock
      rw [if_pos (Or.inr hlost)] at hcommit
      rw [hfailed hcommit, bind_of_ok hgiven, if_pos hlost, update_bind, ← hs.directory]
      exact ⟨.error .missing, hshown, rfl⟩
    · rw [if_neg (not_or.mpr ⟨not_not.mpr hlock, hlost⟩)] at hcommit
      have hpublished : medium.publish v.number (a.setWriter none) = _ := publish_of_ok hcommit
      rw [hpublished, if_neg hlost]
      obtain ⟨rfl, _, _⟩ := hs
      exact ⟨.ok rfl, ⟨rfl, rfl, readable_written _ _ _⟩, rfl⟩
  · have hgiven := giveUp_lost hnoted hwriter fun h => hlock h.2
    rw [if_pos (Or.inl hlock)] at hcommit
    rw [hfailed hcommit, if_pos hlock]
    exact agree_bind_at hgiven fun _ _ _ _ => ⟨.error .missing, hgiven.state, rfl⟩

end

/-- Where the index is gone, the writer is dropped with a warning. -/
theorem abandon_shows (hs : Shows a s) (hgone : a.storage.directory.hasIndex = false) :
    (medium.abandon a).Agree Shows Eq
      ((Work.abandonWriter >>= fun _ => update (·.setOpened false)) s) := by
  unfold Medium.abandon
  rw [read_bind]
  cases hwriter : a.writer with
  | none =>
    have hidle : Work.abandonWriter s = ⟨.ok (), s, []⟩ := by
      rw [Work.abandonWriter, read_bind, hs.idle hwriter]
      rfl
    rw [bind_of_ok hidle]
    exact ⟨.ok rfl, hs.letGo, rfl⟩
  | some n =>
    have hgiven := giveUp_lost hs hwriter (by simp [hgone])
    simp only
    rw [update_bind]
    exact agree_bind_at hgiven fun _ _ _ _ => ⟨.ok rfl, hgiven.state.letGo, rfl⟩

theorem agree_flush : Agree Shows Eq medium.flush Work.flush := by
  refine agree_read_bind fun a s hs => ?_
  refine agree_ite ?_ (fun _ => ⟨.ok rfl, hs, rfl⟩) fun _ => ?_
  · have hnone : s.handle.writer.isNone = a.writer.isNone := by
      rw [← Option.not_isSome, ← Option.not_isSome, hs.isSome_writer]
    rw [hnone, hs.opened]
  rw [hs.directory]
  cases hcatalogue : a.storage.directory.catalogue with
  | garbled => exact absurd hcatalogue hs.readable
  | absent =>
    have hgone : medium.hasIndex a.storage = false := Directory.hasIndex_of_absent hcatalogue
    rw [hgone, if_neg (by simp)]
    have hdropped := abandon_shows hs hgone
    change ((medium.abandon >>= fun _ => fail .missing) a).Agree Shows Eq
      (Work.abandonWriter.andThen (fun _ => (update (·.setOpened false)).andThen
        fun _ => fail .missing) s)
    rw [← andThen_assoc]
    exact agree_bind_at hdropped fun _ _ _ _ => ⟨.error .missing, hdropped.state, rfl⟩
  | sound generation segments =>
    have hindex : medium.hasIndex a.storage = true := Directory.hasIndex_of_sound hcatalogue
    rw [hindex, if_pos rfl]
    cases hwriter : a.writer with
    | none =>
      rw [hs.idle hwriter]
      exact ⟨.ok rfl, hs, rfl⟩
    | some n =>
      obtain ⟨w, hw, _, _⟩ := (hs.pending hwriter).draft
      rw [hw]
      exact publish_shows hs hwriter hw hcatalogue

theorem agree_put (ds : List Document) (commit : Bool) :
    Agree Shows Eq (medium.put ds commit) (Work.put ds commit) := by
  intro a s hs
  have huse := agree_useWriter a s hs
  refine agree_bind_at huse fun n w hend _ => ?_
  have hadd := addAll_shows ds huse.state (writer_of_useWriter hend)
  refine agree_bind_at hadd fun _ _ _ _ => ?_
  exact agree_ite Iff.rfl (fun _ => agree_flush _ _ hadd.state) fun _ => ⟨.ok rfl, hadd.state, rfl⟩

theorem agree_delete (qs : List Query) (commit : Bool) :
    Agree Shows Eq (medium.delete qs commit) (Work.delete qs commit) := by
  intro a s hs
  have huse := agree_useWriter a s hs
  refine agree_bind_at huse fun n w hend _ => ?_
  have herase := eraseAll_shows qs huse.state (writer_of_useWriter hend)
  refine agree_bind_at herase fun k k' _ hk => ?_
  refine agree_ite Iff.rfl (fun _ => ?_) fun _ => ⟨.ok hk, herase.state, rfl⟩
  exact (agree_flush.bind fun _ _ _ => agree_pure hk) _ _ herase.state

theorem agree_find (q : Query) (limit : Int) :
    Agree Shows Eq (medium.find q limit) (Work.search q limit) := by
  intro a s hs
  refine agree_ite Iff.rfl (fun _ => ⟨.ok rfl, hs, rfl⟩) fun _ => ?_
  refine (agree_useIndex.bind fun _ _ _ => ?_) a s hs
  intro a s hs
  refine agree_ask ?_
  have hread := readSegments_shows hs
  refine agree_bind_at hread fun segments segments' _ hsegments => ?_
  rw [hsegments]
  exact ⟨.ok rfl, hread.state, rfl⟩

theorem agree_figures : Agree Shows Eq medium.figures Work.stats := by
  refine agree_useIndex.bind fun _ _ _ => ?_
  intro a s hs
  refine agree_ask ?_
  change Outcome.Agree _ _ (stats a.storage) _
  unfold stats
  rw [read_bind, read_bind, hs.directory]
  refine agree_ite Iff.rfl (fun _ => ⟨.error .missing, hs, rfl⟩) fun _ => ?_
  have hread := readSegments_shows hs
  refine agree_bind_at hread fun segments segments' _ hsegments => ?_
  rw [hsegments]
  exact ⟨.ok rfl, hread.state, rfl⟩

theorem agree_letGo : Agree Shows Eq medium.letGo (update (·.setOpened false)) := by
  intro a s hs
  unfold Medium.letGo
  rw [read_bind]
  cases hopened : a.opened with
  | true => exact ⟨.ok rfl, hs.letGo, rfl⟩
  | false =>
    have hsame : a.setOpened false = a := by rw [← hopened]; rfl
    have hgone := hs.letGo
    rw [hsame] at hgone
    exact ⟨.ok rfl, hgone, rfl⟩

theorem agree_release : Agree Shows Eq medium.release Work.release := by
  refine agree_read_bind fun a s hs => ?_
  rw [hs.isSome_writer]
  cases hwriter : a.writer.isSome with
  | true => exact (agree_flush.bind fun _ _ _ => agree_letGo) a s hs
  | false => exact agree_letGo a s hs

theorem agree_whileOpen {α β : Type} {A : α → β → Prop} {t : Action (Access Site Nat) α}
    {u : Work β} (h : Agree Shows A t u) : Agree Shows A (whileOpen t) (Work.whileOpen u) := by
  refine agree_read_bind fun a s hs => ?_
  exact agree_ite (by rw [hs.closed]) (fun _ => ⟨.error .stopped, hs, rfl⟩) fun _ => h a s hs

theorem agree_closeAfter {t : Action (Access Site Nat) Unit} {u : Work Unit}
    (h : Agree Shows Eq t u) :
    Agree Shows Eq (closeAfter t)
      (do
        let s ← read
        if s.handle.closed then return
        ensure u (update Session.close)) := by
  refine agree_read_bind fun a s hs => ?_
  refine agree_ite (by rw [hs.closed]) (fun _ => ⟨.ok rfl, hs, rfl⟩) fun _ => ?_
  exact (h.ensure (agree_update fun _ _ hs => hs.close)) a s hs

/-- The operations of an access to a directory are those of a session. -/
theorem agree_run (o : Operation) : Agree Shows Eq (medium.run o) o.run := by
  cases o with
  | request q =>
    cases q with
    | put documents commit => exact agree_whileOpen (agree_put documents commit)
    | delete queries commit =>
      have hdelete : Agree Shows Eq (medium.engine.delete queries commit)
          (engine.delete queries commit) :=
        agree_whileOpen ((agree_delete queries commit).bind fun _ _ hn =>
          agree_pure (congrArg Int.ofNat hn))
      exact hdelete.bind fun _ _ _ => agree_pure rfl
    | commit => exact agree_whileOpen agree_flush
  | search q limit => exact (agree_whileOpen (agree_find q limit)).bind fun _ _ _ => agree_pure rfl
  | stats => exact (agree_whileOpen agree_figures).bind fun _ _ _ => agree_pure rfl
  | shutdown => exact agree_closeAfter (agree_whileOpen agree_release)
  | close => exact agree_closeAfter agree_release

end Access

/-- An event of a session as a turn of an access. -/
def Event.turn : Event → Turn Site
  | .operation o => .operation o
  | .meanwhile change => .meanwhile fun x => x.setDirectory (change x.directory)

namespace Access

theorem shows_after {a : Access Site Nat} {s : Session} (hs : Shows a s) {events : List Event}
    (hevents : ∀ e ∈ events, e.Clean) :
    Shows (Site.medium.after a (events.map Event.turn)) (Store.after s events) := by
  induction events generalizing a s with
  | nil => exact hs
  | cons e events ih =>
    refine ih ?_ fun e' he' => hevents e' (List.mem_cons_of_mem e he')
    cases e with
    | operation o => exact (agree_run o a s hs).state
    | meanwhile change =>
      obtain ⟨rfl, hwriter, hreadable⟩ := hs
      exact ⟨rfl, hwriter, hevents _ List.mem_cons_self a.storage.directory hreadable⟩

theorem shows_start {d : Directory} (hd : d.catalogue ≠ .garbled) :
    Shows (start (Site.start d)) (Session.start d) := by
  refine ⟨rfl, rfl, ?_⟩
  change d.make.catalogue ≠ .garbled
  rwa [Directory.catalogue_make]

end Access

end GoToSymbol.Store
