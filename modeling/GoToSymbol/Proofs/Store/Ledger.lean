import GoToSymbol.Proofs.Index.Ending
import GoToSymbol.Proofs.Store.Documents
import GoToSymbol.Store.Engine

namespace GoToSymbol.Store

open GoToSymbol.Action

/-- Whether a document comes from one of these files. -/
def Stored.isOf (uris : List String) (x : Stored) : Bool := x.file ∈ uris.map some

theorem Stored.isOf_append (us vs : List String) (x : Stored) :
    x.isOf (us ++ vs) = (x.isOf us || x.isOf vs) := by
  rw [Bool.eq_iff_iff]
  simp [isOf]

theorem Stored.isOf_congr {us vs : List String} (h : ∀ u, u ∈ us ↔ u ∈ vs) (x : Stored) :
    x.isOf us = x.isOf vs := by
  rw [Bool.eq_iff_iff]
  simp [isOf, h]

theorem Stored.isOf_perm {us vs : List String} (h : us.Perm vs) (x : Stored) :
    x.isOf us = x.isOf vs := isOf_congr (fun _ => h.mem_iff) x

end GoToSymbol.Store

namespace GoToSymbol.Query

open Store

/-- The queries for some files meet the documents that come from them. -/
theorem acceptsAny_forFile (uris : List String) (d : Stored) :
    acceptsAny (uris.map forFile) d = d.isOf uris := by
  rw [Bool.eq_iff_iff, Stored.isOf, decide_eq_true_eq, acceptsAny_eq_any, List.any_map,
    List.any_eq_true, List.mem_map]
  constructor
  · intro h
    obtain ⟨u, hu, h⟩ := h
    exact ⟨u, hu, ((accepts_forFile u d).mp h).symm⟩
  · intro h
    obtain ⟨u, hu, h⟩ := h
    exact ⟨u, hu, (accepts_forFile u d).mpr h.symm⟩

end GoToSymbol.Query

namespace GoToSymbol.Store

open GoToSymbol.Action

/-- What a session stands for: the committed segments, the committed documents that no staged
deletion marks, and the staged documents. -/
@[ext] structure Ledger where
  committed : List Segment
  kept : List Stored
  staged : List Stored

namespace Ledger

def stage (ds : List Stored) (l : Ledger) : Ledger := { l with staged := l.staged ++ ds }

def erase (qs : List Query) (l : Ledger) : Ledger :=
  { l with kept := l.kept.filter fun d => !Query.acceptsAny qs d }

/-- Takes the documents of some files out of those that are kept. -/
def drop (uris : List String) (l : Ledger) : Ledger :=
  { l with kept := l.kept.filter fun d => d.file ∉ uris.map some }

/-- A document that the next commit leaves or puts among the committed ones. -/
def Pending (x : Stored) (l : Ledger) : Prop := x ∈ l.kept ∨ x ∈ l.staged

/-- A document that is committed and not marked. -/
def Shown (x : Stored) (l : Ledger) : Prop := x ∈ documents l.committed ∧ x ∈ l.kept

/-- What a commit makes of a ledger; the documents may come in another order. -/
structure Published (l l' : Ledger) : Prop where
  committed : (documents l'.committed).Perm (l.kept ++ l.staged)
  kept : l'.kept = documents l'.committed
  staged : l'.staged = []

@[simp] theorem stage_nil (l : Ledger) : l.stage [] = l := by simp [stage]

@[simp] theorem drop_nil (l : Ledger) : l.drop [] = l := by
  cases l
  simp [drop]

@[simp] theorem erase_nil (l : Ledger) : l.erase [] = l := by
  cases l
  simp [erase, Query.acceptsAny]

/-- Taking out the documents of some files keeps the others. -/
theorem kept_drop (uris : List String) (l : Ledger) :
    (l.drop uris).kept = l.kept.filter fun x => !x.isOf uris := by
  apply List.filter_congr
  intro x _
  exact decide_not

theorem erase_forFile (uris : List String) (l : Ledger) :
    l.erase (uris.map Query.forFile) = l.drop uris := by
  unfold erase drop
  congr 1
  apply List.filter_congr
  intro d _
  rw [Query.acceptsAny_forFile, Stored.isOf, decide_not]

theorem Pending.drop {x : Stored} {uris : List String} {l : Ledger} (h : Pending x l)
    (hx : x.file ∉ uris.map some) : Pending x (l.drop uris) :=
  h.imp_left fun hkept => List.mem_filter.mpr ⟨hkept, by simpa using hx⟩

theorem Pending.stage {x : Stored} {l : Ledger} (h : Pending x l) (ds : List Stored) :
    Pending x (l.stage ds) :=
  h.imp_right fun hstaged => List.mem_append_left ds hstaged

theorem pending_stage {x : Stored} {ds : List Stored} (h : x ∈ ds) (l : Ledger) :
    Pending x (l.stage ds) := Or.inr (List.mem_append_right l.staged h)

theorem Shown.drop {x : Stored} {uris : List String} {l : Ledger} (h : Shown x l)
    (hx : x.file ∉ uris.map some) : Shown x (l.drop uris) :=
  ⟨h.1, List.mem_filter.mpr ⟨h.2, by simpa using hx⟩⟩

theorem Shown.pending {x : Stored} {l : Ledger} (h : Shown x l) : Pending x l := Or.inl h.2

/-- What is pending is shown once it was published. -/
theorem Pending.shown {x : Stored} {l l' : Ledger} (h : Pending x l) (hp : Published l l') :
    Shown x l' := by
  have hcommitted := hp.committed.mem_iff.mpr (List.mem_append.mpr h)
  exact ⟨hcommitted, hp.kept ▸ hcommitted⟩

/-- A property of every document that is committed or staged. -/
structure Every (p : Stored → Prop) (l : Ledger) : Prop where
  committed : ∀ x ∈ documents l.committed, p x
  kept : ∀ x ∈ l.kept, p x
  staged : ∀ x ∈ l.staged, p x

namespace Every

variable {p : Stored → Prop} {l l' : Ledger}

theorem stage (h : l.Every p) {ds : List Stored} (hds : ∀ x ∈ ds, p x) : (l.stage ds).Every p := by
  refine ⟨h.committed, h.kept, fun x hx => ?_⟩
  rcases List.mem_append.mp hx with hx | hx
  · exact h.staged x hx
  · exact hds x hx

theorem erase (h : l.Every p) (qs : List Query) : (l.erase qs).Every p :=
  ⟨h.committed, fun x hx => h.kept x ((List.mem_filter.mp hx).1), h.staged⟩

theorem drop (h : l.Every p) (uris : List String) : (l.drop uris).Every p :=
  ⟨h.committed, fun x hx => h.kept x ((List.mem_filter.mp hx).1), h.staged⟩

/-- Once a ledger was published it holds nothing but what is committed. -/
theorem of_published (hp : Published l l') (h : ∀ x ∈ documents l'.committed, p x) :
    l'.Every p := by
  refine ⟨h, fun x hx => h x (hp.kept ▸ hx), fun x hx => ?_⟩
  rw [hp.staged] at hx
  exact absurd hx List.not_mem_nil

theorem published (h : l.Every p) (hp : Published l l') : l'.Every p := by
  refine of_published hp fun x hx => ?_
  rcases List.mem_append.mp (hp.committed.mem_iff.mp hx) with hx | hx
  · exact h.kept x hx
  · exact h.staged x hx

end Every

/-- A second publication with nothing staged in between adds nothing. -/
theorem Published.trans {l m l' : Ledger} (h : Published l m) (h' : Published m l') :
    Published l l' where
  committed := by
    have hsame := h'.committed
    rw [h.kept, h.staged, List.append_nil] at hsame
    exact hsame.trans h.committed
  kept := h'.kept
  staged := h'.staged

/-- Publishing an empty ledger leaves what is committed. -/
theorem published_self (segments : List Segment) :
    Published ⟨segments, documents segments, []⟩ ⟨segments, documents segments, []⟩ :=
  ⟨by simp, rfl, rfl⟩

end Ledger

/-- No file of the index was lost, and the table of contents is no foreign text. -/
structure Directory.Intact (d : Directory) : Prop where
  readable : d.catalogue ≠ .garbled
  numbered : d.lost ≤ d.segments
  unlost : ∀ t ∈ d.committed, d.lost ≤ t.serial

theorem Directory.intact_make {d : Directory} (h : d.Intact) : d.make.Intact := by
  have hc : d.make.committed = d.committed := committed_congr (catalogue_make d)
  refine ⟨?_, ?_, ?_⟩
  · rw [catalogue_make]
    exact h.readable
  · rw [lost_make, segments_make]
    exact h.numbered
  · rw [hc, lost_make]
    exact h.unlost

theorem Directory.intact_fresh (path : String) : (fresh path).Intact where
  readable h := absurd h nofun
  numbered := Nat.le_refl 0
  unlost _ ht := absurd ht List.not_mem_nil

theorem any_isLost_eq_false {d : Directory} {ss : List Segment} :
    ss.any d.isLost = false ↔ ∀ t ∈ ss, d.lost ≤ t.serial := by
  simp [Directory.isLost]

namespace Session

def ledger (s : Session) : Ledger :=
  match s.handle.writer with
  | none => ⟨s.directory.committed, s.directory.documents, []⟩
  | some w => ⟨s.directory.committed, documents w.base, w.added⟩

theorem ledger_of_idle {s : Session} (h : s.handle.writer = none) :
    s.ledger = ⟨s.directory.committed, s.directory.documents, []⟩ := by
  simp [ledger, h]

theorem ledger_of_writer {s : Session} {w : Writer} (h : s.handle.writer = some w) :
    s.ledger = ⟨s.directory.committed, documents w.base, w.added⟩ := by
  simp [ledger, h]

theorem committed_ledger (s : Session) : s.ledger.committed = s.directory.committed := by
  unfold ledger
  split <;> rfl

theorem documents_ledger (s : Session) :
    documents s.ledger.committed = s.directory.documents := by
  rw [committed_ledger, Directory.documents]

/-- A pending writer holds the lock of an index that can be read. -/
def Held (s : Session) : Prop :=
  ∀ w, s.handle.writer = some w →
    s.directory.lock = some w.number ∧ ∃ g ss, s.directory.catalogue = .sound g ss

theorem held_of_idle {s : Session} (h : s.handle.writer = none) : s.Held := by
  intro w hw
  rw [h] at hw
  exact absurd hw (by simp)

/-- A session whose files are all there, and which alone writes to them. -/
structure Intact (s : Session) : Prop where
  there : s.directory.contents.isSome = true
  directory : s.directory.Intact
  opened : s.handle.opened = true → ∃ g ss, s.directory.catalogue = .sound g ss
  held : s.Held
  base : ∀ w, s.handle.writer = some w → ∀ t ∈ w.base, s.directory.lost ≤ t.serial
  closed : s.handle.closed = true → s.handle.writer = none

theorem intact_start {d : Directory} (h : d.Intact) : (start d).Intact where
  there := Directory.isSome_contents_make d
  directory := Directory.intact_make h
  opened ho := absurd ho (by simp [start, Handle.new])
  held := held_of_idle rfl
  base w hw := absurd hw (by simp [start, Handle.new])
  closed _ := rfl

theorem intact_close {s : Session} (h : s.Intact) (hw : s.handle.writer = none) :
    s.close.Intact := ⟨h.there, h.directory, h.opened, h.held, h.base, fun _ => hw⟩

/-- The second session differs from the first at most in that the index was opened, or let go of. -/
structure Alike (s s' : Session) : Prop where
  there : s.directory.contents.isSome = true → s'.directory.contents.isSome = true
  readable : s.directory.catalogue ≠ .garbled → s'.directory.catalogue ≠ .garbled
  sound : ∀ g ss, s.directory.catalogue = .sound g ss → s'.directory.catalogue = .sound g ss
  committed : s'.directory.committed = s.directory.committed
  lock : s'.directory.lock = s.directory.lock
  lost : s'.directory.lost = s.directory.lost
  segments : s'.directory.segments = s.directory.segments
  opened : s'.handle.opened = true →
    s.handle.opened = true ∨ ∃ g ss, s'.directory.catalogue = .sound g ss
  writer : s'.handle.writer = s.handle.writer
  closed : s'.handle.closed = s.handle.closed

namespace Alike

variable {s m s' : Session}

theorem refl (s : Session) : Alike s s :=
  ⟨id, id, fun _ _ => id, rfl, rfl, rfl, rfl, Or.inl, rfl, rfl⟩

theorem trans (h : Alike s m) (h' : Alike m s') : Alike s s' where
  there hs := h'.there (h.there hs)
  readable hs := h'.readable (h.readable hs)
  sound g ss hs := h'.sound g ss (h.sound g ss hs)
  committed := h'.committed.trans h.committed
  lock := h'.lock.trans h.lock
  lost := h'.lost.trans h.lost
  segments := h'.segments.trans h.segments
  opened ho := by
    rcases h'.opened ho with ho | ho
    · rcases h.opened ho with ho | ⟨g, ss, hg⟩
      · exact Or.inl ho
      · exact Or.inr ⟨g, ss, h'.sound g ss hg⟩
    · exact Or.inr ho
  writer := h'.writer.trans h.writer
  closed := h'.closed.trans h.closed

theorem documents (h : Alike s s') : s'.directory.documents = s.directory.documents := by
  simp [Directory.documents, h.committed]

theorem ledger (h : Alike s s') : s'.ledger = s.ledger := by
  simp [Session.ledger, h.writer, h.committed, h.documents]

theorem held (h : Alike s s') (hs : s.Held) : s'.Held := by
  intro w hw
  obtain ⟨hl, g, ss, hg⟩ := hs w (h.writer ▸ hw)
  exact ⟨h.lock.trans hl, g, ss, h.sound g ss hg⟩

theorem intact (h : Alike s s') (hs : s.Intact) : s'.Intact where
  there := h.there hs.there
  directory := by
    refine ⟨h.readable hs.directory.readable, ?_, ?_⟩
    · rw [h.lost, h.segments]
      exact hs.directory.numbered
    · rw [h.committed, h.lost]
      exact hs.directory.unlost
  opened ho := by
    rcases h.opened ho with ho | ho
    · obtain ⟨g, ss, hg⟩ := hs.opened ho
      exact ⟨g, ss, h.sound g ss hg⟩
    · exact ho
  held := h.held hs.held
  base w hw := by
    rw [h.lost]
    exact hs.base w (h.writer ▸ hw)
  closed hc := by
    rw [h.writer]
    exact hs.closed (h.closed ▸ hc)

/-- Letting go of the index changes nothing else. -/
theorem letGo (s : Session) : Alike s (s.setOpened false) :=
  ⟨id, id, fun _ _ => id, rfl, rfl, rfl, rfl, fun h => absurd h (by simp), rfl, rfl⟩

end Alike

end Session

namespace Work

open Session

variable {s s' : Session}

theorem ends_whileOpen {α : Type} {t : Work α} {r : Except Failure α} :
    Ends (whileOpen t) s r s' ↔
      (s.handle.closed = true ∧ r = .error .stopped ∧ s' = s) ∨
        (s.handle.closed = false ∧ Ends t s r s') := by
  unfold whileOpen
  cases h : s.handle.closed <;> simp [h]

theorem ends_whileOpen_of_open {α : Type} {t : Work α} {r : Except Failure α}
    (hopen : s.handle.closed = false) : Ends (whileOpen t) s r s' ↔ Ends t s r s' := by
  rw [ends_whileOpen, hopen]
  simp

theorem ends_whileOpen_of_closed {α : Type} {t : Work α} {r : Except Failure α}
    (hclosed : s.handle.closed = true) :
    Ends (whileOpen t) s r s' ↔ r = .error .stopped ∧ s' = s := by
  rw [ends_whileOpen, hclosed]
  simp

/-- An operation of the storage ends at once on a closed session; else the caller is told how it
ended. -/
theorem ends_guarded_whileOpen {α : Type} {operation : String} {t : Work α}
    {r : Except Failure α} :
    Ends (Service.guarded operation (whileOpen t)) s r s' ↔
      (s.handle.closed = true ∧ r = .error (Service.told operation .stopped) ∧ s' = s) ∨
        (s.handle.closed = false ∧
          ∃ x, Ends t s x s' ∧ r = x.mapError (Service.told operation)) := by
  rw [Service.ends_guarded]
  simp only [ends_whileOpen]
  constructor
  · intro h
    rcases h with ⟨a, hend, rfl⟩ | ⟨f, hend, rfl⟩
    · rcases hend with ⟨_, hf, _⟩ | ⟨hopen, hend⟩
      · exact absurd hf (by simp)
      · exact Or.inr ⟨hopen, _, hend, rfl⟩
    · rcases hend with ⟨hclosed, hf, hs⟩ | ⟨hopen, hend⟩
      · cases hf
        exact Or.inl ⟨hclosed, rfl, hs⟩
      · exact Or.inr ⟨hopen, _, hend, rfl⟩
  · intro h
    rcases h with ⟨hclosed, rfl, hs⟩ | ⟨hopen, x, hend, rfl⟩
    · exact Or.inr ⟨_, Or.inl ⟨hclosed, rfl, hs⟩, rfl⟩
    · cases x with
      | ok a => exact Or.inl ⟨a, Or.inr ⟨hopen, hend⟩, rfl⟩
      | error f => exact Or.inr ⟨f, Or.inr ⟨hopen, hend⟩, rfl⟩

theorem openIndex_alike {r : Except Failure Unit} (h : Ends openIndex s r s') : Alike s s' := by
  unfold openIndex at h
  simp only [ends_read_bind] at h
  split at h
  · simp only [ends_pure] at h
    rw [h.2]
    exact Alike.refl s
  · next ho =>
    split at h
    · simp only [ends_fail] at h
      rw [h.2]
      exact Alike.refl s
    · next g ss hg =>
      simp only [ends_update] at h
      rw [h.2]
      exact ⟨id, id, fun _ _ => id, rfl, rfl, rfl, rfl, fun _ => Or.inr ⟨g, ss, hg⟩, rfl, rfl⟩
    · next habs =>
      simp only [ends_update] at h
      have hsound : s'.directory.catalogue = .sound 0 [] := by
        rw [h.2]
        exact Directory.catalogue_setCatalogue _ (Directory.isSome_contents_make _)
      have hcommitted : s.directory.committed = [] := by simp [Directory.committed, habs]
      refine ⟨fun _ => ?_, fun _ => ?_, fun g ss hg => ?_, ?_, ?_, ?_, ?_, fun _ => ?_, ?_, ?_⟩
      · simp [h.2]
      · simp [hsound]
      · rw [habs] at hg
        exact absurd hg (by simp)
      · rw [hcommitted, Directory.committed_of_sound hsound]
      · simp [h.2]
      · simp [h.2]
      · simp [h.2]
      · exact Or.inr ⟨0, [], hsound⟩
      · simp [h.2]
      · simp [h.2]

theorem openIndex_opened (h : Ends openIndex s (.ok ()) s') : s'.handle.opened = true := by
  unfold openIndex at h
  simp only [ends_read_bind] at h
  split at h
  · next ho =>
    simp only [ends_pure] at h
    rw [h.2]
    exact ho
  · split at h
    · simp at h
    · simp only [ends_update] at h
      simp [h.2]
    · simp only [ends_update] at h
      simp [h.2]

end Work

end GoToSymbol.Store
