import GoToSymbol.Proofs.Index.Availability
import GoToSymbol.Proofs.Index.Refusal
import Mathlib.Data.List.Perm.Subperm
import Mathlib.Logic.Relation

namespace GoToSymbol.Store

open GoToSymbol.Action Session Work

/-- What a worker runs. -/
inductive Task where
  | request (q : Request)
  /-- The task of a shutdown. -/
  | release

namespace Task

def run : Task → Work Unit
  | request q => engine.perform q
  | release => Work.release

/-- What the store keeps of the documents that a task puts. -/
def stored : Task → List Stored
  | request q => q.documents.filterMap fun d => (Stored.ofDocument d).toOption
  | release => []

/-- The queries of which a task deletes the documents. -/
def queries : Task → List Query
  | request (.delete queries _) => queries
  | _ => []

/-- The tasks that need a writer. -/
def writes : Task → Bool
  | request (.put _ _) | request (.delete _ _) => true
  | _ => false

def publishes : Task → Bool
  | request (.put _ publish) | request (.delete _ publish) => publish
  | request .commit | release => true

end Task

/-- A task that ran, and its result. -/
abbrev Ran : Type := Task × Except Failure Unit

namespace Ran

/-- Whether a task published what was staged. -/
def settles (x : Ran) : Bool := x.1.publishes && x.2.toBool

/-- The documents that are expected once a task ran: it took out those it deleted, and put in its
own, unless it failed. -/
def expected (ds : List Stored) : Ran → List Stored
  | (t, .ok ()) => ds.filter (fun d => !Query.acceptsAny t.queries d) ++ t.stored
  | (_, .error _) => ds

end Ran

/-- The documents of all puts that returned, less those that a later deletion asked for. -/
def acknowledged (ran : List Ran) : List Stored := ran.foldl Ran.expected []

/-- Every task that needed a writer published, or another task published after it. -/
def Settled : List Ran → Prop
  | [] => True
  | x :: later => (x.1.writes = true → ∃ y ∈ x :: later, y.settles = true) ∧ Settled later

/-- A session, the tasks that wait, those that ran, and whether no more tasks are taken. -/
structure Pool where
  session : Session
  waiting : List Task
  ran : List Ran
  stopped : Bool

namespace Pool

def start (d : Directory) : Pool := ⟨Session.start d, [], [], false⟩

inductive Step : Pool → Pool → Prop where
  | submit {p : Pool} (t : Task) (h : p.stopped = false) :
      Step p { p with waiting := t :: p.waiting }
  | work {p : Pool} {t : Task} {rest : List Task} {r : Except Failure Unit} {m : Session}
      (ht : p.waiting.Perm (t :: rest)) (h : Ends t.run p.session r m) :
      Step p ⟨m, rest, p.ran ++ [(t, r)], p.stopped⟩
  /-- A shutdown whose task is done stops the pool. -/
  | stop {p : Pool} {r : Except Failure Unit} (h : (.release, r) ∈ p.ran) :
      Step p { p with stopped := true }
  /-- A shutdown returns once no task is left. -/
  | finish {p : Pool} (hstopped : p.stopped = true) (hdone : p.waiting = []) :
      Step p { p with session := p.session.close }

def Steps : Pool → Pool → Prop := Relation.ReflTransGen Step

end Pool

theorem acknowledged_concat (ran : List Ran) (x : Ran) :
    acknowledged (ran ++ [x]) = Ran.expected (acknowledged ran) x := by
  unfold acknowledged
  rw [List.foldl_append]
  rfl

theorem settled_concat {ran : List Ran} {y : Ran} :
    Settled (ran ++ [y]) ↔ y.settles = true ∨ (y.1.writes = false ∧ Settled ran) := by
  induction ran with
  | nil =>
    cases hw : y.1.writes with
    | true => simp [Settled, hw]
    | false => simp [Settled, hw]
  | cons x ran ih =>
    simp only [List.cons_append, Settled]
    rw [ih]
    by_cases hy : y.settles = true
    · refine iff_of_true ⟨fun _ => ⟨y, ?_, hy⟩, Or.inl hy⟩ (Or.inl hy)
      simp
    · have hsame : (∃ z ∈ x :: (ran ++ [y]), z.settles = true) ↔
          ∃ z ∈ x :: ran, z.settles = true := by
        simp [or_and_right, exists_or, hy]
      rw [hsame, or_iff_right hy, or_iff_right hy]
      exact and_left_comm

/-- What the store keeps of documents that are all accepted. -/
theorem filterMap_of_accepted {ds : List Document} {xs : List Stored}
    (h : List.Forall₂ (fun d x => Stored.ofDocument d = .ok x) ds xs) :
    ds.filterMap (fun d => (Stored.ofDocument d).toOption) = xs := by
  induction h with
  | nil => rfl
  | @cons d x ds xs hd _ ih =>
    rw [List.filterMap_cons, hd, ih]
    rfl

namespace Task

variable {s s' : Session}

/-- What a task does to the ledger of an open session whose files are all there. -/
structure Done (s : Session) (t : Task) (r : Except Failure Unit) (s' : Session) : Prop where
  intact : s'.Intact
  opened : s'.handle.closed = false
  ledger : ∃ qs xs, (r = .ok () → qs = t.queries ∧ xs = t.stored) ∧ (r ≠ .ok () → qs = []) ∧
    (s'.ledger = (s.ledger.erase qs).stage xs ∨
      Ledger.Published ((s.ledger.erase qs).stage xs) s'.ledger)
  free : s'.Free ↔ s.Free
  locked : ¬ s.Free → s'.handle.writer = none
  writer : s.Free → (s'.handle.writer = none ↔
    Ran.settles (t, r) = true ∨ (t.writes = false ∧ s.handle.writer = none))

section

variable {m : Session} {t : Task} {r : Except Failure Unit}

theorem Done.alike (h : Done s t r m) (halike : Alike m s') : Done s t r s' where
  intact := halike.intact h.intact
  opened := halike.closed.trans h.opened
  ledger := by
    rw [halike.ledger]
    exact h.ledger
  free := halike.free_iff.trans h.free
  locked hs := halike.writer.trans (h.locked hs)
  writer hs := by
    rw [halike.writer]
    exact h.writer hs

/-- Without a writer nothing was staged, and nothing is. -/
theorem done_idle (hi : s.Intact) (hopen : s.handle.closed = false)
    (hidle : s.handle.writer = none) (halike : Alike s s')
    (hnothing : r = .ok () → t.queries = [] ∧ t.stored = [])
    (hwrites : s.Free → t.writes = false) : Done s t r s' where
  intact := halike.intact hi
  opened := halike.closed.trans hopen
  ledger := by
    refine ⟨[], [], fun hr => ?_, fun _ => rfl, Or.inl ?_⟩
    · obtain ⟨hqueries, hstored⟩ := hnothing hr
      exact ⟨hqueries.symm, hstored.symm⟩
    · rw [halike.ledger, Ledger.stage_nil, Ledger.erase_nil]
  free := halike.free_iff
  locked _ := halike.writer.trans hidle
  writer hs := iff_of_true (halike.writer.trans hidle) (Or.inr ⟨hwrites hs, hidle⟩)

/-- What a task staged is pending. -/
theorem done_pending (hfree : s.Free) (hm : Available m) (hw : m.handle.writer ≠ none)
    {qs : List Query} {xs : List Stored} (hledger : m.ledger = (s.ledger.erase qs).stage xs)
    (hok : r = .ok () → qs = t.queries ∧ xs = t.stored) (herror : r ≠ .ok () → qs = [])
    (hwrites : t.writes = true) (hsettles : Ran.settles (t, r) = false) : Done s t r m where
  intact := hm.intact
  opened := hm.opened
  ledger := ⟨qs, xs, hok, herror, Or.inl hledger⟩
  free := iff_of_true hm.free hfree
  locked hs := absurd hfree hs
  writer _ := by
    refine iff_of_false hw ?_
    rw [hsettles, hwrites]
    simp

/-- What a task staged is published. -/
theorem done_published (hfree : s.Free) (hm : Available m)
    (hledger : m.ledger = (s.ledger.erase t.queries).stage t.stored)
    (hpublishes : t.publishes = true) {x : Except Failure Unit} (h : Ends flush m x s') :
    x = .ok () ∧ Done s t (.ok ()) s' := by
  obtain ⟨hok, havailable⟩ := flush_available hm h
  obtain ⟨hintact, hidle, _, hpublished⟩ := flush_intact hm.intact h
  rw [hledger] at hpublished
  refine ⟨hok, hintact, havailable.opened, ?_, iff_of_true havailable.free hfree,
    fun hs => absurd hfree hs, fun _ => iff_of_true hidle (Or.inl ?_)⟩
  · exact ⟨_, _, fun _ => ⟨rfl, rfl⟩, fun hne => absurd rfl hne, Or.inr hpublished⟩
  · simp [Ran.settles, hpublishes, Except.toBool]

/-- Where somebody else writes, nothing is done that needs a writer. -/
theorem locked_bind {α : Type} {next : Writer → Work α} {x : Except Failure α}
    (hlocked : ¬ s.Free) (h : Ends (useWriter >>= next) s x s') :
    (∃ f, x = .error f) ∧ s.handle.writer = none ∧ Alike s s' := by
  rcases ends_bind.mp h with ⟨w, m, huse, _⟩ | ⟨f, huse, hx⟩
  · exact absurd (useWriter_free huse) hlocked
  · exact ⟨⟨f, hx⟩, useWriter_error huse⟩

theorem put_done (hi : s.Intact) (hopen : s.handle.closed = false) {ds : List Document}
    {publish : Bool} (h : Ends (put ds publish) s r s') :
    Done s (.request (.put ds publish)) r s' := by
  by_cases hfree : s.Free
  · have hs : Available s := ⟨hi, hopen, hfree⟩
    rcases put_ends h with ⟨f, _, huse⟩ | ⟨m, xs, hm, _, hend⟩
    · obtain ⟨w, k, hw⟩ := useWriter_returns hs
      exact absurd (huse.unique hw).1 (by simp)
    · have hpending : m.handle.writer ≠ none := by
        obtain ⟨w, hw, _⟩ := hm.pending
        simp [hw]
      have hledger := hm.ledger
      rw [← Ledger.erase_nil s.ledger] at hledger
      rcases hend with ⟨hxs, ⟨rfl, rfl, rfl⟩ | ⟨rfl, hflush⟩⟩ | ⟨f, rfl, rfl⟩
      · have hstored := (filterMap_of_accepted hxs).symm
        exact done_pending hfree (hm.available hs) hpending hledger (fun _ => ⟨rfl, hstored⟩)
          (fun _ => rfl) rfl rfl
      · rw [← filterMap_of_accepted hxs] at hledger
        obtain ⟨rfl, hdone⟩ := done_published (t := .request (.put ds true)) hfree
          (hm.available hs) hledger rfl hflush
        exact hdone
      · exact done_pending hfree (hm.available hs) hpending hledger
          (fun hr => absurd hr (by simp)) (fun _ => rfl) rfl (by simp [Ran.settles, Except.toBool])
  · obtain ⟨⟨f, rfl⟩, hidle, halike⟩ := locked_bind hfree h
    exact done_idle hi hopen hidle halike (fun hr => absurd hr (by simp))
      (fun hs => absurd hs hfree)

/-- Deletions are published after all of them were staged. -/
theorem delete_publish (qs : List Query) :
    delete qs true = delete qs false >>= fun n => flush >>= fun _ => pure n := by
  have hstaged : delete qs false = useWriter.andThen fun _ => (eraseAll qs).andThen succeed := rfl
  change (useWriter.andThen fun _ => (eraseAll qs).andThen fun n => flush >>= fun _ => pure n)
    = (delete qs false).andThen fun n => flush >>= fun _ => pure n
  rw [hstaged, andThen_assoc]
  congr 1
  funext _
  rw [andThen_assoc]
  rfl

theorem delete_done (hi : s.Intact) (hopen : s.handle.closed = false) {qs : List Query}
    {publish : Bool} {x : Except Failure Nat} (h : Ends (delete qs publish) s x s') :
    Done s (.request (.delete qs publish)) (x.map fun _ => ()) s' := by
  by_cases hfree : s.Free
  · obtain ⟨n, m, hdelete, hm⟩ := delete_returns ⟨hi, hopen, hfree⟩ qs
    obtain ⟨hw, hledger⟩ : m.handle.writer ≠ none ∧ m.ledger = (s.ledger.erase qs).stage [] := by
      rcases delete_cases hdelete with ⟨f, hf, _⟩ | ⟨_, _, hmarked⟩
      · exact absurd hf (by simp)
      · obtain ⟨w, hw, _⟩ := hmarked.pending
        refine ⟨by simp [hw], ?_⟩
        rw [hmarked.ledger, Ledger.stage_nil]
    cases publish with
    | false =>
      obtain ⟨rfl, rfl⟩ := h.unique hdelete
      exact done_pending hfree hm hw hledger (fun _ => ⟨rfl, rfl⟩)
        (fun hne => absurd rfl hne) rfl rfl
    | true =>
      rw [delete_publish, ends_bind] at h
      rcases h with ⟨n', m', hfirst, hrest⟩ | ⟨f, hfirst, _⟩
      · obtain ⟨_, rfl⟩ := hfirst.unique hdelete
        obtain ⟨y, hflush, rfl⟩ := ends_bind_pure.mp hrest
        obtain ⟨rfl, hdone⟩ := done_published (t := .request (.delete qs true)) hfree hm hledger
          rfl hflush
        exact hdone
      · exact absurd (hfirst.unique hdelete).1 (by simp)
  · obtain ⟨⟨f, rfl⟩, hidle, halike⟩ := locked_bind hfree h
    exact done_idle hi hopen hidle halike (fun hr => absurd hr (by simp [Except.map]))
      (fun hs => absurd hs hfree)

/-- A task that has nothing of its own publishes what is pending. -/
theorem flush_done (hi : s.Intact) (hopen : s.handle.closed = false)
    (hqueries : t.queries = []) (hstored : t.stored = []) (hwrites : t.writes = false)
    (hpublishes : t.publishes = true) (h : Ends flush s r s') : Done s t r s' := by
  cases hw : s.handle.writer with
  | none =>
    obtain ⟨halike, _⟩ := flush_idle hw h
    exact done_idle hi hopen hw halike (fun _ => ⟨hqueries, hstored⟩) (fun _ => hwrites)
  | some w =>
    have hfree := free_of_writer hw
    have hledger : s.ledger = (s.ledger.erase t.queries).stage t.stored := by
      rw [hqueries, hstored, Ledger.erase_nil, Ledger.stage_nil]
    obtain ⟨rfl, hdone⟩ := done_published hfree ⟨hi, hopen, hfree⟩ hledger hpublishes h
    exact hdone

theorem release_done (hi : s.Intact) (hopen : s.handle.closed = false)
    (h : Ends Work.release s r s') : Done s .release r s' := by
  unfold Work.release at h
  rw [ends_read_bind] at h
  simp only at h
  split at h
  · rcases ends_bind.mp h with ⟨_, m, hflush, hlet⟩ | ⟨f, hflush, rfl⟩
    · obtain ⟨rfl, rfl⟩ := ends_update.mp hlet
      exact (flush_done hi hopen rfl rfl rfl rfl hflush).alike (Alike.letGo m)
    · exact flush_done hi hopen rfl rfl rfl rfl hflush
  · next hw =>
    have hidle : s.handle.writer = none := by simpa using hw
    obtain ⟨rfl, rfl⟩ := ends_update.mp h
    exact done_idle hi hopen hidle (Alike.letGo s) (fun _ => ⟨rfl, rfl⟩) (fun _ => rfl)

/-- Each task that a worker runs, alone, on an open session whose files are all there. -/
theorem run_done (hi : s.Intact) (hopen : s.handle.closed = false) (h : Ends t.run s r s') :
    Done s t r s' := by
  cases t with
  | release => exact release_done hi hopen h
  | request q =>
    cases q with
    | put ds publish => exact put_done hi hopen ((ends_whileOpen_of_open hopen).mp h)
    | commit =>
      exact flush_done hi hopen rfl rfl rfl rfl ((ends_whileOpen_of_open hopen).mp h)
    | delete qs publish =>
      obtain ⟨x, hasked, rfl⟩ := ends_bind_pure.mp h
      have hran := (ends_whileOpen_of_open hopen).mp hasked
      obtain ⟨y, hdelete, rfl⟩ := ends_bind_pure.mp hran
      have hdone := delete_done hi hopen hdelete
      cases y with
      | ok n => exact hdone
      | error f => exact hdone

end

end Task

section

variable {d : Directory} {p q : Pool} {m : Session}

/-- The tasks that ran made this session; if a shutdown returned, it was closed after the last of
them. -/
structure Pool.Serves (d : Directory) (p : Pool) (m : Session) : Prop where
  session : p.session = m ∨ (p.session = m.close ∧ p.stopped = true ∧ p.waiting = [])
  intact : m.Intact
  opened : m.handle.closed = false
  returned : ∀ r, (Task.release, r) ∈ p.ran → r = .ok ()
  pending : (acknowledged p.ran).Subperm (m.ledger.kept ++ m.ledger.staged)
  free : m.Free ↔ d.lock = none
  writer : m.handle.writer = none ↔ d.lock ≠ none ∨ Settled p.ran

theorem serves_start (hd : d.Intact) : Pool.Serves d (.start d) (Session.start d) where
  session := Or.inl rfl
  intact := intact_start hd
  opened := rfl
  returned _ hr := absurd hr List.not_mem_nil
  pending := List.nil_subperm
  free := by
    have hlock : (Session.start d).directory.lock = d.lock := Directory.lock_make d
    rw [← hlock]
    exact ⟨fun h => h rfl, fun h _ => h⟩
  writer := iff_of_true rfl (Or.inr trivial)

/-- What is expected after a task is among what is kept and staged after it. -/
theorem Task.Done.pending {s s' : Session} {t : Task} {r : Except Failure Unit}
    (h : Task.Done s t r s') {ds : List Stored}
    (hds : ds.Subperm (s.ledger.kept ++ s.ledger.staged)) :
    (Ran.expected ds (t, r)).Subperm (s'.ledger.kept ++ s'.ledger.staged) := by
  obtain ⟨qs, xs, hok, herror, hledger⟩ := h.ledger
  have hperm : (s'.ledger.kept ++ s'.ledger.staged).Perm
      ((s.ledger.kept.filter fun x => !Query.acceptsAny qs x) ++ (s.ledger.staged ++ xs)) := by
    rcases hledger with hsame | hpublished
    · rw [hsame]
      exact List.Perm.refl _
    · rw [hpublished.kept, hpublished.staged, List.append_nil]
      exact hpublished.committed
  refine List.Subperm.trans ?_ hperm.symm.subperm
  rw [← List.append_assoc]
  cases r with
  | ok a =>
    obtain ⟨rfl, rfl⟩ := hok rfl
    have hfilter := hds.filter fun x => !Query.acceptsAny t.queries x
    rw [List.filter_append] at hfilter
    exact (hfilter.trans (List.filter_sublist.append_left _).subperm).append (.refl _)
  | error f =>
    have hall : (s.ledger.kept.filter fun x => !Query.acceptsAny qs x) = s.ledger.kept := by
      rw [herror (by simp)]
      simp [Query.acceptsAny]
    rw [hall]
    exact hds.trans (List.sublist_append_left _ _).subperm

theorem Task.Done.writer_iff {s s' : Session} {t : Task} {r : Except Failure Unit}
    (h : Task.Done s t r s') {ran : List Ran} (hfree : s.Free ↔ d.lock = none)
    (hw : s.handle.writer = none ↔ d.lock ≠ none ∨ Settled ran) :
    s'.handle.writer = none ↔ d.lock ≠ none ∨ Settled (ran ++ [(t, r)]) := by
  by_cases hs : s.Free
  · have hlock : ¬ d.lock ≠ none := not_not.mpr (hfree.mp hs)
    rw [h.writer hs, hw, or_iff_right hlock, or_iff_right hlock]
    exact settled_concat.symm
  · exact iff_of_true (h.locked hs) (Or.inl (hfree.not.mp hs))

theorem release_ok {s s' : Session} (hi : s.Intact) {r : Except Failure Unit}
    (h : Ends Work.release s r s') : r = .ok () := by
  unfold Work.release at h
  rw [ends_read_bind] at h
  simp only at h
  split at h
  · rcases ends_bind.mp h with ⟨_, m, _, hlet⟩ | ⟨f, hflush, _⟩
    · exact (ends_update.mp hlet).1
    · exact absurd (flush_intact hi hflush).2.2.1 (by simp)
  · exact (ends_update.mp h).1

theorem Pool.Serves.step (hp : p.Serves d m) (h : Pool.Step p q) : ∃ m', q.Serves d m' := by
  -- A session is closed only when no task is left and none is taken, so every task finds it open.
  cases h with
  | submit t hstopped =>
    have hsame : p.session = m := by
      rcases hp.session with hsame | ⟨_, hstop, _⟩
      · exact hsame
      · exact absurd (hstopped.symm.trans hstop) (by simp)
    exact ⟨m, Or.inl hsame, hp.intact, hp.opened, hp.returned, hp.pending, hp.free, hp.writer⟩
  | @work t rest r m' ht h =>
    have hsame : p.session = m := by
      rcases hp.session with hsame | ⟨_, _, hnone⟩
      · exact hsame
      · rw [hnone] at ht
        exact absurd ht.nil_eq (by simp)
    rw [hsame] at h
    have hdone := Task.run_done hp.intact hp.opened h
    refine ⟨m', Or.inl rfl, hdone.intact, hdone.opened, fun r' hr' => ?_, ?_,
      hdone.free.trans hp.free, hdone.writer_iff hp.free hp.writer⟩
    · rcases List.mem_append.mp hr' with hr' | hr'
      · exact hp.returned r' hr'
      · cases List.mem_singleton.mp hr'
        exact release_ok hp.intact h
    · rw [acknowledged_concat]
      exact hdone.pending hp.pending
  | stop h =>
    refine ⟨m, ?_, hp.intact, hp.opened, hp.returned, hp.pending, hp.free, hp.writer⟩
    rcases hp.session with hsame | ⟨hclosed, _, hnone⟩
    · exact Or.inl hsame
    · exact Or.inr ⟨hclosed, rfl, hnone⟩
  | finish hstopped hdone =>
    refine ⟨m, Or.inr ⟨?_, hstopped, hdone⟩, hp.intact, hp.opened, hp.returned, hp.pending,
      hp.free, hp.writer⟩
    change p.session.close = m.close
    rcases hp.session with hsame | ⟨hsame, _, _⟩
    · rw [hsame]
    · rw [hsame]
      rfl

theorem Pool.Serves.steps (hp : p.Serves d m) (h : Pool.Steps p q) : ∃ m', q.Serves d m' := by
  induction h with
  | refl => exact ⟨m, hp⟩
  | tail _ hlast ih =>
    obtain ⟨m', hm'⟩ := ih
    exact hm'.step hlast

/-- Once a shutdown has returned, the documents of all puts that returned, and that were not deleted
later, are committed, unless they are staged in a writer that is left open. None is left open just
where somebody else wrote from the start, so that no put could return, or where after every task
that needed a writer there ran one that published: a task that runs after that of the shutdown is
lost if it does not publish itself. -/
theorem shutdown_publishes_iff (hd : d.Intact) (h : Pool.Steps (.start d) p)
    (hclosed : p.session.handle.closed = true) :
    (∀ r, (Task.release, r) ∈ p.ran → r = .ok ()) ∧
      (acknowledged p.ran).Subperm (p.session.ledger.kept ++ p.session.ledger.staged) ∧
      ((acknowledged p.ran).Subperm p.session.directory.documents ∧
          p.session.handle.writer = none ↔ d.lock ≠ none ∨ Settled p.ran) := by
  obtain ⟨m, hm⟩ := (serves_start hd).steps h
  have hsession : p.session = m.close := by
    rcases hm.session with hsame | ⟨hsame, _, _⟩
    · rw [hsame] at hclosed
      exact absurd (hm.opened.symm.trans hclosed) (by simp)
    · exact hsame
  have hledger : p.session.ledger = m.ledger := by
    rw [hsession]
    rfl
  have hwriter : p.session.handle.writer = m.handle.writer := by
    rw [hsession]
    rfl
  have hpending := hm.pending
  rw [← hledger] at hpending
  refine ⟨hm.returned, hpending, ?_⟩
  rw [hwriter, ← hm.writer]
  refine and_iff_right_of_imp fun hidle => ?_
  rw [ledger_of_idle (hwriter.trans hidle)] at hpending
  simpa using hpending

/-- A put is handed in while a shutdown is under way. Its task runs after that of the shutdown, and
before the pool is stopped. -/
theorem steps_overtaken :
    ∃ p, Pool.Steps (.start (.fresh "/index")) p ∧ p.session.handle.closed = true ∧
      (∀ r, (Task.release, r) ∈ p.ran → r = .ok ()) ∧ ¬ Settled p.ran ∧
      (acknowledged p.ran).length = 1 ∧ p.session.directory.documents.length = 0 := by
  let put : Task := .request (.put [taggedDocument "a.Bee" "ClassIndex"] false)
  refine ⟨_, .head (.submit .release rfl) (.head (.submit put rfl)
    (.head (.work (List.Perm.swap .release put []) ⟨rfl, rfl⟩)
      (.head (.work (List.Perm.refl [put]) ⟨rfl, rfl⟩)
        (.head (.stop List.mem_cons_self) (.single (.finish rfl rfl)))))), rfl, ?_, ?_, rfl, rfl⟩
  · intro r hr
    rcases List.mem_cons.mp hr with hfirst | hlast
    · cases hfirst
      rfl
    · exact absurd (congrArg Prod.fst (List.mem_singleton.mp hlast)) (by simp [put])
  · intro h
    obtain ⟨_, hsettled, _⟩ := h
    obtain ⟨y, hy, hsettles⟩ := hsettled rfl
    rw [List.mem_singleton.mp hy] at hsettles
    exact absurd hsettles (by decide)

/-- The document of that put is left in a writer that nobody will use. -/
theorem shutdown_publishes_overtaken :
    ∃ p, Pool.Steps (.start (.fresh "/index")) p ∧ p.session.handle.closed = true ∧
      (acknowledged p.ran).length = 1 ∧
      ¬ ((acknowledged p.ran).Subperm p.session.directory.documents ∧
        p.session.handle.writer = none) := by
  obtain ⟨p, hp, hclosed, _, hsettled, hone, _⟩ := steps_overtaken
  obtain ⟨_, _, hiff⟩ := shutdown_publishes_iff (Directory.intact_fresh "/index") hp hclosed
  refine ⟨p, hp, hclosed, hone, hiff.not.mpr ?_⟩
  exact not_or.mpr ⟨not_not.mpr rfl, hsettled⟩

/-- A shutdown that returns may lose what a put has acknowledged. -/
theorem shutdown_not_lossless :
    ¬ ∀ p, Pool.Steps (.start (.fresh "/index")) p → p.session.handle.closed = true →
      (∀ r, (Task.release, r) ∈ p.ran → r = .ok ()) →
      (acknowledged p.ran).Subperm p.session.directory.documents ∧
        p.session.handle.writer = none := by
  intro hclaim
  obtain ⟨p, hp, hclosed, hreturned, _, hone, hnone⟩ := steps_overtaken
  have hlength := (hclaim p hp hclosed hreturned).1.length_le
  omega

end

end GoToSymbol.Store
