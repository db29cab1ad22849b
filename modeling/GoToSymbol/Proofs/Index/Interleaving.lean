import GoToSymbol.Proofs.Index.Availability
import GoToSymbol.Proofs.Index.Epoch
import Mathlib.Data.List.Permutation
import Mathlib.Logic.Relation

namespace GoToSymbol

open GoToSymbol.Action Store Store.Session

/-- A call that replaces the entries of some files in two stages: it removes the files, and later it
publishes its symbols. -/
structure Reindexing where
  files : List File.Reference
  symbols : List Submission
  prioritized : Bool

namespace Reindexing

def call (j : Reindexing) : Call := .reindex j.files j.symbols j.prioritized

/-- The calls made one after the other, all of which return. -/
def returned (js : List Reindexing) : List (Call × Except Failure Answer) :=
  js.map fun j => (j.call, .ok .done)

end Reindexing

open Reindexing

/-- How far some reindexings have come: those that wait, those that have removed their files, those
that have published, in this order, and the documents that were published although a call underway
had removed their file before. -/
structure Progress where
  waiting : List Reindexing
  underway : List Reindexing
  published : List Reindexing
  missed : List Stored

namespace Progress

def begin (jobs : List Reindexing) : Progress := ⟨jobs, [], [], []⟩

section

variable (s : Service Session) (p : Progress)

/-- Whether one of the calls removes the file of a document. -/
def removes (js : List Reindexing) (d : Stored) : Bool := d.isOf (s.removedBy (returned js))

def remove (j : Reindexing) (rest : List Reindexing) : Progress :=
  { p with
    waiting := rest
    underway := j :: p.underway
    missed := p.missed.filter fun d => !removes s [j] d }

def publish (j : Reindexing) (rest : List Reindexing) (fresh : List Stored) : Progress :=
  { p with
    underway := rest
    published := p.published ++ [j]
    missed := p.missed ++ fresh.filter (removes s rest) }

/-- What is seen of documents that the published calls leave when they are made one after the
other. -/
def view (ds : List Stored) : List Stored := ds.filter (fun d => !removes s p.underway d) ++ p.missed

end

end Progress

/-- A session in which reindexings run, how far they have come, and how far they had come when
something was published last. -/
structure Moment where
  progress : Progress
  shown : Progress
  session : Session

def Moment.begin (jobs : List Reindexing) (st : Session) : Moment :=
  ⟨.begin jobs, .begin jobs, st⟩

/-- One stage of one of the calls, or a call that only reads. -/
inductive Stage (s : Service Session) : Moment → Moment → Prop where
  | look {x : Moment} {c : Call} {r : Except Failure Answer} {m : Session}
      (hc : c.isReading = true) (h : Ends (s.perform c) x.session r m) :
      Stage s x { x with session := m }
  | remove {x : Moment} {j : Reindexing} {rest : List Reindexing} {n : Int} {m : Session}
      (hj : x.progress.waiting.Perm (j :: rest))
      (h : Ends (s.remove j.files) x.session (.ok n) m) :
      Stage s x ⟨x.progress.remove s j rest, x.shown, m⟩
  | publish {x : Moment} {j : Reindexing} {rest : List Reindexing} {m : Session} {p : Progress}
      (hj : x.progress.underway.Perm (j :: rest))
      (h : Ends (s.persist j.symbols true j.prioritized) x.session (.ok ()) m)
      (hp : p = x.progress.publish s j rest (x.session.ledger.staged ++ s.added j.call)) :
      Stage s x ⟨p, p, m⟩

/-- Any number of stages, in any order. -/
def Runs (s : Service Session) : Moment → Moment → Prop := Relation.ReflTransGen (Stage s)

namespace Progress

variable {s : Service Session}

theorem removes_one (j : Reindexing) (d : Stored) :
    removes s [j] d = d.isOf (s.removedUris j.call) :=
  congrArg (Stored.isOf · d) (List.append_nil _)

theorem removes_cons (j : Reindexing) (js : List Reindexing) (d : Stored) :
    removes s (j :: js) d = (removes s [j] d || removes s js d) := by
  rw [removes_one]
  exact Stored.isOf_append _ _ d

theorem removes_perm {js ks : List Reindexing} (h : js.Perm ks) : removes s js = removes s ks := by
  funext d
  exact Stored.isOf_perm ((h.map _).flatMap_right _) d

theorem removes_iff {js : List Reindexing} {d : Stored} :
    removes s js d = true ↔ ∃ j ∈ js, d.isOf (s.removedUris j.call) = true := by
  induction js with
  | nil => simp [removes, Service.removedBy, returned, Stored.isOf]
  | cons j js ih =>
    rw [removes_cons, Bool.or_eq_true, ih, removes_one]
    simp

end Progress

/-- Neither of two calls hands over a document of a file that the other one removes. -/
def Reindexing.Apart (s : Service Session) (j k : Reindexing) : Prop :=
  (∀ d ∈ s.added j.call, d.isOf (s.removedUris k.call) = false) ∧
    ∀ d ∈ s.added k.call, d.isOf (s.removedUris j.call) = false

theorem Reindexing.Apart.symm {s : Service Session} {j k : Reindexing} (h : Apart s j k) :
    Apart s k j := ⟨h.2, h.1⟩

/-- No call hands over a document of a file that another one removes, and no such document is staged
before. -/
def Reindexing.Separate (s : Service Session) (st : Session) (jobs : List Reindexing) : Prop :=
  jobs.Pairwise (Apart s) ∧
    ∀ d ∈ st.ledger.staged, ∀ j ∈ jobs, d.isOf (s.removedUris j.call) = false

namespace Store

/-- No document was missed, and none can be by the calls that have not published. -/
structure KeptApart (s : Service Session) (x : Moment) : Prop where
  separate : Separate s x.session (x.progress.underway ++ x.progress.waiting)
  missed : x.progress.missed = []
  shown : x.shown.missed = []

section

variable {cwd : File.Path} {config : IndexConfig}

/-- A call underway that can publish can also be made, as a whole, in the other session. -/
structure Follows (x : Moment) (serial : Session) : Prop where
  intact : serial.Intact
  opened : x.session.handle.closed = false → serial.handle.closed = false
  free : x.session.Free → serial.Free
  idle : ¬ x.session.Free → ∀ j ∈ x.progress.underway, j.files = []

theorem Follows.look {x : Moment} {serial m : Session} (hx : Follows x serial)
    (h : Alike x.session m) : Follows { x with session := m } serial where
  intact := hx.intact
  opened hm := hx.opened (h.closed.symm.trans hm)
  free hm := hx.free (h.free_iff.mp hm)
  idle hm := hx.idle fun hfree => hm (h.free_iff.mpr hfree)

theorem Follows.remove {x : Moment} {serial m : Session} (hx : Follows x serial)
    {j : Reindexing} {rest : List Reindexing} {n : Int}
    (h : Ends ((service cwd config).remove j.files) x.session (.ok n) m) :
    Follows ⟨x.progress.remove (service cwd config) j rest, x.shown, m⟩ serial := by
  rcases remove_free h with ⟨hnil, rfl⟩ | ⟨hfree, hm, hclosed⟩
  · refine ⟨hx.intact, hx.opened, hx.free, fun hm k hk => ?_⟩
    rcases List.mem_cons.mp hk with rfl | hk
    · exact hnil
    · exact hx.idle hm k hk
  · refine ⟨hx.intact, ?_, fun _ => hx.free hfree, fun hlocked => absurd hm hlocked⟩
    intro hopen
    exact hx.opened (hclosed.symm.trans hopen)

theorem Follows.publish {x : Moment} {serial m : Session} (hx : Follows x serial)
    (hi : x.session.Intact) {j : Reindexing} {rest : List Reindexing}
    (hj : x.progress.underway.Perm (j :: rest)) {p : Progress} (hp : p.underway = rest)
    (h : Ends ((service cwd config).persist j.symbols true j.prioritized) x.session (.ok ()) m) :
    ∃ serial', Ends ((service cwd config).perform j.call) serial (.ok .done) serial' ∧
      Follows ⟨p, p, m⟩ serial' := by
  obtain ⟨hopen, ds, hds, ⟨hfree, hm⟩ | ⟨hlocked, hm, rfl⟩⟩ := persist_free hi h
  · obtain ⟨serial', hend, hserial⟩ :=
      reindex_returns ⟨hx.intact, hx.opened hopen, hx.free hfree⟩ j.files hds
    exact ⟨serial', hend, hserial.intact, fun _ => hserial.opened, fun _ => hserial.free,
      fun hlocked => absurd hm hlocked⟩
  · have hidle := hx.idle hlocked
    obtain ⟨serial', hend, hserial⟩ := reindex_nothing_returns hx.intact (hx.opened hopen) hds
    rw [← hidle j (hj.mem_iff.mpr List.mem_cons_self)] at hend
    refine ⟨serial', hend, (perform_effect hx.intact hend).1, fun _ => hserial,
      fun hfree => absurd hfree hm, fun _ k hk => ?_⟩
    exact hidle k (hj.mem_iff.mpr (List.mem_cons_of_mem j (hp ▸ hk)))

/-- At this moment the session shows what a session, in which the published calls were made one
after the other, would show but for the calls underway. -/
structure Tracks (cwd : File.Path) (config : IndexConfig) (x : Moment) (serial : Session) :
    Prop where
  intact : x.session.Intact
  follows : Follows x serial
  kept : x.session.ledger.kept.Perm (x.progress.view (service cwd config) serial.ledger.kept)
  staged : x.session.ledger.staged = serial.ledger.staged
  shown : (documents x.session.ledger.committed).Perm
    (x.shown.view (service cwd config) (documents serial.ledger.committed))

open Progress

/-- Where no call is underway the view lacks nothing. -/
theorem view_settled {s : Service Session} {p : Progress} (h : p.underway = [])
    (ds : List Stored) : p.view s ds = ds ++ p.missed := by
  have hnone (d : Stored) : removes s [] d = false := rfl
  unfold view
  simp [h, hnone]

theorem tracks_begin {jobs : List Reindexing} {st : Session} (h : st.Intact) :
    Tracks cwd config (.begin jobs st) st := by
  have hview (ds : List Stored) : (Progress.begin jobs).view (service cwd config) ds = ds :=
    (view_settled rfl ds).trans (List.append_nil ds)
  have hfollows : Follows (.begin jobs st) st :=
    ⟨h, id, id, fun _ j hj => absurd hj List.not_mem_nil⟩
  refine ⟨h, hfollows, ?_, rfl, ?_⟩
  · exact List.Perm.of_eq (hview _).symm
  · exact List.Perm.of_eq (hview _).symm

/-- A removal takes its files out of the view. -/
theorem view_remove {s : Service Session} (p : Progress) (j : Reindexing) (rest : List Reindexing)
    (ds : List Stored) :
    (p.remove s j rest).view s ds = (p.view s ds).filter fun d => !removes s [j] d := by
  unfold view
  rw [List.filter_append, List.filter_filter]
  congr 1
  apply List.filter_congr
  intro d _
  rw [← Bool.not_or, ← removes_cons j p.underway]
  rfl

theorem split_perm {α : Type} (p : α → Bool) (xs ms fs : List α) :
    (xs ++ ms ++ fs).Perm (xs ++ fs.filter (fun x => !p x) ++ (ms ++ fs.filter p)) := by
  have hfs : fs.Perm (fs.filter p ++ fs.filter fun x => !p x) :=
    (List.filter_append_perm p fs).symm
  have hswap : (ms ++ fs).Perm (fs.filter (fun x => !p x) ++ (ms ++ fs.filter p)) := by
    refine (hfs.append_left ms).trans ?_
    rw [← List.append_assoc]
    exact List.perm_append_comm
  rw [List.append_assoc, List.append_assoc]
  exact hswap.append_left xs

theorem view_perm {s : Service Session} (p : Progress) {ds es : List Stored} (h : ds.Perm es) :
    (p.view s ds).Perm (p.view s es) := (h.filter _).append_right p.missed

/-- A publication changes the view as it changes the documents, but for what was removed before. -/
theorem view_publish {s : Service Session} {p : Progress} {j : Reindexing}
    {rest : List Reindexing} (hj : p.underway.Perm (j :: rest)) (kept fresh : List Stored) :
    (p.view s kept ++ fresh).Perm ((p.publish s j rest fresh).view s
      ((kept.filter fun d => !removes s [j] d) ++ fresh)) := by
  have hkept : (kept.filter fun d => !removes s [j] d).filter (fun d => !removes s rest d) =
      kept.filter fun d => !removes s p.underway d := by
    rw [List.filter_filter, removes_perm hj]
    apply List.filter_congr
    intro d _
    rw [removes_cons j rest, Bool.not_or, Bool.and_comm]
  unfold view
  rw [List.filter_append]
  simp only [publish]
  rw [hkept]
  exact split_perm (removes s rest) _ p.missed fresh

/-- Whatever stage comes next, the calls that publish in it can be made in the other session. -/
theorem Tracks.step {x y : Moment} {serial : Session} (hx : Tracks cwd config x serial)
    (h : Stage (service cwd config) x y) :
    ∃ js serial', y.progress.published = x.progress.published ++ js ∧
      (service cwd config).History serial (returned js) serial' ∧ Tracks cwd config y serial' := by
  cases h with
  | look hc h =>
    have halike := reading_alike hc h
    refine ⟨[], serial, (List.append_nil _).symm, .nil serial, ?_⟩
    refine ⟨halike.intact hx.intact, hx.follows.look halike, ?_, ?_, ?_⟩
    · rw [halike.ledger]
      exact hx.kept
    · rw [halike.ledger]
      exact hx.staged
    · rw [halike.ledger]
      exact hx.shown
  | @remove j rest n m hj h =>
    obtain ⟨hintact, hdrop⟩ := remove_ok hx.intact h
    have hkept : m.ledger.kept =
        x.session.ledger.kept.filter fun d => !removes (service cwd config) [j] d := by
      simp only [removes_one]
      rw [hdrop]
      exact Ledger.kept_drop _ _
    refine ⟨[], serial, (List.append_nil _).symm, .nil serial, ?_⟩
    refine ⟨hintact, hx.follows.remove h, ?_, ?_, ?_⟩
    · rw [hkept, view_remove]
      exact hx.kept.filter _
    · rw [hdrop]
      exact hx.staged
    · rw [hdrop]
      exact hx.shown
  | @publish j rest m p hj h hp =>
    have hunderway : p.underway = rest := by
      rw [hp]
      rfl
    obtain ⟨hintact, hpublished⟩ := persist_ok hx.intact h
    obtain ⟨serial', hend, hfollows⟩ := hx.follows.publish hx.intact hj hunderway h
    obtain ⟨_, heffect⟩ := perform_effect hx.follows.intact hend
    have hserial := heffect.published rfl
    -- The serial session removes the files of this call now; the other one did so before.
    have hstaging : (serial.ledger.kept.filter fun d => !removes (service cwd config) [j] d) ++
        (x.session.ledger.staged ++ (service cwd config).added j.call) =
          ((service cwd config).staging j.call serial.ledger).kept ++
            ((service cwd config).staging j.call serial.ledger).staged := by
      simp only [removes_one]
      rw [hx.staged, ← Ledger.kept_drop]
      rfl
    have hshown : (documents m.ledger.committed).Perm
        (p.view (service cwd config) (documents serial'.ledger.committed)) := by
      refine hpublished.committed.trans ?_
      refine (hx.kept.append_right _).trans ?_
      refine (view_publish hj _ _).trans ?_
      rw [hp]
      exact view_perm _ ((List.Perm.of_eq hstaging).trans hserial.committed.symm)
    refine ⟨[j], serial', ?_, .cons hend (.nil serial'), ?_⟩
    · rw [hp]
      rfl
    · refine ⟨hintact, hfollows, ?_, hpublished.staged.trans hserial.staged.symm, hshown⟩
      rw [hpublished.kept, hserial.kept]
      exact hshown

/-- Whatever stages come next, the calls that publish in them can be made in the other session. -/
theorem Tracks.runs {x y : Moment} {serial : Session} (hx : Tracks cwd config x serial)
    (h : Runs (service cwd config) x y) :
    ∃ js serial', y.progress.published = x.progress.published ++ js ∧
      (service cwd config).History serial (returned js) serial' ∧ Tracks cwd config y serial' := by
  induction h with
  | refl => exact ⟨[], serial, (List.append_nil _).symm, .nil serial, hx⟩
  | tail _ hlast ih =>
    obtain ⟨js, mid, hjs, hhistory, hmid⟩ := ih
    obtain ⟨ks, serial', hks, hnext, hy⟩ := hmid.step hlast
    refine ⟨js ++ ks, serial', ?_, ?_, hy⟩
    · rw [hks, hjs, List.append_assoc]
    · unfold returned
      rw [List.map_append]
      exact Service.history_append.mpr ⟨mid, hhistory, hnext⟩

/-- No call is lost or made twice. -/
theorem runs_perm {x y : Moment} (h : Runs (service cwd config) x y) :
    (y.progress.published ++ (y.progress.underway ++ y.progress.waiting)).Perm
      (x.progress.published ++ (x.progress.underway ++ x.progress.waiting)) := by
  induction h with
  | refl => exact List.Perm.refl _
  | tail _ hlast ih =>
    refine List.Perm.trans ?_ ih
    cases hlast with
    | look => exact List.Perm.refl _
    | remove hj _ => exact (List.perm_middle.symm.trans (hj.symm.append_left _)).append_left _
    | publish hj _ hp =>
      rw [hp]
      simp only [Progress.publish, List.append_assoc]
      exact (hj.symm.append_right _).append_left _

/-- Where no call is underway nothing was removed since something was published. -/
theorem shown_of_runs {jobs : List Reindexing} {st : Session} {x : Moment}
    (h : Runs (service cwd config) (.begin jobs st) x) (hx : x.progress.underway = []) :
    x.shown = x.progress := by
  induction h with
  | refl => rfl
  | tail _ hlast ih =>
    cases hlast with
    | look => exact ih hx
    | remove => exact absurd hx (by simp [Progress.remove])
    | publish => rfl

theorem KeptApart.step {x y : Moment} (hx : KeptApart (service cwd config) x)
    (hi : x.session.Intact) (h : Stage (service cwd config) x y) :
    KeptApart (service cwd config) y := by
  obtain ⟨hcalls, hstaged⟩ := hx.separate
  cases h with
  | look hc h =>
    refine ⟨⟨hcalls, ?_⟩, hx.missed, hx.shown⟩
    rw [(reading_alike hc h).ledger]
    exact hstaged
  | @remove j rest n m hj h =>
    have hperm : (j :: x.progress.underway ++ rest).Perm
        (x.progress.underway ++ x.progress.waiting) :=
      List.perm_middle.symm.trans (hj.symm.append_left _)
    have hsame : m.ledger.staged = x.session.ledger.staged := by
      rw [(remove_ok hi h).2]
      rfl
    refine ⟨⟨(hperm.pairwise_iff Reindexing.Apart.symm).mpr hcalls, ?_⟩, ?_, hx.shown⟩
    · intro d hd k hk
      exact hstaged d (hsame ▸ hd) k (hperm.mem_iff.mp hk)
    · unfold Progress.remove
      simp only
      rw [hx.missed, List.filter_nil]
  | @publish j rest m p hj h hp =>
    have hcons : (j :: rest ++ x.progress.waiting).Pairwise
        (Reindexing.Apart (service cwd config)) :=
      ((hj.append_right _).pairwise_iff Reindexing.Apart.symm).mp hcalls
    have hnone : m.ledger.staged = [] := (persist_ok hi h).2.staged
    have hmissed : p.missed = [] := by
      rw [hp]
      unfold Progress.publish
      simp only
      rw [hx.missed, List.nil_append, List.filter_eq_nil_iff]
      intro d hd hremoves
      obtain ⟨k, hk, hof⟩ := removes_iff.mp hremoves
      rcases List.mem_append.mp hd with hd | hd
      · have hunderway : k ∈ x.progress.underway := hj.mem_iff.mpr (List.mem_cons_of_mem j hk)
        rw [hstaged d hd k (List.mem_append_left _ hunderway)] at hof
        exact absurd hof (by simp)
      · have hapart := (List.pairwise_cons.mp hcons).1 k (List.mem_append_left _ hk)
        rw [hapart.1 d hd] at hof
        exact absurd hof (by simp)
    refine ⟨⟨?_, ?_⟩, hmissed, hmissed⟩
    · rw [hp]
      exact (List.pairwise_cons.mp hcons).2
    · intro d hd
      rw [hnone] at hd
      exact absurd hd List.not_mem_nil

theorem KeptApart.runs {x y : Moment} {serial : Session} (hx : KeptApart (service cwd config) x)
    (htracks : Tracks cwd config x serial) (h : Runs (service cwd config) x y) :
    KeptApart (service cwd config) y := by
  induction h with
  | refl => exact hx
  | tail hruns hlast ih =>
    obtain ⟨_, _, _, _, hmid⟩ := htracks.runs hruns
    exact ih.step hmid.intact hlast

/-- Reindexings that run side by side leave what they leave when they are made one after the other,
in the order in which they publish, and the documents that were published for a file after a call
underway had removed it. There are none of these where the calls are separate. In between, what is
committed is what those calls leave that have published, but for the files of the calls that were
underway at the last publication. -/
theorem reindexings_serialize {d : Directory} (hd : d.Intact)
    {calls : List (Call × Except Failure Answer)} {st : Session}
    (hcalls : (service cwd config).History (start d) calls st) {jobs : List Reindexing}
    {x : Moment} (hx : Runs (service cwd config) (.begin jobs st) x) :
    ∃ serial,
      (service cwd config).History st (returned x.progress.published) serial ∧
      x.session.directory.documents.Perm
        (x.shown.view (service cwd config) serial.directory.documents) ∧
      (Separate (service cwd config) st jobs → x.shown.missed = []) ∧
      ∀ y, Runs (service cwd config) x y → y.progress.waiting = [] → y.progress.underway = [] →
        ∃ rest final,
          y.progress.published = x.progress.published ++ rest ∧
          y.progress.published.Perm jobs ∧
          (service cwd config).History serial (returned rest) final ∧
          y.session.directory.documents.Perm
            (final.directory.documents ++ y.progress.missed) ∧
          (Separate (service cwd config) st jobs → y.progress.missed = []) := by
  have hbegin : Tracks cwd config (.begin jobs st) st :=
    tracks_begin (history_intact hcalls (intact_start hd))
  obtain ⟨js, serial, hjs, hhistory, htracks⟩ := hbegin.runs hx
  have hjs : x.progress.published = js := hjs
  rw [hjs]
  have hapart {y : Moment} (hseparate : Separate (service cwd config) st jobs)
      (hy : Runs (service cwd config) (.begin jobs st) y) : KeptApart (service cwd config) y :=
    KeptApart.runs ⟨hseparate, rfl, rfl⟩ hbegin hy
  refine ⟨serial, hhistory, ?_, fun hseparate => (hapart hseparate hx).shown, ?_⟩
  · rw [← documents_ledger, ← documents_ledger]
    exact htracks.shown
  · intro y hy hwaiting hunderway
    obtain ⟨rest, final, hrest, hlater, hfinal⟩ := htracks.runs hy
    have hruns : Runs (service cwd config) (.begin jobs st) y := hx.trans hy
    have hperm := runs_perm hruns
    rw [hwaiting, hunderway] at hperm
    have hshown := hfinal.shown
    rw [shown_of_runs hruns hunderway, view_settled hunderway, documents_ledger, documents_ledger]
      at hshown
    refine ⟨rest, final, hjs ▸ hrest, ?_, hlater, hshown,
      fun hseparate => (hapart hseparate hruns).missed⟩
    simpa [Moment.begin, Progress.begin] using hperm

/-- A call that puts one class in the place of what a file held. -/
def replacing (fqn : String) : Reindexing := ⟨[.text "/a.kt"], [sampleClass "/a.kt" fqn], false⟩

/-- Two calls for the same file. -/
def overlapping : List Reindexing := [replacing "a.Bee", replacing "a.Cat"]

/-- Both calls remove the file of a new index before one of them publishes. -/
theorem runs_overlapping :
    ∃ y, Runs sampleService (.begin overlapping (start (.fresh "/index"))) y ∧
      y.progress.waiting = [] ∧ y.progress.underway = [] ∧
      y.progress.missed.map (·.fqn) = [some "a.Bee"] ∧
      y.session.directory.documents.length = 2 := by
  have hremove : Stage sampleService (.begin overlapping (start (.fresh "/index"))) _ :=
    .remove (List.Perm.refl _) ⟨rfl, rfl⟩
  refine ⟨_, .head hremove (.head (.remove (List.Perm.refl _) ⟨rfl, rfl⟩)
    (.head (.publish (List.Perm.swap (replacing "a.Bee") (replacing "a.Cat") []) ⟨rfl, rfl⟩ rfl)
      (.head (.publish (List.Perm.refl [replacing "a.Cat"]) ⟨rfl, rfl⟩ rfl) .refl))), ?_⟩
  exact ⟨rfl, rfl, rfl, rfl⟩

/-- One after the other the two calls leave what the last one put in. -/
theorem length_serial {order : List Reindexing} (horder : order.Perm overlapping)
    {serial : Session} (h : sampleService.History (start (.fresh "/index")) (returned order) serial) :
    serial.directory.documents.length = 1 := by
  rcases List.perm_pair.mp horder with rfl | rfl
  · cases h with
    | cons hfirst hlast =>
      obtain ⟨_, rfl⟩ := hfirst
      obtain ⟨_, rfl⟩ := Service.history_single.mp hlast
      rfl
  · cases h with
    | cons hfirst hlast =>
      obtain ⟨_, rfl⟩ := hfirst
      obtain ⟨_, rfl⟩ := Service.history_single.mp hlast
      rfl

theorem reindexings_serialize_overlapping :
    ∃ y order final, Runs sampleService (.begin overlapping (start (.fresh "/index"))) y ∧
      order.Perm overlapping ∧
      sampleService.History (start (.fresh "/index")) (returned order) final ∧
      y.session.directory.documents.Perm (final.directory.documents ++ y.progress.missed) ∧
      y.progress.missed.map (·.fqn) = [some "a.Bee"] := by
  obtain ⟨y, hy, hwaiting, hunderway, hmissed, _⟩ := runs_overlapping
  obtain ⟨serial, hserial, _, _, hends⟩ := reindexings_serialize (Directory.intact_fresh "/index")
    (.nil _) (.refl : Runs sampleService _ _)
  obtain ⟨order, final, hrest, hperm, hfinal, hdocuments, _⟩ := hends y hy hwaiting hunderway
  have hstart : serial = start (.fresh "/index") := by
    cases hserial
    rfl
  rw [hrest] at hperm
  exact ⟨y, order, final, hy, hperm, hstart ▸ hfinal, hdocuments, hmissed⟩

/-- Side by side the two calls leave both classes, which they do in no order one after the other. -/
theorem reindexings_not_serial :
    ¬ ∀ (calls : List (Call × Except Failure Answer)) (st : Session) (jobs : List Reindexing)
      (y : Moment),
      sampleService.History (start (.fresh "/index")) calls st →
      Runs sampleService (.begin jobs st) y → y.progress.waiting = [] →
      y.progress.underway = [] →
      ∃ order serial, order.Perm jobs ∧ sampleService.History st (returned order) serial ∧
        y.session.directory.documents.Perm serial.directory.documents := by
  intro hclaim
  obtain ⟨y, hy, hwaiting, hunderway, _, htwo⟩ := runs_overlapping
  obtain ⟨order, serial, hperm, hserial, hsame⟩ := hclaim [] _ _ y (.nil _) hy hwaiting hunderway
  have hone := hsame.length_eq.trans (length_serial hperm hserial)
  exact absurd (htwo.symm.trans hone) (by decide)

end

end Store

end GoToSymbol
