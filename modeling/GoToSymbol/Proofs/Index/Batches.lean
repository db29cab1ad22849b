import GoToSymbol.Proofs.Index.Availability
import GoToSymbol.Proofs.Index.Epoch
import Mathlib.Data.List.Perm.Subperm
import Mathlib.Logic.Relation

namespace GoToSymbol

open GoToSymbol.Action Store Store.Session

/-- A call that indexes some symbols. -/
structure Batch where
  symbols : List Submission
  publish : Bool
  prioritized : Bool

def Batch.call (b : Batch) : Call := .persist b.symbols b.publish b.prioritized

namespace Service

variable {σ : Type} (s : Service σ)

/-- What the store keeps of the symbols of a call, if the call returns. -/
def handedOver (c : Call) : Except Failure Answer → List Stored
  | .ok _ => s.added c
  | .error _ => []

end Service

/-- The batches that wait, those that ran, with their results and in their order, and the session
that they run in. -/
structure Indexing where
  waiting : List Batch
  ran : List (Batch × Except Failure Answer)
  session : Session

namespace Indexing

/-- One of the batches runs, or a call that only reads. -/
inductive Step (s : Service Session) : Indexing → Indexing → Prop where
  | look {x : Indexing} {c : Call} {r : Except Failure Answer} {m : Session}
      (hc : c.isReading = true) (h : Ends (s.perform c) x.session r m) :
      Step s x { x with session := m }
  | run {x : Indexing} {b : Batch} {rest : List Batch} {r : Except Failure Answer} {m : Session}
      (hb : x.waiting.Perm (b :: rest)) (h : Ends (s.perform b.call) x.session r m) :
      Step s x ⟨rest, x.ran ++ [(b, r)], m⟩

def Steps (s : Service Session) : Indexing → Indexing → Prop := Relation.ReflTransGen (Step s)

variable (s : Service Session) (x : Indexing)

/-- The documents of the batches that returned. -/
def added : List Stored := x.ran.flatMap fun y => s.handedOver y.1.call y.2

/-- The documents of the batches that returned and were to publish. -/
def published : List Stored :=
  (x.ran.filter (·.1.publish)).flatMap fun y => s.handedOver y.1.call y.2

theorem added_run (rest : List Batch) (b : Batch) (r : Except Failure Answer) (m : Session) :
    added s ⟨rest, x.ran ++ [(b, r)], m⟩ = added s x ++ s.handedOver b.call r := by
  unfold added
  rw [List.flatMap_append, List.flatMap_singleton]

theorem published_run (rest : List Batch) (b : Batch) (r : Except Failure Answer) (m : Session) :
    published s ⟨rest, x.ran ++ [(b, r)], m⟩ =
      published s x ++ if b.publish then s.handedOver b.call r else [] := by
  unfold published
  simp only
  rw [List.filter_append, List.flatMap_append]
  cases hb : b.publish with
  | true => simp [hb]
  | false => simp [hb]

variable {s x}

theorem added_of_returned (h : ∀ z ∈ x.ran, ∃ a, z.2 = .ok a) :
    added s x = (x.ran.map (·.1)).flatMap fun b => s.added b.call := by
  unfold added
  rw [List.flatMap_map]
  apply List.flatMap_congr
  intro z hz
  obtain ⟨a, ha⟩ := h z hz
  rw [ha]
  rfl

end Indexing

namespace Store

/-- The documents `xs` came to those that are kept or staged, and nothing was taken out. Those that
were published with them, `ys`, are kept, and so is what was kept; unless nothing was published, all
that is kept is committed. -/
structure Ledger.Grows (l : Ledger) (xs ys : List Stored) (l' : Ledger) : Prop where
  total : (l'.kept ++ l'.staged).Perm (l.kept ++ l.staged ++ xs)
  kept : (l.kept ++ ys).Subperm l'.kept
  committed : l'.kept = documents l'.committed ∨ (ys = [] ∧ l'.committed = l.committed)

theorem Ledger.grows_self (l : Ledger) : l.Grows [] [] l where
  total := List.Perm.of_eq (List.append_nil _).symm
  kept := by
    rw [List.append_nil]
  committed := Or.inr ⟨rfl, rfl⟩

end Store

namespace Service

section

variable {σ : Type} {s : Service σ} {c : Call} {r : Except Failure Answer} {l l' : Ledger}

theorem drop_of_no_removals (hc : c.removals = []) : l.drop (s.removedUris c) = l := by
  unfold removedUris
  rw [hc, List.map_nil, Ledger.drop_nil]

theorem staging_of_no_removals (hc : c.removals = []) :
    s.staging c l = l.stage (s.added c) := by
  unfold staging
  rw [drop_of_no_removals hc]

/-- A call that removes nothing lets the documents grow by those it hands over. -/
theorem Effect.grows (h : s.Effect c l r l') (hc : c.removals = []) :
    l.Grows (s.handedOver c r) (if c.isCommitPoint then s.handedOver c r else []) l' := by
  cases h with
  | stages a hpoint =>
    rw [staging_of_no_removals hc, if_neg (by simp [hpoint])]
    refine ⟨?_, ?_, Or.inr ⟨rfl, rfl⟩⟩
    · exact List.Perm.of_eq (List.append_assoc _ _ _).symm
    · rw [List.append_nil]
      exact .refl _
  | publishes a l' hpoint hpublished =>
    rw [staging_of_no_removals hc] at hpublished
    have hperm : l'.kept.Perm (l.kept ++ (l.staged ++ s.added c)) := by
      rw [hpublished.kept]
      exact hpublished.committed
    rw [if_pos hpoint]
    refine ⟨?_, ?_, Or.inl hpublished.kept⟩
    · rw [hpublished.staged, List.append_nil, List.append_assoc]
      exact hperm
    · have hsub : (l.kept ++ s.added c).Subperm (l.kept ++ (l.staged ++ s.added c)) :=
        ((List.sublist_append_right _ _).append_left _).subperm
      exact hsub.trans hperm.symm.subperm
  | nothing f =>
    simp only [handedOver, ite_self]
    exact Ledger.grows_self l
  | removals f =>
    rw [drop_of_no_removals hc]
    simp only [handedOver, ite_self]
    exact Ledger.grows_self l

/-- A call that removes nothing marks no committed document. -/
theorem Effect.unmarked (h : s.Effect c l r l') (hc : c.removals = [])
    (hkept : l.kept = documents l.committed) : l'.kept = documents l'.committed := by
  cases h with
  | stages a hpoint =>
    rw [staging_of_no_removals hc]
    exact hkept
  | publishes a l' hpoint hpublished => exact hpublished.kept
  | nothing f => exact hkept
  | removals f =>
    rw [drop_of_no_removals hc]
    exact hkept

end

end Service

namespace Store

section

variable {cwd : File.Path} {config : IndexConfig} {st : Session} {x y : Indexing}

/-- At this moment all documents are accounted for. -/
structure Tallied (cwd : File.Path) (config : IndexConfig) (st : Session) (x : Indexing) :
    Prop where
  intact : x.session.Intact
  total : (x.session.ledger.kept ++ x.session.ledger.staged).Perm
    (st.ledger.kept ++ st.ledger.staged ++ x.added (service cwd config))
  kept : (x.published (service cwd config)).Subperm x.session.ledger.kept
  committed : (x.published (service cwd config)).Subperm
    (documents x.session.ledger.committed)

theorem tallied_start (hi : st.Intact) (jobs : List Batch) :
    Tallied cwd config st ⟨jobs, [], st⟩ where
  intact := hi
  total := List.Perm.of_eq (List.append_nil _).symm
  kept := List.nil_subperm
  committed := List.nil_subperm

theorem Tallied.step (hx : Tallied cwd config st x)
    (h : Indexing.Step (service cwd config) x y) : Tallied cwd config st y := by
  cases h with
  | look hc h =>
    have halike := reading_alike hc h
    refine ⟨halike.intact hx.intact, ?_, ?_, ?_⟩
    · rw [halike.ledger]
      exact hx.total
    · rw [halike.ledger]
      exact hx.kept
    · rw [halike.ledger]
      exact hx.committed
  | @run b rest r m hb h =>
    obtain ⟨hintact, heffect⟩ := perform_effect hx.intact h
    have hgrows := heffect.grows rfl
    have hkept : (Indexing.published (service cwd config) ⟨rest, x.ran ++ [(b, r)], m⟩).Subperm
        m.ledger.kept := by
      rw [Indexing.published_run]
      exact (hx.kept.append (.refl _)).trans hgrows.kept
    refine ⟨hintact, ?_, hkept, ?_⟩
    · have hadded := hgrows.total.trans (hx.total.append_right _)
      rw [List.append_assoc, ← Indexing.added_run] at hadded
      exact hadded
    · rcases hgrows.committed with hcommitted | ⟨hnothing, hcommitted⟩
      · rw [hcommitted] at hkept
        exact hkept
      · have hsame : b.call.isCommitPoint = b.publish := rfl
        rw [hsame] at hnothing
        rw [Indexing.published_run, hnothing, List.append_nil, hcommitted]
        exact hx.committed

theorem Tallied.steps (hx : Tallied cwd config st x)
    (h : Indexing.Steps (service cwd config) x y) : Tallied cwd config st y := by
  induction h with
  | refl => exact hx
  | tail _ hlast ih => exact ih.step hlast

/-- No batch is lost or runs twice. -/
theorem indexing_perm (h : Indexing.Steps (service cwd config) x y) :
    (y.ran.map (·.1) ++ y.waiting).Perm (x.ran.map (·.1) ++ x.waiting) := by
  induction h with
  | refl => exact List.Perm.refl _
  | tail _ hlast ih =>
    refine List.Perm.trans ?_ ih
    cases hlast with
    | look => exact List.Perm.refl _
    | run hb _ =>
      rw [List.map_append, List.append_assoc]
      exact hb.symm.append_left _

/-- The session can write, and every batch of which all documents can be built has returned. -/
structure Served (cwd : File.Path) (config : IndexConfig) (x : Indexing) : Prop where
  available : Available x.session
  returned : ∀ b r, (b, r) ∈ x.ran → ∀ ds,
    (service cwd config).documentsOf b.prioritized b.symbols = .ok ds → r = .ok .done

theorem Served.step (hx : Served cwd config x) (h : Indexing.Step (service cwd config) x y) :
    Served cwd config y := by
  cases h with
  | look hc h => exact ⟨hx.available.alike (reading_alike hc h), hx.returned⟩
  | @run b rest r m hb h =>
    obtain ⟨z, hpersist, rfl⟩ := ends_bind_pure.mp h
    obtain ⟨havailable, hreturned⟩ := persist_available hx.available hpersist
    refine ⟨havailable, fun b' r' hmem ds hds => ?_⟩
    rcases List.mem_append.mp hmem with hmem | hmem
    · exact hx.returned b' r' hmem ds hds
    · cases List.mem_singleton.mp hmem
      rw [hreturned ds hds]
      rfl

theorem Served.steps (hx : Served cwd config x) (h : Indexing.Steps (service cwd config) x y) :
    Served cwd config y := by
  induction h with
  | refl => exact hx
  | tail _ hlast ih => exact ih.step hlast

/-- Where nothing was removed since the last commit, no committed document is marked. -/
theorem kept_of_epoch {d : Directory} (hd : d.Intact)
    {past epoch : List (Call × Except Failure Answer)} {begun : Session}
    (hpast : (service cwd config).History (start d) past begun) (hbegins : EpochBegins past)
    (hepoch : (service cwd config).History begun epoch st)
    (hnone : ∀ z ∈ epoch, z.1.removals = []) : st.ledger.kept = st.directory.documents := by
  have hbegun := history_intact hpast (intact_start hd)
  rw [← documents_ledger]
  refine history_preserves (P := fun l => l.kept = documents l.committed) hepoch hbegun ?_
    (settled_of_epochBegins hd hpast hbegins).kept
  intro c r l l' hcall heffect hkept
  exact heffect.unmarked (hnone (c, r) hcall) hkept

/-- Batches are indexed side by side while nothing is removed. Whenever a batch that publishes has
returned, its documents are committed. A commit leaves what was committed before, unless a deletion
that was staged marks it, what was staged before, and one copy of each document of the batches that
have returned, in whatever order they ran. All return of which the documents can be built, if the
session is open and nobody else writes. -/
theorem batches_add_up (hi : st.Intact) {jobs : List Batch}
    (hx : Indexing.Steps (service cwd config) ⟨jobs, [], st⟩ x) :
    (x.ran.map (·.1) ++ x.waiting).Perm jobs ∧
      (x.published (service cwd config)).Subperm x.session.directory.documents ∧
      (∀ ended, Ends (service cwd config).commit x.session (.ok ()) ended →
        ended.directory.documents.Perm
          (st.ledger.kept ++ st.ledger.staged ++ x.added (service cwd config))) ∧
      (∀ d past begun epoch, d.Intact → (service cwd config).History (start d) past begun →
        EpochBegins past → (service cwd config).History begun epoch st →
        (∀ z ∈ epoch, z.1.removals = []) → st.ledger.kept = st.directory.documents) ∧
      (x.waiting = [] → (∀ z ∈ x.ran, ∃ a, z.2 = .ok a) →
        (x.added (service cwd config)).Perm
          (jobs.flatMap fun b => (service cwd config).added b.call)) ∧
      (st.handle.closed = false → st.Free →
        (∀ b r, (b, r) ∈ x.ran → ∀ ds,
          (service cwd config).documentsOf b.prioritized b.symbols = .ok ds → r = .ok .done) ∧
        ∃ ended, Ends (service cwd config).commit x.session (.ok ()) ended) := by
  have htallied := (tallied_start hi jobs).steps hx
  have hperm := indexing_perm hx
  refine ⟨hperm, ?_, fun ended hcommit => ?_,
    fun d past begun epoch hd hpast hbegins hepoch hnone => ?_, fun hwaiting hok => ?_,
    fun hopen hfree => ?_⟩
  · rw [← documents_ledger]
    exact htallied.committed
  · obtain ⟨_, hpublished⟩ := commit_ok htallied.intact hcommit
    have htotal := hpublished.committed.trans htallied.total
    rwa [documents_ledger] at htotal
  · exact kept_of_epoch hd hpast hbegins hepoch hnone
  · rw [hwaiting, List.append_nil] at hperm
    rw [Indexing.added_of_returned hok]
    exact hperm.flatMap_right _
  · have hserved : Served cwd config ⟨jobs, [], st⟩ :=
      ⟨⟨hi, hopen, hfree⟩, fun b r hmem => absurd hmem List.not_mem_nil⟩
    have hlast := hserved.steps hx
    refine ⟨hlast.returned, ?_⟩
    obtain ⟨ended, hcommit, _⟩ := commit_returns hlast.available.intact hlast.available.opened
    exact ⟨ended, hcommit⟩

/-- Two batches of one class each, of which the first one publishes. -/
def sampleBatches : List Batch :=
  [⟨[sampleClass "/d.kt" "a.Dog"], true, false⟩, ⟨[sampleClass "/e.kt" "a.Emu"], false, true⟩]

/-- The second batch runs first, with a class staged before: one commit later all are there. -/
theorem batches_add_up_sample :
    ∃ st x ended,
      sampleService.History sampleSession
        [(.persist [sampleClass "/c.kt" "a.Cat"] false false, .ok .done)] st ∧
      Indexing.Steps sampleService ⟨sampleBatches, [], st⟩ x ∧ x.waiting = [] ∧
      Ends sampleService.commit x.session (.ok ()) ended ∧
      (ended.directory.documents.map (·.fqn)).Perm
        [some "a.Bee", some "a.Cat", some "a.Dog", some "a.Emu"] := by
  obtain ⟨st, x, ended, hepoch, hx, hwaiting, hok, hcommit, hbefore⟩ : ∃ st x ended,
      sampleService.History sampleSession
        [(.persist [sampleClass "/c.kt" "a.Cat"] false false, .ok .done)] st ∧
      Indexing.Steps sampleService ⟨sampleBatches, [], st⟩ x ∧ x.waiting = [] ∧
      (∀ z ∈ x.ran, ∃ a, z.2 = .ok a) ∧ Ends sampleService.commit x.session (.ok ()) ended ∧
      (st.directory.documents ++ st.ledger.staged).map (·.fqn) = [some "a.Bee", some "a.Cat"] := by
    refine ⟨_, _, _, .cons ⟨rfl, rfl⟩ (.nil _), .head (.run (List.Perm.swap _ _ []) ⟨rfl, rfl⟩)
      (.single (.run (List.Perm.refl _) ⟨rfl, rfl⟩)), rfl, ?_, ⟨rfl, rfl⟩, rfl⟩
    intro z hz
    rcases List.mem_cons.mp hz with rfl | hz
    · exact ⟨_, rfl⟩
    · rw [List.mem_singleton.mp hz]
      exact ⟨_, rfl⟩
  have hi := history_intact hepoch
    (history_intact history_sampleSession (intact_start (Directory.intact_fresh "/index")))
  obtain ⟨_, _, hends, hkept, hall, _⟩ := batches_add_up hi hx
  have hnames := ((hends ended hcommit).trans ((hall hwaiting hok).append_left _)).map (·.fqn)
  have hunmarked := hkept _ _ _ _ (Directory.intact_fresh "/index") history_sampleSession
    (Or.inr ⟨[], _, _, rfl, rfl⟩) hepoch (by simp [Call.removals])
  rw [hunmarked, List.map_append, hbefore] at hnames
  exact ⟨st, x, ended, hepoch, hx, hwaiting, hcommit, hnames⟩

end

end Store

end GoToSymbol
