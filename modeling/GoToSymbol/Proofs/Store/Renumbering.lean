import GoToSymbol.Proofs.Index.Agreement
import GoToSymbol.Proofs.Store.Writing
import GoToSymbol.Store.Engine

namespace GoToSymbol.Store

open GoToSymbol.Action Session Work

def Segment.renumber (k : Nat) (t : Segment) : Segment := { t with serial := t.serial + k }

def Plan.renumber (k : Nat) (p : Plan) : Plan :=
  ⟨p.merged.map (·.renumber k), p.kept.map (·.renumber k)⟩

def Writer.renumber (j k : Nat) (w : Writer) : Writer :=
  ⟨w.number + j, w.base.map (·.renumber k), w.added⟩

def Catalogue.renumber (k : Nat) : Catalogue → Catalogue
  | absent => absent
  | sound generation segments => sound generation (segments.map (·.renumber k))
  | garbled => garbled

def Contents.renumber (j k : Nat) (c : Contents) : Contents :=
  ⟨c.catalogue.renumber k, c.lock.map (· + j)⟩

def Directory.renumber (j k : Nat) (d : Directory) : Directory :=
  ⟨d.path, d.contents.map (·.renumber j k), d.writers + j, d.segments + k, d.lost + k⟩

/-- The session as it would be if some writers and some segments had come before. -/
def Session.renumber (j k : Nat) (s : Session) : Session :=
  ⟨s.directory.renumber j k, s.handle.opened, s.handle.writer.map (·.renumber j k),
    s.handle.closed⟩

section

variable (j k : Nat)

theorem documents_renumber (segments : List Segment) :
    documents (segments.map (·.renumber k)) = documents segments := by
  unfold documents
  rw [List.flatMap_map]
  rfl

theorem insertBySize_renumber (t : Segment) (segments : List Segment) :
    insertBySize (t.renumber k) (segments.map (·.renumber k)) =
      (insertBySize t segments).map (·.renumber k) := by
  induction segments with
  | nil => rfl
  | cons u rest ih =>
    have hsize : (t.renumber k).size ≤ (u.renumber k).size ↔ t.size ≤ u.size := Iff.rfl
    by_cases h : t.size ≤ u.size
    · simp only [List.map_cons, insertBySize]
      rw [if_pos (hsize.mpr h), if_pos h]
      rfl
    · simp only [List.map_cons, insertBySize]
      rw [if_neg (hsize.not.mpr h), if_neg h, ih]
      rfl

theorem sortBySize_renumber (segments : List Segment) :
    sortBySize (segments.map (·.renumber k)) = (sortBySize segments).map (·.renumber k) := by
  induction segments with
  | nil => rfl
  | cons t rest ih =>
    have hsort : sortBySize (t :: rest) = insertBySize t (sortBySize rest) := rfl
    rw [hsort, ← insertBySize_renumber, ← ih]
    rfl

/-- Which segments are merged depends on their sizes alone. -/
theorem plan_renumber (segments : List Segment) :
    plan (segments.map (·.renumber k)) = (plan segments).renumber k := by
  have hsizes (ts : List Segment) :
      (ts.map (·.renumber k)).map Segment.size = ts.map Segment.size := by
    rw [List.map_map]
    rfl
  unfold plan
  simp only
  rw [sortBySize_renumber, hsizes]
  cases mergePoint 0 0 ((sortBySize segments).map Segment.size) with
  | none => rfl
  | some n =>
    unfold Plan.renumber
    simp only
    rw [List.map_take, List.map_drop]

theorem merge_renumber (serial : Nat) (added : List Stored) (p : Plan) :
    merge (serial + k) added (p.renumber k) = (merge serial added p).map (·.renumber k) := by
  have hlive :
      (p.merged.map (·.renumber k)).flatMap Segment.live = p.merged.flatMap Segment.live := by
    rw [List.flatMap_map]
    rfl
  unfold merge Plan.renumber
  simp only
  rw [hlive, List.isEmpty_map]
  by_cases h : (added.isEmpty && p.merged.isEmpty) = true
  · rw [if_pos h, if_pos h]
  · rw [if_neg h, if_neg h, List.map_append]
    rfl

/-- What a search answers depends on the slots of the segments alone. -/
theorem ranking_renumber (q : Query) (segments : List Segment) :
    ranking q (segments.map (·.renumber k)) = ranking q segments := by
  have hcorpus : Corpus.ofSegments (segments.map (·.renumber k)) = Corpus.ofSegments segments := by
    unfold Corpus.ofSegments
    rw [List.flatMap_map]
    rfl
  unfold ranking
  simp only
  rw [hcorpus, List.flatMap_map]
  rfl

namespace Directory

variable (d : Directory)

@[simp] theorem writers_renumber : (d.renumber j k).writers = d.writers + j := rfl

@[simp] theorem isNone_contents_renumber :
    (d.renumber j k).contents.isNone = d.contents.isNone := by
  simp [renumber]

@[simp] theorem catalogue_renumber : (d.renumber j k).catalogue = d.catalogue.renumber k := by
  unfold catalogue renumber
  cases d.contents with
  | none => rfl
  | some c => rfl

@[simp] theorem lock_renumber : (d.renumber j k).lock = d.lock.map (· + j) := by
  unfold lock renumber
  cases d.contents with
  | none => rfl
  | some c => rfl

theorem documents_renumber : (d.renumber j k).documents = d.documents := by
  unfold documents committed
  rw [catalogue_renumber]
  cases d.catalogue with
  | absent => rfl
  | garbled => rfl
  | sound g ss => exact Store.documents_renumber k ss

theorem lock_renumber_ne (n : Nat) : (d.renumber j k).lock ≠ some (n + j) ↔ d.lock ≠ some n := by
  rw [lock_renumber]
  cases d.lock with
  | none => simp
  | some m => simp

@[simp] theorem any_isLost_renumber (segments : List Segment) :
    (segments.map (·.renumber k)).any (d.renumber j k).isLost = segments.any d.isLost := by
  rw [List.any_map]
  congr 1
  funext t
  simp [isLost, renumber, Segment.renumber]

@[simp] theorem make_renumber : (d.renumber j k).make = d.make.renumber j k := by
  unfold make renumber
  cases hc : d.contents with
  | none => rfl
  | some c => simp [hc]

@[simp] theorem setCatalogue_renumber (c : Catalogue) :
    (d.renumber j k).setCatalogue (c.renumber k) = (d.setCatalogue c).renumber j k := by
  unfold setCatalogue renumber
  cases d.contents with
  | none => rfl
  | some c => rfl

@[simp] theorem unlock_renumber (n : Nat) :
    (d.renumber j k).unlock (n + j) = (d.unlock n).renumber j k := by
  unfold unlock renumber
  cases d.contents with
  | none => rfl
  | some c =>
    have hsame : c.lock.map (· + j) = some (n + j) ↔ c.lock = some n := by
      cases c.lock with
      | none => simp
      | some m => simp
    by_cases h : c.lock = some n
    · simp [Contents.renumber, h]
    · simp [Contents.renumber, h, hsame]

@[simp] theorem setLock_renumber (l : Option Nat) :
    (d.renumber j k).setLock (l.map (· + j)) = (d.setLock l).renumber j k := by
  unfold setLock renumber
  cases d.contents with
  | none => rfl
  | some c => rfl

@[simp] theorem written_renumber (generation : Nat) (w : Writer) :
    (d.renumber j k).written generation (w.renumber j k) =
      (d.written generation w).renumber j k := by
  have hsegments : { d.renumber j k with segments := (d.renumber j k).segments + 1 } =
      { d with segments := d.segments + 1 }.renumber j k := by
    have hnext : d.segments + k + 1 = d.segments + 1 + k := by omega
    simp only [renumber]
    rw [hnext]
  have hplan : plan (w.renumber j k).base = (plan w.base).renumber k := plan_renumber k w.base
  have hmerge := merge_renumber k d.segments w.added (plan w.base)
  unfold written
  rw [hsegments, hplan, ← unlock_renumber, ← setCatalogue_renumber]
  simp only [Catalogue.renumber]
  rw [← hmerge]
  rfl

end Directory

namespace Session

variable (s : Session)

@[simp] theorem directory_renumber : (s.renumber j k).directory = s.directory.renumber j k := rfl

@[simp] theorem opened_renumber : (s.renumber j k).handle.opened = s.handle.opened := rfl

@[simp] theorem writer_renumber :
    (s.renumber j k).handle.writer = s.handle.writer.map (·.renumber j k) := rfl

theorem addDocument_renumber (x : Stored) :
    (s.renumber j k).addDocument x = (s.addDocument x).renumber j k := by
  unfold addDocument
  rw [writer_renumber]
  cases s.handle.writer with
  | none => rfl
  | some w => rfl

/-- The second session is the first one with other numbers. -/
def Renumbered (s s' : Session) : Prop := s' = s.renumber j k

end Session

namespace Work

variable {j k}

/-- An action that does not look at numbers ends alike in a session with other numbers. -/
theorem renumber_read_bind {α β : Type} {A : α → β → Prop} {t : Session → Work α}
    {u : Session → Work β}
    (h : ∀ s, Renumbered j k s (s.renumber j k) →
      (t s s).Agree (Renumbered j k) A (u (s.renumber j k) (s.renumber j k))) :
    Agree (Renumbered j k) A (read >>= t) (read >>= u) := by
  apply agree_read_bind
  intro s s' hs
  rw [hs]
  exact h s rfl

theorem renumber_update {f g : Session → Session}
    (h : ∀ s, g (s.renumber j k) = (f s).renumber j k) :
    Agree (Renumbered j k) Eq (update f) (update g) := by
  apply agree_update
  intro s s' hs
  rw [hs]
  exact h s

theorem renumber_whileOpen {α : Type} {t : Work α} (h : Respects (Renumbered j k) t) :
    Respects (Renumbered j k) (whileOpen t) := by
  refine renumber_read_bind fun s hs => ?_
  exact agree_ite Iff.rfl (fun _ => agree_fail _ _ _ hs) (fun _ => h _ _ hs)

theorem renumber_openIndex : Respects (Renumbered j k) openIndex := by
  refine renumber_read_bind fun s hs => ?_
  refine agree_ite Iff.rfl (fun _ => agree_pure rfl _ _ hs) fun _ => ?_
  rw [directory_renumber, Directory.catalogue_renumber]
  cases s.directory.catalogue with
  | garbled => exact agree_fail _ _ _ hs
  | sound g ss =>
    refine renumber_update (fun m => ?_) _ _ hs
    rfl
  | absent =>
    refine renumber_update (fun m => ?_) _ _ hs
    have hcreated := Directory.setCatalogue_renumber j k m.directory.make (.sound 0 [])
    rw [directory_renumber, Directory.make_renumber]
    exact congrArg (fun d => ((m.renumber j k).setDirectory d).setOpened true) hcreated

/-- The writers that are had in both sessions differ in their numbers. -/
theorem renumber_startWriter :
    Agree (Renumbered j k) (fun w v => v = w.renumber j k) startWriter startWriter := by
  refine renumber_read_bind fun s hs => ?_
  simp only
  refine agree_ite (by simp) (fun _ => agree_fail _ _ _ hs) fun _ => ?_
  refine agree_ite (by simp) (fun _ => agree_fail _ _ _ hs) fun _ => ?_
  rw [directory_renumber, Directory.catalogue_renumber]
  cases s.directory.catalogue with
  | absent => exact agree_fail _ _ _ hs
  | garbled => exact agree_fail _ _ _ hs
  | sound g ss =>
    have hlock := Directory.setLock_renumber j k s.directory (some s.directory.writers)
    have hnext : s.directory.writers + j + 1 = s.directory.writers + 1 + j := by omega
    simp only [Catalogue.renumber]
    refine Agree.bind (renumber_update fun m => ?_) (fun _ _ _ => agree_pure ?_) _ _ hs
    · simp only [Directory.writers_renumber]
      rw [Option.map_some] at hlock
      rw [hlock, hnext]
      rfl
    · rfl

theorem renumber_useWriter :
    Agree (Renumbered j k) (fun w v => v = w.renumber j k) useWriter useWriter := by
  refine renumber_read_bind fun s hs => ?_
  rw [writer_renumber]
  cases s.handle.writer with
  | some w =>
    refine agree_pure ?_ _ _ hs
    rfl
  | none => exact Agree.bind renumber_openIndex (fun _ _ _ => renumber_startWriter) _ _ hs

theorem renumber_stageAll (ds : List Document) : Respects (Renumbered j k) (stageAll ds) := by
  induction ds with
  | nil => exact agree_succeed rfl
  | cons d ds ih =>
    refine Respects.bind (agree_ofExcept _) fun x => Respects.bind ?_ fun _ => ih
    exact renumber_update fun s => addDocument_renumber j k s x

theorem renumber_drop (w : Writer) :
    Agree (Renumbered j k) Eq
      (update fun s => (s.setDirectory (s.directory.unlock w.number)).setWriter none)
      (update fun s => (s.setDirectory (s.directory.unlock (w.number + j))).setWriter none) := by
  apply renumber_update
  intro s
  rw [directory_renumber, Directory.unlock_renumber]
  rfl

theorem renumber_abandonWriter : Respects (Renumbered j k) abandonWriter := by
  refine renumber_read_bind fun s hs => ?_
  rw [writer_renumber]
  cases s.handle.writer with
  | none => exact agree_succeed rfl _ _ hs
  | some w => exact (renumber_drop w).bind (fun _ _ _ => agree_log _) _ _ hs

theorem renumber_publish (generation : Nat) (w : Writer) :
    Agree (Renumbered j k) Eq (publish generation w) (publish generation (w.renumber j k)) := by
  refine renumber_read_bind fun s hs => ?_
  rw [directory_renumber]
  refine agree_ite (Directory.lock_renumber_ne j k s.directory w.number).symm (fun _ => ?_)
    fun _ => ?_
  · exact renumber_abandonWriter.bind (fun _ => agree_fail _) _ _ hs
  refine agree_ite ?_ (fun _ => ?_) fun _ => ?_
  · have hplan : plan (w.renumber j k).base = (plan w.base).renumber k := plan_renumber k w.base
    rw [hplan]
    unfold Plan.renumber
    rw [Directory.any_isLost_renumber]
  · refine Agree.bind (renumber_update fun m => ?_) (fun _ _ _ => agree_fail _) _ _ hs
    have hunlock := Directory.unlock_renumber j k s.directory w.number
    exact congrArg (fun d => ((m.renumber j k).setDirectory d).setWriter none) hunlock
  · refine renumber_update (fun m => ?_) _ _ hs
    have hwritten := Directory.written_renumber j k s.directory generation w
    exact congrArg (fun d => ((m.renumber j k).setDirectory d).setWriter none) hwritten

theorem renumber_flush : Respects (Renumbered j k) flush := by
  refine renumber_read_bind fun s hs => ?_
  refine agree_ite (by simp) (fun _ => agree_pure rfl _ _ hs) fun _ => ?_
  rw [directory_renumber, Directory.catalogue_renumber, writer_renumber]
  cases s.directory.catalogue with
  | garbled => exact agree_fail _ _ _ hs
  | absent =>
    refine renumber_abandonWriter.bind (fun _ => ?_) _ _ hs
    exact Respects.bind (renumber_update fun _ => rfl) fun _ => agree_fail _
  | sound g ss =>
    cases s.handle.writer with
    | none => exact agree_succeed rfl _ _ hs
    | some w => exact renumber_publish g w _ _ hs

theorem renumber_put (ds : List Document) (publish : Bool) :
    Respects (Renumbered j k) (put ds publish) := by
  refine renumber_useWriter.bind fun _ _ _ => (renumber_stageAll ds).bind fun _ => ?_
  cases publish with
  | true => exact renumber_flush
  | false => exact agree_pure rfl

theorem renumber_eraseBy (q : Query) : Respects (Renumbered j k) (eraseBy q) := by
  refine renumber_useWriter.bind fun w v hv => renumber_read_bind fun s hs => ?_
  rw [hv]
  refine agree_ite ?_ (fun _ => agree_fail _ _ _ hs) fun _ => ?_
  · have hlost := Directory.any_isLost_renumber j k s.directory w.base
    exact Eq.congr_left hlost.symm
  · refine Agree.bind (renumber_update fun m => ?_) (fun _ _ _ => agree_pure ?_) _ _ hs
    · have hbase : (w.base.map (·.renumber k)).map (·.erase q) =
          (w.base.map (·.erase q)).map (·.renumber k) := by
        rw [List.map_map, List.map_map]
        rfl
      simp only [Writer.renumber]
      rw [hbase]
      rfl
    · simp only [Writer.renumber]
      rw [List.foldl_map]
      rfl

theorem renumber_eraseAll (qs : List Query) : Respects (Renumbered j k) (eraseAll qs) := by
  induction qs with
  | nil => exact agree_succeed rfl
  | cons q qs ih =>
    exact (renumber_eraseBy q).bind fun _ => ih.bind fun _ => agree_pure rfl

theorem renumber_delete (qs : List Query) (publish : Bool) :
    Respects (Renumbered j k) (delete qs publish) := by
  refine renumber_useWriter.bind fun _ _ _ => (renumber_eraseAll qs).bind fun n => ?_
  cases publish with
  | true => exact renumber_flush.bind fun _ => agree_pure rfl
  | false => exact agree_pure rfl

theorem renumber_readSegments :
    Agree (Renumbered j k) (fun ss ts => ts = ss.map (·.renumber k)) readSegments readSegments := by
  refine renumber_read_bind fun s hs => ?_
  rw [directory_renumber, Directory.catalogue_renumber]
  cases s.directory.catalogue with
  | absent => exact agree_fail _ _ _ hs
  | garbled => exact agree_fail _ _ _ hs
  | sound g ss =>
    refine agree_ite ?_ (fun _ => agree_fail _ _ _ hs) fun _ => ?_
    · rw [Directory.any_isLost_renumber]
    · refine agree_succeed ?_ _ _ hs
      rfl

theorem renumber_search (q : Query) (limit : Int) : Respects (Renumbered j k) (search q limit) := by
  unfold search
  split
  · exact agree_pure rfl
  · refine renumber_openIndex.bind fun _ => renumber_readSegments.bind fun ss ts hts => ?_
    rw [hts, ranking_renumber]
    exact agree_pure rfl

theorem renumber_stats : Respects (Renumbered j k) stats := by
  refine renumber_openIndex.bind fun _ => renumber_read_bind fun s hs => ?_
  refine agree_ite (by simp) (fun _ => agree_fail _ _ _ hs) fun _ => ?_
  refine renumber_readSegments.bind (fun ss ts hts => ?_) _ _ hs
  rw [hts, documents_renumber]
  exact agree_pure rfl

theorem renumber_release : Respects (Renumbered j k) release := by
  refine renumber_read_bind fun s hs => ?_
  have hlet : Agree (Renumbered j k) Eq (update (·.setOpened false)) (update (·.setOpened false)) :=
    renumber_update fun _ => rfl
  exact agree_ite (by simp) (fun _ => renumber_flush.bind (fun _ => hlet) _ _ hs)
    (fun _ => hlet _ _ hs)

theorem renumber_shutdown : Respects (Renumbered j k) Work.shutdown := by
  refine renumber_read_bind fun s hs => ?_
  refine agree_ite Iff.rfl (fun _ => agree_pure rfl _ _ hs) fun _ => ?_
  refine Agree.ensure renumber_release (renumber_update fun m => ?_) _ _ hs
  rfl

end Work

end

/-- No operation tells from which number on writers and segments are numbered. -/
theorem renumber_engine (j k : Nat) : engine.Respects (Renumbered j k) where
  put documents publish := renumber_whileOpen (renumber_put documents publish)
  delete queries publish :=
    renumber_whileOpen ((renumber_delete queries publish).bind fun _ => agree_pure rfl)
  commit := renumber_whileOpen renumber_flush
  search q limit := renumber_whileOpen (renumber_search q limit)
  shutdown := renumber_shutdown
  stats := renumber_whileOpen renumber_stats

end GoToSymbol.Store
