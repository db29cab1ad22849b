import GoToSymbol.Proofs.Index.Keeping
import GoToSymbol.Proofs.Index.Publishing
import GoToSymbol.Proofs.Index.Requests

namespace GoToSymbol.Store

open GoToSymbol.Action Session Work

namespace Work

/-- A shutdown hands the release to the workers, who refuse it once they are stopped. It stops them
also where the release fails. -/
def shutdownByWorkers : Work Unit := do
  let s ← read
  if s.handle.closed then return
  ensure (whileOpen release) (update Session.close)

/-- Whether the workers release the index or the caller does comes to the same. -/
theorem ends_shutdownByWorkers {s s' : Session} {r : Except Failure Unit} :
    Ends shutdownByWorkers s r s' ↔ Ends Work.shutdown s r s' := by
  unfold shutdownByWorkers Work.shutdown
  simp only [ends_read_bind]
  split
  · exact Iff.rfl
  · next hopen => simp only [ends_ensure_update, ends_whileOpen_of_open (by simpa using hopen)]

end Work

/-- What can be asked of a storage, with both ways to close it. -/
inductive Operation where
  | request (q : Request)
  | search (q : Query) (limit : Int)
  | stats
  | shutdown
  | close

namespace Operation

def run : Operation → Work Unit
  | request q => engine.perform q
  | search q limit => do
    let _ ← engine.search q limit
    return ()
  | stats => do
    let _ ← engine.stats
    return ()
  | shutdown => shutdownByWorkers
  | close => Work.shutdown

def closes : Operation → Bool
  | shutdown | close => true
  | request _ | search _ _ | stats => false

/-- What an operation tells once the session is closed. -/
def refusal (o : Operation) : Except Failure Unit := if o.closes then .ok () else .error .stopped

end Operation

/-- What happens to a session: an operation, or a change that somebody else makes to its directory
meanwhile. -/
inductive Event where
  | operation (o : Operation)
  | meanwhile (change : Directory → Directory)

namespace Event

def act : Event → Session → Session
  | operation o, s => (o.run s).state
  | meanwhile change, s => s.setDirectory (change s.directory)

/-- What an event does to the directory of a closed session. -/
def changes : Event → Directory → Directory
  | operation _ => id
  | meanwhile change => change

/-- A table of contents that can be read never becomes one that cannot. -/
def Clean : Event → Prop
  | operation _ => True
  | meanwhile change => ∀ d, d.catalogue ≠ .garbled → (change d).catalogue ≠ .garbled

/-- The deletion of the directory is such an event. -/
theorem clean_erase : Clean (.meanwhile Directory.erase) := by
  intro d _
  simp [Directory.erase, Directory.catalogue]

end Event

/-- The session after some events. -/
def after (s : Session) (events : List Event) : Session := events.foldl (fun s e => e.act s) s

namespace Session

/-- The table of contents can be read, and no writer outlives the closing. -/
structure Tidy (s : Session) : Prop where
  readable : s.directory.catalogue ≠ .garbled
  closed : s.handle.closed = true → s.handle.writer = none

/-- An open session whose table of contents can be read. -/
structure Readable (s : Session) : Prop where
  readable : s.directory.catalogue ≠ .garbled
  opened : s.handle.closed = false

variable {s : Session}

theorem Readable.tidy (h : s.Readable) : s.Tidy :=
  ⟨h.readable, fun hc => absurd (h.opened.symm.trans hc) (by simp)⟩

theorem Tidy.open (h : s.Tidy) (hc : s.handle.closed = false) : s.Readable := ⟨h.readable, hc⟩

theorem Readable.alike {s' : Session} (h : s.Readable) (ha : Alike s s') : s'.Readable :=
  ⟨ha.readable h.readable, ha.closed.trans h.opened⟩

theorem tidy_start {d : Directory} (hd : d.catalogue ≠ .garbled) : (start d).Tidy := by
  refine ⟨?_, fun _ => rfl⟩
  change d.make.catalogue ≠ .garbled
  rwa [Directory.catalogue_make]

end Session

theorem readable_written (d : Directory) (g : Nat) (w : Writer) :
    (d.written g w).catalogue ≠ .garbled := by
  unfold Directory.written
  rw [Directory.catalogue_unlock]
  cases d.contents <;> simp [Directory.setCatalogue, Directory.catalogue]

namespace Work

variable {s s' : Session}

theorem keeps_readable_startWriter : Keeps Readable startWriter := by
  intro s r s' hs h
  rcases startWriter_cases h with ⟨_, _, rfl⟩ | ⟨w, g, _, _, _, _, rfl⟩
  · exact hs
  · refine ⟨?_, hs.opened⟩
    change (s.directory.setLock _).catalogue ≠ .garbled
    rw [Directory.catalogue_setLock]
    exact hs.readable

theorem keeps_readable_openIndex : Keeps Readable openIndex :=
  fun _ _ _ hs h => hs.alike (openIndex_alike h)

theorem keeps_readable_useWriter : Keeps Readable useWriter := by
  refine keeps_read.bind fun s => ?_
  split
  · exact keeps_pure _
  · exact keeps_readable_openIndex.bind fun _ => keeps_readable_startWriter

theorem keeps_readable_eraseBy (q : Query) : Keeps Readable (eraseBy q) := by
  refine keeps_readable_useWriter.bind fun w => keeps_read.bind fun s => ?_
  split
  · exact keeps_fail .missing
  · exact (keeps_update fun s hs => ⟨hs.readable, hs.opened⟩).bind fun _ => keeps_pure _

/-- A session that gives up its writer, and the lock that the writer holds. -/
theorem readable_unlocked (hs : s.Readable) (n : Nat) :
    ((s.setDirectory (s.directory.unlock n)).setWriter none).Readable := by
  refine ⟨?_, hs.opened⟩
  change (s.directory.unlock n).catalogue ≠ .garbled
  rw [Directory.catalogue_unlock]
  exact hs.readable

theorem abandonWriter_empties (hs : s.Readable) {r : Except Failure Unit}
    (h : Ends abandonWriter s r s') : s'.Readable ∧ s'.handle.writer = none := by
  unfold abandonWriter at h
  rw [ends_read_bind] at h
  split at h
  · next hw =>
    rw [(ends_succeed.mp h).2]
    exact ⟨hs, hw⟩
  · next w _ =>
    rw [ends_update_bind, ends_log] at h
    rw [h.2]
    exact ⟨readable_unlocked hs w.number, rfl⟩

theorem publish_empties (hs : s.Readable) {g : Nat} {w : Writer} {r : Except Failure Unit}
    (h : Ends (publish g w) s r s') : s'.Readable ∧ s'.handle.writer = none := by
  unfold publish at h
  rw [ends_read_bind] at h
  simp only at h
  split at h
  · obtain ⟨k, habandon, hfail⟩ := ends_abandonWriter_bind h
    rw [(ends_fail.mp hfail).2]
    exact abandonWriter_empties hs habandon
  · split at h
    · rw [ends_update_bind, ends_fail] at h
      rw [h.2]
      exact ⟨readable_unlocked hs w.number, rfl⟩
    · rw [(ends_update.mp h).2]
      refine ⟨⟨?_, hs.opened⟩, rfl⟩
      exact readable_written s.directory g w

/-- A commit leaves no writer, however it ends. -/
theorem flush_empties (hs : s.Readable) {r : Except Failure Unit} (h : Ends flush s r s') :
    s'.Readable ∧ s'.handle.writer = none := by
  unfold flush at h
  rw [ends_read_bind] at h
  split at h
  · next hidle =>
    rw [(ends_pure.mp h).2]
    simp only [Bool.and_eq_true, Option.isNone_iff_eq_none] at hidle
    exact ⟨hs, hidle.1⟩
  · split at h
    · next hg => exact absurd hg hs.readable
    · obtain ⟨k, habandon, hrest⟩ := ends_abandonWriter_bind h
      rw [ends_update_bind, ends_fail] at hrest
      obtain ⟨hk, hw⟩ := abandonWriter_empties hs habandon
      rw [hrest.2]
      exact ⟨⟨hk.readable, hk.opened⟩, hw⟩
    · split at h
      · next hw =>
        rw [(ends_succeed.mp h).2]
        exact ⟨hs, hw⟩
      · exact publish_empties hs h

theorem kept_readable : Kept Readable where
  openIndex := keeps_readable_openIndex
  useWriter := keeps_readable_useWriter
  addDocument _ _ hs := ⟨hs.readable, hs.opened⟩
  eraseBy := keeps_readable_eraseBy
  flush _ _ _ hs h := (flush_empties hs h).1

/-- Once a session is closed it is so for good, and has no writer, whether the closing succeeded or
not. -/
theorem shutdown_empties (hs : s.Tidy) {r : Except Failure Unit} (h : Ends Work.shutdown s r s') :
    s'.Tidy ∧ s'.handle.closed = true ∧ s'.handle.writer = none := by
  rcases closing_cases h with ⟨hclosed, rfl, _⟩ | ⟨m, x, hopen, _, hm, hst⟩
  · exact ⟨hs, hclosed, hs.closed hclosed⟩
  · have hmid : m.Readable ∧ m.handle.writer = none := by
      rcases hm with ⟨hw, _, rfl⟩ | ⟨_, hflush⟩
      · exact ⟨hs.open hopen, hw⟩
      · exact flush_empties (hs.open hopen) hflush
    obtain ⟨hreadable, hw⟩ := hmid
    rcases hst with rfl | rfl
    · exact ⟨⟨hreadable.readable, fun _ => hw⟩, rfl, hw⟩
    · exact ⟨⟨hreadable.readable, fun _ => hw⟩, rfl, hw⟩

end Work

theorem tidy_engine : engine.Keeps Tidy :=
  kept_readable.engine (fun _ hs hopen => hs.open hopen) (fun _ hs => hs.tidy)
    fun _ _ _ hs h => (shutdown_empties hs h).1

theorem Operation.tidy_run (o : Operation) : Keeps Tidy o.run := by
  cases o with
  | request q =>
    cases q with
    | put documents publish => exact tidy_engine.put documents publish
    | delete queries publish => exact (tidy_engine.delete queries publish).bind fun _ => keeps_pure _
    | commit => exact tidy_engine.commit
  | search q limit => exact (tidy_engine.search q limit).bind fun _ => keeps_pure _
  | stats => exact tidy_engine.stats.bind fun _ => keeps_pure _
  | shutdown => exact fun s r s' hs h => (shutdown_empties hs (ends_shutdownByWorkers.mp h)).1
  | close => exact fun s r s' hs h => (shutdown_empties hs h).1

theorem tidy_after {s : Session} {events : List Event} (hs : s.Tidy)
    (hevents : ∀ e ∈ events, e.Clean) : (after s events).Tidy := by
  induction events generalizing s with
  | nil => exact hs
  | cons e events ih =>
    refine ih ?_ fun e' he' => hevents e' (List.mem_cons_of_mem e he')
    cases e with
    | operation o => exact o.tidy_run s _ _ hs (ends_self o.run s)
    | meanwhile change =>
      exact ⟨hevents _ List.mem_cons_self s.directory hs.readable, hs.closed⟩

section Closed

variable {s s' : Session} (hc : s.handle.closed = true)
include hc

theorem ends_whileOpen_bind_of_closed {α β : Type} {t : Work α} {next : α → Work β}
    {r : Except Failure β} :
    Ends (whileOpen t >>= next) s r s' ↔ r = .error .stopped ∧ s' = s := by
  simp only [ends_bind, ends_whileOpen_of_closed hc]
  constructor
  · intro h
    rcases h with ⟨_, _, ⟨hf, _⟩, _⟩ | ⟨f, ⟨hf, hs⟩, hr⟩
    · exact absurd hf (by simp)
    · cases hf
      exact ⟨hr, hs⟩
  · intro h
    obtain ⟨hr, hs⟩ := h
    exact Or.inr ⟨.stopped, ⟨rfl, hs⟩, hr⟩

theorem ends_shutdown_of_closed {r : Except Failure Unit} :
    Ends Work.shutdown s r s' ↔ r = .ok () ∧ s' = s := by
  unfold Work.shutdown
  rw [ends_read_bind, if_pos hc]
  exact ends_pure

/-- A closed session does nothing, and tells so. -/
theorem Operation.ends_run_of_closed {o : Operation} {r : Except Failure Unit} :
    Ends o.run s r s' ↔ r = o.refusal ∧ s' = s := by
  cases o with
  | request q =>
    cases q with
    | put documents publish => exact ends_whileOpen_of_closed hc
    | delete queries publish => exact ends_whileOpen_bind_of_closed hc
    | commit => exact ends_whileOpen_of_closed hc
  | search q limit => exact ends_whileOpen_bind_of_closed hc
  | stats => exact ends_whileOpen_bind_of_closed hc
  | shutdown => exact ends_shutdownByWorkers.trans (ends_shutdown_of_closed hc)
  | close => exact ends_shutdown_of_closed hc

/-- Of a closed session only the directory changes, and only by what others do to it. -/
theorem after_of_closed (events : List Event) :
    after s events = s.setDirectory (events.foldl (fun d e => e.changes d) s.directory) := by
  induction events generalizing s with
  | nil => rfl
  | cons e events ih =>
    cases e with
    | operation o =>
      have hsame : (o.run s).state = s :=
        ((Operation.ends_run_of_closed hc).mp (ends_self o.run s)).2
      change after (o.run s).state events = _
      rw [hsame]
      exact ih hc
    | meanwhile change => exact ih hc

end Closed

end GoToSymbol.Store

namespace GoToSymbol

open GoToSymbol.Action Store Store.Session Store.Work

namespace Service

variable {σ : Type} (s : Service σ)

/-- What an indexing asks of the storage, if it asks anything. -/
def persistAsks (symbols : List Submission) (publish prioritized : Bool) : Option String :=
  match s.documentsOf prioritized symbols with
  | .ok [] => if publish then some "commit" else none
  | .ok (_ :: _) => some "put"
  | .error _ => none

/-- What a call asks of the storage first, but for a shutdown. -/
def asks : Call → Option String
  | .persist symbols publish prioritized => s.persistAsks symbols publish prioritized
  | .remove files => if files.isEmpty then none else some "delete"
  | .commit => some "commit"
  | .reindex files symbols prioritized =>
    if files.isEmpty then s.persistAsks symbols true prioritized else some "delete"
  | .searchClasses _ _ => some "search"
  | .searchNames terms _ => if terms.isEmpty then none else some "search"
  | .stats => some "stats"
  | .shutdown => none

end Service

namespace Store

section

variable {cwd : File.Path} {config : IndexConfig} {st st' : Session}

/-- The session stays as it is, and the caller is told that this operation failed as the workers were
stopped. -/
structure Refused {α : Type} (name? : Option String) (st : Session) (r : Except Failure α)
    (st' : Session) : Prop where
  same : st' = st
  told : ∀ name, name? = some name → r = .error (.index (.operation name Failure.stopped.text))

section Closed

variable (hc : st.handle.closed = true)
include hc

theorem guarded_refused {α : Type} {name : String} {t : Work α} {r : Except Failure α}
    (h : Ends (Service.guarded name (whileOpen t)) st r st') : Refused (some name) st r st' := by
  rcases ends_guarded_whileOpen.mp h with ⟨_, hr, hs⟩ | ⟨hopen, _⟩
  · refine ⟨hs, fun other hother => ?_⟩
    cases hother
    exact hr
  · exact absurd (hc.symm.trans hopen) (by simp)

theorem commit_refused {r : Except Failure Unit}
    (h : Ends (service cwd config).commit st r st') : Refused (some "commit") st r st' := by
  obtain ⟨x, hx, rfl⟩ := Service.ends_commit.mp h
  obtain ⟨rfl, hs⟩ := (ends_whileOpen_of_closed hc).mp hx
  refine ⟨hs, fun name hname => ?_⟩
  cases hname
  rfl

theorem persist_refused {symbols : List Submission} {publish prioritized : Bool}
    {r : Except Failure Unit}
    (h : Ends ((service cwd config).persist symbols publish prioritized) st r st') :
    Refused ((service cwd config).persistAsks symbols publish prioritized) st r st' := by
  unfold Service.persistAsks
  split
  · next hds =>
    rw [Service.ends_persist_nothing hds] at h
    cases publish with
    | true => exact commit_refused hc h
    | false => exact ⟨(ends_succeed.mp h).2, nofun⟩
  · next d ds hds =>
    rw [Service.ends_persist_documents hds (by simp)] at h
    exact guarded_refused hc h
  · next f hds =>
    unfold Service.persist at h
    rw [hds, ends_error_bind] at h
    exact ⟨h.2, nofun⟩

theorem remove_refused {files : List File.Reference} {r : Except Failure Int}
    (h : Ends ((service cwd config).remove files) st r st') :
    Refused (if files.isEmpty then none else some "delete") st r st' := by
  unfold Service.remove at h
  split
  · next hnil =>
    rw [if_pos hnil] at h
    exact ⟨(ends_succeed.mp h).2, nofun⟩
  · next hne =>
    rw [if_neg hne, ends_bind_logged] at h
    exact guarded_refused hc h

theorem find_refused {q : Query} {limit : Int} {r : Except Failure (List Entry)}
    (h : Ends ((service cwd config).find q limit) st r st') :
    Refused (some "search") st r st' := by
  rcases ends_bind.mp h with ⟨ds, m, hsearch, _⟩ | ⟨f, hsearch, rfl⟩
  · exact absurd ((guarded_refused hc hsearch).told _ rfl) (by simp)
  · have hrefused := guarded_refused hc hsearch
    refine ⟨hrefused.same, fun name hname => ?_⟩
    exact congrArg Except.error (Except.error.inj (hrefused.told name hname))

theorem reindex_refused {files : List File.Reference} {symbols : List Submission}
    {prioritized : Bool} {r : Except Failure Unit}
    (h : Ends ((service cwd config).reindex files symbols prioritized) st r st') :
    Refused ((service cwd config).asks (.reindex files symbols prioritized)) st r st' := by
  change Refused (if files.isEmpty then (service cwd config).persistAsks symbols true prioritized
    else some "delete") st r st'
  rcases ends_bind.mp h with ⟨n, m, hremove, hpersist⟩ | ⟨f, hremove, rfl⟩
  · have hrefused := remove_refused hc hremove
    split at hrefused
    · next hnil =>
      rw [hrefused.same] at hpersist
      rw [if_pos hnil]
      exact persist_refused hc hpersist
    · exact absurd (hrefused.told _ rfl) (by simp)
  · have hrefused := remove_refused hc hremove
    split
    · next hnil =>
      unfold Service.remove at hremove
      rw [if_pos hnil] at hremove
      exact absurd (ends_succeed.mp hremove).1 (by simp)
    · next hne =>
      rw [if_neg hne] at hrefused
      refine ⟨hrefused.same, fun name hname => ?_⟩
      exact congrArg Except.error (Except.error.inj (hrefused.told name hname))

omit hc in
theorem Refused.map {α β : Type} {name? : Option String} {r : Except Failure α}
    (h : Refused name? st r st') (g : α → β) : Refused name? st (r.map g) st' := by
  refine ⟨h.same, fun name hname => ?_⟩
  rw [h.told name hname]
  rfl

/-- No call reaches the storage any more, and a shutdown returns at once. -/
theorem perform_refused {c : Call} {r : Except Failure Answer}
    (h : Ends ((service cwd config).perform c) st r st') :
    Refused ((service cwd config).asks c) st r st' ∧ (c = .shutdown → r = .ok .done) := by
  cases c with
  | persist symbols publish prioritized =>
    obtain ⟨x, hx, rfl⟩ := ends_bind_pure.mp h
    exact ⟨(persist_refused hc hx).map _, nofun⟩
  | remove files =>
    obtain ⟨x, hx, rfl⟩ := ends_bind_pure.mp h
    exact ⟨(remove_refused hc hx).map _, nofun⟩
  | commit =>
    obtain ⟨x, hx, rfl⟩ := ends_bind_pure.mp h
    exact ⟨(commit_refused hc hx).map _, nofun⟩
  | reindex files symbols prioritized =>
    obtain ⟨x, hx, rfl⟩ := ends_bind_pure.mp h
    exact ⟨(reindex_refused hc hx).map _, nofun⟩
  | searchClasses text max =>
    obtain ⟨x, hx, rfl⟩ := ends_bind_pure.mp h
    exact ⟨(find_refused hc hx).map _, nofun⟩
  | searchNames terms max =>
    obtain ⟨x, hx, rfl⟩ := ends_bind_pure.mp h
    refine ⟨Refused.map ?_ _, nofun⟩
    unfold Service.searchClassesMethods at hx
    change Refused (if terms.isEmpty then none else some "search") st x st'
    split
    · next hnil =>
      rw [if_pos hnil] at hx
      exact ⟨(ends_succeed.mp hx).2, nofun⟩
    · next hne =>
      rw [if_neg hne] at hx
      exact find_refused hc hx
  | stats =>
    obtain ⟨x, hx, rfl⟩ := ends_bind_pure.mp h
    exact ⟨(guarded_refused hc hx).map _, nofun⟩
  | shutdown =>
    obtain ⟨x, hx, rfl⟩ := ends_bind_pure.mp h
    rcases shutdown_cases hx with ⟨_, rfl, rfl⟩ | ⟨_, _, hopen, _⟩
    · exact ⟨⟨rfl, nofun⟩, fun _ => rfl⟩
    · exact absurd (hc.symm.trans hopen) (by simp)

end Closed

/-- Once a session was closed, in either way and whether the closing succeeded or failed, no writer is
pending. From then on operations leave all as it is: those that write, search or count are refused,
also by way of a service, whose commit does not overlook that, and a further closing returns. The
directory changes only where others change it. -/
theorem closed_inert {d : Directory} (hd : d.catalogue ≠ .garbled) {events : List Event}
    (hevents : ∀ e ∈ events, e.Clean) {o : Operation} (ho : o.closes = true)
    {r : Except Failure Unit} {ended : Session} (h : Ends o.run (after (start d) events) r ended) :
    ended.handle.closed = true ∧ ended.handle.writer = none ∧
      (∀ later : List Operation, after ended (later.map .operation) = ended) ∧
      ∀ later : List Event, let now := after ended later
        now = ended.setDirectory (later.foldl (fun d e => e.changes d) ended.directory) ∧
          (∀ (o : Operation) (r : Except Failure Unit) (st' : Session),
            Ends o.run now r st' ↔ r = o.refusal ∧ st' = now) ∧
          ∀ (c : Call) (r : Except Failure Answer) (st' : Session),
            Ends ((service cwd config).perform c) now r st' →
              Refused ((service cwd config).asks c) now r st' ∧
                (c = .shutdown → r = .ok .done) := by
  have htidy := tidy_after (tidy_start hd) hevents
  obtain ⟨_, hc, hw⟩ : ended.Tidy ∧ ended.handle.closed = true ∧ ended.handle.writer = none := by
    cases o with
    | shutdown => exact shutdown_empties htidy (ends_shutdownByWorkers.mp h)
    | close => exact shutdown_empties htidy h
    | request _ => exact absurd ho (by simp [Operation.closes])
    | search _ _ => exact absurd ho (by simp [Operation.closes])
    | stats => exact absurd ho (by simp [Operation.closes])
  refine ⟨hc, hw, fun later => ?_, fun later => ?_⟩
  · have hquiet : (later.map Event.operation).foldl (fun d e => e.changes d) ended.directory =
        ended.directory := by
      induction later with
      | nil => rfl
      | cons o later ih => exact ih
    rw [after_of_closed hc, hquiet]
    rfl
  · intro now
    have hnow : now = ended.setDirectory _ := after_of_closed hc later
    have hclosed : now.handle.closed = true := by
      rw [hnow]
      exact hc
    exact ⟨hnow, fun _ _ _ => Operation.ends_run_of_closed hclosed,
      fun _ _ _ => perform_refused hclosed⟩

/-- A document is staged, and the directory is deleted. -/
def deletedBeforeClosing : List Event :=
  [.operation (.request (.put [taggedDocument "a.Bee" "ClassIndex"] false)),
    .meanwhile Directory.erase]

/-- The closing fails at its commit. The writer is gone all the same, and a service is refused a
commit. -/
theorem closed_inert_deleted : ∃ ended,
    Ends Operation.shutdown.run (after (start (.fresh "/index")) deletedBeforeClosing)
        (.error .missing) ended ∧
      ended.handle.writer = none ∧
      after ended [.operation .close, .operation (.request .commit)] = ended ∧
      ∀ r st', Ends (sampleService.perform .commit) ended r st' →
        st' = ended ∧ r = .error (.index (.operation "commit" Failure.stopped.text)) := by
  have hevents : ∀ e ∈ deletedBeforeClosing, e.Clean := by
    intro e he
    rcases List.mem_pair.mp he with rfl | rfl
    · exact trivial
    · exact Event.clean_erase
  obtain ⟨ended, h⟩ : ∃ ended,
      Ends Operation.shutdown.run (after (start (.fresh "/index")) deletedBeforeClosing)
        (.error .missing) ended := ⟨_, rfl, rfl⟩
  obtain ⟨_, hwriter, hsame, hlater⟩ := @closed_inert sampleService.cwd sampleService.config _
    (Directory.intact_fresh "/index").readable _ hevents _ rfl _ _ h
  refine ⟨ended, h, hwriter, hsame [.close, .request .commit], fun r st' hr => ?_⟩
  obtain ⟨_, _, hcalls⟩ := hlater []
  obtain ⟨hrefused, _⟩ := hcalls .commit r st' hr
  exact ⟨hrefused.same, hrefused.told "commit" rfl⟩

end

end Store

end GoToSymbol
