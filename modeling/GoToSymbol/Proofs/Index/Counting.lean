import GoToSymbol.Proofs.Index.Batches
import GoToSymbol.Proofs.Index.Deletion

namespace GoToSymbol

open GoToSymbol.Action Store Store.Session Store.Work

/-- A document counts once, in the first of two tests that it meets. -/
theorem countP_add_countP_filter {α : Type} (p q : α → Bool) (xs : List α) :
    xs.countP p + (xs.filter fun x => !p x).countP q = xs.countP fun x => p x || q x := by
  induction xs with
  | nil => rfl
  | cons x xs ih =>
    cases hp : p x with
    | true => simp [hp, ← ih]; omega
    | false => cases hq : q x <;> simp [hp, hq, ← ih]; omega

namespace Store

theorem countP_isOf_nil (xs : List Stored) : xs.countP (Stored.isOf []) = 0 :=
  List.countP_eq_zero.mpr fun x _ => by simp [Stored.isOf]

/-- What a deletion would mark of some segments is what it matches of their documents. -/
theorem foldl_countMet (q : Query) (segments : List Segment) (n : Nat) :
    segments.foldl (fun n t => n + t.countMet q) n = n + (documents segments).countP q.accepts := by
  induction segments generalizing n with
  | nil => rfl
  | cons t ts ih =>
    have hmet : t.countMet q = (t.live.map (·.doc)).countP q.accepts := by
      rw [List.countP_map, Segment.live, List.countP_filter]
      apply List.countP_congr
      intro slot _
      simp [Segment.meets, and_comm]
    rw [List.foldl_cons, ih, hmet, Nat.add_assoc, ← List.countP_append]
    rfl

namespace Work

variable {s s' : Session}

/-- Deletions that are staged one after the other count together what any of them matches. -/
theorem eraseAll_counts {w : Writer} (hw : s.handle.writer = some w) {qs : List Query} {n : Nat}
    (h : Ends (eraseAll qs) s (.ok n) s') :
    n = (documents w.base).countP (Query.acceptsAny qs) := by
  induction qs generalizing s w n s' with
  | nil =>
    cases (ends_succeed.mp h).1
    simp [Query.acceptsAny]
  | cons q qs ih =>
    obtain ⟨k, m, hhead, hrest⟩ := ends_bind_ok.mp h
    obtain ⟨l, htail, rfl⟩ := ends_bind_pure_ok.mp hrest
    rcases eraseBy_cases hw hhead with ⟨_, hf, _⟩ | ⟨_, hk, rfl⟩
    · exact absurd hf (by simp)
    · cases hk
      -- The second count is one of what the first deletion left.
      rw [foldl_countMet, Nat.zero_add, ih (writer_setWriter s _) htail, documents_erase,
        countP_add_countP_filter]
      rfl

theorem delete_counts {qs : List Query} {n : Nat} (h : Ends (delete qs false) s (.ok n) s') :
    n = s.ledger.kept.countP (Query.acceptsAny qs) := by
  obtain ⟨w, m, huse, hrest⟩ := ends_bind_ok.mp h
  have hused := useWriter_ok huse
  obtain ⟨k, m', herase, hend⟩ := ends_bind_ok.mp hrest
  cases (ends_pure.mp hend).1
  rw [← hused.ledger, ledger_of_writer hused.writer]
  exact eraseAll_counts hused.writer herase

end Work

/-- A removal counts the committed documents of its files that were not marked before. -/
theorem remove_counts {cwd : File.Path} {config : IndexConfig} {st st' : Session}
    {files : List File.Reference} {n : Int}
    (h : Ends ((service cwd config).remove files) st (.ok n) st') :
    n = st.ledger.kept.countP (Stored.isOf (files.map (File.uri cwd))) := by
  unfold Service.remove at h
  split at h
  · next hnil =>
    cases (ends_succeed.mp h).1
    rw [List.isEmpty_iff.mp hnil, List.map_nil, countP_isOf_nil]
    rfl
  · rw [ends_bind_logged] at h
    rcases ends_guarded_whileOpen.mp h with ⟨_, hf, _⟩ | ⟨_, x, hran, hx⟩
    · exact absurd hf (by simp)
    · obtain ⟨y, hdelete, rfl⟩ := ends_bind_pure.mp hran
      cases y with
      | error f => exact absurd hx (by simp [Except.map, Except.mapError])
      | ok k =>
        cases hx
        have hqueries : files.map (fun f => Query.forFile (File.uri cwd f)) =
            (files.map (File.uri cwd)).map Query.forFile := by
          rw [List.map_map]
          rfl
        have haccepts := funext (Query.acceptsAny_forFile (files.map (File.uri cwd)))
        rw [← haccepts, ← hqueries]
        exact congrArg Int.ofNat (Work.delete_counts hdelete)

end Store

/-- The number that a call answers, if it is a removal and returns. -/
def tally : Except Failure Answer → Int
  | .ok (.removed n) => n
  | .ok _ | .error _ => 0

/-- The sum of the numbers that removals answered. -/
def counted (calls : List (Call × Except Failure Answer)) : Int :=
  calls.foldr (fun x n => tally x.2 + n) 0

/-- Calls, returning or not, none of which is to publish anything. -/
def Unpublished (calls : List (Call × Except Failure Answer)) : Prop :=
  ∀ x ∈ calls, x.1.isCommitPoint = false

/-- A call that publishes nothing stages documents, stages deletions or only reads. -/
theorem Call.unpublished_cases {c : Call} (hc : c.isCommitPoint = false) :
    (∃ symbols prioritized, c = .persist symbols false prioritized) ∨
      (∃ files, c = .remove files) ∨ c.isReading = true := by
  cases c with
  | persist symbols publish prioritized =>
    cases (show publish = false from hc)
    exact Or.inl ⟨symbols, prioritized, rfl⟩
  | remove files => exact Or.inr (Or.inl ⟨files, rfl⟩)
  | searchClasses _ _ => exact Or.inr (Or.inr rfl)
  | searchNames _ _ => exact Or.inr (Or.inr rfl)
  | stats => exact Or.inr (Or.inr rfl)
  | commit => exact absurd hc (by simp [isCommitPoint])
  | reindex _ _ _ => exact absurd hc (by simp [isCommitPoint])
  | shutdown => exact absurd hc (by simp [isCommitPoint])

namespace Service

variable {σ : Type} (s : Service σ)

/-- The URIs of the files that a call takes out, if it returns. -/
def takenOut (c : Call) : Except Failure Answer → List String
  | .ok _ => s.removedUris c
  | .error _ => []

/-- The URIs of the files that were named by the removals that returned. -/
def named (calls : List (Call × Except Failure Answer)) : List String :=
  calls.flatMap fun x => s.takenOut x.1 x.2

/-- The documents that the calls which returned handed over. -/
def handed (calls : List (Call × Except Failure Answer)) : List Stored :=
  calls.flatMap fun x => s.handedOver x.1 x.2

variable {s} {c : Call} {r : Except Failure Answer}

theorem takenOut_of_no_removals (hc : c.removals = []) : s.takenOut c r = [] := by
  cases r with
  | ok a => exact congrArg (List.map (File.uri s.cwd)) hc
  | error f => rfl

/-- Where every removal returned, all files that they were asked for are named. -/
theorem named_eq_removedBy {calls : List (Call × Except Failure Answer)} (hq : Unpublished calls)
    (hok : ∀ files r, (.remove files, r) ∈ calls → ∃ n, r = .ok (.removed n)) :
    s.named calls = s.removedBy calls := by
  apply List.flatMap_congr
  intro x hx
  obtain ⟨c, r⟩ := x
  rcases Call.unpublished_cases (hq _ hx) with ⟨_, _, rfl⟩ | ⟨files, rfl⟩ | hread
  · exact takenOut_of_no_removals rfl
  · obtain ⟨n, rfl⟩ := hok files r hx
    rfl
  · obtain ⟨_, hremovals, _⟩ := s.reading_quiet hread
    rw [takenOut_of_no_removals hremovals, removedUris, hremovals]
    rfl

/-- What a call that publishes nothing does to a ledger, and what it counts there. -/
structure Accounts (s : Service σ) (c : Call) (r : Except Failure Answer) (l l' : Ledger) :
    Prop where
  ledger : l' = (l.drop (s.takenOut c r)).stage (s.handedOver c r)
  count : tally r = l.kept.countP (Stored.isOf (s.takenOut c r))

theorem accounts_stage {l : Ledger} (hc : c.removals = []) (hr : tally r = 0) :
    s.Accounts c r l (l.stage (s.handedOver c r)) := by
  have hnone := takenOut_of_no_removals (s := s) (r := r) hc
  refine ⟨?_, ?_⟩
  · rw [hnone, Ledger.drop_nil]
  · rw [hnone, hr, countP_isOf_nil]
    rfl

theorem accounts_nothing {l l' : Ledger} (hl : l' = l) (hc : c.removals = []) (hr : tally r = 0)
    (hnone : s.handedOver c r = []) : s.Accounts c r l l' := by
  have haccounts := accounts_stage (s := s) (l := l) hc hr
  rw [hnone, Ledger.stage_nil] at haccounts
  rwa [hl]

end Service

namespace Store

section

variable {cwd : File.Path} {config : IndexConfig} {st st' now : Session}

theorem persist_accounts {symbols : List Submission} {prioritized : Bool}
    {r : Except Failure Unit}
    (h : Ends ((service cwd config).persist symbols false prioritized) st r st') :
    (service cwd config).Accounts (.persist symbols false prioritized) (r.map fun _ => .done)
      st.ledger st'.ledger := by
  rcases persist_cases h with ⟨⟨f, rfl⟩, rfl⟩ | ⟨ds, hds, ⟨hnil, _, rfl, rfl⟩ |
    ⟨_, hpublish, _⟩ | ⟨_, _, x, hput, rfl⟩⟩
  · exact Service.accounts_nothing rfl rfl rfl rfl
  · have hstored := Service.buildDocuments_stored hds
    rw [hnil] at hstored
    exact Service.accounts_nothing rfl rfl rfl (List.forall₂_nil_left_iff.mp hstored)
  · exact absurd hpublish (by simp)
  · rcases put_cases (Service.buildDocuments_stored hds) hput with ⟨f, rfl, _, halike⟩ |
      ⟨m, hm, ⟨_, rfl, rfl⟩ | ⟨hpublish, _⟩⟩
    · exact Service.accounts_nothing halike.ledger rfl rfl rfl
    · rw [hm.ledger]
      exact Service.accounts_stage rfl rfl
    · exact absurd hpublish (by simp)

theorem remove_accounts {files : List File.Reference} {r : Except Failure Int}
    (h : Ends ((service cwd config).remove files) st r st') :
    (service cwd config).Accounts (.remove files) (r.map .removed) st.ledger st'.ledger := by
  cases r with
  | error f =>
    have hsame : st'.ledger = st.ledger := by
      rcases remove_cases h with ⟨_, _, hf⟩ | ⟨_, _, hl, _⟩ | ⟨_, ⟨n, hf⟩, _⟩
      · exact absurd hf (by simp)
      · exact hl
      · exact absurd hf (by simp)
    rw [hsame]
    refine ⟨((Ledger.stage_nil _).trans (Ledger.drop_nil _)).symm, ?_⟩
    exact congrArg Int.ofNat (countP_isOf_nil _).symm
  | ok n =>
    refine ⟨?_, remove_counts h⟩
    rcases remove_cases h with ⟨rfl, rfl, _⟩ | ⟨_, ⟨f, hf⟩, _⟩ | ⟨_, _, _, hm⟩
    · exact ((Ledger.stage_nil _).trans (Ledger.drop_nil _)).symm
    · exact absurd hf (by simp)
    · rw [hm.ledger, Ledger.erase_forFile]
      exact (Ledger.stage_nil _).symm

/-- No call that only reads answers a number of removals. -/
theorem reading_tally {c : Call} {r : Except Failure Answer} (hc : c.isReading = true)
    (h : Ends ((service cwd config).perform c) st r st') : tally r = 0 := by
  cases c <;> simp only [Call.isReading, Bool.false_eq_true] at hc
  all_goals
    obtain ⟨x, _, rfl⟩ := ends_bind_pure.mp h
    cases x <;> rfl

/-- Whatever the session, a call that publishes nothing counts just what it marks. -/
theorem perform_accounts {c : Call} {r : Except Failure Answer} (hc : c.isCommitPoint = false)
    (h : Ends ((service cwd config).perform c) st r st') :
    (service cwd config).Accounts c r st.ledger st'.ledger := by
  rcases Call.unpublished_cases hc with ⟨symbols, prioritized, rfl⟩ | ⟨files, rfl⟩ | hread
  · obtain ⟨x, hx, rfl⟩ := ends_bind_pure.mp h
    exact persist_accounts hx
  · obtain ⟨x, hx, rfl⟩ := ends_bind_pure.mp h
    exact remove_accounts hx
  · obtain ⟨_, hremovals, hadded⟩ := (service cwd config).reading_quiet hread
    refine Service.accounts_nothing (reading_alike hread h).ledger hremovals
      (reading_tally hread h) ?_
    cases r with
    | ok a => exact hadded
    | error f => rfl

/-- A document that one call marked is not there for the next one to count. -/
theorem history_accounts {calls : List (Call × Except Failure Answer)}
    (h : (service cwd config).History st calls now) (hq : Unpublished calls) :
    now.ledger = (st.ledger.drop ((service cwd config).named calls)).stage
        ((service cwd config).handed calls) ∧
      counted calls =
        st.ledger.kept.countP (Stored.isOf ((service cwd config).named calls)) := by
  induction h with
  | nil st =>
    refine ⟨((Ledger.stage_nil _).trans (Ledger.drop_nil _)).symm, ?_⟩
    exact congrArg Int.ofNat (countP_isOf_nil _).symm
  | @cons st m st' c r rest head tail ih =>
    have hhead := perform_accounts (hq (c, r) List.mem_cons_self) head
    obtain ⟨hledger, hcount⟩ := ih fun x hx => hq x (List.mem_cons_of_mem _ hx)
    constructor
    · rw [hledger, hhead.ledger, Ledger.stage_drop, Ledger.drop_drop, Ledger.stage_stage]
      rfl
    · have hkept : m.ledger.kept = st.ledger.kept.filter
          fun x => !x.isOf ((service cwd config).takenOut c r) := by
        rw [hhead.ledger]
        exact Ledger.kept_drop _ _
      have hsplit := countP_add_countP_filter (Stored.isOf ((service cwd config).takenOut c r))
        (Stored.isOf ((service cwd config).named rest)) st.ledger.kept
      have hisOf := funext (Stored.isOf_append ((service cwd config).takenOut c r)
        ((service cwd config).named rest))
      rw [← hisOf, ← hkept] at hsplit
      calc counted ((c, r) :: rest)
          = tally r + counted rest := rfl
        _ = ((st.ledger.kept.countP (Stored.isOf ((service cwd config).takenOut c r)) +
              m.ledger.kept.countP (Stored.isOf ((service cwd config).named rest)) : Nat) : Int) := by
            rw [hhead.count, hcount, Int.natCast_add]
        _ = _ := congrArg Nat.cast hsplit

/-- A session that can write still can after a call that publishes nothing, and its removals
return. -/
theorem unpublished_available (hs : Available st) {c : Call} {r : Except Failure Answer}
    (hc : c.isCommitPoint = false) (h : Ends ((service cwd config).perform c) st r st') :
    Available st' ∧ ∀ files, c = .remove files → ∃ n, r = .ok (.removed n) := by
  rcases Call.unpublished_cases hc with ⟨symbols, prioritized, rfl⟩ | ⟨files, rfl⟩ | hread
  · obtain ⟨x, hx, _⟩ := ends_bind_pure.mp h
    exact ⟨(persist_available hs hx).1, nofun⟩
  · obtain ⟨x, hx, rfl⟩ := ends_bind_pure.mp h
    obtain ⟨n, m, hremove, hm⟩ := @remove_returns cwd config _ hs files
    obtain ⟨rfl, rfl⟩ := hx.unique hremove
    exact ⟨hm, fun _ _ => ⟨n, rfl⟩⟩
  · refine ⟨hs.alike (reading_alike hread h), fun files hfiles => ?_⟩
    exact absurd hread (by simp [hfiles, Call.isReading])

theorem history_available {calls : List (Call × Except Failure Answer)}
    (h : (service cwd config).History st calls now) (hs : Available st) (hq : Unpublished calls) :
    Available now ∧ ∀ files r, (.remove files, r) ∈ calls → ∃ n, r = .ok (.removed n) := by
  induction h with
  | nil => exact ⟨hs, fun _ _ hmem => absurd hmem List.not_mem_nil⟩
  | @cons st m st' c r rest head tail ih =>
    obtain ⟨hm, hreturned⟩ := unpublished_available hs (hq (c, r) List.mem_cons_self) head
    obtain ⟨hnow, hrest⟩ := ih hm fun x hx => hq x (List.mem_cons_of_mem _ hx)
    refine ⟨hnow, fun files r' hmem => ?_⟩
    rcases List.mem_cons.mp hmem with heq | hmem
    · cases heq
      exact hreturned files rfl
    · exact hrest files r' hmem

theorem Reached.history {d : Directory} {calls : List (Call × Except Failure Answer)}
    (h : (service cwd config).History st calls now) (hst : Reached (service cwd config) d st) :
    Reached (service cwd config) d now := by
  induction h with
  | nil => exact hst
  | cons head _ ih => exact ih (hst.called head)

/-- With the documents of all files that were named, by the calls or by the one that publishes, a
commit shows what was committed or staged before and what was handed over. -/
theorem commit_takes {calls : List (Call × Except Failure Answer)}
    (h : (service cwd config).History st calls now) (hq : Unpublished calls) (hi : now.Intact)
    {point : Call} {a : Answer} {ended : Session} (hp : point.isCommitPoint = true)
    (hend : Ends ((service cwd config).perform point) now (.ok a) ended) :
    (ended.directory.documents ++ st.ledger.kept.filter (Stored.isOf
        ((service cwd config).named calls ++ (service cwd config).removedUris point))).Perm
      (st.ledger.kept ++ (st.ledger.staged ++
        ((service cwd config).handed calls ++ (service cwd config).added point))) := by
  obtain ⟨hledger, _⟩ := history_accounts h hq
  have hstaging : (service cwd config).staging point now.ledger =
      (st.ledger.drop ((service cwd config).named calls ++
        (service cwd config).removedUris point)).stage
          ((service cwd config).handed calls ++ (service cwd config).added point) := by
    unfold Service.staging
    rw [hledger, Ledger.stage_drop, Ledger.drop_drop, Ledger.stage_stage]
  have hpublished := ((perform_effect hi hend).2.published hp).committed
  rw [hstaging, documents_ledger] at hpublished
  simp only [Ledger.stage, Ledger.kept_drop] at hpublished
  refine (hpublished.append_right _).trans (List.perm_append_comm.trans ?_)
  rw [← List.append_assoc]
  exact (List.filter_append_perm _ _).append_right _

/-- Between two commits the removals that return count, all together, each document of the last
commit whose file they name once, however often and in whatever spelling it is named, and whatever
is indexed meanwhile. These documents are what the next commit takes away. If the session can write
every removal returns, and so does that commit. -/
theorem removals_counted {d : Directory} (hd : d.Intact) (hst : Reached (service cwd config) d st)
    {calls : List (Call × Except Failure Answer)}
    (h : (service cwd config).History st calls now) (hq : Unpublished calls) :
    let s := service cwd config
    let taken (uris : List String) := st.ledger.kept.filter (Stored.isOf uris)
    counted calls = (taken (s.named calls)).length ∧
      (∀ begun earlier, begun.handle.writer = none → s.History begun earlier st →
        Unpublished earlier →
        st.ledger.kept = begun.directory.documents.filter fun x => !x.isOf (s.named earlier)) ∧
      (now.directory.contents.isSome = true → ∀ point a ended, point.isCommitPoint = true →
        Ends (s.perform point) now (.ok a) ended →
        (ended.directory.documents ++ taken (s.named calls ++ s.removedUris point)).Perm
          (st.ledger.kept ++ (st.ledger.staged ++ (s.handed calls ++ s.added point)))) ∧
      (st.directory.contents.isSome = true → st.handle.closed = false → st.Free →
        (∀ files r, (.remove files, r) ∈ calls → ∃ n, r = .ok (.removed n)) ∧
          s.named calls = s.removedBy calls ∧
          ∃ ended, Ends (s.perform .commit) now (.ok .done) ended) := by
  intro s taken
  refine ⟨?_, fun begun earlier hidle hearlier hbefore => ?_,
    fun hthere point a ended hp hend => ?_, fun hthere hopen hfree => ?_⟩
  · rw [← List.countP_eq_length_filter]
    exact (history_accounts h hq).2
  · rw [(history_accounts hearlier hbefore).1, ledger_of_idle hidle]
    exact Ledger.kept_drop _ _
  · exact commit_takes h hq (((hst.history h).coherent hd).intact hthere) hp hend
  · have hs : Available st := ⟨(hst.coherent hd).intact hthere, hopen, hfree⟩
    obtain ⟨hnow, hreturned⟩ := history_available h hs hq
    obtain ⟨ended, hcommit, _⟩ := @commit_returns cwd config _ hnow.intact hnow.opened
    exact ⟨hreturned, Service.named_eq_removedBy hq hreturned, ended,
      ends_bind_pure_ok.mpr ⟨(), hcommit, rfl⟩⟩

/-- A file is named twice in one call, in two spellings, and once more after another class of it was
indexed. -/
def repeatedRemovals : List (Call × Except Failure Answer) :=
  [(.remove [.text "/a.kt", .text "file:///a.kt"], .ok (.removed 1)),
    (.persist [sampleClass "/a.kt" "a.Cat"] false false, .ok .done),
    (.remove [.text "/a.kt"], .ok (.removed 0))]

/-- The committed document counts once and is taken away; the staged one is published. -/
theorem removals_counted_repeated : ∃ now ended,
    Reached sampleService (.fresh "/index") sampleSession ∧
      sampleService.History sampleSession repeatedRemovals now ∧ Unpublished repeatedRemovals ∧
      sampleService.named repeatedRemovals = ["file:///a.kt", "file:///a.kt", "file:///a.kt"] ∧
      (sampleSession.ledger.kept.filter
        (Stored.isOf (sampleService.named repeatedRemovals))).length = 1 ∧
      Ends (sampleService.perform .commit) now (.ok .done) ended ∧
      ended.directory.documents.length = 1 := by
  have hst : Reached sampleService (.fresh "/index") sampleSession :=
    Reached.start.called (c := sampleCall) ⟨rfl, rfl⟩
  have hq : Unpublished repeatedRemovals := by
    simp [Unpublished, repeatedRemovals, Call.isCommitPoint]
  obtain ⟨now, ended, h, hthere, hend⟩ : ∃ now ended,
      sampleService.History sampleSession repeatedRemovals now ∧
        now.directory.contents.isSome = true ∧
        Ends (sampleService.perform .commit) now (.ok .done) ended :=
    ⟨_, _, .cons ⟨rfl, rfl⟩ (.cons ⟨rfl, rfl⟩ (.cons ⟨rfl, rfl⟩ (.nil _))), rfl, ⟨rfl, rfl⟩⟩
  obtain ⟨hcount, _, htakes, _⟩ := removals_counted (Directory.intact_fresh "/index") hst h hq
  have hone : (sampleSession.ledger.kept.filter
      (Stored.isOf (sampleService.named repeatedRemovals))).length = 1 :=
    Int.ofNat.inj hcount.symm
  refine ⟨now, ended, hst, h, hq, by decide, hone, hend, ?_⟩
  have hlength := (htakes hthere .commit .done ended rfl hend).length_eq
  rw [List.length_append] at hlength
  have hafter : ended.directory.documents.length + 1 = 2 :=
    (congrArg (ended.directory.documents.length + ·) hone.symm).trans hlength
  exact Nat.succ.inj hafter

end

end Store

end GoToSymbol
