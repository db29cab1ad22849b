import GoToSymbol.Proofs.Index.Answers
import GoToSymbol.Proofs.Index.Effects

namespace GoToSymbol

open GoToSymbol.Action Store Store.Session

/-- Calls that return and publish nothing. -/
def Quiet (calls : List (Call × Except Failure Answer)) : Prop :=
  ∀ x ∈ calls, x.1.isCommitPoint = false ∧ ∃ a, x.2 = .ok a

/-- After these calls an epoch begins: there are none, or the last one published. -/
def EpochBegins (calls : List (Call × Except Failure Answer)) : Prop :=
  calls = [] ∨ ∃ earlier c a, calls = earlier ++ [(c, .ok a)] ∧ c.isCommitPoint = true

namespace Store

namespace Ledger

theorem drop_drop (us vs : List String) (l : Ledger) : (l.drop us).drop vs = l.drop (us ++ vs) := by
  unfold drop
  rw [List.filter_filter]
  congr 1
  apply List.filter_congr
  intro d _
  rw [List.map_append, Bool.eq_iff_iff]
  simp [and_comm]

theorem stage_stage (xs ys : List Stored) (l : Ledger) :
    (l.stage xs).stage ys = l.stage (xs ++ ys) := by
  unfold stage
  rw [List.append_assoc]

theorem stage_drop (xs : List Stored) (us : List String) (l : Ledger) :
    (l.stage xs).drop us = (l.drop us).stage xs := rfl

/-- Nothing is staged. -/
structure Settled (l : Ledger) : Prop where
  kept : l.kept = documents l.committed
  staged : l.staged = []

end Ledger

end Store

namespace Service

variable {σ : Type} (s : Service σ)

/-- The URIs of the files whose entries some calls remove. -/
def removedBy (calls : List (Call × Except Failure Answer)) : List String :=
  calls.flatMap fun x => s.removedUris x.1

/-- What the store keeps of the symbols that some calls hand over. -/
def addedBy (calls : List (Call × Except Failure Answer)) : List Stored :=
  calls.flatMap fun x => s.added x.1

theorem staging_removedBy (c : Call) (r : Except Failure Answer)
    (calls : List (Call × Except Failure Answer)) (l : Ledger) :
    ((s.staging c l).drop (s.removedBy calls)).stage (s.addedBy calls) =
      (l.drop (s.removedBy ((c, r) :: calls))).stage (s.addedBy ((c, r) :: calls)) := by
  unfold staging
  rw [Ledger.stage_drop, Ledger.drop_drop, Ledger.stage_stage]
  rfl

end Service

namespace Store

section

variable {cwd : File.Path} {config : IndexConfig} {st st' : Session}

/-- Where an epoch begins nothing is staged. -/
theorem settled_of_epochBegins {d : Directory} (hd : d.Intact)
    {past : List (Call × Except Failure Answer)} {begun : Session}
    (h : (service cwd config).History (start d) past begun) (hpast : EpochBegins past) :
    begun.ledger.Settled := by
  rcases hpast with rfl | ⟨earlier, c, a, rfl, hc⟩
  · cases h
    exact ⟨rfl, rfl⟩
  · obtain ⟨m, hearlier, hlast⟩ := Service.history_append.mp h
    have hm := history_intact hearlier (intact_start hd)
    obtain ⟨_, heffect⟩ := perform_effect hm (Service.history_single.mp hlast)
    have hpublished := heffect.published hc
    exact ⟨hpublished.kept, hpublished.staged⟩

/-- Calls that publish nothing add up. -/
theorem quiet_history {calls : List (Call × Except Failure Answer)}
    (h : (service cwd config).History st calls st') (hi : st.Intact) (hq : Quiet calls) :
    st'.ledger = (st.ledger.drop ((service cwd config).removedBy calls)).stage
        ((service cwd config).addedBy calls) ∧
      ∀ c a, (c, .ok a) ∈ calls → (service cwd config).ReadsFrom st.directory.committed c a := by
  induction h with
  | nil st =>
    constructor
    · exact ((Ledger.stage_nil _).trans (Ledger.drop_nil _)).symm
    · intro c a hmem
      exact absurd hmem (by simp)
  | @cons st m st' c r rest head tail ih =>
    obtain ⟨hpoint, a, rfl⟩ := hq (c, r) List.mem_cons_self
    obtain ⟨hm, heffect⟩ := perform_effect hi head
    have hstaged := heffect.staged hpoint
    obtain ⟨hledger, hreads⟩ := ih hm fun x hx => hq x (List.mem_cons_of_mem _ hx)
    have hcommitted : m.directory.committed = st.directory.committed := by
      rw [← committed_ledger, hstaged]
      exact committed_ledger st
    constructor
    · rw [hledger, hstaged, Service.staging_removedBy]
    · intro c' a' hmem
      rcases List.mem_cons.mp hmem with heq | hrest
      · cases heq
        exact perform_reads hi head
      · rw [← hcommitted]
        exact hreads c' a' hrest

/-- During an epoch every call looks at what was committed when it began. The call that ends it
takes away the documents of all files that were removed meanwhile, and puts in those of all symbols
that were handed over. -/
theorem epoch_publishes {d : Directory} (hd : d.Intact)
    {past epoch : List (Call × Except Failure Answer)} {begun now : Session}
    (hpast : (service cwd config).History (start d) past begun) (hbegins : EpochBegins past)
    (hepoch : (service cwd config).History begun epoch now) (hquiet : Quiet epoch) :
    (∀ c a, (c, .ok a) ∈ epoch →
      (service cwd config).ReadsFrom begun.directory.committed c a) ∧
    (∀ q, (ranking q begun.directory.committed).Perm
      (begun.directory.documents.filter q.accepts)) ∧
    ∀ point answer ended, point.isCommitPoint = true →
      Ends ((service cwd config).perform point) now (.ok answer) ended →
      let calls := epoch ++ [(point, .ok answer)]
      ended.directory.documents.Perm
        (begun.directory.documents.filter (fun x =>
            x.file ∉ ((service cwd config).removedBy calls).map some) ++
          (service cwd config).addedBy calls) := by
  have hbegun := history_intact hpast (intact_start hd)
  have hsettled := settled_of_epochBegins hd hpast hbegins
  obtain ⟨hledger, hreads⟩ := quiet_history hepoch hbegun hquiet
  refine ⟨hreads, fun q => ranking_perm q _, ?_⟩
  intro point answer ended hpoint hend calls
  have hnow := history_intact hepoch hbegun
  obtain ⟨_, heffect⟩ := perform_effect hnow hend
  have hpublished := heffect.published hpoint
  have hcalls : (service cwd config).staging point now.ledger =
      (begun.ledger.drop ((service cwd config).removedBy calls)).stage
        ((service cwd config).addedBy calls) := by
    rw [hledger]
    unfold Service.staging
    rw [Ledger.stage_drop, Ledger.drop_drop, Ledger.stage_stage]
    simp [calls, Service.removedBy, Service.addedBy]
  have hperm := hpublished.committed
  rw [hcalls, committed_ledger] at hperm
  refine hperm.trans (List.Perm.of_eq ?_)
  simp [Ledger.stage, Ledger.drop, hsettled.kept, hsettled.staged, committed_ledger,
    Directory.documents]

/-- The one class of an index is taken out while another is put in. -/
theorem epoch_publishes_class :
    ∃ now ended,
      sampleService.History sampleSession [(.remove [.text "/a.kt"], .ok (.removed 1)),
        (.persist [sampleClass "/c.kt" "a.Cat"] false true, .ok .done)] now ∧
      Ends (sampleService.perform .commit) now (.ok .done) ended ∧
      sampleSession.directory.documents.map (·.fqn) = [some "a.Bee"] ∧
      (ended.directory.documents.map (·.fqn)).Perm [some "a.Cat"] := by
  obtain ⟨now, ended, hepoch, hend⟩ : ∃ now ended,
      sampleService.History sampleSession [(.remove [.text "/a.kt"], .ok (.removed 1)),
        (.persist [sampleClass "/c.kt" "a.Cat"] false true, .ok .done)] now ∧
      Ends (sampleService.perform .commit) now (.ok .done) ended :=
    ⟨_, _, .cons ⟨rfl, rfl⟩ (.cons ⟨rfl, rfl⟩ (.nil _)), ⟨rfl, rfl⟩⟩
  have hquiet : Quiet [(.remove [.text "/a.kt"], .ok (.removed 1)),
      (.persist [sampleClass "/c.kt" "a.Cat"] false true, .ok .done)] := by
    simp [Quiet, Call.isCommitPoint]
  refine ⟨now, ended, hepoch, hend, rfl, ?_⟩
  obtain ⟨_, _, hpublishes⟩ := epoch_publishes (Directory.intact_fresh "/index")
    history_sampleSession (Or.inr ⟨[], _, _, rfl, rfl⟩) hepoch hquiet
  have hdocuments := (hpublishes .commit _ _ rfl hend).map (·.fqn)
  refine hdocuments.trans (List.Perm.of_eq ?_)
  rfl

end

end Store

end GoToSymbol
