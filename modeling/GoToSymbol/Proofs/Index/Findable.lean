import GoToSymbol.Proofs.Index.Found
import GoToSymbol.Proofs.Name.Forms

namespace GoToSymbol.Store

open GoToSymbol.Action Session

section

variable {cwd : File.Path} {config : IndexConfig} {st st' : Session}

/-- A call that returns has built a document of every symbol it was handed that has an entry. -/
theorem added_of_symbol {c : Call} {a : Answer}
    (h : Ends ((service cwd config).perform c) st (.ok a) st') {x : Submission} {e : Entry}
    (hx : x ∈ c.symbols) (he : x.entry = .ok (some e)) :
    ∃ b, e.stored cwd b ∈ (service cwd config).added c := by
  have hpersist {m : Session} {symbols : List Submission} {publish prioritized : Bool}
      (hmem : x ∈ symbols)
      (hp : Ends ((service cwd config).persist symbols publish prioritized) m (.ok ()) st') :
      ∃ b, e.stored cwd b ∈ symbols.filterMap (·.stored? cwd config.policy prioritized) := by
    rcases persist_cases hp with ⟨⟨f, hf⟩, _⟩ | ⟨ds, hds, _⟩
    · exact absurd hf (by simp)
    · obtain ⟨b, hb⟩ := Service.stored?_of_built hds hmem he
      exact ⟨b, List.mem_filterMap.mpr ⟨x, hmem, hb⟩⟩
  cases c with
  | persist symbols publish prioritized =>
    obtain ⟨_, hp, _⟩ := ends_bind_pure_ok.mp h
    exact hpersist hx hp
  | reindex files symbols prioritized =>
    obtain ⟨_, hreindex, _⟩ := ends_bind_pure_ok.mp h
    obtain ⟨_, m, _, hp⟩ := ends_bind_ok.mp hreindex
    exact hpersist hx hp
  | remove _ => exact absurd hx List.not_mem_nil
  | commit => exact absurd hx List.not_mem_nil
  | searchClasses _ _ => exact absurd hx List.not_mem_nil
  | searchNames _ _ => exact absurd hx List.not_mem_nil
  | stats => exact absurd hx List.not_mem_nil
  | shutdown => exact absurd hx List.not_mem_nil

/-- What a call adds is committed once it was published, unless its file is removed. -/
theorem committed_of_added (hi : st.Intact) {c : Call} {a : Answer}
    {later : List (Call × Except Failure Answer)}
    (h : (service cwd config).History st ((c, .ok a) :: later) st') {x : Stored}
    (hx : x ∈ (service cwd config).added c)
    (hpublished : ∃ y ∈ (c, .ok a) :: later, y.1.isCommitPoint = true ∧ ∃ b, y.2 = .ok b)
    (hkept : ∀ y ∈ later, x.file ∉ ((service cwd config).removedUris y.1).map some) :
    x ∈ st'.directory.documents := by
  have hshown {k : Session} {rest : List (Call × Except Failure Answer)} (hk : k.Intact)
      (hrest : (service cwd config).History k rest st')
      (hremoved : ∀ y ∈ rest, x.file ∉ ((service cwd config).removedUris y.1).map some)
      (hin : Ledger.Shown x k.ledger) : x ∈ st'.directory.documents := by
    have hend := history_preserves hrest hk
      (fun c r _ _ hmem heffect hl => heffect.shown (hremoved (c, r) hmem) hl) hin
    have hcommitted := hend.1
    rwa [committed_ledger] at hcommitted
  cases h with
  | @cons _ m _ _ _ _ head tail =>
    obtain ⟨hm, heffect⟩ := perform_effect hi head
    obtain ⟨y, hy, hpoint, b, hb⟩ := hpublished
    rcases List.mem_cons.mp hy with rfl | hy
    · exact hshown hm tail hkept (heffect.shown_added hpoint hx)
    · obtain ⟨before, after, rfl⟩ := List.append_of_mem hy
      obtain ⟨k, hbefore, hafter⟩ := Service.history_append.mp tail
      have hk := history_intact hbefore hm
      have hpending : Ledger.Pending x k.ledger := by
        refine history_preserves hbefore hm (fun c r _ _ hmem heffect hl => ?_)
          (heffect.pending_added hx)
        exact heffect.pending (hkept (c, r) (List.mem_append_left _ hmem)) hl
      cases hafter with
      | @cons _ n _ y q _ point rest =>
        obtain ⟨hn, hpublish⟩ := perform_effect hk point
        cases hb
        have hstaged := (hpending.drop (hkept (y, .ok b) hy)).stage ((service cwd config).added y)
        have hin := hstaged.shown (hpublish.published hpoint)
        exact hshown hn rest
          (fun z hz => hkept z (List.mem_append_right _ (List.mem_cons_of_mem _ hz))) hin

/-- A class that was persisted and published, and of which no later call removed the file, is found
by every beginning of each of its forms, in either case. -/
theorem searchClasses_findable {d : Directory} (hd : d.Intact)
    {before later : List (Call × Except Failure Answer)} {c : Call} {a : Answer}
    (hcalls : (service cwd config).History (start d) (before ++ (c, .ok a) :: later) st)
    {s : Symbol} (hsymbol : .symbol s ∈ c.symbols) {synthetic decompiled : Bool}
    (hkind : s.kind = .classLike synthetic decompiled) (hindexable : s.isIndexable = true)
    (hpublished : ∃ y ∈ (c, .ok a) :: later, y.1.isCommitPoint = true ∧ ∃ b, y.2 = .ok b)
    (hkept : ∀ y ∈ later,
      File.uri cwd (.check s.file) ∉ (service cwd config).removedUris y.1)
    (hopen : st.handle.closed = false) {form : List Char} (hform : Name.Form s.fqn.toList form)
    (hlong : 2 ≤ form.length) {text : String}
    (htext : text.toList <+: form ∨ text.toList <+: Text.lower form) {max : Option Int}
    (hlimit : (st.directory.documents.countP (Query.forClass text).accepts : Int) ≤
      (service cwd config).limit max) {r : Except Failure (List Entry)}
    (h : Ends ((service cwd config).searchClasses text max) st r st') :
    ∃ es, r = .ok es ∧ ⟨.classes, .text s.fqn, none⟩ ∈ es := by
  have hname : s.fqn ≠ "" := by
    intro hempty
    rw [hempty] at hform
    rw [hform.eq_nil] at hlong
    simp at hlong
  have hentry : (Submission.symbol s).entry = .ok (some ⟨.classes, .text s.fqn, some s.file⟩) :=
    congrArg Except.ok (Symbol.entry_of_classLike hkind hindexable hname)
  obtain ⟨m, hbefore, htail⟩ := Service.history_append.mp hcalls
  have hm := history_intact hbefore (intact_start hd)
  have hadded : ∃ b, (⟨some s.fqn, some (File.uri cwd (.check s.file)), some Variant.classes.tag,
      b⟩ : Stored) ∈ (service cwd config).added c := by
    cases htail with
    | cons head _ => exact added_of_symbol head hsymbol hentry
  obtain ⟨b, hadded⟩ := hadded
  have hcommitted := committed_of_added hm htail hadded hpublished fun y hy => by
    simpa using hkept y hy
  have haccepts : (Query.forClass text).accepts ⟨some s.fqn,
      some (File.uri cwd (.check s.file)), some Variant.classes.tag, b⟩ = true := by
    obtain ⟨hsame, hlower⟩ := hform.tokens hlong
    refine (Query.accepts_forClass text _).mpr ⟨?_, rfl⟩
    refine (Query.accepts_symbolName text _).mpr ⟨s.fqn, rfl, ?_⟩
    rcases htext with htext | htext
    · exact ⟨form, hsame, Or.inl htext⟩
    · exact ⟨Text.lower form, hlower, Or.inl htext⟩
  obtain ⟨es, hr, _, hmem⟩ := searchClasses_returns hd hcalls hopen hlimit h
  exact ⟨es, hr, (hmem _).mpr ⟨_, hcommitted, haccepts, s.fqn, rfl, rfl⟩⟩

/-- Part of the lowercase simple name is enough to find a class. -/
theorem searchClasses_findable_bee :
    ∃ es st', Ends (sampleService.searchClasses "be" none) sampleSession (.ok es) st' ∧
      ⟨.classes, .text "a.Bee", none⟩ ∈ es := by
  have hcalls : sampleService.History (start (.fresh "/index"))
      ([] ++ (sampleCall, .ok .done) :: []) sampleSession := history_sampleSession
  have hlong : 2 ≤ (Name.split "a.Bee".toList).simple.length := by decide
  have htext : "be".toList <+: Text.lower (Name.split "a.Bee".toList).simple := by decide
  obtain ⟨es, hr, hmem⟩ := searchClasses_findable (Directory.intact_fresh "/index") hcalls
    (List.mem_singleton_self _) rfl rfl ⟨_, List.mem_cons_self, rfl, _, rfl⟩ (by simp) rfl .simple
    hlong (Or.inr htext) (countP_sampleSession _) (ends_self _ _)
  exact ⟨es, _, ⟨hr, rfl⟩, hmem⟩

end

end GoToSymbol.Store
