import GoToSymbol.Proofs.Index.Entries
import GoToSymbol.Proofs.Index.Epoch

namespace GoToSymbol

open GoToSymbol.Action Store Store.Session

/-- An entry of a class whose file is not known. -/
def Entry.ofClass (fqn : String) : Entry := ⟨.classes, .text fqn, none⟩

namespace Store

/-- Where the limit leaves room for all of them, a search answers the entry of each document that
matches, and answers it once. -/
theorem foundIn_all {q : Query} {vs : List Variant} (hq : q.Finds vs) {segments : List Segment}
    {limit : Int} (hlimit : ((documents segments).countP q.accepts : Int) ≤ limit) :
    ∃ es, foundIn segments q limit = .ok es ∧ es.Nodup ∧
      ∀ e, e ∈ es ↔ ∃ d ∈ documents segments, q.accepts d = true ∧ e = d.entry := by
  have hpositive : 0 ≤ limit := by omega
  have hlength : (ranking q segments).length ≤ limit.toNat := by
    rw [length_ranking]
    omega
  let found := (ranking q segments).map Stored.entry
  have hanswer : foundIn segments q limit = .ok (Entry.distinct found) := by
    have hroom : (Entry.distinct found).length ≤ limit.toNat := by
      have hsublist := (Entry.distinct_sublist found).length_le
      simp only [List.length_map, found] at hsublist
      exact Nat.le_trans hsublist hlength
    rw [foundIn_eq hq, List.take_of_length_le hlength]
    simp only [Service.firstResults, if_pos hpositive]
    rw [List.take_of_length_le hroom]
  have hread (e : Entry) (he : e ∈ found) : e.ReadBack := by
    obtain ⟨d, _, rfl⟩ := List.mem_map.mp he
    exact d.entry_readBack
  obtain ⟨hnodup, hmem⟩ := Entry.distinct_spec hread
  refine ⟨_, hanswer, hnodup, fun e => ?_⟩
  rw [hmem, List.mem_map]
  constructor
  · intro h
    obtain ⟨d, hd, rfl⟩ := h
    obtain ⟨hdoc, haccepts⟩ := mem_ranking.mp hd
    exact ⟨d, hdoc, haccepts, rfl⟩
  · intro h
    obtain ⟨d, hdoc, haccepts, rfl⟩ := h
    exact ⟨d, mem_ranking.mpr ⟨hdoc, haccepts⟩, rfl⟩

theorem foundIn_forClass {segments : List Segment} {text : String} {limit : Int}
    (hlimit : ((documents segments).countP (Query.forClass text).accepts : Int) ≤ limit) :
    ∃ es, foundIn segments (.forClass text) limit = .ok es ∧ es.Nodup ∧
      ∀ e, e ∈ es ↔ ∃ d ∈ documents segments, (Query.forClass text).accepts d = true ∧
        ∃ f, d.fqn = some f ∧ e = Entry.ofClass f := by
  obtain ⟨es, hes, hnodup, hmem⟩ := foundIn_all (Query.finds_forClass text) hlimit
  refine ⟨es, hes, hnodup, fun e => ?_⟩
  rw [hmem]
  refine exists_congr fun d => and_congr_right fun _ => and_congr_right fun haccepts => ?_
  obtain ⟨v, hv, f, ht, hf⟩ := Query.finds_forClass text d haccepts
  cases List.mem_singleton.mp hv
  have hentry : d.entry = Entry.ofClass f := Stored.entry_eq ht hf
  constructor
  · intro h
    exact ⟨f, hf, h.trans hentry⟩
  · intro h
    obtain ⟨g, hg, rfl⟩ := h
    cases hf.symm.trans hg
    exact hentry.symm

section

variable {cwd : File.Path} {config : IndexConfig} {d : Directory} {st st' : Session}

/-- A search for classes with room for all that match always returns. -/
theorem searchClasses_returns (hd : d.Intact) {calls : List (Call × Except Failure Answer)}
    (hcalls : (service cwd config).History (start d) calls st) (hopen : st.handle.closed = false)
    {text : String} {max : Option Int}
    (hlimit : (st.directory.documents.countP (Query.forClass text).accepts : Int) ≤
      (service cwd config).limit max) {r : Except Failure (List Entry)}
    (h : Ends ((service cwd config).searchClasses text max) st r st') :
    ∃ es, r = .ok es ∧ es.Nodup ∧
      ∀ e, e ∈ es ↔ ∃ x ∈ st.directory.documents, (Query.forClass text).accepts x = true ∧
        ∃ f, x.fqn = some f ∧ e = Entry.ofClass f := by
  have hintact := history_intact hcalls (intact_start hd)
  obtain ⟨_, _, hanswer⟩ := find_cases h
  rw [hanswer hintact hopen]
  exact foundIn_forClass hlimit

/-- A search for classes with room for all that match answers, each of them once, just the committed
classes of which some token has the humps of the text. -/
theorem searchClasses_humps (hd : d.Intact) {calls : List (Call × Except Failure Answer)}
    (hcalls : (service cwd config).History (start d) calls st) (hopen : st.handle.closed = false)
    {text : String} (hplain : Query.Plain text.toList) {max : Option Int}
    (hlimit : (st.directory.documents.countP (Query.forClass text).accepts : Int) ≤
      (service cwd config).limit max) {r : Except Failure (List Entry)}
    (h : Ends ((service cwd config).searchClasses text max) st r st') :
    ∃ es, r = .ok es ∧ es.Nodup ∧
      ∀ e, e ∈ es ↔ ∃ x ∈ st.directory.documents, x.tag = some Variant.classes.tag ∧
        ∃ f, x.fqn = some f ∧ e = ⟨.classes, .text f, none⟩ ∧
          ∃ t ∈ Name.tokens .index f.toList, Query.Spread (Query.humps text.toList) t := by
  obtain ⟨es, hr, hnodup, hmem⟩ := searchClasses_returns hd hcalls hopen hlimit h
  refine ⟨es, hr, hnodup, fun e => ?_⟩
  rw [hmem]
  constructor
  · intro h
    obtain ⟨x, hx, haccepts, f, hf, rfl⟩ := h
    obtain ⟨hname, htag⟩ := (Query.accepts_forClass text x).mp haccepts
    obtain ⟨g, hg, htoken⟩ := (Query.accepts_symbolName_plain hplain x).mp hname
    cases hf.symm.trans hg
    exact ⟨x, hx, htag, f, hf, rfl, htoken⟩
  · intro h
    obtain ⟨x, hx, htag, f, hf, rfl, htoken⟩ := h
    refine ⟨x, hx, (Query.accepts_forClass text x).mpr ⟨?_, htag⟩, f, hf, rfl⟩
    exact (Query.accepts_symbolName_plain hplain x).mpr ⟨f, hf, htoken⟩

theorem searchClasses_humps_bee :
    ∃ es st', Ends (sampleService.searchClasses "a.Be" none) sampleSession (.ok es) st' ∧
      ⟨.classes, .text "a.Bee", none⟩ ∈ es := by
  obtain ⟨b, hdocuments⟩ : ∃ b, sampleSession.directory.documents =
      [⟨some "a.Bee", some "file:///a.kt", some "ClassIndex", b⟩] := ⟨_, rfl⟩
  have hplain : Query.Plain "a.Be".toList := by decide
  obtain ⟨es, hr, _, hmem⟩ := searchClasses_humps (Directory.intact_fresh "/index")
    history_sampleSession rfl hplain (countP_sampleSession _) (ends_self _ _)
  have hspread : Query.Spread (Query.humps "a.Be".toList) "a.Bee".toList :=
    ⟨[[], ['e']], rfl, rfl⟩
  have hfound := (hmem (Entry.ofClass "a.Bee")).mpr ⟨_, hdocuments ▸ List.mem_singleton_self _, rfl,
    "a.Bee", rfl, rfl, "a.Bee".toList, List.mem_cons_self, hspread⟩
  exact ⟨es, _, ⟨hr, rfl⟩, hfound⟩

end

end Store

end GoToSymbol
