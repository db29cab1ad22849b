import GoToSymbol.Proofs.Index.Effects
import GoToSymbol.Proofs.Index.Entries
import GoToSymbol.Proofs.Store.Ties
import Mathlib.Data.List.Perm.Subperm

namespace GoToSymbol

open GoToSymbol.Action Store Store.Session

namespace Entry

theorem distinct_take_prefix (n : Nat) (es : List Entry) : distinct (es.take n) <+: distinct es := by
  obtain ⟨later, h⟩ := distinctAfter_append [] (es.take n) (es.drop n)
  rw [List.take_append_drop] at h
  exact ⟨_, h.symm⟩

section

variable {es : List Entry} (hes : ∀ e ∈ es, e.ReadBack)
include hes

theorem distinct_eq_self_iff : distinct es = es ↔ es.Nodup := by
  obtain ⟨hnodup, hmem⟩ := distinct_spec hes
  constructor
  · intro h
    rwa [h] at hnodup
  · intro h
    have hsub : es ⊆ distinct es := fun e he => (hmem e).mpr he
    exact (distinct_sublist es).eq_of_length_le (List.subperm_of_subset h hsub).length_le

/-- Cutting first and cutting last come to the same where the part that is kept has no repetitions,
or where nothing new comes after it. -/
theorem distinct_take_eq_iff (n : Nat) :
    distinct (es.take n) = (distinct es).take n ↔
      (es.take n).Nodup ∨ ∀ e ∈ es, e ∈ es.take n := by
  have htake : ∀ e ∈ es.take n, e.ReadBack := fun e he => hes e (List.mem_of_mem_take he)
  obtain ⟨_, hmem⟩ := distinct_spec hes
  obtain ⟨_, hmemTake⟩ := distinct_spec htake
  have hleads := distinct_take_prefix n es
  have hshort : (distinct (es.take n)).length ≤ (es.take n).length :=
    (distinct_sublist _).length_le
  have hcut : (es.take n).length ≤ n := List.length_take_le n es
  have hall : (distinct es).length ≤ es.length := (distinct_sublist es).length_le
  constructor
  · intro h
    by_cases hn : n ≤ (distinct es).length
    · left
      have hlength : (distinct (es.take n)).length = n := by
        rw [h, List.length_take_of_le hn]
      rw [← distinct_eq_self_iff htake]
      exact (distinct_sublist _).eq_of_length_le (by omega)
    · right
      intro e he
      have hwhole : (distinct es).take n = distinct es := List.take_of_length_le (by omega)
      rw [← hmemTake, h, hwhole, hmem]
      exact he
  · intro h
    rcases h with hnodup | hcovers
    · have hlength : (distinct (es.take n)).length = min n es.length := by
        rw [(distinct_eq_self_iff htake).mpr hnodup, List.length_take]
      rw [List.prefix_iff_eq_take.mp hleads, hlength]
      by_cases hn : n ≤ es.length
      · rw [Nat.min_eq_left hn]
      · rw [List.take_of_length_le (by omega), List.take_of_length_le (by omega)]
    · have hsub : distinct es ⊆ distinct (es.take n) := fun e he =>
        (hmemTake e).mpr (hcovers e ((hmem e).mp he))
      have hle := (List.subperm_of_subset (distinct_spec hes).1 hsub).length_le
      rw [hleads.eq_of_length_le hle, List.take_of_length_le (by omega)]

end

/-- What a search with a limit answers of all the entries that match, which are given best first. -/
structure Capped (limit : Nat) (ranked answer : List Entry) : Prop where
  head : answer = distinct (ranked.take limit)
  leading : answer <+: distinct ranked
  full_iff : answer = (distinct ranked).take limit ↔
    (ranked.take limit).Nodup ∨ ∀ e ∈ ranked, e ∈ ranked.take limit

theorem capped_take {ranked : List Entry} (h : ∀ e ∈ ranked, e.ReadBack) (limit : Nat) :
    Capped limit ranked (distinct (ranked.take limit)) :=
  ⟨rfl, distinct_take_prefix limit ranked, distinct_take_eq_iff h limit⟩

end Entry

namespace Store

section

variable {cwd : File.Path} {config : IndexConfig} {d : Directory} {st : Session}

/-- A search with a positive limit returns the distinct entries of the documents that rank first. -/
theorem find_capped (hi : st.Intact) (hopen : st.handle.closed = false) {q : Query}
    {vs : List Variant} (hq : q.Finds vs) {limit : Int} (hlimit : 1 ≤ limit) :
    ∃ ranked es st',
      ((ranking q st.directory.committed).map Stored.document).mapM Entry.ofDocument = .ok ranked ∧
      Ends ((service cwd config).find q limit) st (.ok es) st' ∧
      Entry.Capped limit.toNat ranked es := by
  let ranked := (ranking q st.directory.committed).map Stored.entry
  have hread (e : Entry) (he : e ∈ ranked) : e.ReadBack := by
    obtain ⟨x, _, rfl⟩ := List.mem_map.mp he
    exact x.entry_readBack
  obtain ⟨_, _, hanswer⟩ := find_cases (ends_self ((service cwd config).find q limit) st)
  have hresult := (hanswer hi hopen).trans (foundIn_eq hq _ _)
  have hroom : (Entry.distinct (ranked.take limit.toNat)).length ≤ limit.toNat :=
    Nat.le_trans (Entry.distinct_sublist _).length_le (List.length_take_le _ _)
  rw [List.map_take, Service.firstResults, if_pos (by omega), List.take_of_length_le hroom]
    at hresult
  exact ⟨ranked, _, _, decode_found hq fun x hx => (mem_ranking.mp hx).2, ⟨hresult, rfl⟩,
    Entry.capped_take hread _⟩

/-- A search whose limit is at least one always returns, and its answer begins the list of the
distinct entries that match. It holds as many of them as the limit allows just where the documents
within the limit repeat no entry, or where no other entry comes after them. -/
theorem searches_capped (hd : d.Intact) {calls : List (Call × Except Failure Answer)}
    (hcalls : (service cwd config).History (start d) calls st) (hopen : st.handle.closed = false)
    {max : Option Int} (hlimit : 1 ≤ (service cwd config).limit max) (text : String)
    {terms : List String} (hterms : terms ≠ []) :
    (∃ ranked es st',
      ((ranking (.forClass text) st.directory.committed).map Stored.document).mapM Entry.ofDocument
        = .ok ranked ∧
      Ends ((service cwd config).searchClasses text max) st (.ok es) st' ∧
      Entry.Capped ((service cwd config).limit max).toNat ranked es) ∧
    ∃ ranked es st',
      ((ranking (.forTerms terms) st.directory.committed).map Stored.document).mapM Entry.ofDocument
        = .ok ranked ∧
      Ends ((service cwd config).searchClassesMethods terms max) st (.ok es) st' ∧
      Entry.Capped ((service cwd config).limit max).toNat ranked es := by
  have hi := history_intact hcalls (intact_start hd)
  have hfind : (service cwd config).searchClassesMethods terms max =
      (service cwd config).find (.forTerms terms) ((service cwd config).limit max) :=
    if_neg (by simpa using hterms)
  refine ⟨find_capped hi hopen (Query.finds_forClass text) hlimit, ?_⟩
  rw [hfind]
  exact find_capped hi hopen (Query.finds_forTerms terms) hlimit

/-- One name from four files, around another name. -/
def crowdedCall : Call := .persist [sampleClass "/a.kt" "a.Bee", sampleClass "/b.kt" "a.Bee",
  sampleClass "/c.kt" "a.Cat", sampleClass "/d.kt" "a.Bee", sampleClass "/e.kt" "a.Bee"] true false

/-- A new index to which the crowded name was committed. -/
def crowdedSession : Session := (sampleService.perform crowdedCall (start (.fresh "/index"))).state

theorem history_crowdedSession :
    sampleService.History (start (.fresh "/index")) [(crowdedCall, .ok .done)] crowdedSession :=
  .cons ⟨rfl, rfl⟩ (.nil _)

/-- The empty text ranks the crowded names as they stand, from the one end or from the other. -/
theorem ranked_crowdedSession :
    ((ranking (.forClass "") crowdedSession.directory.committed).map Stored.document).mapM
        Entry.ofDocument =
      .ok (["a.Bee", "a.Bee", "a.Cat", "a.Bee", "a.Bee"].map (Entry.named .classes)) := by
  obtain ⟨s, hs⟩ : ∃ s, crowdedSession.directory.committed = [s] := ⟨_, rfl⟩
  have hslots : ∀ x ∈ crowdedSession.directory.committed.flatMap (·.slots),
      x.deleted = false ∧ x.doc.tag = some Variant.classes.tag ∧
        x.doc.tokens fqnField ≠ [] ∧ [] ∉ x.doc.tokens fqnField := by decide
  have hentries : ((documents crowdedSession.directory.committed).filter
      (Query.forClass "").accepts).map Stored.entry =
      ["a.Bee", "a.Bee", "a.Cat", "a.Bee", "a.Bee"].map (Entry.named .classes) := rfl
  rw [decode_found (Query.finds_forClass "") fun x hx => (mem_ranking.mp hx).2]
  rw [hs] at hslots hentries ⊢
  have hslot (x : Slot) (hx : x ∈ s.slots) := hslots x (by simpa using hx)
  have halike := (Corpus.ofSegments [s]).alike_forClass (fun x hx => (hslot x hx).1)
    (fun x hx => (hslot x hx).2.1) fun x hx => (hslot x hx).2.2
  rcases ranking_alike halike with h | h
  · rw [h, hentries]
  · rw [h, List.map_reverse, hentries]
    rfl

/-- Of the two names of the crowded index a search for two classes answers one. -/
theorem searches_capped_crowded :
    ∃ st', Ends (sampleService.searchClasses "" (some 2)) crowdedSession
      (.ok [Entry.named .classes "a.Bee"]) st' := by
  have hlimit : 1 ≤ sampleService.limit (some 2) := by decide
  obtain ⟨⟨ranked, es, st', hranked, hend, hcapped⟩, _⟩ :=
    searches_capped (Directory.intact_fresh "/index") history_crowdedSession rfl hlimit ""
      (List.cons_ne_nil "" [])
  cases ranked_crowdedSession.symm.trans hranked
  have hsame : (Entry.named .classes "a.Bee").same (.named .classes "a.Bee") = true :=
    (Entry.ReadBack.same_iff ⟨_, _, rfl⟩ ⟨_, _, rfl⟩).mpr rfl
  have hbee : es = [Entry.named .classes "a.Bee"] := by
    rw [hcapped.head]
    simp [Service.limit, Entry.distinct, Entry.distinctAfter, hsame]
  exact ⟨st', hbee ▸ hend⟩

/-- A search does not always answer as many of the distinct entries that match as its limit
allows. -/
theorem search_limit_counts_repetitions :
    ¬ ∀ (calls : List (Call × Except Failure Answer)) (st st' : Session) (text : String)
      (max : Option Int) (ranked es : List Entry),
      sampleService.History (start (.fresh "/index")) calls st → 1 ≤ sampleService.limit max →
      ((ranking (.forClass text) st.directory.committed).map Stored.document).mapM Entry.ofDocument
        = .ok ranked →
      Ends (sampleService.searchClasses text max) st (.ok es) st' →
      es = (Entry.distinct ranked).take (sampleService.limit max).toNat := by
  intro hclaim
  have hi := history_intact history_crowdedSession (intact_start (Directory.intact_fresh "/index"))
  have hlimit : 1 ≤ sampleService.limit (some 2) := by decide
  obtain ⟨ranked, es, st', hranked, hend, hcapped⟩ :=
    find_capped hi rfl (Query.finds_forClass "") hlimit
  have hfull := hclaim _ _ _ "" (some 2) _ _ history_crowdedSession hlimit hranked hend
  cases ranked_crowdedSession.symm.trans hranked
  rcases hcapped.full_iff.mp hfull with hnodup | hcovers
  · simp [Service.limit] at hnodup
  · have hcat := hcovers (.named .classes "a.Cat") (by simp)
    simp [Service.limit, Entry.named] at hcat

end

end Store

end GoToSymbol
