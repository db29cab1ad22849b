import GoToSymbol.Proofs.Index.Found

namespace GoToSymbol.Store

open GoToSymbol.Action Session

/-- What an action answers, whatever it leaves behind. -/
def Answers {α : Type} (t : Work α) (st : Session) (a : α) : Prop := ∃ st', Ends t st (.ok a) st'

theorem Answers.unique {α : Type} {t : Work α} {st : Session} {a b : α} (ha : Answers t st a)
    (hb : Answers t st b) : a = b := by
  obtain ⟨_, ha⟩ := ha
  obtain ⟨_, hb⟩ := hb
  have hab := (ha.unique hb).1
  cases hab
  rfl

/-- The limit leaves room for all committed documents that a query finds. -/
def Room (st : Session) (q : Query) (limit : Int) : Prop :=
  (st.directory.documents.countP q.accepts : Int) ≤ limit

/-- The answer holds the entry of each of these documents, and holds it once. -/
structure Lists (xs : List Stored) (p : Stored → Prop) (es : List Entry) : Prop where
  nodup : es.Nodup
  mem : ∀ e, e ∈ es ↔ ∃ x ∈ xs, p x ∧ e = x.entry

theorem Lists.perm {xs : List Stored} {p q : Stored → Prop} {es fs : List Entry}
    (hes : Lists xs p es) (hfs : Lists xs q fs) (h : ∀ x ∈ xs, p x ↔ q x) : es.Perm fs := by
  rw [List.perm_ext_iff_of_nodup hes.nodup hfs.nodup]
  intro e
  rw [hes.mem, hfs.mem]
  refine exists_congr fun x => and_congr_right fun hx => ?_
  rw [h x hx]

theorem Lists.filter {xs : List Stored} {p : Stored → Prop} {es : List Entry}
    (hes : Lists xs p es) (f : Entry → Bool) :
    Lists xs (fun x => p x ∧ f x.entry = true) (es.filter f) := by
  refine ⟨hes.nodup.filter f, fun e => ?_⟩
  rw [List.mem_filter, hes.mem]
  constructor
  · intro h
    obtain ⟨⟨x, hx, hp, rfl⟩, hf⟩ := h
    exact ⟨x, hx, ⟨hp, hf⟩, rfl⟩
  · intro h
    obtain ⟨x, hx, ⟨hp, hf⟩, rfl⟩ := h
    exact ⟨⟨x, hx, hp, rfl⟩, hf⟩

section

variable (cwd : File.Path) (config : IndexConfig) {st : Session}
variable (hi : st.Intact) (hopen : st.handle.closed = false)
include hi hopen

theorem find_lists {q : Query} {vs : List Variant} (hq : q.Finds vs) {limit : Int}
    (hroom : Room st q limit) : ∃ es, Answers ((service cwd config).find q limit) st es ∧
      Lists st.directory.documents (fun x => q.accepts x = true) es := by
  obtain ⟨_, _, hanswer⟩ := find_cases (ends_self ((service cwd config).find q limit) st)
  obtain ⟨es, hes, hnodup, hmem⟩ := foundIn_all hq hroom
  exact ⟨es, ⟨_, (hanswer hi hopen).trans hes, rfl⟩, hnodup, hmem⟩

/-- Without any name nothing is asked, and nothing would be found. -/
theorem searchNames_lists {terms : List String} {max : Option Int}
    (hroom : Room st (.forTerms terms) ((service cwd config).limit max)) :
    ∃ es, Answers ((service cwd config).searchClassesMethods terms max) st es ∧
      Lists st.directory.documents
        (fun x => ∃ t ∈ terms, (Query.forClassOrMethod t).accepts x = true) es := by
  have hfound : ∃ es, Answers ((service cwd config).searchClassesMethods terms max) st es ∧
      Lists st.directory.documents (fun x => (Query.forTerms terms).accepts x = true) es := by
    unfold Service.searchClassesMethods
    split
    · next hnil =>
      refine ⟨[], ⟨st, ends_succeed.mpr ⟨rfl, rfl⟩⟩, List.nodup_nil, fun e => ?_⟩
      have hterms : terms = [] := by simpa using hnil
      simp [hterms, Query.forTerms, Query.accepts, Query.acceptsAny]
    · exact find_lists cwd config hi hopen (Query.finds_forTerms terms) hroom
  obtain ⟨es, hanswers, hlists⟩ := hfound
  refine ⟨es, hanswers, hlists.nodup, fun e => ?_⟩
  rw [hlists.mem]
  refine exists_congr fun x => and_congr_right fun _ => ?_
  rw [Query.accepts_forTerms]

end

/-- Of the documents that are found by a name, those of classes are found as classes. -/
theorem accepts_of_classes {t : String} {x : Stored} :
    ((∃ u ∈ [t], (Query.forClassOrMethod u).accepts x = true) ∧
        decide (x.entry.variant = .classes) = true) ↔ (Query.forClass t).accepts x = true := by
  have hsingle : (∃ u ∈ [t], (Query.forClassOrMethod u).accepts x = true) ↔
      (Query.forClassOrMethod t).accepts x = true := by simp
  rw [hsingle, decide_eq_true_eq]
  constructor
  · intro h
    obtain ⟨haccepts, hvariant⟩ := h
    obtain ⟨hname, htag⟩ := (Query.accepts_forClassOrMethod t x).mp haccepts
    obtain ⟨f, hf, _⟩ := (Query.accepts_symbolName t x).mp hname
    refine (Query.accepts_forClass t x).mpr ⟨hname, ?_⟩
    rcases htag with htag | htag
    · exact htag
    · rw [Stored.entry_eq htag hf] at hvariant
      exact absurd hvariant (by simp [Entry.named])
  · intro h
    obtain ⟨hname, htag⟩ := (Query.accepts_forClass t x).mp h
    obtain ⟨f, hf, _⟩ := (Query.accepts_symbolName t x).mp hname
    refine ⟨(Query.accepts_forClassOrMethod t x).mpr ⟨hname, Or.inl htag⟩, ?_⟩
    rw [Stored.entry_eq htag hf]
    rfl

section

variable {cwd : File.Path} {config : IndexConfig} {d : Directory} {st : Session}

/-- With room for all that match, a search by some names answers each entry once that the searches
by one of them answer, in whatever order the names come and however often. Of what a single name
finds the classes are just what the search for classes finds. -/
theorem searchNames_union (hd : d.Intact) {calls : List (Call × Except Failure Answer)}
    (hcalls : (service cwd config).History (start d) calls st)
    (hopen : st.handle.closed = false) :
    let s := service cwd config
    (∀ terms max (each : String → Option Int), Room st (.forTerms terms) (s.limit max) →
      (∀ t ∈ terms, Room st (.forTerms [t]) (s.limit (each t))) →
      ∃ es, Answers (s.searchClassesMethods terms max) st es ∧
        Lists st.directory.documents
          (fun x => ∃ t ∈ terms, (Query.forClassOrMethod t).accepts x = true) es ∧
        ∀ e, e ∈ es ↔ ∃ t ∈ terms, ∃ fs,
          Answers (s.searchClassesMethods [t] (each t)) st fs ∧ e ∈ fs) ∧
    (∀ terms terms' max max', (∀ t, t ∈ terms ↔ t ∈ terms') →
      Room st (.forTerms terms) (s.limit max) → Room st (.forTerms terms') (s.limit max') →
      ∃ es fs, Answers (s.searchClassesMethods terms max) st es ∧
        Answers (s.searchClassesMethods terms' max') st fs ∧ es.Perm fs) ∧
    ∀ t max max', Room st (.forTerms [t]) (s.limit max) → Room st (.forClass t) (s.limit max') →
      ∃ es fs, Answers (s.searchClassesMethods [t] max) st es ∧
        Answers (s.searchClasses t max') st fs ∧
        (es.filter fun e => decide (e.variant = .classes)).Perm fs := by
  intro s
  have hi := history_intact hcalls (intact_start hd)
  refine ⟨?_, ?_, ?_⟩
  · intro terms max each hroom heach
    obtain ⟨es, hanswers, hlists⟩ := searchNames_lists cwd config hi hopen hroom
    refine ⟨es, hanswers, hlists, fun e => ?_⟩
    rw [hlists.mem]
    constructor
    · intro h
      obtain ⟨x, hx, ⟨t, ht, haccepts⟩, he⟩ := h
      obtain ⟨fs, hfs, hsingle⟩ := searchNames_lists cwd config hi hopen (heach t ht)
      exact ⟨t, ht, fs, hfs, (hsingle.mem e).mpr ⟨x, hx, ⟨t, by simp, haccepts⟩, he⟩⟩
    · intro h
      obtain ⟨t, ht, fs, hfs, he⟩ := h
      obtain ⟨gs, hgs, hsingle⟩ := searchNames_lists cwd config hi hopen (heach t ht)
      rw [hfs.unique hgs, hsingle.mem] at he
      obtain ⟨x, hx, ⟨u, hu, haccepts⟩, he⟩ := he
      rw [List.mem_singleton.mp hu] at haccepts
      exact ⟨x, hx, ⟨t, ht, haccepts⟩, he⟩
  · intro terms terms' max max' hsame hroom hroom'
    obtain ⟨es, hes, hlists⟩ := searchNames_lists cwd config hi hopen hroom
    obtain ⟨fs, hfs, hlists'⟩ := searchNames_lists cwd config hi hopen hroom'
    refine ⟨es, fs, hes, hfs, hlists.perm hlists' fun x _ => ?_⟩
    exact exists_congr fun t => and_congr_left fun _ => hsame t
  · intro t max max' hroom hroom'
    obtain ⟨es, hes, hlists⟩ := searchNames_lists cwd config hi hopen hroom
    obtain ⟨fs, hfs, hlists'⟩ :=
      find_lists cwd config hi hopen (Query.finds_forClass t) hroom'
    exact ⟨es, fs, hes, hfs, (hlists.filter _).perm hlists' fun x _ => accepts_of_classes⟩

/-- A class and a method of it. -/
def membersCall : Call := .persist [sampleClass "/a.kt" "a.Bee",
  .symbol ⟨.method, ⟨"/a.kt", .null⟩, "a.Bee.buzz"⟩] true false

/-- A new index to which the class and its method were committed. -/
def membersSession : Session := (sampleService.perform membersCall (start (.fresh "/index"))).state

/-- Names that come twice or in another order make no difference, and all that one of them finds is
found. -/
theorem searchNames_union_members :
    ∃ es fs gs cs,
      Answers (sampleService.searchClassesMethods ["buzz", "Bee", "buzz"] none) membersSession es ∧
      Answers (sampleService.searchClassesMethods ["Bee", "buzz"] none) membersSession fs ∧
      Answers (sampleService.searchClassesMethods ["Bee"] none) membersSession gs ∧
      Answers (sampleService.searchClasses "Bee" none) membersSession cs ∧
      es.Perm fs ∧ (∀ e ∈ gs, e ∈ fs) ∧
      (gs.filter fun e => decide (e.variant = .classes)).Perm cs := by
  have hcalls : sampleService.History (start (.fresh "/index")) [(membersCall, .ok .done)]
      membersSession := .cons ⟨rfl, rfl⟩ (.nil _)
  have hroom (q : Query) : Room membersSession q (sampleService.limit none) := by
    have hcount := List.countP_le_length (p := q.accepts) (l := membersSession.directory.documents)
    have htwo : membersSession.directory.documents.length = 2 := rfl
    have hten : sampleService.limit none = 10 := rfl
    unfold Room
    omega
  obtain ⟨hunion, hsame, hclasses⟩ :=
    searchNames_union (Directory.intact_fresh "/index") hcalls rfl
  obtain ⟨es, fs, hes, hfs, hperm⟩ := hsame ["buzz", "Bee", "buzz"] ["Bee", "buzz"] none none
    (by simp) (hroom _) (hroom _)
  obtain ⟨gs, cs, hgs, hcs, hclass⟩ := hclasses "Bee" none none (hroom _) (hroom _)
  obtain ⟨fs', hfs', _, hmem⟩ := hunion ["Bee", "buzz"] none (fun _ => none) (hroom _)
    fun _ _ => hroom _
  refine ⟨es, fs, gs, cs, hes, hfs, hgs, hcs, hperm, fun e he => ?_, hclass⟩
  rw [hfs.unique hfs', hmem]
  exact ⟨"Bee", List.mem_cons_self, gs, hgs, he⟩

end

end GoToSymbol.Store
