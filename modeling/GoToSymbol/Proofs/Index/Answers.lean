import GoToSymbol.Proofs.Index.Operations
import GoToSymbol.Proofs.Store.Matches

namespace GoToSymbol

open GoToSymbol.Action Store Store.Session Store.Work

/-- What a search answers where these segments are committed. -/
def Store.foundIn (segments : List Segment) (q : Query) (limit : Int) :
    Except Failure (List Entry) :=
  ((((ranking q segments).take limit.toNat).map Stored.document).mapM Entry.ofDocument).map
    fun es => Service.firstResults limit (Entry.distinct es)

namespace Service

variable {σ : Type} (s : Service σ)

/-- What a call answers is determined by the committed segments, if it is one that looks at them. -/
def ReadsFrom (segments : List Segment) : Call → Answer → Prop
  | .searchClasses text max, .found es =>
    foundIn segments (.forClass text) (s.limit max) = .ok es
  | .searchNames [] _, .found es => es = []
  | .searchNames terms max, .found es =>
    foundIn segments (.forTerms terms) (s.limit max) = .ok es
  | .stats, .figures members =>
    Value.get? "document_count" members = some (.int (documents segments).length)
  | .searchClasses _ _, _ | .searchNames _ _, _ | .stats, _ => False
  | _, _ => True

end Service

namespace Store

section

variable {cwd : File.Path} {config : IndexConfig} {st st' : Session}

theorem open_of_returned {α : Type} {a : α}
    (h : st.handle.closed = true → ∃ f, (.ok a : Except Failure α) = .error f) :
    st.handle.closed = false := by
  rw [Bool.eq_false_iff]
  intro hclosed
  obtain ⟨f, hf⟩ := h hclosed
  exact absurd hf (by simp)

/-- A search that returns answers from what is committed. -/
theorem find_returns (hi : st.Intact) {q : Query} {limit : Int} {es : List Entry}
    (h : Ends ((service cwd config).find q limit) st (.ok es) st') :
    foundIn st.directory.committed q limit = .ok es := by
  obtain ⟨_, hstopped, hanswer⟩ := find_cases h
  exact (hanswer hi (open_of_returned hstopped)).symm

theorem stats_returns (hi : st.Intact) {members : List (String × Value)}
    (h : Ends (service cwd config).stats st (.ok members) st') :
    Value.get? "document_count" members = some (.int st.directory.documents.length) := by
  obtain ⟨_, hstopped, hanswer⟩ := stats_cases h
  obtain ⟨others, hok⟩ := hanswer hi (open_of_returned hstopped)
  cases hok
  simp [Value.get?]

theorem perform_reads (hi : st.Intact) {c : Call} {a : Answer}
    (h : Ends ((service cwd config).perform c) st (.ok a) st') :
    (service cwd config).ReadsFrom st.directory.committed c a := by
  cases c with
  | searchClasses text max =>
    obtain ⟨es, hes, rfl⟩ := ends_bind_pure_ok.mp h
    exact find_returns hi hes
  | searchNames terms max =>
    obtain ⟨es, hes, rfl⟩ := ends_bind_pure_ok.mp h
    cases terms with
    | nil =>
      obtain ⟨hnil, _⟩ := ends_succeed.mp hes
      cases hnil
      rfl
    | cons term terms => exact find_returns hi hes
  | stats =>
    obtain ⟨members, hmembers, rfl⟩ := ends_bind_pure_ok.mp h
    exact stats_returns hi hmembers
  | persist _ _ _ => trivial
  | remove _ => trivial
  | commit => trivial
  | reindex _ _ _ => trivial
  | shutdown => trivial

end

end Store

end GoToSymbol
