import GoToSymbol.Proofs.Config.Accepted
import GoToSymbol.Proofs.Index.Stored
import GoToSymbol.Proofs.Relevance.Boosts

namespace GoToSymbol.Service

open Config Relevance

section

variable {cwd : File.Path} {policy : Policy} {prioritized : Bool}

/-- The name of a document that is built has the boost of its name. -/
theorem boost_of_boostedDocument {e : Entry} {d : Document}
    (h : boostedDocument cwd policy prioritized e = .ok d) :
    Relevance.boost policy prioritized e.fqn.plain.toList = .ok (d.boost fqnField) ∧
      ¬ d.boost fqnField ≤ 0.0 := by
  obtain ⟨v, fqn, file⟩ := e
  cases file with
  | none => exact absurd h (by simp [boostedDocument, Entry.toDocument, Bind.bind, Except.bind])
  | some file =>
    simp only [boostedDocument, Entry.toDocument, Bind.bind, Except.bind] at h
    cases hb : Relevance.boost policy prioritized fqn.plain.toList with
    | error e =>
      rw [hb] at h
      exact absurd h (by simp [Except.mapError])
    | ok b =>
      rw [hb] at h
      simp only [Except.mapError, Document.setBoost] at h
      split at h
      · exact absurd h (by simp)
      · next hpositive =>
        cases h
        exact ⟨rfl, hpositive⟩

/-- The boosts of all documents that are built are those of names, and not zero. -/
theorem boosts_of_buildDocuments {symbols : List Submission} {ds : List Document}
    (h : buildDocuments cwd policy prioritized symbols = .ok ds) :
    ∀ d ∈ ds, ∃ name, Relevance.boost policy prioritized name = .ok (d.boost fqnField) ∧
      ¬ d.boost fqnField ≤ 0.0 := by
  induction symbols generalizing ds with
  | nil =>
    cases h
    simp
  | cons x rest ih =>
    rcases buildDocuments_cons h with ⟨_, hrest⟩ | ⟨e, d, ds', _, hd, hrest, rfl⟩
    · exact ih hrest
    · rw [List.forall_mem_cons]
      exact ⟨⟨_, boost_of_boostedDocument hd⟩, ih hrest⟩

end

/-- Under settings that are accepted all documents of some symbols are built just where the name of
each symbol that is indexed can have a boost above zero; then each document has one. It can have one
whenever the reciprocal of the step is finite and the name is nested 1021 levels deep at most. -/
theorem buildDocuments_boosted {env : Environment} {givens : Givens} {config : IndexConfig}
    (hconfig : IndexConfig.read env givens = .ok config) (cwd : File.Path) (prioritized : Bool)
    (symbols : List Symbol) :
    ((∃ ds, buildDocuments cwd config.policy prioritized (symbols.map .symbol) = .ok ds) ↔
        ∀ s ∈ symbols, s.isIndexed = true →
          IsBoosted config.policy prioritized (nestedDepth s.fqn.toList)) ∧
      (∀ ds, buildDocuments cwd config.policy prioritized (symbols.map .symbol) = .ok ds →
        ∀ d ∈ ds, 0.0 < d.boost fqnField) ∧
      (2 ^ (-1024 : ℤ) < Decimal.fraction config.policy.penaltyStep →
        (∀ s ∈ symbols, s.isIndexed = true → nestedDepth s.fqn.toList ≤ 1021) →
        ∃ ds, buildDocuments cwd config.policy prioritized (symbols.map .symbol) = .ok ds) := by
  obtain ⟨hstep, hstep', hbonus, _, _⟩ := IndexConfig.read_withinBounds hconfig
  have hbuilt : (∃ ds, buildDocuments cwd config.policy prioritized (symbols.map .symbol) = .ok ds) ↔
      ∀ s ∈ symbols, s.isIndexed = true →
        IsBoosted config.policy prioritized (nestedDepth s.fqn.toList) := by
    refine buildDocuments_ok_iff.trans (forall₂_congr fun s _ => imp_congr_right fun _ => ?_)
    exact boost_positive_iff hstep hstep' hbonus prioritized s.fqn.toList
  refine ⟨hbuilt, ?_, ?_⟩
  · intro ds hds d hd
    obtain ⟨name, hboost, hpositive⟩ := boosts_of_buildDocuments hds d hd
    exact zero_lt_boost hstep hstep' hbonus hboost hpositive
  · intro hmore hshallow
    refine hbuilt.mpr fun s hs hindexed => ?_
    exact isBoosted_of_shallow hstep hstep' hmore prioritized (hshallow s hs hindexed)

/-- The record of a class. -/
def beeRecord : Value :=
  .object [("kind", .text "class"), ("file", .text "/a.kt"), ("fqn", .text "a.Bee")]

def beeSymbol : Symbol := ⟨.classLike false false, ⟨"/a.kt", .null⟩, "a.Bee"⟩

/-- Under the settings by default a class is built with a boost. -/
theorem buildDocuments_boosted_default : ∃ config ds,
    IndexConfig.read [] [] = .ok config ∧ Symbol.ofValue beeRecord = .ok beeSymbol ∧
      buildDocuments (.ofText ['/']) config.policy false [.symbol beeSymbol] = .ok ds ∧
      ∀ d ∈ ds, 0.0 < d.boost fqnField := by
  have hconfig : IndexConfig.read [] [] = .ok .default := rfl
  have hquarter : 2 ^ (-1024 : ℤ) < Decimal.fraction 0.25 := by
    rw [stands_quarter.fraction_eq]
    calc (2 : ℚ) ^ (-1024 : ℤ) < 2 ^ (-2 : ℤ) := zpow_lt_zpow_right₀ (by norm_num) (by norm_num)
      _ = 1 / 4 := by norm_num
  have hshallow : ∀ s ∈ [beeSymbol], s.isIndexed = true → nestedDepth s.fqn.toList ≤ 1021 := by
    decide +kernel
  obtain ⟨_, hpositive, hbuilt⟩ := buildDocuments_boosted hconfig (.ofText ['/']) false [beeSymbol]
  obtain ⟨ds, hds⟩ := hbuilt hquarter hshallow
  exact ⟨_, ds, hconfig, rfl, hds, hpositive ds hds⟩

/-- With a step whose reciprocal is infinite no name gets a boost. -/
theorem buildDocuments_not_always_boosted :
    ¬ ∀ (env : Environment) (givens : Givens) (config : IndexConfig) (cwd : File.Path)
        (prioritized : Bool) (symbols : List Symbol),
      IndexConfig.read env givens = .ok config →
      (∀ s ∈ symbols, ∃ v, Symbol.ofValue v = .ok s) →
      ∃ ds, buildDocuments cwd config.policy prioritized (symbols.map .symbol) = .ok ds ∧
        ∀ d ∈ ds, 0.0 < d.boost fqnField := by
  intro hclaim
  have hconfig : IndexConfig.read [] [("penalty_step", .float 1e-320)] =
      .ok { IndexConfig.default with policy := ⟨1e-320, 0.25⟩ } :=
    IndexConfig.read_step (by decide +kernel) (by decide +kernel)
  have hdecoded : ∀ s ∈ [beeSymbol], ∃ v, Symbol.ofValue v = .ok s := by
    intro s hs
    rw [List.mem_singleton.mp hs]
    exact ⟨beeRecord, rfl⟩
  obtain ⟨ds, hds, _⟩ := hclaim _ _ _ (.ofText ['/']) false _ hconfig hdecoded
  have hfails : (buildDocuments (.ofText ['/']) ⟨1e-320, 0.25⟩ false
      [.symbol beeSymbol]).toOption.isSome = false := by decide +kernel
  have hbuilt : buildDocuments (.ofText ['/']) ⟨1e-320, 0.25⟩ false [.symbol beeSymbol] = .ok ds := hds
  rw [hbuilt] at hfails
  exact Bool.false_ne_true hfails.symm

end GoToSymbol.Service
