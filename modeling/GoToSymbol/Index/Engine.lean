import GoToSymbol.Index.Action
import GoToSymbol.Query.Tree

namespace GoToSymbol

/-- What an index needs from a storage whose states are `σ`. Every operation is one atomic action. -/
structure Engine (σ : Type) where
  /-- Stages documents, and publishes all that is staged if the flag is set. -/
  put : List Document → Bool → Action σ Unit
  /-- Stages the deletion of the documents that match any of the queries, and counts them. -/
  delete : List Query → Bool → Action σ Int
  /-- Publishes what is staged. -/
  commit : Action σ Unit
  /-- The best documents that match a query, at most as many as the limit says. -/
  search : Query → Int → Action σ (List Document)
  shutdown : Action σ Unit
  stats : Action σ (List (String × Value))

end GoToSymbol
