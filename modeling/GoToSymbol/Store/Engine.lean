import GoToSymbol.Index.Engine
import GoToSymbol.Store.Session

namespace GoToSymbol.Store

open Work

/-- The storage of a directory; a session that was closed refuses everything but another shutdown.
What is relied on of a storage is `Medium.Laws`, and `engine_laws` says that this one keeps to it. -/
def engine : Engine Session where
  put documents commit := whileOpen (put documents commit)
  delete queries commit := whileOpen do
    let n ← delete queries commit
    return (n : Int)
  commit := whileOpen flush
  search q limit := whileOpen (search q limit)
  shutdown := shutdown
  stats := whileOpen stats

end GoToSymbol.Store
