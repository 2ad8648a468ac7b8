import WarmCheck.Proofs.KnownOrder
import WarmCheck.Watch.Reaction

/-!
# What calls for a restart

* `Head.isHead_iff`: a path is about the head when it has the name of the head file.
* `Watch.Reaction.movesHead_iff`: a batch about the head.
* `Watch.Reaction.reconcile_iff`: a batch after which known files are forgotten.
-/

namespace WarmCheck

theorem Path.fileName?_of_same {p q : Path} (h : p.same q = true) : p.fileName? = q.fileName? := by
  rw [same, beq_iff_eq] at h
  rw [fileName?, fileName?, h]

/-- A path is about the head exactly when it has the name of the head file. -/
theorem Head.isHead_iff (head p : Path) : isHead head p = true ↔ p.fileName? = head.fileName? := by
  rw [isHead, Bool.or_eq_true, beq_iff_eq]
  exact or_iff_right_of_imp Path.fileName?_of_same

namespace Watch.Reaction

theorem movesHead_iff (head : Path) (batch : List Event) :
    movesHead head batch = true ↔
      ∃ e ∈ batch, e.kind ≠ .access ∧ ∃ p ∈ e.paths, p.fileName? = head.fileName? := by
  simp only [movesHead, Event.isChange, List.any_eq_true, Bool.and_eq_true, bne_iff_ne, Head.isHead_iff]

theorem reconcile_iff {k : KnownFiles} (h : k.IsOrdered) (d : Disk) (batch : List Event) :
    (reconcile d k batch).2 = true ↔ k.Forgets d (KnownFiles.pathsOf batch) := by
  rw [← KnownFiles.observeAll_vanished_iff h]
  exact decide_eq_true_iff

theorem isOrdered_reconcile {k : KnownFiles} (h : k.IsOrdered) (d : Disk) (batch : List Event) :
    (reconcile d k batch).1.IsOrdered :=
  h.observeAll d (KnownFiles.pathsOf batch)

end Watch.Reaction

end WarmCheck
