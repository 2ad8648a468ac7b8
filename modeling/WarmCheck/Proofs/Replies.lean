import WarmCheck.CommandLine.Run
import WarmCheck.Proofs.Wire

/-!
# Replies

A query yields what the octets denote that the other side has sent when it hangs up. So a reply that
arrives whole, in whatever pieces, yields the snapshot that was sent, and a damaged one yields nothing.

* `Query.Peer.data`, `Query.Peer.isInTime`: what the other side sends, and whether it does so in time.
* `Query.snapshot_read`: what a query yields.
* `CommandLine.decode?_status`: what is printed of the answer to a query.
* **`Snapshot.read_back`**: a snapshot that has been sent or printed is read back.
* **`Snapshot.unread_of_isDamaged`**: replies that have been cut off, or go on, are not read.
-/

namespace WarmCheck

/-! ## Queries -/

namespace Query

/-- The octets that the other side sends before it hangs up. -/
def Peer.data : Peer → Bytes
  | [] => []
  | (_, .send data) :: rest => data ++ Peer.data rest
  | (_, .hangUp) :: _ => []

/-- Whether the other side hangs up, and does all that it does up to then, within a limit. -/
def Peer.isInTime (limit : Nat) : Peer → Bool
  | [] => false
  | (time, .send _) :: rest => time < limit && Peer.isInTime limit rest
  | (time, .hangUp) :: _ => time < limit

theorem snapshot_read (limit : Nat) (got : Bytes) (peer : Peer) :
    (read limit got peer).snapshot =
      if Peer.isInTime limit peer then Snapshot.decode? (got ++ Peer.data peer) else none := by
  fun_induction read limit got peer with
  | case1 => rfl
  | case2 got time data rest h | case4 got time rest h => simp [Peer.isInTime, Nat.not_lt.mpr h]
  | case3 got time data rest h ih => simp [ih, Peer.isInTime, Peer.data, Nat.lt_of_not_le h]
  | case5 got time rest h => simp [Peer.isInTime, Peer.data, Nat.lt_of_not_le h]

theorem decode?_of_read {limit : Nat} {got : Bytes} {peer : Peer} {s : Snapshot}
    (h : (read limit got peer).snapshot = some s) : Snapshot.decode? (got ++ Peer.data peer) = some s := by
  rw [snapshot_read] at h
  split at h
  · exact h
  · cases h

end Query

namespace CommandLine

/-! ## Printing -/

/-- What is said of a daemon that does not answer is no snapshot. -/
theorem decode?_note (palette : Palette) (isAlive : Bool) :
    Snapshot.decode? (Utf8.ofString (palette.paint .red
      (if isAlive then "daemon process is alive but not answering" else "daemon is not running") ++ "\n")) =
        none := by
  obtain ⟨isOn⟩ := palette
  cases isOn <;> cases isAlive <;> rfl

/-- **What is printed is read as the answer to the query**, and as no snapshot where there is none. -/
theorem decode?_status (w : World) (root : Path) (settings : Settings) :
    Snapshot.decode? (status w root { settings with json := true }).out =
      (ask w (.of root w.env) 0 0).snapshot := by
  rw [status]
  cases (ask w (.of root w.env) 0 0).snapshot with
  | none => exact decode?_note _ _
  | some s =>
    have hout : Utf8.ofString (String.ofList s.pretty ++ "\n") = Utf8.encode s.pretty ++ [0x0A] := by
      rw [Utf8.ofString, String.toList_append, String.toList_ofList, Utf8.encode_append]
      rfl
    simp only [Outcome.say, if_true, hout]
    exact Snapshot.decode?_append s.run?_pretty [0x0A]

end CommandLine

namespace Snapshot

/-! ## Whole replies -/

/-- **A snapshot that has been sent or printed is read back.** The octets that are sent and the lines that
show it denote it; a query yields it when these octets come in time, in whatever pieces; and what is
printed denotes it iff it is the answer to the query. -/
theorem read_back (s : Snapshot) :
    decode? s.encode = some s ∧ decode? (Utf8.encode s.pretty) = some s ∧
      (∀ (limit : Nat) (peer : Query.Peer), Query.Peer.data peer = s.encode →
        Query.Peer.isInTime limit peer = true → (Query.result limit (some peer)).snapshot = some s) ∧
      ∀ (w : CommandLine.World) (root : Path) (settings : CommandLine.Settings),
        decode? (CommandLine.status w root { settings with json := true }).out = some s ↔
          (CommandLine.ask w (.of root w.env) 0 0).snapshot = some s := by
  refine ⟨s.decode?_encode, ?_, fun limit peer hdata htime => ?_, fun w root settings => ?_⟩
  · simpa using decode?_append s.run?_pretty []
  · rw [Query.result, Query.snapshot_read, htime, if_pos rfl, List.nil_append, hdata, decode?_encode]
  · rw [CommandLine.decode?_status]

/-- A reply that is cut inside an escape and inside a character. -/
theorem read_back_in_pieces :
    let s : Snapshot := ⟨"\"\u2028😀\\\u0001", true, false, true, 0xFFFFFFFFFFFFFFFF⟩
    let peer : Query.Peer := [(0, .send (s.encode.take 12)), (10, .send ((s.encode.drop 12).take 5)),
      (20, .send (s.encode.drop 17)), (30, .hangUp)]
    (Query.Peer.data peer = s.encode ∧ Query.Peer.isInTime Query.timeLimit peer = true) ∧
      (Query.result Query.timeLimit (some peer)).snapshot = some s := by
  intro s peer
  have hdata : Query.Peer.data peer = s.encode := by decide +kernel
  exact ⟨⟨hdata, rfl⟩, s.read_back.2.2.1 _ _ hdata rfl⟩

/-! ## Damaged replies -/

/-- What comes of a reply that has been damaged: a proper part of it from the beginning on, or all of it
with something behind it that is not blank. -/
inductive IsDamaged (s : Snapshot) : Bytes → Prop where
  | cut {bs : Bytes} (hbegin : bs <+: s.encode) (hne : bs ≠ s.encode) : IsDamaged s bs
  | followed {more : Bytes} (hmore : ∃ b ∈ more, Json.isSpace b = false) : IsDamaged s (s.encode ++ more)

/-- **A damaged reply is not read as any snapshot**, and a query that gets it yields none. -/
theorem unread_of_isDamaged {s : Snapshot} {bs : Bytes} (h : s.IsDamaged bs) :
    decode? bs = none ∧ ∀ (limit : Nat) (peer : Query.Peer), Query.Peer.data peer = bs →
      (Query.result limit (some peer)).snapshot = none := by
  have hnone : decode? bs = none := by
    cases h with
    | cut hbegin hne => exact decode?_of_cut hbegin hne
    | followed hmore =>
      rw [decode?_append s.run?_encode]
      simpa using hmore
  refine ⟨hnone, fun limit peer hdata => ?_⟩
  rw [Query.result, Query.snapshot_read, List.nil_append, hdata, hnone, ite_self]

/-- A reply that is cut inside a character. -/
theorem unread_inside_character :
    let s : Snapshot := ⟨"é\x7d1", false, false, true, 7⟩
    let bs := s.encode.take 12
    s.IsDamaged bs ∧ decode? bs = none ∧
      (Query.result Query.timeLimit (some (.reply bs))).snapshot = none := by
  intro s bs
  have hcut : s.IsDamaged bs := .cut (List.take_prefix 12 _) (by decide +kernel)
  obtain ⟨hnone, hquery⟩ := unread_of_isDamaged hcut
  exact ⟨hcut, hnone, hquery _ _ (List.append_nil bs)⟩

end Snapshot

end WarmCheck
