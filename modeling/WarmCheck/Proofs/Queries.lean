import WarmCheck.Proofs.Replies
import WarmCheck.Proofs.Walk

/-!
# Queries and their time

A query lasts until the other side hangs up, or until its time is up. It yields what the octets denote that have
come by then, and nothing if the other side has not hung up in time.

* `Query.Peer.hangUp?`, `Query.Peer.IsOrdered`: when the other side hangs up, and that it does one thing after
  the other.
* `Query.read_of_inTime`, `Query.read_of_late`: how a query ends whose peer hangs up in time, or not in time.
* `Query.atPath`: a query at a path; `CommandLine.ask_eq_atPath`: the commands ask so.
* **`Query.settles_atPath`**: what a query at a path yields, and how long it takes.
-/

namespace WarmCheck

namespace Query

/-! ## Hanging up -/

/-- When the other side hangs up, if it ever does. -/
def Peer.hangUp? : Peer → Option Nat
  | [] => none
  | (_, .send _) :: rest => Peer.hangUp? rest
  | (time, .hangUp) :: _ => some time

/-- The other side does one thing after the other. -/
def Peer.IsOrdered (peer : Peer) : Prop := List.Pairwise (·.1 ≤ ·.1) peer

instance (peer : Peer) : Decidable (Peer.IsOrdered peer) := inferInstanceAs (Decidable (List.Pairwise _ _))

theorem Peer.mem_of_hangUp? {peer : Peer} {t : Nat} (h : Peer.hangUp? peer = some t) : (t, .hangUp) ∈ peer := by
  fun_induction Peer.hangUp? peer with
  | case1 => cases h
  | case2 _ _ _ ih => exact List.mem_cons_of_mem _ (ih h)
  | case3 => cases h; exact List.mem_cons_self

/-- Peers that pause between what they do are in order. -/
theorem Peer.isOrdered_ofPauses (clock : Clock) (now : Nat) (moves : List (Nat × Move)) :
    Peer.IsOrdered (Peer.ofPauses clock now moves) ∧ ∀ x ∈ Peer.ofPauses clock now moves, now ≤ x.1 := by
  fun_induction Peer.ofPauses clock now moves with
  | case1 => exact ⟨List.Pairwise.nil, nofun⟩
  | case2 now pause rest next =>
    have hnext : now ≤ next := Nat.le_trans (Nat.le_add_right now pause) (clock.le_wake _)
    exact ⟨List.pairwise_singleton _ _, List.forall_mem_singleton.mpr hnext⟩
  | case3 now pause rest next data ih =>
    have hnext : now ≤ next := Nat.le_trans (Nat.le_add_right now pause) (clock.le_wake _)
    obtain ⟨hordered, hlater⟩ := ih
    exact ⟨List.pairwise_cons.mpr ⟨hlater, hordered⟩,
      List.forall_mem_cons.mpr ⟨hnext, fun x hx => Nat.le_trans hnext (hlater x hx)⟩⟩

/-! ## Reading -/

variable {limit t : Nat} {got : Bytes} {peer : Peer}

/-- A reply is read as a whole if the other side hangs up in time. -/
theorem read_of_inTime (hordered : Peer.IsOrdered peer) (ht : Peer.hangUp? peer = some t) (htime : t < limit) :
    read limit got peer = ⟨Snapshot.decode? (got ++ Peer.data peer), t⟩ := by
  fun_induction read limit got peer with
  | case1 => cases ht
  | case2 got time data rest hlate =>
    -- what is sent before the other side hangs up is sent in time
    have hle : time ≤ t := (List.pairwise_cons.mp hordered).1 _ (Peer.mem_of_hangUp? ht)
    omega
  | case3 got time data rest hlate ih =>
    rw [ih (List.pairwise_cons.mp hordered).2 ht, Peer.data, List.append_assoc]
  | case4 got time rest hlate => cases ht; omega
  | case5 got time rest hlate => cases ht; rw [Peer.data, List.append_nil]

/-- Nothing comes of a reply whose end is not seen in time, whatever has been sent by then. -/
theorem read_of_late (h : ∀ t, Peer.hangUp? peer = some t → limit ≤ t) : read limit got peer = ⟨none, limit⟩ := by
  fun_induction read limit got peer with
  | case1 | case2 | case4 => rfl
  | case3 got time data rest hlate ih => exact ih h
  | case5 got time rest hlate => exact absurd (h time rfl) hlate

/-! ## Endings -/

/-- How a query ends: it yields a snapshot iff the other side hangs up in time and its octets denote it, it lasts
until the other side hangs up or the time is up, and nothing else matters of what the other side does. -/
structure Settles (limit : Nat) (peer : Peer) (r : Result) : Prop where
  snapshot_iff : ∀ s, r.snapshot = some s ↔
    ∃ t, Peer.hangUp? peer = some t ∧ t < limit ∧ Snapshot.decode? (Peer.data peer) = some s
  elapsed_of_hangUp : ∀ t, Peer.hangUp? peer = some t → r.elapsed = min t limit
  elapsed_of_stays : Peer.hangUp? peer = none → r.elapsed = limit
  congr : ∀ peer', Peer.IsOrdered peer' → Peer.data peer' = Peer.data peer →
    Peer.hangUp? peer' = Peer.hangUp? peer → result limit (some peer') = r

theorem settles_result (hordered : Peer.IsOrdered peer) : Settles limit peer (result limit (some peer)) := by
  by_cases htime : ∃ t, Peer.hangUp? peer = some t ∧ t < limit
  · obtain ⟨t, ht, htime⟩ := htime
    have hread : ∀ peer', Peer.IsOrdered peer' → Peer.hangUp? peer' = some t →
        result limit (some peer') = ⟨Snapshot.decode? (Peer.data peer'), t⟩ :=
      fun peer' hordered' ht' => read_of_inTime hordered' ht' htime
    rw [hread peer hordered ht]
    refine ⟨fun s => ?_, fun t' ht' => ?_, fun hnone => ?_, fun peer' hordered' hdata hend => ?_⟩
    · rw [ht]
      simp [htime]
    · cases ht.symm.trans ht'
      exact (Nat.min_eq_left (Nat.le_of_lt htime)).symm
    · cases ht.symm.trans hnone
    · rw [hread peer' hordered' (hend.trans ht), hdata]
  · have hlate : ∀ t, Peer.hangUp? peer = some t → limit ≤ t := fun t ht =>
      Nat.le_of_not_lt fun h => htime ⟨t, ht, h⟩
    have hread : result limit (some peer) = ⟨none, limit⟩ := read_of_late hlate
    rw [hread]
    refine ⟨fun s => ⟨fun h => (by cases h), ?_⟩, fun t ht => (Nat.min_eq_right (hlate t ht)).symm, fun _ => rfl,
      fun peer' _ _ hend => read_of_late fun t ht => hlate t (hend ▸ ht)⟩
    rintro ⟨t, ht, hin, -⟩
    exact absurd ⟨t, ht, hin⟩ htime

/-! ## Paths -/

/-- A query at a path with a time limit, where `peers` says what each listener does. Nobody is asked where there is
nothing at the path. -/
def atPath (d : Disk) (socket : Path) (limit : Nat) (peers : Nat → Peer) : Result :=
  if d.reaches socket then result limit ((d.connect socket).toOption.map peers) else result limit none

section AtPath

variable {d : Disk} {socket : Path} {peers : Nat → Peer}

theorem reaches_of_connect {l : Nat} (h : d.connect socket = .ok l) : d.reaches socket = true := by
  rw [Disk.connect] at h
  cases haddress : Disk.checkAddress socket with
  | error fault => rw [haddress] at h; cases h
  | ok =>
    cases hoff : Disk.isOffDisk socket with
    | true => rw [haddress, hoff] at h; cases h
    | false =>
      cases hlookup : d.lookup true socket with
      | error fault => rw [haddress, hoff, hlookup] at h; cases h
      | ok n => rw [Disk.reaches, hlookup]; rfl

theorem atPath_of_connect {l : Nat} (h : d.connect socket = .ok l) :
    atPath d socket limit peers = result limit (some (peers l)) := by
  rw [atPath, reaches_of_connect h, h]
  rfl

theorem atPath_of_not_connect (h : ∀ l, d.connect socket ≠ .ok l) : atPath d socket limit peers = ⟨none, 0⟩ := by
  have hnone : (d.connect socket).toOption = none := by
    cases hconnect : d.connect socket with
    | error fault => rfl
    | ok l => exact absurd hconnect (h l)
  rw [atPath, hnone]
  cases d.reaches socket <;> rfl

/-- Nobody listens at a socket that has been left behind. -/
theorem not_connect_of_stale {mode : Nat} (h : d.lookup true socket = .ok (.socket none mode)) (l : Nat) :
    d.connect socket ≠ .ok l := by
  rw [Disk.connect, h]
  cases Disk.checkAddress socket with
  | error fault => exact fun h => by cases h
  | ok =>
    cases Disk.isOffDisk socket <;> cases hmay : Disk.may 2 mode <;>
      simp [bind, Except.bind, hmay]

/-- **What a query at a path yields, and how long it takes.** If someone listens there, it ends as the other side
lets it end. Where nobody does, because nothing is at the path, or a socket that has been left behind, or for any
other reason, it yields nothing at once. -/
theorem settles_atPath (hordered : ∀ l, Peer.IsOrdered (peers l)) :
    (∀ l, d.connect socket = .ok l → Settles limit (peers l) (atPath d socket limit peers)) ∧
      ((∀ l, d.connect socket ≠ .ok l) → atPath d socket limit peers = ⟨none, 0⟩) ∧
      (d.reaches socket = false ∨ (∃ mode, d.lookup true socket = .ok (.socket none mode)) →
        atPath d socket limit peers = ⟨none, 0⟩) := by
  refine ⟨fun l hconnect => ?_, atPath_of_not_connect, ?_⟩
  · rw [atPath_of_connect hconnect]
    exact settles_result (hordered l)
  · rintro (hnothing | ⟨mode, hstale⟩)
    · rw [atPath, hnothing]
      rfl
    · exact atPath_of_not_connect (not_connect_of_stale hstale)

end AtPath

/-- A snapshot whose octets drip in, with a cut inside a character, from a peer that hangs up just in time. -/
theorem settles_atPath_of_slow_peer :
    let s : Snapshot := ⟨"é\x7d", false, true, true, 7⟩
    let peer : Peer := .ofPauses {} 0 [(1, .send (s.encode.take 12)), (190, .send (s.encode.drop 12)), (8, .hangUp)]
    let socket : Path := .ofString "/s"
    let d : Disk := ⟨.under [[115]] (.socket (some 7) Endpoint.ownerOnly), []⟩
    Peer.IsOrdered peer ∧ d.connect socket = .ok 7 ∧ atPath d socket 200 (fun _ => peer) = ⟨some s, 199⟩ := by
  intro s peer socket d
  have hordered : Peer.IsOrdered peer := (Peer.isOrdered_ofPauses ..).1
  have hconnect : d.connect socket = .ok 7 := by
    have hdown : ∀ name ∈ [[(115 : UInt8)]], Disk.IsDown name := fun name hname => by
      rw [List.mem_singleton.mp hname]
      exact ⟨by decide, by decide, by decide⟩
    have hwalk := Disk.walk_under hdown (n := .socket (some 7) Endpoint.ownerOnly) (fun _ => Node.noConfusion)
      [] true Disk.maxLinks
    exact Disk.connect_of_walk rfl rfl rfl hwalk rfl
  have hend : Peer.hangUp? peer = some 199 := by decide
  have hdata : Peer.data peer = s.encode := by decide +kernel
  have hsettles : Settles 200 peer (atPath d socket 200 fun _ => peer) :=
    (settles_atPath fun _ => hordered).1 7 hconnect
  have hsnapshot := (hsettles.snapshot_iff s).mpr ⟨199, hend, by decide, by rw [hdata, Snapshot.decode?_encode]⟩
  have helapsed := hsettles.elapsed_of_hangUp 199 hend
  refine ⟨hordered, hconnect, ?_⟩
  cases hr : atPath d socket 200 fun _ => peer with
  | mk snapshot elapsed =>
    rw [hr] at hsnapshot helapsed
    cases hsnapshot
    cases helapsed
    rfl

end Query

/-! ## Commands -/

/-- The commands ask at the endpoint of their workspace. -/
theorem CommandLine.ask_eq_atPath {w : World} {limit : Nat} {peers : Nat → Nat → Nat → Query.Peer}
    (h : w.answers = fun l n now => Query.result limit (some (peers l n now))) (p : Workspace) (n now : Nat) :
    ask w p n now = Query.atPath w.disk p.endpoint limit (peers · n now) := by
  rw [ask, h]
  cases hconnect : w.disk.connect p.endpoint with
  | ok l => rw [Query.atPath_of_connect hconnect]
  | error fault => rw [Query.atPath_of_not_connect fun l hl => by rw [hconnect] at hl; cases hl]

end WarmCheck
