import WarmCheck.Exchange
import WarmCheck.Proofs.Supervision

/-!
# The service

A supervised checker and the status server share one store. Checkers, restarts, connections and reads may
come in any order; whatever is sent on a connection is the snapshot of the moment at which its query was
complete.

* `Service`, `Service.step`, `Service.run`: the service and everything that can happen to it.
* `Service.sentOn`: all that is sent on a connection.
* `Service.lines`: the lines that the current checker has completed.
* **`Service.sentOn_eq`**: what is sent on a connection is nothing or one reply.
* **`Service.tells_run`**: the snapshot tells the lines of the current checker.
-/

namespace WarmCheck

/-! ## Connections -/

namespace Server

variable {κ : Type} [DecidableEq κ]

theorem talk?_setTalk (s : Server κ) (conn c : κ) (t : Talk) :
    (s.setTalk conn t).talk? c = if c = conn then (s.talk? conn).map fun _ => t else s.talk? c := by
  obtain ⟨store, isListening, talks⟩ := s
  simp only [setTalk, talk?]
  induction talks with
  | nil => split <;> rfl
  | cons x talks ih =>
    obtain ⟨d, old⟩ := x
    rw [List.map_cons, List.lookup_cons, List.lookup_cons, List.lookup_cons]
    by_cases hd : d = conn
    · subst hd
      by_cases hc : c = d
      · subst hc; simp
      · have hbeq : (c == d) = false := beq_false_of_ne hc
        simpa [hc, hbeq] using ih
    · by_cases hc : c = conn
      · subst hc
        have hbeq : (c == d) = false := beq_false_of_ne (Ne.symm hd)
        simpa [hd, hbeq] using ih
      · by_cases hcd : c = d
        · subst hcd; simp [hd]
        · have hbeq : (c == d) = false := beq_false_of_ne hcd
          simpa [hd, hc, hbeq] using ih

theorem mem_of_talk? {s : Server κ} {conn : κ} {t : Talk} (h : s.talk? conn = some t) :
    conn ∈ s.talks.map (·.1) := by
  obtain ⟨before, after, htalks, -⟩ := List.lookup_eq_some_iff.mp h
  rw [htalks]
  simp

theorem length_setTalk (s : Server κ) (conn : κ) (t : Talk) :
    (s.setTalk conn t).talks.length = s.talks.length := List.length_map _

theorem map_fst_setTalk (s : Server κ) (conn : κ) (t : Talk) :
    (s.setTalk conn t).talks.map (·.1) = s.talks.map (·.1) := by
  rw [setTalk, List.map_map]
  refine List.map_congr_left fun x _ => ?_
  simp only [Function.comp_apply]
  split <;> rfl

end Server

/-! ## The service -/

/-- A supervised checker and the status server of its store. Connections are numbered. -/
structure Service where
  supervisor : Supervisor
  server : Server Nat

namespace Service

/-- What can happen to a service. -/
inductive Input where
  /-- Something happens to the checker. -/
  | checker (now : UInt64) (input : Supervisor.Input)
  /-- The next connection is taken. -/
  | accept
  /-- Octets of a client are read; none stand for the end of what it sends. -/
  | read (conn : Nat) (bytes : Bytes)
  /-- No more connections are taken. -/
  | stop
  deriving Repr

/-- A service that has launched its checker, or has failed to. -/
def begin (now : UInt64) (ok : Bool) : Service :=
  let supervisor := Supervisor.launched now ok
  ⟨supervisor, { store := supervisor.store }⟩

/-- The current snapshot. -/
def current (s : Service) : Snapshot := s.server.store.current

/-- One thing that happens, and what is sent on the connection that it is about. -/
def step (s : Service) : Input → Service × Bytes
  | .checker now i =>
    let supervisor := s.supervisor.step now i
    (⟨supervisor, { s.server with store := supervisor.store }⟩, [])
  | .accept =>
    let (server, sent) := s.server.step (.connect s.server.talks.length)
    ({ s with server }, sent)
  | .read conn bs =>
    let (server, sent) := s.server.step (.read conn bs)
    ({ s with server }, sent)
  | .stop =>
    let (server, sent) := s.server.step .stop
    ({ s with server }, sent)

/-- Things that happen one after the other. -/
def run (s : Service) (history : List Input) : Service := history.foldl (fun s i => (s.step i).1) s

/-- What is sent on a connection because of one thing that happens. -/
def sentAt (s : Service) (conn : Nat) : Input → Bytes
  | .read c bs => if c = conn then (s.step (.read c bs)).2 else []
  | _ => []

/-- All that is sent on a connection. -/
def sentOn (s : Service) (conn : Nat) : List Input → Bytes
  | [] => []
  | i :: is => s.sentAt conn i ++ (s.step i).1.sentOn conn is

/-- A connection is served a snapshot after some of the things that happen. -/
def Serves (s : Service) (history before : List Input) (conn : Nat) (snapshot : Snapshot) : Prop :=
  ∃ bs after, history = before ++ .read conn bs :: after ∧ snapshot = (s.run before).current ∧
    ((s.run before).step (.read conn bs)).2 = snapshot.encode

/-- What happens to the checker. -/
def checkerInputs (history : List Input) : List (UInt64 × Supervisor.Input) :=
  history.filterMap fun i =>
    match i with
    | .checker now i => some (now, i)
    | _ => none

/-- The lines that the current checker has completed. -/
def lines (history : List Input) : List Line :=
  Output.lines (Supervisor.current ((checkerInputs history).map (·.2)))

/-! ## Soundness -/

/-- The server answers from the supervisor's store, and the numbers of connections are those of the
connections so far. -/
structure IsSound (s : Service) : Prop where
  store : s.server.store = s.supervisor.store
  numbered : ∀ c ∈ s.server.talks.map (·.1), c < s.server.talks.length

theorem isSound_begin (now : UInt64) (ok : Bool) : (begin now ok).IsSound := ⟨rfl, nofun⟩

theorem IsSound.step {s : Service} (h : s.IsSound) (i : Input) : (s.step i).1.IsSound := by
  obtain ⟨hstore, hnumbered⟩ := h
  cases i with
  | checker now i => exact ⟨rfl, hnumbered⟩
  | accept =>
    simp only [Service.step, Server.step]
    split
    · refine ⟨hstore, fun c hc => ?_⟩
      rw [List.map_cons, List.mem_cons] at hc
      rw [List.length_cons]
      rcases hc with rfl | hc
      · exact Nat.lt_succ_self _
      · exact Nat.lt_succ_of_lt (hnumbered c hc)
    · exact ⟨hstore, hnumbered⟩
  | read conn bs =>
    simp only [Service.step, Server.step]
    split
    · refine ⟨hstore, ?_⟩
      simp only [Server.map_fst_setTalk, Server.length_setTalk]
      exact hnumbered
    · exact ⟨hstore, hnumbered⟩
  | stop => exact ⟨hstore, hnumbered⟩

theorem IsSound.run {s : Service} (h : s.IsSound) (history : List Input) : (s.run history).IsSound := by
  induction history generalizing s with
  | nil => exact h
  | cons i history ih => exact ih (h.step i)

/-! ## Replies -/

/-- What a thing that happens means for a connection: how it stands then, and what is sent on it. -/
def answer (s : Service) (conn : Nat) (t : Talk) : Input → Talk × Bytes
  | .read c bs => if c = conn then t.read s.current bs else (t, [])
  | _ => (t, [])

/-- The server's side of a connection, and what is sent on it, depend on nothing but the connection and
the snapshot. -/
theorem answer_step {s : Service} (h : s.IsSound) {conn : Nat} {t : Talk}
    (ht : s.server.talk? conn = some t) (i : Input) :
    (s.step i).1.server.talk? conn = some (s.answer conn t i).1 ∧
      s.sentAt conn i = (s.answer conn t i).2 := by
  cases i with
  | checker | stop => exact ⟨ht, rfl⟩
  | accept =>
    refine ⟨?_, rfl⟩
    simp only [step, Server.step]
    split
    · have hne : conn ≠ s.server.talks.length :=
        Nat.ne_of_lt (h.numbered conn (Server.mem_of_talk? ht))
      have hbeq : (conn == s.server.talks.length) = false := beq_false_of_ne hne
      rw [Server.talk?, List.lookup_cons, hbeq]
      exact ht
    · exact ht
  | read c bs =>
    by_cases hc : c = conn
    · subst hc
      simp only [step, Server.step, sentAt, answer, ht, if_true, Server.talk?_setTalk, Option.map_some]
      exact ⟨rfl, rfl⟩
    · simp only [sentAt, answer, if_neg hc, step, Server.step]
      split
      · rw [Server.talk?_setTalk, if_neg (Ne.symm hc)]
        exact ⟨ht, trivial⟩
      · exact ⟨ht, trivial⟩

/-- The server sends nothing, or the current snapshot, with which it hangs up. -/
theorem answer_eq (s : Service) (conn : Nat) (t : Talk) (i : Input) :
    (s.answer conn t i).2 = [] ∨
      ∃ bs, i = .read conn bs ∧ s.answer conn t i = (.ended, s.current.encode) := by
  cases i with
  | checker | accept | stop => exact .inl rfl
  | read c bs =>
    rw [answer]
    split
    · next hc =>
      subst hc
      cases t with
      | ignoring | ended => exact .inl rfl
      | asking got =>
        rw [Talk.read]
        cases Request.judge got bs with
        | none => exact .inl rfl
        | some r =>
          cases r with
          | status => exact .inr ⟨bs, rfl, rfl⟩
          | unknown | closed => exact .inl rfl
    · exact .inl rfl

theorem sentOn_of_ended {s : Service} (h : s.IsSound) {conn : Nat}
    (hended : s.server.talk? conn = some .ended) (history : List Input) :
    s.sentOn conn history = [] := by
  induction history generalizing s with
  | nil => rfl
  | cons i history ih =>
    have hanswer : s.answer conn .ended i = (.ended, []) := by
      cases i with
      | read c bs => rw [answer]; split <;> rfl
      | checker | accept | stop => rfl
    obtain ⟨hnext, hsent⟩ := answer_step h hended i
    rw [hanswer] at hnext hsent
    rw [sentOn, hsent, List.nil_append]
    exact ih (h.step i) hnext

theorem Serves.cons {s : Service} {i : Input} {history before : List Input} {conn : Nat}
    {snapshot : Snapshot} (h : (s.step i).1.Serves history before conn snapshot) :
    s.Serves (i :: history) (i :: before) conn snapshot := by
  obtain ⟨bs, after, rfl, hsnapshot, hsent⟩ := h
  exact ⟨bs, after, rfl, hsnapshot, hsent⟩

/-- **What is sent on a connection is nothing, or one reply**: the snapshot of the moment at which it is
served. -/
theorem sentOn_eq {s : Service} (h : s.IsSound) (conn : Nat) (history : List Input) :
    s.sentOn conn history = [] ∨
      ∃ before snapshot, s.Serves history before conn snapshot ∧
        s.sentOn conn history = snapshot.encode := by
  induction history generalizing s with
  | nil => exact .inl rfl
  | cons i history ih =>
    have hlater : s.sentAt conn i = [] → s.sentOn conn (i :: history) = [] ∨
        ∃ before snapshot, s.Serves (i :: history) before conn snapshot ∧
          s.sentOn conn (i :: history) = snapshot.encode := by
      intro hsent
      rw [sentOn, hsent, List.nil_append]
      refine (ih (h.step i)).imp_right ?_
      rintro ⟨before, snapshot, hserves, heq⟩
      exact ⟨i :: before, snapshot, hserves.cons, heq⟩
    cases ht : s.server.talk? conn with
    | none =>
      refine hlater ?_
      cases i with
      | read c bs =>
        rw [sentAt]
        split
        · next hc => subst hc; simp only [step, Server.step, ht]
        · rfl
      | checker | accept | stop => rfl
    | some t =>
      obtain ⟨hnext, hsent⟩ := answer_step h ht i
      rcases s.answer_eq conn t i with hnone | ⟨bs, rfl, hreply⟩
      · exact hlater (hsent.trans hnone)
      · rw [hreply] at hnext hsent
        refine .inr ⟨[], s.current, ⟨bs, history, rfl, rfl, ?_⟩, ?_⟩
        · rw [sentAt, if_pos rfl] at hsent
          exact hsent
        · rw [sentOn, hsent, sentOn_of_ended (h.step _) hnext, List.append_nil]

/-! ## Snapshots -/

theorem supervisor_run (s : Service) (history : List Input) :
    (s.run history).supervisor = s.supervisor.run (checkerInputs history) := by
  induction history generalizing s with
  | nil => rfl
  | cons i history ih =>
    rw [run, List.foldl_cons, ← run, ih]
    cases i with
    | checker | accept | read | stop => rfl

/-- **The snapshot of a service tells the lines that the current checker has completed.** -/
theorem tells_run (now : UInt64) (ok : Bool) (history : List Input) :
    ((begin now ok).run history).current.Tells (lines history) := by
  rw [current, ((isSound_begin now ok).run history).store, supervisor_run]
  exact ((Supervisor.follows_launched now ok).run (checkerInputs history)).tells

end Service

end WarmCheck
