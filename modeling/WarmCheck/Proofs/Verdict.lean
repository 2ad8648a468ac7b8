import WarmCheck.Proofs.Replies
import WarmCheck.Proofs.Service
import WarmCheck.Proofs.Walk

/-!
# Verdicts

A check that does not run the checker itself passes on what the daemon has told it. Whatever happens to
the checker, to the connections and to the replies on their way, it passes only if the last summary at
the moment of the answer counts no errors.

* `Service.IsAsked`: queries that reach a service, whose replies may be late or cut off.
* `Service.serves_of_query`: what a query yields is a snapshot that the service has served.
* **`CommandLine.check_verdict`**: what the exit status of a check says about the checker.
-/

namespace WarmCheck

/-! ## Queries -/

/-- A wait that ends with a finished cycle has got it from a query. -/
theorem Wait.exists_query {p : Plan} {ask : Answers} {n now : Nat} {s : Snapshot}
    (h : (runFrom p ask n now).1 = .complete s) :
    s.isComplete = true ∧ ∃ n now, (ask n now).snapshot = some s := by
  fun_induction runFrom p ask n now with
  | case1 | case3 | case5 => cases h
  | case2 n now r later t ht hc =>
    cases h
    exact ⟨hc, n, now, ht⟩
  | case4 n now r later t ht hc hlater next hnext ih => exact ih h

theorem Wait.runFrom_of_isComplete {p : Plan} {ask : Answers} {n now : Nat} {s : Snapshot}
    (h : (ask n now).snapshot = some s) (hc : s.isComplete = true) :
    (runFrom p ask n now).1 = .complete s := by
  rw [runFrom]
  simp only [h, hc, if_true]

/-! ## Answers -/

namespace Service

/-- Queries that reach a service in which these things happen. Each gets, at whatever times, what the
service sends on some connection, or only the beginning of it, or nobody takes its connection. -/
def IsAsked (s : Service) (history : List Input) (ask : Wait.Answers) : Prop :=
  ∀ n now, ∃ peer? : Option Query.Peer, ask n now = Query.result Query.timeLimit peer? ∧
    ∀ peer, peer? = some peer → ∃ conn, Query.Peer.data peer <+: s.sentOn conn history

/-- **What a query yields is a snapshot that the service has served**: a reply that has been cut off yields
nothing. -/
theorem serves_of_query {s : Service} (hs : s.IsSound) {history : List Input} {ask : Wait.Answers}
    (h : s.IsAsked history ask) {n now : Nat} {snapshot : Snapshot}
    (hquery : (ask n now).snapshot = some snapshot) :
    ∃ before conn, s.Serves history before conn snapshot := by
  obtain ⟨peer?, hask, hpeer⟩ := h n now
  rw [hask] at hquery
  cases peer? with
  | none => cases hquery
  | some peer =>
    obtain ⟨conn, hbegin⟩ := hpeer peer rfl
    have hdecode : Snapshot.decode? (Query.Peer.data peer) = some snapshot := Query.decode?_of_read hquery
    rcases sentOn_eq hs conn history with hnone | ⟨before, served, hserves, hsent⟩
    · rw [hnone, List.prefix_nil] at hbegin
      rw [hbegin] at hdecode
      cases hdecode
    · rw [hsent] at hbegin
      have hwhole : Query.Peer.data peer = served.encode := by
        by_contra hne
        rw [Snapshot.decode?_of_cut hbegin hne] at hdecode
        cases hdecode
      rw [hwhole, Snapshot.decode?_encode, Option.some.injEq] at hdecode
      exact ⟨before, conn, hdecode ▸ hserves⟩

end Service

/-! ## Summaries -/

namespace Line

/-- The digits by which a summary counts errors. -/
def errorDigits? (l : Line) : Option (List Char) := (summary? l).map (·.1)

theorem digits?_ne_nil {cs ds rest : List Char} (h : digits? cs = some (ds, rest)) : ds ≠ [] := by
  rw [digits?] at h
  split at h
  · cases h
  · next hne => cases h; exact hne

theorem errors_ne_nil_of_summaryAt? {cs errors warnings : List Char}
    (h : summaryAt? cs = some (errors, warnings)) : errors ≠ [] := by
  simp only [summaryAt?, Option.bind_eq_bind, Option.pure_def, Option.bind_eq_some_iff,
    Option.some.injEq, Prod.mk.injEq] at h
  obtain ⟨_, _, ⟨ds, _⟩, hdigits, _, _, _, _, _, _, _, _, rfl, _⟩ := h
  exact digits?_ne_nil hdigits

/-- A line that ends a cycle has digits for its errors, and they make its count. -/
theorem exists_errorDigits {l : Line} (h : l.isSummary = true) :
    ∃ ds warnings, l.errorDigits? = some ds ∧ ds ≠ [] ∧ l.counts? = some (countOf ds, warnings) := by
  obtain ⟨⟨errors, warnings⟩, hcounts⟩ := Option.isSome_iff_exists.mp h
  obtain ⟨ds, es, hs, rfl, -⟩ := kind_eq_summary_iff.mp (Cycle.kind_of_counts? hcounts)
  obtain ⟨-, rest, -, hrest⟩ := exists_of_summary? hs
  exact ⟨ds, warnings, by rw [errorDigits?, hs, Option.map_some], errors_ne_nil_of_summaryAt? hrest, hcounts⟩

end Line

/-- A snapshot that is complete tells of errors unless the last summary counts them by zeros alone. -/
theorem Snapshot.Tells.verdict {s : Snapshot} {ls : List Line} (h : s.Tells ls)
    (hc : s.isComplete = true) :
    ∃ l ds, Line.lastMarker? ls = some l ∧ l.errorDigits? = some ds ∧ ds ≠ [] ∧
      (s.hasErrors = false ↔ ∀ d ∈ ds, d = '0') := by
  obtain ⟨l, hl, hsummary⟩ := h.isComplete.mp hc
  obtain ⟨ds, warnings, hdigits, hne, hcounts⟩ := Line.exists_errorDigits hsummary
  obtain ⟨r, hr, herrors, -⟩ := Cycle.getLast?_reports hl hcounts
  refine ⟨l, ds, hl, hdigits, hne, ?_⟩
  rw [h.hasErrors, hr, Option.map_some, Option.getD_some, herrors, ← Line.countOf_eq_zero_iff]
  simp [Nat.pos_iff_ne_zero]

/-- A service serves a snapshot at a moment at which the last line of the current checker that begins or
ends a cycle is a summary, which counts errors by these digits. -/
def Service.Reports (s : Service) (history : List Input) (snapshot : Snapshot) (ds : List Char) : Prop :=
  ∃ before conn l, s.Serves history before conn snapshot ∧
    Line.lastMarker? (lines before) = some l ∧ l.errorDigits? = some ds ∧ ds ≠ []

namespace CommandLine

/-! ## Checks -/

/-- Whether a check runs the checker itself: no daemon is wanted, or none answers. -/
def isDirect (w : World) (root : Path) : Bool :=
  Config.isDisabled w.env || (Wait.run .check (ask w (.of root w.env))).1 = .noDaemon

theorem check_eq (w : World) (root : Path) (settings : Settings) :
    check w root settings =
      if isDirect w root then checkDirectly w (configOf w root settings)
      else report w (configOf w root settings) (Wait.run .check (ask w (.of root w.env))).1 := by
  rw [check, isDirect]
  cases Config.isDisabled w.env with
  | true => rfl
  | false =>
    cases (Wait.run .check (ask w (.of root w.env))).1 <;> rfl

/-- **No false pass**: a check that does not run the checker itself has no time left, and fails, or it has
got a snapshot that the service has served, at a moment at which the last line of the current checker
that begins or ends a cycle was a summary. It passes iff the digits by which this summary counts errors
are ASCII zeros alone. -/
theorem check_verdict {w : World} {root : Path} (settings : Settings) {now : UInt64} {ok : Bool}
    {history : List Service.Input}
    (hasked : (Service.begin now ok).IsAsked history (ask w (.of root w.env)))
    (hdirect : isDirect w root = false) :
    (∃ snapshot, (Wait.run .check (ask w (.of root w.env))).1 = .timedOut snapshot ∧
        (check w root settings).status = 1) ∨
      ∃ snapshot ds, (Wait.run .check (ask w (.of root w.env))).1 = .complete snapshot ∧
        (Service.begin now ok).Reports history snapshot ds ∧
        ((check w root settings).status = 0 ↔ ∀ d ∈ ds, d = '0') := by
  rw [check_eq, hdirect]
  cases hwait : (Wait.run .check (ask w (.of root w.env))).1 with
  | noDaemon => simp [isDirect, hwait] at hdirect
  | timedOut snapshot => exact .inl ⟨snapshot, rfl, rfl⟩
  | complete snapshot =>
    obtain ⟨hcomplete, n, t, hquery⟩ := Wait.exists_query hwait
    obtain ⟨before, conn, hserves⟩ :=
      Service.serves_of_query (Service.isSound_begin now ok) hasked hquery
    have htells : snapshot.Tells (Service.lines before) := by
      obtain ⟨bs, after, -, hsnapshot, -⟩ := hserves
      rw [hsnapshot]
      exact Service.tells_run now ok before
    obtain ⟨l, ds, hl, hdigits, hne, hzero⟩ := htells.verdict hcomplete
    refine .inr ⟨snapshot, ds, rfl, ⟨before, conn, l, hserves, hl, hdigits, hne⟩, ?_⟩
    rw [← hzero]
    cases hflag : snapshot.hasErrors <;> simp [report, Outcome.say, statusOf, hflag]

/-- A check that is told of a cycle without errors. -/
theorem check_verdict_of_clean_cycle :
    let history : List Service.Input :=
      [.checker 1 (.chunk 1 .out (Utf8.ofString "found 0 errors and 2 warnings\n")), .accept,
        .read 0 Query.token]
    let root : Path := .ofString "/"
    let names := [Utf8.ofString "node_modules", Utf8.ofString ".cache", Utf8.ofString "checkd",
      Utf8.ofString "daemon.sock"]
    let w : World :=
      { disk := ⟨.under names (.socket (some 7) Endpoint.ownerOnly), []⟩
        env := ⟨[]⟩
        answers := fun _ _ _ =>
          Query.result Query.timeLimit (some (.reply ((Service.begin 0 true).sentOn 0 history))) }
    ((Service.begin 0 true).IsAsked history (ask w (.of root w.env)) ∧ isDirect w root = false) ∧
      ∃ snapshot ds, (Service.begin 0 true).Reports history snapshot ds ∧
        ((check w root {}).status = 0 ↔ ∀ d ∈ ds, d = '0') := by
  intro history root names w
  have hdown : ∀ name ∈ names, Disk.IsDown name := by
    have hall : ∀ name ∈ names, name ≠ [Path.dot] ∧ name ≠ [Path.dot, Path.dot] ∧
        name.length ≤ Disk.maxName := by decide
    exact fun name h => ⟨(hall name h).1, (hall name h).2.1, (hall name h).2.2⟩
  have hnames : Disk.names (Workspace.of root w.env).endpoint = names := by decide +kernel
  have hconnect : w.disk.connect (Workspace.of root w.env).endpoint = .ok 7 := by
    have hwalk := Disk.walk_under hdown (n := .socket (some 7) Endpoint.ownerOnly) (fun _ h => by cases h)
      [] true Disk.maxLinks
    rw [← hnames] at hwalk
    exact Disk.connect_of_walk (by decide +kernel) (by decide +kernel) (by decide +kernel) hwalk rfl
  have hask : ∀ n now, ask w (.of root w.env) n now =
      Query.result Query.timeLimit (some (.reply ((Service.begin 0 true).sentOn 0 history))) := by
    intro n now
    rw [ask, hconnect]
  have hasked : (Service.begin 0 true).IsAsked history (ask w (.of root w.env)) := by
    refine fun n now => ⟨_, hask n now, fun peer hpeer => ⟨0, ?_⟩⟩
    cases hpeer
    exact ⟨[], by rw [Query.Peer.reply, Query.Peer.data, Query.Peer.data, List.append_nil, List.append_nil]⟩
  have hcomplete : ((ask w (.of root w.env) 0 0).snapshot.any (·.isComplete)) = true := by
    rw [hask]
    decide +kernel
  obtain ⟨snapshot, hquery, hsnapshot⟩ := (Option.any_eq_true _ _).mp hcomplete
  have hwait : (Wait.run .check (ask w (.of root w.env))).1 = .complete snapshot :=
    Wait.runFrom_of_isComplete hquery hsnapshot
  have hdirect : isDirect w root = false := by
    have henabled : Config.isDisabled w.env = false := by decide +kernel
    rw [isDirect, henabled, hwait]
    rfl
  refine ⟨⟨hasked, hdirect⟩, ?_⟩
  rcases check_verdict {} hasked hdirect with ⟨_, htimedOut, -⟩ | ⟨s, ds, -, hreports, hstatus⟩
  · rw [hwait] at htimedOut
    cases htimedOut
  · exact ⟨s, ds, hreports, hstatus⟩

end CommandLine

end WarmCheck
