import WarmCheck.Proofs.Exits
import WarmCheck.Proofs.Grammar

/-!
# Markers and signals

A signal is sent to the process that a marker spells out, and to no other one; whatever else the marker holds, no
signal is sent. A daemon that has registered reads its own number in its marker, unless it has written over a file
that it may not read and could not take away; it takes the marker away in the end, unless that spells the number of
another process or cannot be taken away.

* `Marker.Spells`: what a marker spells out; `Marker.pid?_eq_some_iff`: it is read.
* `Marker.IsCareful`: the signals that are sent because of a marker.
* `Instance.exists_marker_of_launch`: the marker of a daemon that has registered.
* **`Instance.minds_marker`**: what becomes of signals and markers; `Instance.marker_outlasts`: markers that stay.
-/

namespace WarmCheck

namespace Marker

/-! ## Spelling -/

/-- Whether a content is text that is a decimal number, with or without a sign, and nothing else but blanks
around it. -/
def Spells (content : Bytes) (n : Int) : Prop :=
  ∃ cs sign ds, content = Utf8.encode cs ∧ Text.trim cs = Sign.text sign ++ ds ∧ ds ≠ [] ∧
    (∀ d ∈ ds, d.isDigit = true) ∧ n = sign.factor * (Nat.ofDigits 10 (ds.reverse.map Text.digitValue) : Nat)

theorem number?_eq_some_iff {cs : List Char} {n : Int} :
    number? cs = some n ↔ minPid ≤ n ∧ n ≤ maxPid ∧ ∃ sign ds, cs = Sign.text sign ++ ds ∧ ds ≠ [] ∧
      (∀ d ∈ ds, d.isDigit = true) ∧ n = sign.factor * (Nat.ofDigits 10 (ds.reverse.map Text.digitValue) : Nat) := by
  constructor
  · intro h
    obtain ⟨sign, ds, rfl, hne, hdigits⟩ : ∃ sign ds, cs = Sign.text sign ++ ds ∧ ds ≠ [] ∧
        ds.all Char.isDigit = true := by
      unfold number? at h
      split at h
      next s ds heq =>
        by_cases hnumber : ds ≠ [] ∧ ds.all Char.isDigit = true
        · split at heq <;> cases heq
          · exact ⟨.plus, _, rfl, hnumber⟩
          · exact ⟨.minus, _, rfl, hnumber⟩
          · exact ⟨.none, _, rfl, hnumber⟩
        · rw [if_neg hnumber] at h
          cases h
    have hall : ∀ d ∈ ds, d.isDigit = true := List.all_eq_true.mp hdigits
    rw [number?_signed sign hne hall] at h
    split at h
    · next hrange =>
      cases h
      exact ⟨hrange.1, hrange.2, sign, ds, rfl, hne, hall, by rw [Text.decimalValue_eq_ofDigits]⟩
    · cases h
  · rintro ⟨hmin, hmax, sign, ds, rfl, hne, hdigits, rfl⟩
    rw [number?_signed sign hne hdigits, Text.decimalValue_eq_ofDigits, if_pos ⟨hmin, hmax⟩]

/-- **A marker is read** as the number that it spells out, if this is within the limits. -/
theorem pid?_eq_some_iff {content : Bytes} {n : Int} :
    pid? content = some n ↔ Spells content n ∧ minPid ≤ n ∧ n ≤ maxPid := by
  unfold pid?
  rw [Option.bind_eq_some_iff]
  constructor
  · rintro ⟨cs, hdecode, hnumber⟩
    obtain ⟨hmin, hmax, sign, ds, htrim, hne, hdigits, hn⟩ := number?_eq_some_iff.mp hnumber
    exact ⟨⟨cs, sign, ds, Utf8.decode?_eq_some_iff.mp hdecode, htrim, hne, hdigits, hn⟩, hmin, hmax⟩
  · rintro ⟨⟨cs, sign, ds, hcontent, htrim, hne, hdigits, hn⟩, hmin, hmax⟩
    exact ⟨cs, Utf8.decode?_eq_some_iff.mpr hcontent,
      number?_eq_some_iff.mpr ⟨hmin, hmax, sign, ds, htrim, hne, hdigits, hn⟩⟩

/-! ## Signals -/

/-- Whether a marker names a single process. -/
def Names (content : Option Bytes) (n : Int) : Prop :=
  ∃ bs, content = some bs ∧ Spells bs n ∧ 1 ≤ n ∧ n ≤ 2 ^ 31 - 1

variable {lives : Int → Bool} {content : Option Bytes} {s : Signal}

theorem probe?_eq_some_iff : probe? content = some s ↔ s.number = nullSignal ∧ Names content s.pid := by
  have hmax : maxPid = 2 ^ 31 - 1 := by decide
  obtain ⟨pid, number⟩ := s
  unfold probe? Names
  rw [Option.map_eq_some_iff]
  constructor
  · rintro ⟨n, hn, heq⟩
    cases heq
    obtain ⟨hpid, hpos⟩ := Option.filter_eq_some_iff.mp hn
    obtain ⟨bs, rfl, hbs⟩ := Option.bind_eq_some_iff.mp hpid
    obtain ⟨hspells, -, hle⟩ := pid?_eq_some_iff.mp hbs
    exact ⟨rfl, bs, rfl, hspells, of_decide_eq_true hpos, hmax ▸ hle⟩
  · rintro ⟨rfl, bs, rfl, hspells, hpos, hle⟩
    have hmin : minPid ≤ pid := Int.le_trans (by decide) hpos
    have hbs : pid? bs = some pid := pid?_eq_some_iff.mpr ⟨hspells, hmin, hmax ▸ hle⟩
    exact ⟨pid, Option.filter_eq_some_iff.mpr ⟨hbs, decide_eq_true hpos⟩, rfl⟩

theorem probe?_eq_none (h : ¬∃ n, Names content n) : probe? content = none := by
  cases hprobe : probe? content with
  | none => rfl
  | some s => exact absurd ⟨s.pid, (probe?_eq_some_iff.mp hprobe).2⟩ h

theorem stop?_eq_some_iff :
    stop? lives content = some s ↔ s.number = termSignal ∧ Names content s.pid ∧ lives s.pid = true := by
  unfold stop?
  rw [Option.map_eq_some_iff]
  constructor
  · rintro ⟨t, ht, rfl⟩
    obtain ⟨hprobe, hexists⟩ := Option.filter_eq_some_iff.mp ht
    exact ⟨rfl, (probe?_eq_some_iff.mp hprobe).2, hexists⟩
  · rintro ⟨hnumber, hnames, hexists⟩
    refine ⟨⟨s.pid, nullSignal⟩, Option.filter_eq_some_iff.mpr ⟨?_, hexists⟩, ?_⟩
    · exact probe?_eq_some_iff.mpr ⟨rfl, hnames⟩
    · rw [← hnumber]

/-- The signals that are sent to end the process of a marker: the question whether it exists, and the request. -/
def sent (lives : Int → Bool) (content : Option Bytes) : List Signal :=
  (probe? content).toList ++ (stop? lives content).toList

/-- Signals are sent to the process that the marker names. Without such a process there are none, and the answers are
that no process is alive and that none has been asked to end. -/
structure IsCareful (lives : Int → Bool) (content : Option Bytes) : Prop where
  named : ∀ s ∈ sent lives content, Names content s.pid
  asks : ∀ n, Names content n → probe? content = some ⟨n, nullSignal⟩ ∧ isAlive lives content = lives n
  stops : ∀ n, Names content n → stop? lives content = if lives n then some ⟨n, termSignal⟩ else none
  silent : (¬∃ n, Names content n) →
    sent lives content = [] ∧ isAlive lives content = false ∧ stop? lives content = none

theorem isCareful (lives : Int → Bool) (content : Option Bytes) : IsCareful lives content where
  named s hs := by
    rcases List.mem_append.mp hs with hprobe | hstop
    · exact (probe?_eq_some_iff.mp (Option.mem_toList.mp hprobe)).2
    · exact (stop?_eq_some_iff.mp (Option.mem_toList.mp hstop)).2.1
  asks n hn := by
    have hprobe : probe? content = some ⟨n, nullSignal⟩ := probe?_eq_some_iff.mpr ⟨rfl, hn⟩
    refine ⟨hprobe, ?_⟩
    unfold isAlive
    rw [hprobe]
  stops n hn := by
    have hprobe : probe? content = some ⟨n, nullSignal⟩ := probe?_eq_some_iff.mpr ⟨rfl, hn⟩
    unfold stop?
    rw [hprobe]
    cases hexists : lives n <;> simp [Option.filter, hexists]
  silent h := by
    unfold sent isAlive stop?
    rw [probe?_eq_none h]
    exact ⟨rfl, rfl, rfl⟩

end Marker

namespace Daemon

/-! ## Registration -/

namespace Slot

/-- Whether there is something that can be neither read nor taken away. -/
def IsSealed (s : Slot) : Prop := s.isFixed = true ∧ s.reaches = true ∧ s.content? = none

theorem content?_write_of_mem {s : Slot} {pid : Nat} {content : Bytes} (h : pid ∈ s.writers) :
    (s.write pid content).content? = s.content?.map (overlay content) := by
  induction s with
  | file old mode writers =>
    have hw : (file old mode writers).write pid content = file (overlay content old) mode (writers.filter (· ≠ pid)) :=
      if_pos h
    rw [hw, content?, content?]
    split <;> rfl
  | link target ih | fixed target ih => exact ih h
  | vacant | dir | bound | socket | blocked => cases h

/-- An opened file may be read if it is new, or if what was there before might be. -/
theorem content?_of_create {s t : Slot} {pid : Nat} (h : s.create pid = .ok t) :
    t.content? = if s.reaches then s.content?.map fun _ => [] else some [] := by
  fun_induction create pid s generalizing t with
  | case1 => cases h; rfl
  | case2 old mode writers =>
    cases h
    rw [content?, content?, reaches, if_pos rfl]
    split <;> rfl
  | case3 | case4 | case5 | case6 | case8 | case10 => cases h
  | case7 target ih | case9 target _ ih =>
    obtain ⟨u, hu, rfl⟩ := map_eq_ok h
    exact (ih hu).trans rfl

/-- What a daemon registers may be read, unless what it has met is sealed. -/
theorem content?_of_claim {s t : Slot} {pid : Nat} {content : Bytes} (h : s.unlink.create pid = .ok t) :
    (¬s.IsSealed → (t.write pid content).content? = some content) ∧
      (s.IsSealed → (t.write pid content).content? = none) := by
  have hmem : pid ∈ t.writers := by
    rw [(stored?_of_create h).2]
    exact List.mem_cons_self
  rw [content?_write_of_mem hmem, content?_of_create h]
  cases hfixed : s.isFixed with
  | true =>
    rw [unlink_of_isFixed hfixed]
    refine ⟨fun hopen => ?_, fun hsealed => ?_⟩
    · split
      · next hreaches =>
        cases hcontent : s.content? with
        | none => exact absurd ⟨hfixed, hreaches, hcontent⟩ hopen
        | some old => rw [Option.map_some, Option.map_some, overlay_nil]
      · rw [Option.map_some, overlay_nil]
    · rw [if_pos hsealed.2.1, hsealed.2.2]
      rfl
  | false =>
    have hreaches : s.unlink.reaches = false := by
      cases s with
      | dir | blocked => cases h
      | fixed => cases hfixed
      | _ => rfl
    refine ⟨fun _ => ?_, fun hsealed => ?_⟩
    · rw [hreaches, if_neg Bool.false_ne_true, Option.map_some, overlay_nil]
    · rw [hsealed.1] at hfixed
      cases hfixed

/-- What is taken away is gone, unless it is a directory or its directory cannot be changed or reached. -/
theorem unlink_cases (s : Slot) :
    s.unlink = .vacant ∨ s.unlink = s ∧ (s = .dir ∨ s.isFixed = true ∨ ∃ fault, s = .blocked fault) := by
  cases s with
  | vacant | file | bound | socket | link => exact .inl rfl
  | dir => exact .inr ⟨rfl, .inl rfl⟩
  | fixed entry => exact .inr ⟨rfl, .inr (.inl rfl)⟩
  | blocked fault => exact .inr ⟨rfl, .inr (.inr ⟨fault, rfl⟩)⟩

end Slot

namespace Instance

variable (w : Workspace) (launch : Tasks) (a : Artifacts) {i : Instance}

/-- A daemon pauses when it has registered. -/
def hasRegistered (stage : Stage) : Bool := stage == .launch

theorem steps_of_not_pausing {pauses : Stage → Bool} (h : pauses i.stage = false) (n : Nat) :
    steps w launch pauses (n + 1) a i = steps w launch pauses n (i.step w launch a).1 (i.step w launch a).2 := by
  rw [steps, if_neg (by simp [h])]

theorem steps_clearMarker (pid n : Nat)
    (h : (steps w launch hasRegistered (n + 4) a { pid, stage := .clearMarker }).2.stage = .launch) :
    ∃ marker, a.marker.unlink.create pid = .ok marker ∧
      (steps w launch hasRegistered (n + 4) a { pid, stage := .clearMarker }).1.marker =
        marker.write pid (Marker.contentOf pid) := by
  rw [steps_of_not_pausing w launch a rfl, steps_of_not_pausing w launch _ rfl] at h ⊢
  simp only [step, moveTo] at h ⊢
  cases hcreate : a.marker.unlink.create pid with
  | error fault =>
    simp only [hcreate] at h
    rw [steps_of_isRest w launch _ rfl] at h
    cases h
  | ok marker =>
    refine ⟨marker, rfl, ?_⟩
    simp only
    rw [steps_of_not_pausing w launch _ rfl]
    simp only [step, moveTo]
    rw [steps, if_pos (show hasRegistered .launch = true from rfl)]

theorem exists_marker_of_launch (pid : Nat)
    (h : (runTo hasRegistered w launch a { pid }).2.stage = .launch) :
    ∃ marker, a.marker.unlink.create pid = .ok marker ∧
      (runTo hasRegistered w launch a { pid }).1.marker = marker.write pid (Marker.contentOf pid) := by
  have hrun : runTo hasRegistered w launch a { pid } = steps w launch hasRegistered 15 a { pid } := rfl
  rw [hrun, steps_of_not_pausing w launch a rfl] at h ⊢
  simp only [step, moveTo] at h ⊢
  cases hcache : a.cache with
  | error fault =>
    simp only [hcache] at h
    rw [steps_of_isRest w launch _ rfl] at h
    cases h
  | ok =>
    simp only [hcache] at h ⊢
    rw [steps_of_not_pausing w launch a rfl] at h ⊢
    simp only [step, moveTo] at h ⊢
    by_cases hreaches : a.endpoint.reaches = true
    · simp only [hreaches, if_true] at h ⊢
      rw [steps_of_not_pausing w launch a rfl] at h ⊢
      simp only [step, moveTo] at h ⊢
      cases hanswer : a.answering? with
      | some n =>
        simp only [hanswer] at h
        rw [steps_of_isRest w launch _ rfl] at h
        cases h
      | none =>
        simp only [hanswer] at h ⊢
        rw [steps_of_not_pausing w launch a rfl] at h ⊢
        exact steps_clearMarker w launch _ pid 7 h
    · simp only [hreaches] at h ⊢
      exact steps_clearMarker w launch a pid 9 h

end Instance

/-- Whether the marker spells the number of another process. -/
def Artifacts.NamesOther (a : Artifacts) (pid : Nat) : Prop :=
  ∃ bs n, a.marker.content? = some bs ∧ Marker.Spells bs n ∧ Marker.minPid ≤ n ∧ n ≤ Marker.maxPid ∧ n ≠ pid

theorem Artifacts.isForeign_iff {a : Artifacts} {pid : Nat} : a.isForeign pid = true ↔ a.NamesOther pid := by
  unfold isForeign NamesOther
  constructor
  · intro h
    split at h
    · next n hn =>
      obtain ⟨bs, hbs, hpid⟩ := Option.bind_eq_some_iff.mp hn
      obtain ⟨hspells, hmin, hmax⟩ := Marker.pid?_eq_some_iff.mp hpid
      exact ⟨bs, n, hbs, hspells, hmin, hmax, bne_iff_ne.mp h⟩
    · cases h
  · rintro ⟨bs, n, hbs, hspells, hmin, hmax, hne⟩
    rw [hbs, Option.bind_some, Marker.pid?_eq_some_iff.mpr ⟨hspells, hmin, hmax⟩]
    exact bne_iff_ne.mpr hne

namespace Instance

/-- The signals that are sent because of a marker, and what a daemon makes of its own: it reads its number there once
it has registered, unless what it has met was sealed, and in the end takes away what does not name another process, if
that can be taken away. -/
structure MindsMarker (w : Workspace) (launch : Tasks) (pid : Nat) : Prop where
  careful : ∀ lives content, Marker.IsCareful lives content
  reads : ∀ a, (runTo hasRegistered w launch a { pid }).2.stage = .launch →
    ((runTo hasRegistered w launch a { pid }).1.marker.content?.bind Marker.pid? = some (pid : Int) ↔
      ¬a.marker.IsSealed)
  spares : ∀ a i ending, i.pid = pid → i.stage = .readMarker ending → a.NamesOther pid →
    runTo (fun _ => false) w launch a i = (a, i.moveTo (.ended ending))
  removes : ∀ a i ending, i.pid = pid → i.stage = .readMarker ending → ¬a.NamesOther pid →
    ∃ marker, runTo (fun _ => false) w launch a i = ({ a with marker }, i.moveTo (.ended ending)) ∧
      (marker = .vacant ∨
        marker = a.marker ∧ (marker = .dir ∨ marker.isFixed = true ∨ ∃ fault, marker = .blocked fault))

variable (w : Workspace) (launch : Tasks)

/-- **Markers lead to no wrong process**, and are minded by the daemon whose number they hold. -/
theorem minds_marker {pid : Nat} (hpid : (pid : Int) ≤ 2 ^ 31 - 1) : MindsMarker w launch pid where
  careful := Marker.isCareful
  reads a h := by
    obtain ⟨marker, hcreate, hmarker⟩ := exists_marker_of_launch w launch a pid h
    obtain ⟨hopen, hsealed⟩ := Slot.content?_of_claim hcreate
    have hown : Marker.pid? (Marker.contentOf pid) = some (pid : Int) := Marker.pid?_contentOf hpid
    rw [hmarker]
    constructor
    · intro hread hsealed'
      rw [hsealed hsealed'] at hread
      cases hread
    · intro hnot
      rw [hopen hnot, Option.bind_some, hown]
  spares a i ending hi hat hother := by
    rw [runTo_readMarker w launch a hat, hi, Artifacts.isForeign_iff.mpr hother]
    rfl
  removes a i ending hi hat hother := by
    refine ⟨a.marker.unlink, ?_, ?_⟩
    · rw [runTo_readMarker w launch a hat, hi, if_neg fun h => hother (Artifacts.isForeign_iff.mp h)]
    · rcases Slot.unlink_cases a.marker with hvacant | ⟨hkept, hwhy⟩
      · exact .inl hvacant
      · refine .inr ⟨hkept, ?_⟩
        rwa [hkept]

/-- A stale marker is written over and taken away in the end; the largest number is asked about, and the next one is
not. -/
theorem minds_marker_of_stale :
    let w : Workspace := ⟨.ofString "/w", .ofString "/tmp"⟩
    let launch : Tasks := { scene := .begin false 0 }
    let a : Artifacts := { endpoint := .vacant, marker := .file (Utf8.ofString " -9\n") Disk.fileMode [] }
    let registered := runTo hasRegistered w launch a { pid := 7 }
    let last := { registered.2 with stage := .readMarker (.stopped none) }
    (7 : Int) ≤ 2 ^ 31 - 1 ∧
      registered.1.marker.content?.bind Marker.pid? = some 7 ∧
      (runTo (fun _ => false) w launch registered.1 last).1.marker = .vacant ∧
      Marker.probe? (some (Utf8.ofString " +2147483647\r\n")) = some ⟨2147483647, 0⟩ ∧
      Marker.sent (fun _ => true) (some (Utf8.ofString "2147483648")) = [] := by
  intro w launch a registered last
  have hpid : ((7 : Nat) : Int) ≤ 2 ^ 31 - 1 := by decide
  have hminds := minds_marker w launch hpid
  have hlaunch : registered.2.stage = .launch := by decide +kernel
  have hopen : ¬a.marker.IsSealed := fun hsealed => Bool.noConfusion hsealed.1
  have hother : ¬registered.1.NamesOther 7 := by
    rw [← Artifacts.isForeign_iff]
    decide +kernel
  have hfile : registered.1.marker = .file (Marker.contentOf 7) Disk.fileMode [] := by decide +kernel
  obtain ⟨marker, hlast, hmarker⟩ := hminds.removes registered.1 last (.stopped none) rfl rfl hother
  have hvacant : marker = .vacant := by
    rcases hmarker with hvacant | ⟨rfl, hkept⟩
    · exact hvacant
    · rw [hfile] at hkept
      rcases hkept with hkept | hkept | ⟨fault, hkept⟩ <;> cases hkept
  have hlargest : Marker.pid? (Utf8.ofString " +2147483647\r\n") = some 2147483647 := by decide +kernel
  have hspells := (Marker.pid?_eq_some_iff.mp hlargest).1
  have hsilent : ¬∃ n, Marker.Names (some (Utf8.ofString "2147483648")) n := by
    rintro ⟨n, hn⟩
    have hprobe : Marker.probe? (some (Utf8.ofString "2147483648")) = none := by decide +kernel
    have hasked : Marker.probe? (some (Utf8.ofString "2147483648")) = some ⟨n, Marker.nullSignal⟩ :=
      Marker.probe?_eq_some_iff.mpr ⟨rfl, hn⟩
    rw [hprobe] at hasked
    cases hasked
  refine ⟨hpid, (hminds.reads a hlaunch).mpr hopen, ?_, ?_, ?_⟩
  · rw [hlast]
    exact hvacant
  · exact ((hminds.careful (fun _ => true) _).asks _ ⟨_, rfl, hspells, by decide, by decide⟩).1
  · exact ((hminds.careful _ _).silent hsilent).1

/-- A marker that may not be taken away stays after its daemon, and one that was sealed does not give its number. -/
theorem marker_outlasts :
    let w : Workspace := ⟨.ofString "/w", .ofString "/tmp"⟩
    let launch : Tasks := { scene := .begin false 0 }
    let kept : Artifacts := { endpoint := .vacant, marker := .fixed (.file (Marker.contentOf 7) Disk.fileMode []) }
    let unread : Artifacts := { endpoint := .vacant, marker := .fixed (.file (Utf8.ofString "x") 0o200 []) }
    let last : Instance := { pid := 7, stage := .readMarker (.stopped none) }
    (¬kept.NamesOther 7 ∧ (runTo (fun _ => false) w launch kept last).1.marker.reaches = true) ∧
      (runTo hasRegistered w launch unread { pid := 7 }).2.stage = .launch ∧
      (runTo hasRegistered w launch unread { pid := 7 }).1.marker.content?.bind Marker.pid? = none := by
  intro w launch kept unread last
  have hother : ¬kept.NamesOther 7 := by
    rw [← Artifacts.isForeign_iff]
    decide +kernel
  refine ⟨⟨hother, ?_⟩, ?_, ?_⟩ <;> decide +kernel

end Instance

end Daemon

end WarmCheck
