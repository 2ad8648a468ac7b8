import WarmCheck.Proofs.Decimal
import WarmCheck.Proofs.Pair

/-!
# What daemons do to a marker

A daemon clears the marker, opens an empty one and writes it; at the end it releases the marker unless it has read the
name of another one there. A file that has been taken away is still written to by those that have it open, and nobody
reads it.

* `Slot.stored?`, `Slot.writers`: the content of the file, and who has it open.
* `Slot.isFixed`: whether what is there can be taken away; `Slot.IsOpen`: whether a file can be opened, now and later.
* `Instance.marker_step`: the steps that leave the marker alone; `Instance.step_openMarker`: the opening.
-/

namespace WarmCheck.Daemon

namespace Slot

/-- The content of the file that the path leads to, whoever may read it. -/
def stored? : Slot → Option Bytes
  | file content .. => some content
  | link target | fixed target => target.stored?
  | vacant | blocked _ | bound .. | socket .. | dir => none

/-- The processes that have the file open to which the path leads. -/
def writers : Slot → List Nat
  | file _ _ writers => writers
  | link target | fixed target => target.writers
  | vacant | blocked _ | bound .. | socket .. | dir => []

/-- Whether what is there cannot be taken away. -/
def isFixed : Slot → Bool
  | fixed _ => true
  | _ => false

/-- Whether the path leads to a file that may be written. -/
def isWritable : Slot → Bool
  | file _ mode _ => Disk.may 2 mode
  | link target | fixed target => target.isWritable
  | vacant | blocked _ | bound .. | socket .. | dir => false

variable {s t : Slot} {pid : Nat} {content : Bytes}

theorem stored?_of_content? (h : s.content? = some content) : s.stored? = some content := by
  induction s with
  | file old mode writers =>
    rw [content?] at h
    split at h
    · exact h
    · cases h
  | link target ih | fixed target ih => exact ih h
  | vacant | dir | bound | socket | blocked => cases h

/-! ## Opening -/

theorem map_eq_ok {f : Slot → Slot} {e : Except Fault Slot} (h : e.map f = .ok t) : ∃ u, e = .ok u ∧ t = f u := by
  cases e with
  | error fault => cases h
  | ok u => cases h; exact ⟨u, rfl, rfl⟩

/-- An opened file is empty. -/
theorem stored?_of_create (h : s.create pid = .ok t) : t.stored? = some [] ∧ t.writers = pid :: s.writers := by
  fun_induction create pid s generalizing t with
  | case1 | case2 => cases h; exact ⟨rfl, rfl⟩
  | case3 | case4 | case5 | case6 | case8 | case10 => cases h
  | case7 target ih | case9 target _ ih =>
    obtain ⟨u, hu, rfl⟩ := map_eq_ok h
    simpa only [stored?, writers] using ih hu

theorem isWritable_of_create (h : s.create pid = .ok t) : t.isWritable = true := by
  fun_induction create pid s generalizing t with
  | case1 =>
    cases h
    show Disk.may 2 Disk.fileMode = true
    decide
  | case2 _ mode _ hm => cases h; exact hm
  | case3 | case4 | case5 | case6 | case8 | case10 => cases h
  | case7 target ih | case9 target _ ih =>
    obtain ⟨u, hu, rfl⟩ := map_eq_ok h
    simpa only [isWritable] using ih hu

theorem exists_create_of_isWritable (h : s.isWritable = true) (pid : Nat) : ∃ t, s.create pid = .ok t := by
  fun_induction create pid s with
  | case2 => exact ⟨_, rfl⟩
  | case1 | case4 | case5 | case6 | case8 | case10 => cases h
  | case3 mode _ _ hm => exact absurd h hm
  | case7 target ih | case9 target _ ih =>
    obtain ⟨t, ht⟩ := ih h
    exact ⟨_, by rw [ht]; rfl⟩

theorem isFixed_of_create (h : s.create pid = .ok t) : t.isFixed = s.isFixed := by
  fun_induction create pid s with
  | case1 | case2 => cases h; rfl
  | case3 | case4 | case5 | case6 | case8 | case10 => cases h
  | case7 | case9 =>
    obtain ⟨u, -, rfl⟩ := map_eq_ok h
    rfl

/-! ## Writing -/

theorem overlay_nil (content : Bytes) : overlay content [] = content := by
  rw [overlay, List.drop_nil, List.append_nil]

theorem overlay_self (content : Bytes) : overlay content content = content := by
  rw [overlay, List.drop_length, List.append_nil]

theorem write_of_not_mem (h : pid ∉ s.writers) : s.write pid content = s := by
  induction s with
  | file old mode writers => exact if_neg h
  | link target ih | fixed target ih => rw [write, ih h]
  | vacant | dir | bound | socket | blocked => rfl

theorem stored?_write_of_mem (h : pid ∈ s.writers) :
    (s.write pid content).stored? = s.stored?.map (overlay content) := by
  induction s with
  | file old mode writers =>
    have hw : (file old mode writers).write pid content = file (overlay content old) mode (writers.filter (· ≠ pid)) :=
      if_pos h
    rw [hw]
    rfl
  | link target ih | fixed target ih => exact ih h
  | vacant | dir | bound | socket | blocked => cases h

theorem writers_write (s : Slot) : (s.write pid content).writers = s.writers.filter (· ≠ pid) := by
  by_cases h : pid ∈ s.writers
  · induction s with
    | file old mode writers =>
      have hw : (file old mode writers).write pid content =
          file (overlay content old) mode (writers.filter (· ≠ pid)) := if_pos h
      rw [hw]
      rfl
    | link target ih | fixed target ih => exact ih h
    | vacant | dir | bound | socket | blocked => cases h
  · rw [write_of_not_mem h, List.filter_eq_self.mpr]
    exact fun n hn => decide_eq_true fun he => h (he ▸ hn)

theorem isFixed_write (s : Slot) : (s.write pid content).isFixed = s.isFixed := by
  cases s with
  | file old mode writers => unfold write; split <;> rfl
  | _ => rfl

theorem isWritable_write (s : Slot) : (s.write pid content).isWritable = s.isWritable := by
  induction s with
  | file old mode writers => unfold write; split <;> rfl
  | link target ih | fixed target ih => exact ih
  | vacant | dir | bound | socket | blocked => rfl

theorem unlink_of_isFixed (h : s.isFixed = true) : s.unlink = s := by
  cases s with
  | fixed entry => rfl
  | _ => cases h

theorem isFixed_unlink (s : Slot) : s.unlink.isFixed = s.isFixed := by cases s <;> rfl

/-- What can be taken away is gone, with all that is still written to it. -/
theorem stored?_unlink (h : s.isFixed = false) : s.unlink.stored? = none ∧ s.unlink.writers = [] := by
  cases s with
  | fixed entry => cases h
  | _ => exact ⟨rfl, rfl⟩

/-- A file can be opened, now and after what is there has been taken away. -/
def IsOpen (s : Slot) : Prop := s = .vacant ∨ s.isWritable = true

theorem IsOpen.exists_create (h : s.IsOpen) (pid : Nat) : ∃ t, s.create pid = .ok t := by
  rcases h with rfl | hwritable
  · exact ⟨_, rfl⟩
  · exact exists_create_of_isWritable hwritable pid

theorem IsOpen.unlink (h : s.IsOpen) : s.unlink.IsOpen := by
  rcases h with rfl | hwritable
  · exact .inl rfl
  · cases s with
    | file | link => exact .inl rfl
    | fixed => exact .inr hwritable
    | _ => cases hwritable

theorem IsOpen.write (h : s.IsOpen) : (s.write pid content).IsOpen := by
  rcases h with rfl | hwritable
  · exact .inl rfl
  · exact .inr ((isWritable_write s).trans hwritable)

end Slot

/-! ## Steps -/

namespace Stage

/-- Whether the step at this stage is about the marker. -/
def marks : Stage → Bool
  | clearMarker | openMarker | writeMarker | releaseMarker _ => true
  | _ => false

theorem marks_of_hasMarked {s : Stage} (h : s.hasMarked = true) : s.marks = false := by
  obtain ⟨hup, hrank⟩ := isPast_iff.mp h
  cases s with
  | clearMarker | openMarker | writeMarker => exact absurd hrank (by decide)
  | releaseMarker => cases hup
  | _ => rfl

/-- Whether a daemon is over. -/
def isOver : Stage → Bool
  | ended _ => true
  | _ => false

end Stage

namespace Instance

variable (w : Workspace) (launch : Tasks) (a : Artifacts) {i : Instance}

theorem step_of_isOver (h : i.stage.isOver = true) : i.step w launch a = (a, i) := by
  refine step_of_isRest ?_ w launch a
  cases hs : i.stage with
  | ended ending => rfl
  | _ => rw [hs] at h; cases h

theorem marker_step (h : i.stage.marks = false) : (i.step w launch a).1.marker = a.marker := by
  obtain ⟨pid, stage, tasks, isListening⟩ := i
  cases stage with
  | clearMarker | openMarker | writeMarker | releaseMarker => cases h
  | prepare | connect | protect =>
    simp only [step]
    split <;> rfl
  | bind =>
    simp only [step]
    split
    · next b hb =>
      obtain ⟨-, -, rfl⟩ := Artifacts.of_bind hb
      rfl
    · rfl
  | _ => rfl

/-- A daemon comes to write its marker only by opening it. -/
theorem step_ne_writeMarker (h : i.stage.marks = false) : (i.step w launch a).2.stage ≠ .writeMarker := by
  intro hat
  rw [eq_of_step w launch a (show Stage.openMarker.isGate = true from rfl) rfl rfl rfl hat] at h
  cases h

theorem step_clearMarker (hat : i.stage = .clearMarker) :
    i.step w launch a = ({ a with marker := a.marker.unlink }, i.moveTo .openMarker) := by
  simp only [step, hat]

theorem step_writeMarker (hat : i.stage = .writeMarker) :
    i.step w launch a =
      ({ a with marker := a.marker.write i.pid (Marker.contentOf i.pid) }, i.moveTo .launch) := by
  simp only [step, hat]

theorem step_releaseMarker {ending : Ending} (hat : i.stage = .releaseMarker ending) :
    i.step w launch a = ({ a with marker := a.marker.unlink }, i.moveTo (.ended ending)) := by
  simp only [step, hat]

/-- A daemon opens its marker, or gives up at once. -/
theorem step_openMarker (hat : i.stage = .openMarker) :
    (∃ t, a.marker.create i.pid = .ok t ∧ i.step w launch a = ({ a with marker := t }, i.moveTo .writeMarker)) ∨
      ∃ fault, a.marker.create i.pid = .error fault ∧
        i.step w launch a = (a, i.moveTo (.ended (.refused (.io w.marker fault)))) := by
  simp only [step, hat]
  cases a.marker.create i.pid with
  | ok t => exact .inl ⟨t, rfl, rfl⟩
  | error fault => exact .inr ⟨fault, rfl, rfl⟩

theorem isFixed_marker_step (i : Instance) : (i.step w launch a).1.marker.isFixed = a.marker.isFixed := by
  cases hmarks : i.stage.marks with
  | false => rw [marker_step w launch a hmarks]
  | true =>
    cases hs : i.stage with
    | clearMarker => rw [step_clearMarker w launch a hs, Slot.isFixed_unlink]
    | writeMarker => rw [step_writeMarker w launch a hs, Slot.isFixed_write]
    | releaseMarker => rw [step_releaseMarker w launch a hs, Slot.isFixed_unlink]
    | openMarker =>
      rcases step_openMarker w launch a hs with ⟨t, ht, hstep⟩ | ⟨fault, -, hstep⟩
      · rw [hstep]
        exact Slot.isFixed_of_create ht
      · rw [hstep]
    | _ => rw [hs] at hmarks; cases hmarks

theorem isOpen_marker_step (h : a.marker.IsOpen) (i : Instance) : (i.step w launch a).1.marker.IsOpen := by
  cases hmarks : i.stage.marks with
  | false => rwa [marker_step w launch a hmarks]
  | true =>
    cases hs : i.stage with
    | clearMarker => rw [step_clearMarker w launch a hs]; exact h.unlink
    | writeMarker => rw [step_writeMarker w launch a hs]; exact h.write
    | releaseMarker => rw [step_releaseMarker w launch a hs]; exact h.unlink
    | openMarker =>
      rcases step_openMarker w launch a hs with ⟨t, ht, hstep⟩ | ⟨fault, -, hstep⟩
      · rw [hstep]
        exact .inr (Slot.isWritable_of_create ht)
      · rwa [hstep]
    | _ => rw [hs] at hmarks; cases hmarks

end Instance

namespace Pair

variable {w : Workspace} {launch : Side → Tasks}

theorem isFixed_run (p : Pair) (turns : List Side) :
    (p.run w launch turns).artifacts.marker.isFixed = p.artifacts.marker.isFixed := by
  refine run_preserves (P := fun q => q.artifacts.marker.isFixed = p.artifacts.marker.isFixed) ?_ rfl turns
  intro q t h
  rw [artifacts_step, Instance.isFixed_marker_step, h]

end Pair

end WarmCheck.Daemon
