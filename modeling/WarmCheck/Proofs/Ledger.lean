import Mathlib.Tactic.Tauto
import WarmCheck.Proofs.Marking
import WarmCheck.Proofs.Overlays

/-!
# What the marker of two daemons holds

One of two daemons has opened its marker. Whatever the other one does, what the marker holds then is told by its steps
about the marker: whether it has taken the file away or emptied it, and whether it has written into it as well.

* `Pair.IsLost`: what the daemon writes is gone; `Pair.Shares`: both write into one file.
* `Pair.IsPreceded`, `Pair.IsFollowed`: the other one has written there earlier, or later.
* `Pair.Ledger`, `Pair.Ledger.step`, `Pair.ledger_run`: what the marker holds after some turns.
* **`Pair.names_iff`**: exactly when the marker names a daemon that has written it.
-/

namespace WarmCheck.Daemon

/-- What has happened to the file that a daemon opens as its marker: whether it can be taken away at all, whether it is
lost, whether the other daemon has opened it too, and whether that one has written into it earlier or later. -/
structure History where
  isFixed : Prop
  lost : Prop
  shared : Prop
  preceded : Prop
  followed : Prop

namespace History

/-- What has happened after a step of the other daemon at a stage, where the daemon has come to a stage. -/
def next (h : History) (other one : Stage) : History :=
  match other with
  | .clearMarker | .releaseMarker _ => { h with lost := h.lost ∨ ¬h.isFixed ∧ one.hasOpened = true }
  | .openMarker =>
    { h with lost := h.lost ∨ one.hasMarked = true, shared := h.shared ∨ one.hasCleared = true }
  | .writeMarker =>
    { h with
      preceded := h.preceded ∨ h.shared ∧ one = .writeMarker
      followed := h.followed ∨ h.shared ∧ one.hasMarked = true }
  | _ => h

/-- What has happened agrees with how far the daemons have come. -/
structure Fits (h : History) (one other : Stage) : Prop where
  fixed : h.isFixed → h.shared
  shared : h.shared → h.isFixed ∨ one.rank < Stage.clearMarker.rank
  lost : h.lost → one.rank < Stage.openMarker.rank
  followed : h.followed → one.rank < Stage.writeMarker.rank
  wrote : h.preceded ∨ h.followed → one.rank < Stage.openMarker.rank ∧ other.rank < Stage.writeMarker.rank

end History

/-- What the marker holds that a daemon has opened, after what has happened to it. -/
structure Ledger (h : History) (marker : Slot) (one other : Instance) : Prop where
  fits : h.Fits one.stage other.stage
  isFixed : h.isFixed ↔ marker.isFixed = true
  isOpen : one.stage.hasOpened = true → marker.IsOpen
  /-- Where the file cannot be taken away, the other daemon has it open as soon as it has opened its marker. -/
  holds : h.isFixed → other.stage = .writeMarker → other.pid ∈ marker.writers
  shared : one.stage.hasCleared = true → other.stage = .writeMarker → (other.pid ∈ marker.writers ↔ h.shared)
  once : ¬(h.preceded ∧ h.followed)
  opened : one.stage = .writeMarker → ¬h.lost → one.pid ∈ marker.writers ∧
    (h.preceded → marker.stored? = some (Marker.contentOf other.pid)) ∧ (¬h.preceded → marker.stored? = some [])
  written : one.stage.hasMarked = true → one.pid ∉ marker.writers
  marked : one.stage.hasMarked = true → ¬h.lost →
    (h.preceded →
      marker.stored? = some (Slot.overlay (Marker.contentOf one.pid) (Marker.contentOf other.pid))) ∧
    (h.followed →
      marker.stored? = some (Slot.overlay (Marker.contentOf other.pid) (Marker.contentOf one.pid))) ∧
    (¬h.preceded → ¬h.followed → marker.stored? = some (Marker.contentOf one.pid))
  lost : one.stage.hasOpened = true → h.lost → one.pid ∉ marker.writers ∧
    ∀ content, marker.stored? = some content → content = [] ∨ content = Marker.contentOf other.pid

namespace Ledger

variable {h : History} {one other : Instance} (w : Workspace) (launch : Tasks) {a : Artifacts}

/-! ## Steps of the daemon -/

/-- A daemon that has not opened its marker, or is ending, has nothing in it. -/
theorem of_not_hasOpened {m : Slot} (hnot : one.stage.hasOpened = false) (hfits : h.Fits one.stage other.stage)
    (hfixed : h.isFixed ↔ m.isFixed = true)
    (hholds : h.isFixed → other.stage = .writeMarker → other.pid ∈ m.writers)
    (hshared : one.stage.hasCleared = true → other.stage = .writeMarker → (other.pid ∈ m.writers ↔ h.shared))
    (honce : ¬(h.preceded ∧ h.followed)) : Ledger h m one other := by
  have hopened : one.stage.hasOpened ≠ true := fun ho => by rw [hnot] at ho; cases ho
  have hmarked : one.stage.hasMarked ≠ true := fun hm => hopened (Stage.hasOpened_of_hasMarked hm)
  have hwriting : one.stage ≠ .writeMarker := fun hat => hopened (by rw [hat]; rfl)
  exact {
    fits := hfits
    isFixed := hfixed
    isOpen := fun ho => absurd ho hopened
    holds := hholds
    shared := hshared
    once := honce
    opened := fun hat => absurd hat hwriting
    written := fun hm => absurd hm hmarked
    marked := fun hm => absurd hm hmarked
    lost := fun ho => absurd ho hopened }

theorem isFixed_step (l : Ledger h a.marker one other) (i : Instance) :
    h.isFixed ↔ (i.step w launch a).1.marker.isFixed = true := by
  rw [Instance.isFixed_marker_step]
  exact l.isFixed

/-- What has been opened cannot be taken away, or it is gone with all that is still written to it. -/
theorem unlink_cases (l : Ledger h a.marker one other) :
    (h.isFixed ∧ a.marker.unlink = a.marker) ∨
      (¬h.isFixed ∧ a.marker.unlink.stored? = none ∧ a.marker.unlink.writers = []) := by
  by_cases hfixed : h.isFixed
  · exact .inl ⟨hfixed, Slot.unlink_of_isFixed (l.isFixed.mp hfixed)⟩
  · refine .inr ⟨hfixed, Slot.stored?_unlink ?_⟩
    exact eq_false_of_ne_true fun h => hfixed (l.isFixed.mpr h)

theorem step_one_of_not_marks (l : Ledger h a.marker one other) (hmarks : one.stage.marks = false)
    (hfits : h.Fits (one.step w launch a).2.stage other.stage) :
    Ledger h (one.step w launch a).1.marker (one.step w launch a).2 other := by
  have hpast : ∀ {gate : Stage}, gate.isGate = true → gate.marks = true →
      Stage.isPast gate (one.step w launch a).2.stage = true → Stage.isPast gate one.stage = true :=
    fun hgate hgated hnext => (Instance.eq_or_isPast w launch a hgate hnext).resolve_left fun hat => by
      rw [hat, hgated] at hmarks
      cases hmarks
  have hopened : (one.step w launch a).2.stage.hasOpened = true → one.stage.hasOpened = true := hpast rfl rfl
  have hmarked : (one.step w launch a).2.stage.hasMarked = true → one.stage.hasMarked = true := hpast rfl rfl
  rw [Instance.marker_step w launch a hmarks]
  exact {
    fits := hfits
    isFixed := l.isFixed
    isOpen := fun hnext => l.isOpen (hopened hnext)
    holds := l.holds
    shared := fun hnext => l.shared (hpast rfl rfl hnext)
    once := l.once
    opened := fun hnext => absurd hnext (Instance.step_ne_writeMarker w launch a hmarks)
    written := fun hnext => by rw [Instance.pid_step]; exact l.written (hmarked hnext)
    marked := fun hnext => by rw [Instance.pid_step]; exact l.marked (hmarked hnext)
    lost := fun hnext => by rw [Instance.pid_step]; exact l.lost (hopened hnext) }

theorem step_one_of_clearMarker (l : Ledger h a.marker one other) (hat : one.stage = .clearMarker)
    (hfits : h.Fits (one.step w launch a).2.stage other.stage) :
    Ledger h (one.step w launch a).1.marker (one.step w launch a).2 other := by
  have hfixed := l.isFixed_step w launch one
  rw [Instance.step_clearMarker w launch a hat] at hfits hfixed ⊢
  -- what the other one had open before is not shared unless it stays
  have hshared : h.shared → h.isFixed := fun hs =>
    (l.fits.shared hs).resolve_right fun hrank => Stage.ne_of_rank_lt hrank hat
  refine of_not_hasOpened rfl hfits hfixed ?_ ?_ l.once <;>
    rcases l.unlink_cases with ⟨hkept, hsame⟩ | ⟨hfree, -, hnone⟩
  · rw [hsame]
    exact l.holds
  · exact fun hkept => absurd hkept hfree
  · rw [hsame]
    exact fun _ hwriting => ⟨fun _ => l.fits.fixed hkept, fun _ => l.holds hkept hwriting⟩
  · rw [hnone]
    exact fun _ _ => ⟨fun hmem => absurd hmem List.not_mem_nil, fun hs => absurd (hshared hs) hfree⟩

/-- The daemon opens its marker. -/
theorem step_one_of_openMarker (l : Ledger h a.marker one other) (hne : other.pid ≠ one.pid)
    (hat : one.stage = .openMarker) (hfits : h.Fits (one.step w launch a).2.stage other.stage) :
    Ledger h (one.step w launch a).1.marker (one.step w launch a).2 other := by
  have hfixed := l.isFixed_step w launch one
  have hlost : ¬h.lost := fun hlost => Stage.ne_of_rank_lt (l.fits.lost hlost) hat
  have hpreceded : ¬h.preceded := fun hp => Stage.ne_of_rank_lt (l.fits.wrote (.inl hp)).1 hat
  rcases Instance.step_openMarker w launch a hat with ⟨t, ht, hstep⟩ | ⟨fault, -, hstep⟩ <;>
    rw [hstep] at hfits hfixed ⊢
  · obtain ⟨hempty, hwriters⟩ := Slot.stored?_of_create ht
    have hother : other.pid ∈ t.writers ↔ other.pid ∈ a.marker.writers := by
      rw [hwriters, List.mem_cons, or_iff_right hne]
    exact {
      fits := hfits
      isFixed := hfixed
      isOpen := fun _ => .inr (Slot.isWritable_of_create ht)
      holds := fun hkept hwriting => hother.mpr (l.holds hkept hwriting)
      shared := fun _ hwriting => hother.trans (l.shared (by rw [hat]; rfl) hwriting)
      once := l.once
      opened := fun _ _ => by
        rw [hwriters]
        exact ⟨List.mem_cons_self, fun hp => absurd hp hpreceded, fun _ => hempty⟩
      written := fun hm => by cases hm
      marked := fun hm => by cases hm
      lost := fun _ h => absurd h hlost }
  · exact of_not_hasOpened rfl hfits hfixed l.holds (fun hc => by cases hc) l.once

/-- The daemon writes its marker. -/
theorem step_one_of_writeMarker (l : Ledger h a.marker one other) (hne : other.pid ≠ one.pid)
    (hat : one.stage = .writeMarker) (hfits : h.Fits (one.step w launch a).2.stage other.stage) :
    Ledger h (one.step w launch a).1.marker (one.step w launch a).2 other := by
  have hfixed := l.isFixed_step w launch one
  rw [Instance.step_writeMarker w launch a hat] at hfits hfixed ⊢
  have hopened : one.stage.hasOpened = true := by rw [hat]; rfl
  have hother : ∀ {content}, other.pid ∈ (a.marker.write one.pid content).writers ↔ other.pid ∈ a.marker.writers := by
    intro content
    rw [Slot.writers_write, List.mem_filter]
    exact and_iff_left (decide_eq_true hne)
  have hnot : ∀ {content}, one.pid ∉ (a.marker.write one.pid content).writers := by
    intro content
    rw [Slot.writers_write, List.mem_filter]
    exact fun hmem => of_decide_eq_true hmem.2 rfl
  have hfollowed : ¬h.followed := fun hf => Stage.ne_of_rank_lt (l.fits.followed hf) hat
  exact {
    fits := hfits
    isFixed := hfixed
    isOpen := fun _ => (l.isOpen hopened).write
    holds := fun hkept hwriting => hother.mpr (l.holds hkept hwriting)
    shared := fun _ hwriting => hother.trans (l.shared (Stage.hasCleared_of_hasOpened hopened) hwriting)
    once := l.once
    opened := fun hnext => by cases hnext
    written := fun _ => hnot
    marked := fun _ hkept => by
      obtain ⟨hmem, hfirst, hempty⟩ := l.opened hat hkept
      refine ⟨fun hp => ?_, fun hf => absurd hf hfollowed, fun hp _ => ?_⟩
      · rw [Slot.stored?_write_of_mem hmem, hfirst hp]
        rfl
      · rw [Slot.stored?_write_of_mem hmem, hempty hp, Option.map_some, Slot.overlay_nil]
        rfl
    lost := fun _ hlost => by
      obtain ⟨hgone, hstored⟩ := l.lost hopened hlost
      rw [Slot.write_of_not_mem hgone]
      exact ⟨hgone, hstored⟩ }

/-- **A step of the daemon** does what the ledger says. -/
theorem step_one (l : Ledger h a.marker one other) (hne : other.pid ≠ one.pid)
    (hfits : h.Fits (one.step w launch a).2.stage other.stage) :
    Ledger h (one.step w launch a).1.marker (one.step w launch a).2 other := by
  cases hmarks : one.stage.marks with
  | false => exact l.step_one_of_not_marks w launch hmarks hfits
  | true =>
    cases hs : one.stage with
    | clearMarker => exact l.step_one_of_clearMarker w launch hs hfits
    | openMarker => exact l.step_one_of_openMarker w launch hne hs hfits
    | writeMarker => exact l.step_one_of_writeMarker w launch hne hs hfits
    | releaseMarker ending =>
      have hfixed := l.isFixed_step w launch one
      rw [Instance.step_releaseMarker w launch a hs] at hfits hfixed ⊢
      refine of_not_hasOpened rfl hfits hfixed (fun hkept => ?_) (fun hc => by cases hc) l.once
      rcases l.unlink_cases with ⟨-, hsame⟩ | ⟨hfree, -, -⟩
      · rw [hsame]
        exact l.holds hkept
      · exact absurd hkept hfree
    | _ => rw [hs] at hmarks; cases hmarks

/-! ## Steps of the other one -/

theorem step_other_of_not_marks (l : Ledger h a.marker one other) (hmarks : other.stage.marks = false)
    (hfits : h.Fits one.stage (other.step w launch a).2.stage) :
    Ledger h (other.step w launch a).1.marker one (other.step w launch a).2 := by
  have hnot := Instance.step_ne_writeMarker w launch a hmarks
  rw [Instance.marker_step w launch a hmarks]
  exact {
    fits := hfits
    isFixed := l.isFixed
    isOpen := l.isOpen
    holds := fun _ hnext => absurd hnext hnot
    shared := fun _ hnext => absurd hnext hnot
    once := l.once
    opened := by rw [Instance.pid_step]; exact l.opened
    written := l.written
    marked := by rw [Instance.pid_step]; exact l.marked
    lost := by rw [Instance.pid_step]; exact l.lost }

/-- The other daemon clears or releases the marker. -/
theorem unlink_other (l : Ledger h a.marker one other) {stage : Stage} (hnext : stage ≠ .writeMarker)
    (hfits : (h.next .clearMarker one.stage).Fits one.stage stage) :
    Ledger (h.next .clearMarker one.stage) a.marker.unlink one (other.moveTo stage) := by
  have hfixed : h.isFixed ↔ a.marker.unlink.isFixed = true := by
    rw [Slot.isFixed_unlink]
    exact l.isFixed
  rcases l.unlink_cases with ⟨hkept, hsame⟩ | ⟨hfree, hnone, hwriters⟩
  · have hlost : (h.next .clearMarker one.stage).lost → h.lost := fun hl => hl.resolve_right fun hl => hl.1 hkept
    rw [hsame] at hfixed ⊢
    exact {
      fits := hfits
      isFixed := hfixed
      isOpen := l.isOpen
      holds := fun _ hat => absurd hat hnext
      shared := fun _ hat => absurd hat hnext
      once := l.once
      opened := fun hat hl => l.opened hat fun hbefore => hl (.inl hbefore)
      written := l.written
      marked := fun hm hl => l.marked hm fun hbefore => hl (.inl hbefore)
      lost := fun ho hl => l.lost ho (hlost hl) }
  · have hlost : one.stage.hasOpened = true → (h.next .clearMarker one.stage).lost := fun ho => .inr ⟨hfree, ho⟩
    exact {
      fits := hfits
      isFixed := hfixed
      isOpen := fun ho => (l.isOpen ho).unlink
      holds := fun _ hat => absurd hat hnext
      shared := fun _ hat => absurd hat hnext
      once := l.once
      opened := fun hat hl => absurd (hlost (by rw [hat]; rfl)) hl
      written := fun _ => by rw [hwriters]; exact List.not_mem_nil
      marked := fun hm hl => absurd (hlost (Stage.hasOpened_of_hasMarked hm)) hl
      lost := fun _ _ => by
        rw [hwriters, hnone]
        exact ⟨List.not_mem_nil, fun _ hcontent => by cases hcontent⟩ }

/-- The other daemon opens its marker. -/
theorem step_other_of_openMarker (l : Ledger h a.marker one other) (hne : other.pid ≠ one.pid)
    (hat : other.stage = .openMarker)
    (hfits : (h.next other.stage one.stage).Fits one.stage (other.step w launch a).2.stage) :
    Ledger (h.next other.stage one.stage) (other.step w launch a).1.marker one (other.step w launch a).2 := by
  have hfixed := l.isFixed_step w launch other
  have hwrote : ¬(h.preceded ∨ h.followed) := fun hw => by
    have hrank := (l.fits.wrote hw).2
    rw [hat] at hrank
    exact absurd hrank (by decide)
  rcases Instance.step_openMarker w launch a hat with ⟨t, ht, hstep⟩ | ⟨fault, hfault, hstep⟩ <;>
    rw [hstep, hat] at hfits <;> rw [hstep] at hfixed ⊢ <;> rw [hat]
  · obtain ⟨hempty, hwriters⟩ := Slot.stored?_of_create ht
    have hheld : other.pid ∈ t.writers := by rw [hwriters]; exact List.mem_cons_self
    have hone : one.pid ∈ t.writers ↔ one.pid ∈ a.marker.writers := by
      rw [hwriters, List.mem_cons, or_iff_right hne.symm]
    exact {
      fits := hfits
      isFixed := hfixed
      isOpen := fun _ => .inr (Slot.isWritable_of_create ht)
      holds := fun _ _ => hheld
      shared := fun hc _ => ⟨fun _ => .inr hc, fun _ => hheld⟩
      once := l.once
      opened := fun hwriting hl => by
        obtain ⟨hmem, -, -⟩ := l.opened hwriting fun hbefore => hl (.inl hbefore)
        exact ⟨hone.mpr hmem, fun hp => absurd (.inl hp) hwrote, fun _ => hempty⟩
      written := fun hm => fun hmem => l.written hm (hone.mp hmem)
      marked := fun hm hl => absurd (.inr hm) hl
      lost := fun ho hl => by
        refine ⟨fun hmem => ?_, fun content hcontent => .inl ?_⟩
        · rcases hl with hl | hm
          · exact (l.lost ho hl).1 (hone.mp hmem)
          · exact l.written hm (hone.mp hmem)
        · rw [hempty] at hcontent
          exact (Option.some.inj hcontent).symm }
  · -- where the daemon has opened its marker, the other one can do so too
    have hnot : one.stage.hasOpened = false := by
      refine eq_false_of_ne_true fun ho => ?_
      obtain ⟨t, ht⟩ := (l.isOpen ho).exists_create other.pid
      rw [hfault] at ht
      cases ht
    exact of_not_hasOpened hnot hfits hfixed (fun _ hnext => by cases hnext) (fun _ hnext => by cases hnext) l.once

/-- The other daemon writes its marker. -/
theorem step_other_of_writeMarker (l : Ledger h a.marker one other) (hne : other.pid ≠ one.pid)
    (hat : other.stage = .writeMarker)
    (hfits : (h.next other.stage one.stage).Fits one.stage (other.step w launch a).2.stage) :
    Ledger (h.next other.stage one.stage) (other.step w launch a).1.marker one (other.step w launch a).2 := by
  have hfixed := l.isFixed_step w launch other
  have hshared : one.stage.hasCleared = true → (other.pid ∈ a.marker.writers ↔ h.shared) := fun hc => l.shared hc hat
  have hwrote : ¬(h.preceded ∨ h.followed) := fun hw => Stage.ne_of_rank_lt (l.fits.wrote hw).2 hat
  rw [hat] at hfits ⊢
  rw [Instance.step_writeMarker w launch a hat] at hfits hfixed ⊢
  have hone : ∀ {content}, one.pid ∈ (a.marker.write other.pid content).writers ↔ one.pid ∈ a.marker.writers := by
    intro content
    rw [Slot.writers_write, List.mem_filter]
    exact and_iff_left (decide_eq_true hne.symm)
  exact {
    fits := hfits
    isFixed := hfixed
    isOpen := fun ho => (l.isOpen ho).write
    holds := fun _ hnext => by cases hnext
    shared := fun _ hnext => by cases hnext
    once := by
      rintro ⟨hp | ⟨-, hwriting⟩, hf | ⟨-, hm⟩⟩
      · exact hwrote (.inl hp)
      · exact hwrote (.inl hp)
      · exact hwrote (.inr hf)
      · rw [hwriting] at hm; cases hm
    opened := fun hwriting hl => by
      obtain ⟨hmem, -, hempty⟩ := l.opened hwriting hl
      have hstored := hempty fun hp => hwrote (.inl hp)
      have hc := hshared (by rw [hwriting]; rfl)
      refine ⟨hone.mpr hmem, fun hp => ?_, fun hp => ?_⟩
      · have hs := (hp.resolve_left fun hp => hwrote (.inl hp)).1
        rw [Slot.stored?_write_of_mem (hc.mpr hs), hstored, Option.map_some, Slot.overlay_nil]
        rfl
      · rw [Slot.write_of_not_mem fun hmem => hp (.inr ⟨hc.mp hmem, hwriting⟩)]
        exact hstored
    written := fun hm hmem => l.written hm (hone.mp hmem)
    marked := fun hm hl => by
      have hstored := (l.marked hm hl).2.2 (fun hp => hwrote (.inl hp)) fun hf => hwrote (.inr hf)
      have hc := hshared (Stage.hasCleared_of_hasOpened (Stage.hasOpened_of_hasMarked hm))
      refine ⟨fun hp => ?_, fun hf => ?_, fun _ hf => ?_⟩
      · have hwriting := (hp.resolve_left fun hp => hwrote (.inl hp)).2
        rw [hwriting] at hm
        cases hm
      · have hs := (hf.resolve_left fun hf => hwrote (.inr hf)).1
        rw [Slot.stored?_write_of_mem (hc.mpr hs), hstored]
        rfl
      · rw [Slot.write_of_not_mem fun hmem => hf (.inr ⟨hc.mp hmem, hm⟩)]
        exact hstored
    lost := fun ho hl => by
      obtain ⟨hgone, hstored⟩ := l.lost ho hl
      refine ⟨fun hmem => hgone (hone.mp hmem), fun content hcontent => ?_⟩
      by_cases hmem : other.pid ∈ a.marker.writers
      · rw [Slot.stored?_write_of_mem hmem] at hcontent
        obtain ⟨old, hold, rfl⟩ := Option.map_eq_some_iff.mp hcontent
        right
        rcases hstored old hold with rfl | rfl
        · exact Slot.overlay_nil _
        · exact Slot.overlay_self _
      · rw [Slot.write_of_not_mem hmem] at hcontent
        exact hstored content hcontent }

/-- **A step of the other daemon** does what the ledger says. -/
theorem step_other (l : Ledger h a.marker one other) (hne : other.pid ≠ one.pid)
    (hfits : (h.next other.stage one.stage).Fits one.stage (other.step w launch a).2.stage) :
    Ledger (h.next other.stage one.stage) (other.step w launch a).1.marker one (other.step w launch a).2 := by
  cases hs : other.stage with
  | openMarker => rw [← hs]; exact l.step_other_of_openMarker w launch hne hs hfits
  | writeMarker => rw [← hs]; exact l.step_other_of_writeMarker w launch hne hs hfits
  | clearMarker =>
    rw [hs, Instance.step_clearMarker w launch a hs] at hfits
    rw [Instance.step_clearMarker w launch a hs]
    exact l.unlink_other Stage.noConfusion hfits
  | releaseMarker ending =>
    rw [hs, Instance.step_releaseMarker w launch a hs] at hfits
    rw [Instance.step_releaseMarker w launch a hs]
    exact l.unlink_other Stage.noConfusion hfits
  | _ =>
    rw [hs] at hfits
    exact l.step_other_of_not_marks w launch (by rw [hs]; rfl) hfits

end Ledger

namespace Pair

/-! ## What has happened to the marker -/

section History

variable (w : Workspace) (launch : Side → Tasks) (p : Pair) (s : Side) (turns : List Side)

/-- The file that a daemon has opened as its marker is gone, because the other one has cleared or released the marker
since, or it has been emptied by the other one after it was written. -/
def IsLost : Prop :=
  p.Meets w launch s.other turns .openMarker Stage.hasMarked ∨
    p.artifacts.marker.isFixed = false ∧
      (p.Meets w launch s.other turns .clearMarker Stage.hasOpened ∨
        ∃ ending, p.Meets w launch s.other turns (.releaseMarker ending) Stage.hasOpened)

/-- The other daemon opens the same file as its own marker: it does so after the daemon has cleared the marker, or
nobody can take the file away. -/
def Shares : Prop :=
  p.artifacts.marker.isFixed = true ∨ p.Meets w launch s.other turns .openMarker Stage.hasCleared

/-- The other daemon has written into the file that the daemon has opened and not written yet. -/
def IsPreceded : Prop :=
  p.Shares w launch s turns ∧ p.Meets w launch s.other turns .writeMarker (· == .writeMarker)

/-- The other daemon has written into the file after the daemon. -/
def IsFollowed : Prop := p.Shares w launch s turns ∧ p.Meets w launch s.other turns .writeMarker Stage.hasMarked

/-- All this. -/
def history : History where
  isFixed := p.artifacts.marker.isFixed = true
  lost := p.IsLost w launch s turns
  shared := p.Shares w launch s turns
  preceded := p.IsPreceded w launch s turns
  followed := p.IsFollowed w launch s turns

end History

section

variable {w : Workspace} {launch : Side → Tasks} {p : Pair} {s : Side} {turns : List Side}

theorem history_self_concat : p.history w launch s (turns ++ [s]) = p.history w launch s turns := by
  simp only [history, IsLost, Shares, IsPreceded, IsFollowed, meets_other_concat]

/-- The meetings of the other daemon after one turn more of its own. -/
theorem meets_other_other_concat {stage : Stage} {kind : Stage → Bool} :
    p.Meets w launch s.other (turns ++ [s.other]) stage kind ↔
      p.Meets w launch s.other turns stage kind ∨ ((p.run w launch turns).side s.other).stage = stage ∧
        kind ((p.run w launch turns).side s).stage = true := by
  rw [meets_concat, Side.other_other]
  simp only [true_and]

theorem fits_history : (p.history w launch s turns).Fits ((p.run w launch turns).side s).stage
    ((p.run w launch turns).side s.other).stage := by
  have hother : ∀ {stage : Stage} {kind : Stage → Bool} {n : Nat}, p.Meets w launch s.other turns stage kind →
      (∀ k, kind k = true → k.rank < n) → ((p.run w launch turns).side s).stage.rank < n := by
    intro stage kind n hmeets hkind
    have hrank := hmeets.rank_other hkind
    rwa [Side.other_other] at hrank
  have hfirst : ∀ k : Stage, (k == .writeMarker) = true → k.rank < Stage.openMarker.rank := by
    intro k hk
    rw [eq_of_beq hk]
    decide
  refine ⟨.inl, ?shared, ?lost, ?followed, ?wrote⟩
  case shared =>
    exact fun h => h.imp_right fun hmeets => hother hmeets fun _ => Stage.rank_of_hasCleared
  case lost =>
    rintro (hmeets | ⟨-, hmeets | ⟨ending, hmeets⟩⟩)
    · exact Nat.lt_trans (hother hmeets fun _ => Stage.rank_of_hasMarked) (by decide)
    · exact hother hmeets fun _ => Stage.rank_of_hasOpened
    · exact hother hmeets fun _ => Stage.rank_of_hasOpened
  case followed => exact fun h => hother h.2 fun _ => Stage.rank_of_hasMarked
  case wrote =>
    rintro (h | h)
    · exact ⟨hother h.2 hfirst, h.2.rank_self rfl⟩
    · exact ⟨Nat.lt_trans (hother h.2 fun _ => Stage.rank_of_hasMarked) (by decide), h.2.rank_self rfl⟩

theorem history_other_concat : p.history w launch s (turns ++ [s.other]) =
    (p.history w launch s turns).next ((p.run w launch turns).side s.other).stage
      ((p.run w launch turns).side s).stage := by
  have hwrote : ∀ kind : Stage → Bool, ((p.run w launch turns).side s.other).stage = .openMarker →
      ¬p.Meets w launch s.other turns .writeMarker kind := by
    intro kind hat hmeets
    have hrank := hmeets.rank_self rfl
    rw [hat] at hrank
    exact absurd hrank (by decide)
  cases hs : ((p.run w launch turns).side s.other).stage with
  | openMarker =>
    simp only [history, IsLost, Shares, IsPreceded, IsFollowed, meets_other_other_concat, hs, History.next, hwrote _ hs,
      reduceCtorEq, true_and, false_and, and_false, or_false, or_self, and_self, and_true, beq_iff_eq,
      History.mk.injEq, eq_iff_iff]
    exact ⟨or_right_comm, or_assoc.symm⟩
  | clearMarker =>
    simp only [history, IsLost, Shares, IsPreceded, IsFollowed, meets_other_other_concat, hs, History.next,
      reduceCtorEq, true_and, false_and, or_false, and_self, and_true, beq_iff_eq, Bool.not_eq_true,
      History.mk.injEq, eq_iff_iff]
    tauto
  | writeMarker =>
    simp only [history, IsLost, Shares, IsPreceded, IsFollowed, meets_other_other_concat, hs, History.next,
      reduceCtorEq, true_and, false_and, or_false, beq_iff_eq, History.mk.injEq, eq_iff_iff]
    tauto
  | releaseMarker =>
    simp only [history, IsLost, Shares, IsPreceded, IsFollowed, meets_other_other_concat, hs, History.next,
      Stage.releaseMarker.injEq, exists_or, ↓existsAndEq, reduceCtorEq, true_and, false_and, or_false, and_self,
      and_true, beq_iff_eq, Bool.not_eq_true, History.mk.injEq, eq_iff_iff]
    tauto
  | _ => simp [history, IsLost, Shares, IsPreceded, IsFollowed, meets_other_other_concat, hs, History.next]

/-- **The ledger of a daemon** that has still to clear the marker, along the turns of both. -/
theorem ledger_run (hne : (p.side s.other).pid ≠ (p.side s).pid) (hbefore : (p.side s).stage.hasCleared = false)
    (hother : (p.side s.other).stage ≠ .writeMarker) (turns : List Side) :
    Ledger (p.history w launch s turns) (p.run w launch turns).artifacts.marker ((p.run w launch turns).side s)
      ((p.run w launch turns).side s.other) := by
  induction turns using List.reverseRecOn with
  | nil =>
    have hnot : (p.side s).stage.hasOpened = false := eq_false_of_ne_true fun ho => by
      rw [Stage.hasCleared_of_hasOpened ho] at hbefore
      cases hbefore
    refine Ledger.of_not_hasOpened hnot fits_history Iff.rfl (fun _ hat => absurd hat hother) (fun hc => ?_) ?_
    · rw [show ((p.run w launch []).side s).stage = (p.side s).stage from rfl, hbefore] at hc
      cases hc
    · exact fun h => not_meets_nil h.1.2
  | append_singleton turns t ih =>
    have hpids : ((p.run w launch turns).side s.other).pid ≠ ((p.run w launch turns).side s).pid := by
      rw [pid_side_run, pid_side_run]
      exact hne
    have hfits := @fits_history w launch p s (turns ++ [t])
    rw [run_concat] at hfits ⊢
    rcases s.eq_or_eq_other t with rfl | rfl
    · rw [history_self_concat, side_step, other_step] at hfits
      rw [history_self_concat, side_step, other_step, artifacts_step]
      exact ih.step_one w (launch t) hpids hfits
    · rw [history_other_concat, side_step, side_step_other] at hfits
      rw [history_other_concat, side_step, side_step_other, artifacts_step]
      exact ih.step_other w (launch s.other) hpids hfits

/-- A daemon whose file is lost is not named: what it has written is gone, or another file is there. -/
theorem IsLost.not_names (hne : (p.side s.other).pid ≠ (p.side s).pid)
    (hbefore : (p.side s).stage.hasCleared = false) (hother : (p.side s.other).stage ≠ .writeMarker)
    (hmarked : ((p.run w launch turns).side s).stage.hasMarked = true) (hlost : p.IsLost w launch s turns) :
    (p.run w launch turns).artifacts.marker.stored?.bind Marker.pid? ≠ some ((p.side s).pid : Int) := by
  have l : Ledger (p.history w launch s turns) _ _ _ := ledger_run hne hbefore hother turns
  intro hnames
  obtain ⟨content, hstored, hread⟩ := Option.bind_eq_some_iff.mp hnames
  rcases (l.lost (Stage.hasOpened_of_hasMarked hmarked) hlost).2 content hstored with rfl | rfl
  · rw [show Marker.pid? [] = none by decide] at hread
    cases hread
  · rw [pid_side_run] at hread
    exact hne (Marker.eq_of_pid?_contentOf hread)

/-- A daemon whose file is not lost, and into whose file nobody else has written, is named. -/
theorem names_of_not_isLost (hne : (p.side s.other).pid ≠ (p.side s).pid)
    (hpid : ((p.side s).pid : Int) ≤ Marker.maxPid) (hbefore : (p.side s).stage.hasCleared = false)
    (hother : (p.side s.other).stage ≠ .writeMarker)
    (hmarked : ((p.run w launch turns).side s).stage.hasMarked = true) (hlost : ¬p.IsLost w launch s turns)
    (hp : ¬p.IsPreceded w launch s turns) (hf : ¬p.IsFollowed w launch s turns) :
    (p.run w launch turns).artifacts.marker.stored?.bind Marker.pid? = some ((p.side s).pid : Int) := by
  have l : Ledger (p.history w launch s turns) _ _ _ := ledger_run hne hbefore hother turns
  rw [(l.marked hmarked hlost).2.2 hp hf, pid_side_run, Option.bind_some, Marker.pid?_contentOf hpid]

/-- **Whom the marker names** after a daemon has written it: the daemon, if its file is not lost, if no longer number
has been written there before, and if what has been written over its own number is the beginning of this. -/
theorem names_iff (hne : (p.side s.other).pid ≠ (p.side s).pid) (hpos : 0 < (p.side s).pid)
    (hpid : ∀ t, ((p.side t).pid : Int) ≤ Marker.maxPid) (hbefore : (p.side s).stage.hasCleared = false)
    (hother : (p.side s.other).stage ≠ .writeMarker)
    (hmarked : ((p.run w launch turns).side s).stage.hasMarked = true) :
    (p.run w launch turns).artifacts.marker.stored?.bind Marker.pid? = some ((p.side s).pid : Int) ↔
      ¬p.IsLost w launch s turns ∧
        (p.IsPreceded w launch s turns →
          (Marker.contentOf (p.side s.other).pid).length ≤ (Marker.contentOf (p.side s).pid).length) ∧
        (p.IsFollowed w launch s turns →
          Marker.contentOf (p.side s.other).pid <+: Marker.contentOf (p.side s).pid) := by
  have l : Ledger (p.history w launch s turns) _ _ _ := ledger_run hne hbefore hother turns
  by_cases hlost : p.IsLost w launch s turns
  · exact iff_of_false (hlost.not_names hne hbefore hother hmarked) fun h => h.1 hlost
  · obtain ⟨hfirst, hlast, -⟩ := l.marked hmarked hlost
    rw [pid_side_run, pid_side_run] at hfirst hlast
    rw [and_iff_right hlost]
    by_cases hp : p.IsPreceded w launch s turns
    · have hf : ¬p.IsFollowed w launch s turns := fun hf => l.once ⟨hp, hf⟩
      rw [hfirst hp, Option.bind_some, Marker.pid?_overlay_later (hpid s) hpos]
      exact ⟨fun hle => ⟨fun _ => hle, fun hf' => absurd hf' hf⟩, fun h => h.1 hp⟩
    · by_cases hf : p.IsFollowed w launch s turns
      · rw [hlast hf, Option.bind_some, Marker.pid?_overlay_earlier (hpid s) (hpid s.other) hne]
        exact ⟨fun hprefix => ⟨fun hp' => absurd hp' hp, fun _ => hprefix⟩, fun h => h.2 hf⟩
      · exact iff_of_true (names_of_not_isLost hne (hpid s) hbefore hother hmarked hlost hp hf)
          ⟨fun hp' => absurd hp' hp, fun hf' => absurd hf' hf⟩

end

end Pair

end WarmCheck.Daemon
