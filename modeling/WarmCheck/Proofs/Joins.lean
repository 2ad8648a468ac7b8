import Mathlib.Data.List.Infix
import WarmCheck.Path

/-!
# Joined paths

A path is spelled by its beginning and the parts after that. Where a path is seen from another one, its parts come
after those of the other one, which keeps its beginning, however many slashes there are between them.

* `Path.rest`, `Path.components_eq`: the parts of a path after its beginning.
* `Path.exists_join`: how a joined path is written.
* **`Path.components_join`**, `Path.rest_join`, `Path.fileName?_join`: what a joined path means.
-/

namespace WarmCheck

namespace Path

/-- The components that stand for a beginning. -/
def Head.components : Head → List Component
  | root => [.root]
  | here => [.here]
  | none => []

/-- The parts of a path that matter, without its beginning. -/
def rest (p : Path) : List Component := ((List.splitOn slash p.bytes).filter (!isIdle ·)).map componentOf

variable {p q : Path}

/-! ## Beginnings -/

theorem filter_parts (p : Path) :
    p.parts.2.filter (!isIdle ·) = (List.splitOn slash p.bytes).filter (!isIdle ·) := by
  obtain ⟨bs⟩ := p
  rw [parts.eq_def]
  split
  · next h => rw [show bs = _ from h]; rfl
  · next h => rw [show bs = _ from h]; rfl
  · next h => rw [show bs = _ from h]; rfl
  · rfl

theorem components_eq (p : Path) : p.components = p.parts.1.components ++ p.rest := by
  rw [components, rest, ← filter_parts]
  obtain ⟨head, segs⟩ := p.parts
  cases head <;> rfl

theorem parts_eq_none_iff :
    p.parts.1 = .none ↔ ¬[slash] <+: p.bytes ∧ p.bytes ≠ [dot] ∧ ¬[dot, slash] <+: p.bytes := by
  obtain ⟨bs⟩ := p
  rw [parts.eq_def]
  split
  · next h => rw [show bs = _ from h]; simp [slash]
  · next h => rw [show bs = _ from h]; simp [dot]
  · next h => rw [show bs = _ from h]; simp [dot, slash]
  · next hroot hhere hthere =>
    refine iff_of_true rfl ⟨?_, hhere, ?_⟩
    · rintro ⟨t, rfl⟩
      exact hroot t rfl
    · rintro ⟨t, rfl⟩
      exact hthere t rfl

theorem isAbsolute_iff : p.isAbsolute = true ↔ p.parts.1 = .root := by
  obtain ⟨bs⟩ := p
  rw [parts.eq_def]
  split
  · next h => rw [show bs = _ from h]; exact iff_of_true rfl rfl
  · next h => rw [show bs = _ from h]; exact iff_of_false (by decide) (by decide)
  · next h => rw [show bs = _ from h]; exact iff_of_false nofun nofun
  · next hroot _ _ =>
    refine iff_of_false (fun h => ?_) Head.noConfusion
    cases bs with
    | nil => cases h
    | cons b bs => exact hroot bs (congrArg (· :: bs) (Option.some.inj (eq_of_beq h)))

/-- A slash that follows something does not change how a path begins, nor does what comes after it. -/
theorem parts_append {init : Bytes} (h : init ≠ []) (bs : Bytes) :
    (Path.mk (init ++ slash :: bs)).parts.1 = (Path.mk init).parts.1 := by
  match init with
  | [b] =>
    by_cases hslash : b = 47
    · subst hslash; rfl
    by_cases hdot : b = 46
    · subst hdot; rfl
    rw [parts_eq_none_iff.mpr, parts_eq_none_iff.mpr]
    all_goals simp [slash, dot, hdot, Ne.symm hslash, Ne.symm hdot]
  | b :: c :: init =>
    by_cases hslash : b = 47
    · subst hslash; rfl
    by_cases hdot : b = 46 ∧ c = 47
    · obtain ⟨rfl, rfl⟩ := hdot; rfl
    rw [parts_eq_none_iff.mpr, parts_eq_none_iff.mpr]
    all_goals
      simp only [slash, dot, List.cons_append, List.cons_prefix_cons, List.nil_prefix]
      grind

/-! ## Joining -/

/-- A slash comes before a path that is seen from another one, if need be the one at the end of the other path. -/
theorem exists_join (hp : p.bytes ≠ []) (hq : q.isAbsolute = false) :
    ∃ init, p.join q = ⟨init ++ slash :: q.bytes⟩ ∧ (p = ⟨init⟩ ∨ p = ⟨init ++ [slash]⟩) := by
  obtain ⟨bs⟩ := p
  obtain ⟨init, b, rfl⟩ := (List.eq_nil_or_concat' bs).resolve_left hp
  rw [join, if_neg (by rw [hq]; exact Bool.false_ne_true), List.getLast?_concat]
  show ∃ init', (if b = slash then _ else _) = _ ∧ _
  by_cases hb : b = slash
  · subst hb
    exact ⟨init, by simp, .inr rfl⟩
  · exact ⟨init ++ [b], if_neg hb, .inl rfl⟩

theorem rest_append (init bs : Bytes) :
    (Path.mk (init ++ slash :: bs)).rest = (Path.mk init).rest ++ (Path.mk bs).rest := by
  rw [rest, List.splitOn_append_cons_self, List.filter_append, List.map_append]
  rfl

theorem rest_join (hp : p.bytes ≠ []) (hq : q.isAbsolute = false) : (p.join q).rest = p.rest ++ q.rest := by
  obtain ⟨init, hjoin, rfl | rfl⟩ := exists_join hp hq
  · rw [hjoin, rest_append]
  · rw [hjoin, rest_append, rest_append, List.append_assoc]
    rfl

theorem parts_join (hp : p.bytes ≠ []) (hq : q.isAbsolute = false) : (p.join q).parts.1 = p.parts.1 := by
  obtain ⟨init, hjoin, rfl | rfl⟩ := exists_join hp hq
  · rw [hjoin, parts_append hp]
  · rw [hjoin]
    cases init with
    | nil => rfl
    | cons b init => rw [parts_append (List.cons_ne_nil b init), parts_append (List.cons_ne_nil b init)]

theorem isAbsolute_join (hp : p.bytes ≠ []) (hq : q.isAbsolute = false) : (p.join q).isAbsolute = p.isAbsolute := by
  rw [Bool.eq_iff_iff, isAbsolute_iff, isAbsolute_iff, parts_join hp hq]

/-- **The parts of a joined path** are those of the one and, without a beginning, those of the other. -/
theorem components_join (hp : p.bytes ≠ []) (hq : q.isAbsolute = false) :
    (p.join q).components = p.components ++ q.rest := by
  rw [components_eq, parts_join hp hq, rest_join hp hq, components_eq p, List.append_assoc]

theorem ne_nil_of_isAbsolute (h : p.isAbsolute = true) : p.bytes ≠ [] := fun hnil => by
  rw [isAbsolute, hnil] at h
  cases h

theorem components_of_isAbsolute (h : p.isAbsolute = true) : p.components = .root :: p.rest := by
  rw [components_eq, isAbsolute_iff.mp h]
  rfl

theorem fileName?_join (hp : p.bytes ≠ []) (hq : q.isAbsolute = false) (hrest : q.rest ≠ []) :
    (p.join q).fileName? = q.fileName? := by
  rw [fileName?, fileName?, components_join hp hq, components_eq q, List.getLast?_append_of_ne_nil _ hrest,
    List.getLast?_append_of_ne_nil _ hrest]

end Path

end WarmCheck
