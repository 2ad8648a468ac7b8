import WarmCheck.Proofs.Joins
import WarmCheck.Proofs.Reports

/-!
# Above a path

The ancestors of an absolute path lead up to the root, one part at a time, however the path is written.

* **`Path.map_rest_ancestors`**: the parts of the ancestors are the beginnings of those of the path.
* `Path.exists_parent_join`: above a path with one part is what it is seen from.
-/

namespace WarmCheck

namespace Path

variable {p q : Path} {segs : List Bytes}

/-! ## Ancestors -/

theorem filter_dropWhile_isIdle (segs : List Bytes) :
    (segs.dropWhile isIdle).filter (!isIdle ·) = segs.filter (!isIdle ·) := by
  induction segs with
  | nil => rfl
  | cons seg segs ih =>
    by_cases h : isIdle seg = true
    · rw [List.dropWhile_cons_of_pos h, ih, List.filter_cons_of_neg (by simp [h])]
    · rw [List.dropWhile_cons_of_neg h]

theorem rest_glue (h : ∀ seg ∈ segs, slash ∉ seg) :
    (Path.mk (slash :: glue segs)).rest = (segs.filter (!isIdle ·)).map componentOf := by
  cases segs with
  | nil => rfl
  | cons seg segs =>
    have hsplit := List.splitOn_append_cons_self (a := slash) [] (glue (seg :: segs))
    unfold rest
    rw [← List.nil_append (slash :: _), hsplit, glue, List.splitOn_intercalate _ h (List.cons_ne_nil seg segs)]
    rfl

theorem map_rest_above (h : ∀ seg ∈ segs, slash ∉ seg) :
    (above .root segs).map rest =
      (segs.filter (!isIdle ·)).tails.tail.map fun l => l.reverse.map componentOf := by
  induction segs with
  | nil => rfl
  | cons seg segs ih =>
    have hsegs : ∀ s ∈ segs, slash ∉ s := fun s hs => h s (List.mem_cons_of_mem seg hs)
    by_cases hidle : isIdle seg = true
    · rw [above, if_pos hidle, ih hsegs, List.filter_cons_of_neg (by simp [hidle])]
    · have htails (l : List Bytes) : l.tails = l :: l.tails.tail := by cases l <;> rfl
      have hrest : (Path.mk (Head.root.bytes ++ glue (segs.dropWhile isIdle).reverse)).rest =
          (segs.filter (!isIdle ·)).reverse.map componentOf := by
        have hdrop : ∀ s ∈ (segs.dropWhile isIdle).reverse, slash ∉ s := fun s hs =>
          hsegs s ((List.dropWhile_sublist isIdle).subset (List.mem_reverse.mp hs))
        rw [← filter_dropWhile_isIdle, ← List.filter_reverse]
        exact rest_glue hdrop
      rw [above, if_neg hidle, List.map_cons, ih hsegs, hrest, List.filter_cons_of_pos (by simp [hidle]),
        List.tails_cons, List.tail_cons, htails (segs.filter _), List.map_cons]
      rfl

theorem isAbsolute_of_mem_above (h : p ∈ above .root segs) : p.isAbsolute = true := by
  induction segs with
  | nil => exact absurd h List.not_mem_nil
  | cons seg segs ih =>
    rw [above] at h
    split at h
    · exact ih h
    · rcases List.mem_cons.mp h with rfl | h
      · rfl
      · exact ih h

theorem exists_slash (h : p.isAbsolute = true) : ∃ bs, p = ⟨slash :: bs⟩ := by
  obtain ⟨bytes⟩ := p
  cases bytes with
  | nil => cases h
  | cons b bs =>
    obtain rfl : b = slash := Option.some.inj (beq_iff_eq.mp h)
    exact ⟨bs, rfl⟩

theorem isAbsolute_of_mem_ancestors (h : p.isAbsolute = true) (hq : q ∈ p.ancestors) : q.isAbsolute = true := by
  obtain ⟨bs, rfl⟩ := exists_slash h
  rcases List.mem_cons.mp hq with rfl | hq
  · rfl
  · exact isAbsolute_of_mem_above hq

/-- **The ancestors of an absolute path**, the nearest first, have the beginnings of its parts. -/
theorem map_rest_ancestors (h : p.isAbsolute = true) : p.ancestors.map rest = p.rest.inits.reverse := by
  obtain ⟨bs, rfl⟩ := exists_slash h
  set segs := (List.splitOn slash bs).filter (!isIdle ·) with hsegs
  have hrest : (Path.mk (slash :: bs)).rest = segs.map componentOf := by
    have hsplit := List.splitOn_append_cons_self (a := slash) [] bs
    unfold rest
    rw [← List.nil_append (slash :: bs), hsplit]
    rfl
  have hparents : (Path.mk (slash :: bs)).parents.map rest =
      segs.reverse.tails.tail.map fun l => l.reverse.map componentOf := by
    have hpieces : ∀ seg ∈ (List.splitOn slash bs).reverse, slash ∉ seg := fun seg hseg =>
      Text.not_mem_of_mem_splitOn (List.mem_reverse.mp hseg)
    rw [hsegs, ← List.filter_reverse]
    exact map_rest_above hpieces
  have htails : segs.reverse :: segs.reverse.tails.tail = segs.reverse.tails := by
    cases segs.reverse <;> rfl
  calc (Path.mk (slash :: bs)).ancestors.map rest
      = (segs.reverse :: segs.reverse.tails.tail).map fun l => l.reverse.map componentOf := by
        rw [ancestors, List.map_cons, hparents, hrest, List.map_cons, List.reverse_reverse]
    _ = (segs.reverse.tails.map List.reverse).map (List.map componentOf) := by rw [htails, List.map_map]; rfl
    _ = (Path.mk (slash :: bs)).rest.inits.reverse := by
        rw [List.map_reverse_tails, List.reverse_reverse, hrest, List.map_inits, List.map_reverse]

theorem pairwise_ancestors (h : p.isAbsolute = true) :
    p.ancestors.Pairwise fun q r => r.rest.length < q.rest.length := by
  have hlengths (l : List Component) : l.inits.map List.length = List.range (l.length + 1) := by
    induction l with
    | nil => rfl
    | cons c l ih =>
      rw [List.inits_cons, List.map_cons, List.map_map, List.length_cons, List.range_succ_eq_map, ← ih, List.map_map]
      rfl
  have hall : (p.ancestors.map rest).Pairwise fun l l' => l'.length < l.length := by
    rw [map_rest_ancestors h, List.pairwise_reverse]
    refine List.pairwise_map.mp ?_
    rw [hlengths]
    exact List.pairwise_lt_range
  exact List.pairwise_map.mp hall

/-! ## The path above -/

theorem join_of_isAbsolute (p : Path) (hq : q.isAbsolute = true) : p.join q = q := if_pos hq

theorem exists_parent_join {c : Component} (hp : p.isAbsolute = true) (hq : q.isAbsolute = false)
    (hrest : q.rest = [c]) : ∃ r, (p.join q).parent? = some r ∧ r.isAbsolute = true ∧ r.rest = p.rest := by
  have hjoin : (p.join q).isAbsolute = true := by rw [isAbsolute_join (ne_nil_of_isAbsolute hp) hq, hp]
  have hmap : (p.join q).parents.map rest = p.rest.inits.reverse := by
    have hall := map_rest_ancestors hjoin
    rw [rest_join (ne_nil_of_isAbsolute hp) hq, hrest, List.inits_append, List.reverse_append] at hall
    exact (List.cons.inj hall).2
  have hhead : p.rest.inits.reverse.head? = some p.rest := by
    have htails (l : List Component) : l.tails.head? = some l := by cases l <;> rfl
    rw [List.inits_eq_tails, List.reverse_reverse, List.head?_map, htails, Option.map_some, List.reverse_reverse]
  rw [← hmap, List.head?_map] at hhead
  obtain ⟨r, hr, heq⟩ := Option.map_eq_some_iff.mp hhead
  exact ⟨r, hr, isAbsolute_of_mem_ancestors hjoin (List.mem_cons_of_mem _ (List.mem_of_head? hr)), heq⟩

theorem components_join_congr {p' : Path} (hp : p.bytes ≠ []) (hp' : p'.bytes ≠ []) (h : p.components = p'.components)
    (q : Path) : (p.join q).components = (p'.join q).components := by
  cases hq : q.isAbsolute with
  | false => rw [components_join hp hq, components_join hp' hq, h]
  | true => rw [join_of_isAbsolute p hq, join_of_isAbsolute p' hq]

theorem join_ne_nil (hp : p.bytes ≠ []) (q : Path) : (p.join q).bytes ≠ [] := by
  cases hq : q.isAbsolute with
  | false =>
    obtain ⟨init, hjoin, -⟩ := exists_join hp hq
    rw [hjoin]
    exact List.append_ne_nil_of_right_ne_nil init (List.cons_ne_nil slash q.bytes)
  | true =>
    rw [join_of_isAbsolute p hq]
    exact ne_nil_of_isAbsolute hq

end Path

end WarmCheck
