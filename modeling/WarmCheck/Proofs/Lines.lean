import Mathlib.Logic.Function.Basic
import Mathlib.Data.List.Induction
import WarmCheck.Output

/-!
# The lines of two pipes

What is read of the checker's output is determined by three things: the octets of each pipe, and the
order in which the newlines of the pipes arrive. How the octets are cut into chunks does not matter,
nor how the chunks of the two pipes follow one another between newlines.

* `Output.ofPipe`, `Output.newlinePipes`: the octets of a pipe, and the order of the newlines.
* `Output.weave`, `Output.lines`: the lines of both pipes in that order.
* **`Output.feedAll_eq`**: reading chunks is reading their lines.
* **`Output.feedAll_congr`**: chunks of the same pipes with the same order of newlines read the same.
-/

namespace WarmCheck.Output

/-! ## Weaving -/

section Weave

variable {α : Type}

/-- The items of the pipes, at each turn the next one of the pipe that is named. -/
def weave (items : Pipe → List α) : List Pipe → List α
  | [] => []
  | p :: ps => (items p).head?.toList ++ weave (Function.update items p (items p).tail) ps

/-- Items that come later are not woven earlier. -/
theorem weave_append (xs ys : Pipe → List α) (ps qs : List Pipe)
    (h : ∀ p, (xs p).length = ps.count p) :
    weave (fun p => xs p ++ ys p) (ps ++ qs) = weave xs ps ++ weave ys qs := by
  induction ps generalizing xs with
  | nil =>
    have hx : ∀ p, xs p = [] := fun p => List.eq_nil_of_length_eq_zero (h p)
    simp only [hx, List.nil_append, weave]
  | cons p ps ih =>
    obtain ⟨a, as, ha⟩ : ∃ a as, xs p = a :: as :=
      List.exists_cons_of_length_pos (by rw [h p, List.count_cons_self]; omega)
    have hlen : ∀ q, (Function.update xs p as q).length = ps.count q := by
      intro q
      have hq := h q
      by_cases hqp : q = p
      · subst hqp
        rw [ha, List.length_cons, List.count_cons_self] at hq
        rw [Function.update_self]
        omega
      · rw [List.count_cons_of_ne (Ne.symm hqp)] at hq
        rwa [Function.update_of_ne hqp]
    have hupd : Function.update (fun q => xs q ++ ys q) p (as ++ ys p) =
        fun q => Function.update xs p as q ++ ys q := by
      funext q
      by_cases hqp : q = p
      · subst hqp; rw [Function.update_self, Function.update_self]
      · rw [Function.update_of_ne hqp, Function.update_of_ne hqp]
    simp only [List.cons_append, weave, ha, List.head?_cons, List.tail_cons, Option.toList_some,
      List.nil_append]
    rw [hupd, ih _ hlen]

theorem weave_replicate (items : Pipe → List α) (p : Pipe) :
    weave items (List.replicate (items p).length p) = items p := by
  generalize hl : items p = l
  induction l generalizing items with
  | nil => rfl
  | cons a l ih =>
    simp only [List.length_cons, List.replicate_succ, weave, hl, List.head?_cons, List.tail_cons,
      Option.toList_some, List.singleton_append]
    rw [ih _ (Function.update_self ..)]

end Weave

/-! ## Chunks -/

/-- The octets that chunks hold for a pipe. -/
def ofPipe (p : Pipe) (chunks : List (Pipe × Bytes)) : Bytes :=
  (chunks.filter (·.1 = p)).flatMap (·.2)

/-- The pipes of the newlines in chunks, in the order in which the newlines arrive. -/
def newlinePipes (chunks : List (Pipe × Bytes)) : List Pipe :=
  chunks.flatMap fun (p, bs) => List.replicate (bs.count newline) p

/-- The cleaned lines that chunks complete, in the order in which their newlines arrive: each pipe has
its own lines, and the newlines tell whose turn it is. -/
def lines (chunks : List (Pipe × Bytes)) : List Line :=
  (weave (fun p => completed (ofPipe p chunks)) (newlinePipes chunks)).map Line.ofBytes

theorem ofPipe_concat (p q : Pipe) (chunks : List (Pipe × Bytes)) (bs : Bytes) :
    ofPipe q (chunks ++ [(p, bs)]) = ofPipe q chunks ++ if q = p then bs else [] := by
  by_cases h : p = q
  · simp [ofPipe, h]
  · simp [ofPipe, h, Ne.symm h]

theorem newlinePipes_concat (p : Pipe) (chunks : List (Pipe × Bytes)) (bs : Bytes) :
    newlinePipes (chunks ++ [(p, bs)]) =
      newlinePipes chunks ++ List.replicate (bs.count newline) p := by
  simp [newlinePipes]

/-- Every newline of a pipe completes one of its lines. -/
theorem length_completed_ofPipe (p : Pipe) (chunks : List (Pipe × Bytes)) :
    (completed (ofPipe p chunks)).length = (newlinePipes chunks).count p := by
  rw [length_completed]
  induction chunks with
  | nil => rfl
  | cons x chunks ih =>
    obtain ⟨q, bs⟩ := x
    by_cases h : q = p
    · simpa [ofPipe, newlinePipes, h, List.count_append] using ih
    · simpa [ofPipe, newlinePipes, h, List.count_append, List.count_replicate] using ih

/-- A chunk completes as many lines as it has newlines: there is none in an unfinished line. -/
theorem length_completed_unfinished (a b : Bytes) :
    (completed (unfinished a ++ b)).length = b.count newline := by
  have h := congrArg List.length (completed_append a b)
  rw [List.length_append, length_completed, length_completed a, List.count_append] at h
  omega

theorem lines_concat (p : Pipe) (chunks : List (Pipe × Bytes)) (bs : Bytes) :
    lines (chunks ++ [(p, bs)]) =
      lines chunks ++ (completed (unfinished (ofPipe p chunks) ++ bs)).map Line.ofBytes := by
  set new := completed (unfinished (ofPipe p chunks) ++ bs) with hnew
  have hsplit : (fun q => completed (ofPipe q (chunks ++ [(p, bs)]))) =
      fun q => completed (ofPipe q chunks) ++ if q = p then new else [] := by
    funext q
    rw [ofPipe_concat]
    split_ifs with h
    · rw [completed_append, h]
    · rw [List.append_nil, List.append_nil]
  have hcount : bs.count newline = new.length := (length_completed_unfinished _ bs).symm
  have hlast : weave (fun q => if q = p then new else []) (List.replicate new.length p) = new := by
    simpa using weave_replicate (fun q => if q = p then new else []) p
  rw [lines, hsplit, newlinePipes_concat, weave_append _ _ _ _ fun q => length_completed_ofPipe q _,
    hcount, hlast, List.map_append, lines]

/-! ## Reading -/

/-- **Reading chunks is reading their lines**: the unfinished lines are what follows the last newline of
each pipe, and the cycle has got the lines of both. -/
theorem feedAll_eq (chunks : List (Pipe × Bytes)) :
    feedAll {} chunks =
      (⟨unfinished (ofPipe .out chunks), unfinished (ofPipe .err chunks),
        (Cycle.run {} (lines chunks)).1⟩, (Cycle.run {} (lines chunks)).2) := by
  induction chunks using List.reverseRecOn with
  | nil => rfl
  | append_singleton chunks x ih =>
    obtain ⟨p, bs⟩ := x
    rw [feedAll_append, ih, lines_concat, Cycle.run_append, ofPipe_concat, ofPipe_concat]
    cases p with
    | out =>
      rw [if_pos rfl, if_neg Pipe.noConfusion, List.append_nil, unfinished_append]
      simp only [feedAll, feed, tail, setTail, List.append_nil]
    | err =>
      rw [if_pos rfl, if_neg Pipe.noConfusion, List.append_nil, unfinished_append (ofPipe .err _)]
      simp only [feedAll, feed, tail, setTail, List.append_nil]

/-- **Neither the chunks nor the way in which the pipes interleave between newlines matters**: chunks
with the same octets on each pipe, and the same order of newlines, cause the same events and leave the
same state, and the events are those of the lines in that order. -/
theorem feedAll_congr {xs ys : List (Pipe × Bytes)} (hout : ofPipe .out xs = ofPipe .out ys)
    (herr : ofPipe .err xs = ofPipe .err ys) (hnew : newlinePipes xs = newlinePipes ys) :
    feedAll {} xs = feedAll {} ys ∧ (feedAll {} xs).2 = (Cycle.run {} (lines ys)).2 := by
  have hpipes : (fun p => completed (ofPipe p xs)) = fun p => completed (ofPipe p ys) := by
    funext p
    cases p with
    | out => rw [hout]
    | err => rw [herr]
  have hlines : lines xs = lines ys := by rw [lines, hpipes, hnew, lines]
  refine ⟨?_, ?_⟩
  · rw [feedAll_eq, feedAll_eq, hout, herr, hlines]
  · rw [feedAll_eq, hlines]

/-- A character, an escape sequence and an end of line that are cut, with the other pipe in between. -/
theorem feedAll_cut_character :
    let xs : List (Pipe × Bytes) := [(.out, [0xC3]), (.err, [0x1B, 0x5B]), (.out, [0xA9, 13]), (.err, []),
      (.err, [0x6D, 0x65]), (.out, [10]), (.err, [10, 0x66])]
    let ys : List (Pipe × Bytes) := [(.err, [0x1B, 0x5B, 0x6D, 0x65]), (.out, [0xC3, 0xA9, 13, 10]),
      (.err, [10, 0x66])]
    (ofPipe .out xs = ofPipe .out ys ∧ ofPipe .err xs = ofPipe .err ys ∧
        newlinePipes xs = newlinePipes ys) ∧
      feedAll {} xs = feedAll {} ys ∧ (feedAll {} xs).2 = (Cycle.run {} (lines ys)).2 :=
  ⟨⟨by decide, by decide, by decide⟩, feedAll_congr (by decide) (by decide) (by decide)⟩

end WarmCheck.Output
