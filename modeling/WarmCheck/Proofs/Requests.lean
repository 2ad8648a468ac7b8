import Mathlib.Data.List.Infix
import WarmCheck.Proofs.Exchanges

/-!
# Requests in pieces

The server looks at what it has read after each read, and does not look ahead. What a client sends asks for the
same however it is cut into reads, unless it goes on after the query: then it depends on whether some reads
together are exactly the query.

* `Request.IsCut`: reads by which octets may be taken.
* `Request.HasStop`: the query ends where a read ends.
* `Request.ofReads_of_isCut`: what octets ask for, from how they are cut.
* **`Request.recognized_of_isCut`**: when two cuts ask for the same, and when the client is answered.
* `Request.depends_on_cut`: a cut does matter to octets that go on after the query.
-/

namespace WarmCheck

namespace Request

/-- Reads that are not empty, and not longer than one read may be, by which octets may be taken. -/
structure IsCut (bs : Bytes) (reads : List Bytes) : Prop where
  flatten_eq : reads.flatten = bs
  isRead : ∀ r ∈ reads, r ≠ [] ∧ r.length ≤ Server.readSize

instance (bs : Bytes) (reads : List Bytes) : Decidable (IsCut bs reads) :=
  decidable_of_iff (reads.flatten = bs ∧ ∀ r ∈ reads, r ≠ [] ∧ r.length ≤ Server.readSize)
    ⟨fun h => ⟨h.1, h.2⟩, fun h => ⟨h.flatten_eq, h.isRead⟩⟩

/-- After `got`, the query ends where one of the reads ends. -/
def HasStop (got : Bytes) (reads : List Bytes) : Prop :=
  ∃ earlier, earlier <+: reads ∧ got ++ earlier.flatten = Query.token

instance (got : Bytes) (reads : List Bytes) : Decidable (HasStop got reads) :=
  decidable_of_iff (∃ earlier ∈ reads.inits, got ++ earlier.flatten = Query.token)
    (exists_congr fun _ => and_congr_left' (List.mem_inits _ _))

/-- Octets that begin with the query and go on after it. -/
def GoesOn (bs : Bytes) : Prop := Query.token <+: bs ∧ bs ≠ Query.token

/-! ## What octets ask for -/

theorem hasStop_cons {got : Bytes} (hgot : got ≠ Query.token) (r : Bytes) (reads : List Bytes) :
    HasStop got (r :: reads) ↔ HasStop (got ++ r) reads := by
  constructor
  · rintro ⟨earlier, hearlier, htoken⟩
    cases earlier with
    | nil => exact absurd (by simpa using htoken) hgot
    | cons r' earlier =>
      obtain ⟨rfl, hrest⟩ := List.cons_prefix_cons.mp hearlier
      exact ⟨earlier, hrest, by simpa using htoken⟩
  · rintro ⟨earlier, hearlier, htoken⟩
    exact ⟨r :: earlier, List.cons_prefix_cons.mpr ⟨rfl, hearlier⟩, by simpa using htoken⟩

theorem HasStop.prefix_token {got : Bytes} {reads : List Bytes} (h : HasStop got reads) :
    got <+: Query.token := by
  obtain ⟨earlier, -, htoken⟩ := h
  exact ⟨earlier.flatten, htoken⟩

theorem HasStop.prefix_flatten {got : Bytes} {reads : List Bytes} (h : HasStop got reads) :
    Query.token <+: got ++ reads.flatten := by
  obtain ⟨earlier, ⟨later, rfl⟩, htoken⟩ := h
  rw [← htoken, List.flatten_append, ← List.append_assoc]
  exact List.prefix_append _ _

/-- Reads ask for the status if the query ends where one of them ends. If not, the client has finished too
early where all of them are a beginning of the query, and else they are not known. -/
theorem ofReads_eq {got : Bytes} (hgot : got ≠ Query.token) (hbegin : got <+: Query.token) {reads : List Bytes}
    (hreads : ∀ r ∈ reads, r ≠ []) :
    ofReads got reads =
      if HasStop got reads then .status
      else if got ++ reads.flatten <+: Query.token then .closed
      else .unknown := by
  induction reads generalizing got with
  | nil =>
    have hstop : ¬HasStop got [] := by
      rintro ⟨earlier, hearlier, htoken⟩
      obtain rfl := List.prefix_nil.mp hearlier
      exact hgot (by simpa using htoken)
    rw [if_neg hstop, if_pos (by simpa using hbegin), ofReads]
  | cons r reads ih =>
    have hr : r ≠ [] := hreads r List.mem_cons_self
    simp only [hasStop_cons hgot, List.flatten_cons, ← List.append_assoc, ofReads, judge, if_neg hr]
    by_cases htoken : got ++ r = Query.token
    · have hstop : HasStop (got ++ r) reads := ⟨[], List.nil_prefix, by simpa using htoken⟩
      rw [if_pos htoken, if_pos hstop]
    · rw [if_neg htoken]
      by_cases hmore : got ++ r <+: Query.token
      · rw [if_pos (List.isPrefixOf_iff_prefix.mpr hmore)]
        exact ih htoken hmore fun r' hr' => hreads r' (List.mem_cons_of_mem r hr')
      · have hall : ¬got ++ r ++ reads.flatten <+: Query.token := fun h =>
          hmore ((List.prefix_append _ _).trans h)
        rw [if_neg fun h => hmore (List.isPrefixOf_iff_prefix.mp h), if_neg fun h => hmore h.prefix_token,
          if_neg hall]

theorem ofReads_of_isCut {bs : Bytes} {reads : List Bytes} (h : IsCut bs reads) :
    ofReads [] reads =
      if HasStop [] reads then .status else if bs <+: Query.token then .closed else .unknown := by
  rw [ofReads_eq Query.nil_ne_token List.nil_prefix fun r hr => (h.isRead r hr).1, h.flatten_eq,
    List.nil_append]

/-- Unless octets go on after the query, it ends where a read ends iff they are the query. -/
theorem hasStop_iff_of_not_goesOn {bs : Bytes} {reads : List Bytes} (h : IsCut bs reads) (hbs : ¬GoesOn bs) :
    HasStop [] reads ↔ bs = Query.token := by
  constructor
  · intro hstop
    by_contra hne
    have hbegin := hstop.prefix_flatten
    rw [h.flatten_eq, List.nil_append] at hbegin
    exact hbs ⟨hbegin, hne⟩
  · rintro rfl
    exact ⟨reads, List.prefix_rfl, by rw [h.flatten_eq, List.nil_append]⟩

/-! ## Answers -/

end Request

namespace Server

variable {κ : Type} [DecidableEq κ]

/-- Something is sent on a new connection iff at some moment what has been read on it is the query. -/
theorem sentOn_ne_nil_iff {s : Server κ} {conn : κ} (ht : s.talk? conn = some (.asking []))
    {history : List (Input κ)} (hnew : .connect conn ∉ history) :
    s.sentOn conn history ≠ [] ↔ ∃ earlier, earlier <+: history ∧ heard conn earlier = Query.token := by
  constructor
  · intro hsent
    by_contra hnone
    exact hsent (sentOn_eq_nil ht hnew fun earlier hearlier heq => hnone ⟨earlier, hearlier, heq⟩)
  · rintro ⟨_, ⟨after, rfl⟩, hheard⟩
    obtain ⟨before, i, later, rfl, hcompletes⟩ := exists_completes hheard
    rw [List.append_assoc, List.cons_append] at hnew ⊢
    rw [sentOn_of_completes ht hnew hcompletes]
    exact Snapshot.encode_ne_nil _

theorem heard_eq_flatten {reads : List Bytes} (h : [] ∉ reads) : Talk.heard reads = reads.flatten := by
  induction reads with
  | nil => rfl
  | cons r reads ih =>
    rw [List.mem_cons, not_or] at h
    rw [Talk.heard, if_neg (Ne.symm h.1), ih h.2, List.flatten_cons]

/-- Of a client that finishes after some reads, the query has been heard at some moment iff it ends where a read
ends. -/
theorem exists_heard_iff {conn : κ} {history : List (Input κ)} {reads : List Bytes} (hreads : [] ∉ reads)
    (hhistory : readsOn conn history = reads ++ [[]]) :
    (∃ earlier, earlier <+: history ∧ heard conn earlier = Query.token) ↔ Request.HasStop [] reads := by
  constructor
  · rintro ⟨earlier, ⟨later, rfl⟩, htoken⟩
    rw [readsOn_append] at hhistory
    have hbegin : readsOn conn earlier <+: reads ++ [[]] := ⟨_, hhistory⟩
    rcases List.prefix_concat_iff.mp hbegin with heq | hbegin
    · refine ⟨reads, List.prefix_rfl, ?_⟩
      rw [heard, heq, Talk.heard_concat, if_neg hreads, List.append_nil, heard_eq_flatten hreads] at htoken
      exact htoken
    · refine ⟨_, hbegin, ?_⟩
      rw [heard, heard_eq_flatten fun h => hreads (hbegin.subset h)] at htoken
      exact htoken
  · rintro ⟨_, ⟨more, rfl⟩, htoken⟩
    rw [readsOn, List.append_assoc] at hhistory
    obtain ⟨earlier, later, rfl, hearlier, -⟩ := List.filterMap_eq_append_iff.mp hhistory
    refine ⟨earlier, List.prefix_append _ _, ?_⟩
    rw [heard, readsOn, hearlier, heard_eq_flatten fun h => hreads (List.mem_append_left more h)]
    exact htoken

end Server

namespace Request

/-! ## What does not depend on the reads -/

/-- What octets ask for that do not go on after the query. -/
def ofOctets (bs : Bytes) : Request :=
  if bs = Query.token then .status else if bs <+: Query.token then .closed else .unknown

/-- **What a client asks for does not depend on how it is cut into reads, unless it goes on after the query.**
If it does, it has asked for the status where the query ends with a read, and else for nothing that is known.
The client gets an answer iff it has asked for the status. -/
theorem recognized_of_isCut {bs : Bytes} {xs ys : List Bytes} (hx : IsCut bs xs) (hy : IsCut bs ys) :
    (¬GoesOn bs → ofReads [] xs = ofReads [] ys ∧ ofReads [] xs = ofOctets bs) ∧
      (GoesOn bs → ofReads [] xs = if HasStop [] xs then .status else .unknown) ∧
      ∀ (κ : Type) [DecidableEq κ] (s : Server κ) (conn : κ) (history : List (Server.Input κ)),
        s.isListening = true → .connect conn ∉ history → Server.readsOn conn history = xs ++ [[]] →
          ((s.step (.connect conn)).1.sentOn conn history ≠ [] ↔ ofReads [] xs = .status) := by
  refine ⟨fun hbs => ?_, fun hbs => ?_, ?_⟩
  · have hself : ∀ reads, IsCut bs reads → ofReads [] reads = ofOctets bs := by
      intro reads h
      simp only [ofReads_of_isCut h, hasStop_iff_of_not_goesOn h hbs, ofOctets]
    exact ⟨(hself xs hx).trans (hself ys hy).symm, hself xs hx⟩
  · have hlong : ¬bs <+: Query.token := fun h =>
      hbs.2 (h.eq_of_length (Nat.le_antisymm h.length_le hbs.1.length_le))
    rw [ofReads_of_isCut hx, if_neg hlong]
  · intro κ _ s conn history hlisten hnew hreads
    have ht : (s.step (.connect conn)).1.talk? conn = some (.asking []) := by
      rw [Server.step, if_pos hlisten]
      exact List.lookup_cons_self
    have hnonempty : [] ∉ xs := fun h => (hx.isRead [] h).1 rfl
    rw [Server.sentOn_ne_nil_iff ht hnew, Server.exists_heard_iff hnonempty hreads, ofReads_of_isCut hx]
    by_cases hstop : HasStop [] xs
    · simp [hstop]
    · simp only [hstop, if_false, false_iff]
      split <;> exact fun h => by cases h

/-- The query in two reads and in one; in two, while another client connects. -/
theorem recognized_in_two_reads :
    let xs := [Utf8.ofString "GET_", Utf8.ofString "STATUS"]
    let ys := [Query.token]
    let s : Server Nat := { store := .new 0 }
    let history : List (Server.Input Nat) :=
      [.read 1 (Utf8.ofString "GET_"), .connect 2, .read 1 (Utf8.ofString "STATUS"), .read 1 []]
    (IsCut Query.token xs ∧ IsCut Query.token ys ∧ ¬GoesOn Query.token) ∧
      (s.isListening = true ∧ .connect 1 ∉ history ∧ Server.readsOn 1 history = xs ++ [[]]) ∧
      ofReads [] xs = ofReads [] ys ∧ (s.step (.connect 1)).1.sentOn 1 history ≠ [] := by
  intro xs ys s history
  have hx : IsCut Query.token xs := by decide +kernel
  have hy : IsCut Query.token ys := by decide +kernel
  have hends : ¬GoesOn Query.token := fun h => h.2 rfl
  have hnew : .connect 1 ∉ history := by simp [history]
  have hreads : Server.readsOn 1 history = xs ++ [[]] := rfl
  obtain ⟨hself, -, hanswer⟩ := recognized_of_isCut hx hy
  obtain ⟨heq, hasks⟩ := hself hends
  refine ⟨⟨hx, hy, hends⟩, ⟨rfl, hnew, hreads⟩, heq, ?_⟩
  exact (hanswer Nat s 1 history rfl hnew hreads).mpr hasks

/-- Octets that go on after the query are answered if they are read in two pieces, and not in one. -/
theorem depends_on_cut :
    ¬∀ (bs : Bytes) (xs ys : List Bytes), IsCut bs xs → IsCut bs ys → ofReads [] xs = ofReads [] ys := by
  intro h
  have hsame := h (Query.token ++ [88]) [Query.token, [88]] [Query.token ++ [88]] (by decide +kernel)
    (by decide +kernel)
  exact absurd hsame (by decide +kernel)

end Request

end WarmCheck
