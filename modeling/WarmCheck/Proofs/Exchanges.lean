import WarmCheck.Proofs.Service
import WarmCheck.Proofs.Wire

/-!
# Exchanges

A connection carries one exchange. Whatever happens on other connections and to the store, what is sent on a
connection is decided by the octets that have been read on it: the moment at which they become the query is
the moment of the reply, and there is no other.

* `Talk.next`, `Talk.replies`: a read without the snapshot that is current.
* `Talk.heard`: what has been read on a connection.
* `Server.sentAt`, `Server.sentOn`: what is sent on a connection.
* `Talk.replies_foldl_next_iff`: the read that is answered.
* `Server.once_of_completes`: a query is answered once.
* `Server.Alongside.run`: a connection does not notice the others.
* **`Server.exchange_of_connect`**: the law of an exchange.
-/

namespace WarmCheck

theorem Query.nil_ne_token : [] ≠ token := by decide

/-! ## Reads -/

namespace Request

theorem judge_eq_none_iff {got bs : Bytes} :
    judge got bs = none ↔ bs ≠ [] ∧ got ++ bs <+: Query.token ∧ got ++ bs ≠ Query.token := by
  rw [judge, ← List.isPrefixOf_iff_prefix]
  split_ifs <;> simp_all

theorem judge_eq_status_iff {got bs : Bytes} :
    judge got bs = some .status ↔ bs ≠ [] ∧ got ++ bs = Query.token := by
  rw [judge]
  split_ifs <;> simp_all

end Request

namespace Talk

/-- How a connection stands after a read. -/
def next : Talk → Bytes → Talk
  | asking got, bs =>
    match Request.judge got bs with
    | some .status | some .closed => ended
    | some .unknown => ignoring
    | none => asking (got ++ bs)
  | ignoring, bs => if bs = [] then ended else ignoring
  | ended, _ => ended

def replies : Talk → Bytes → Bool
  | asking got, bs => Request.judge got bs = some .status
  | ignoring, _ | ended, _ => false

/-- Only the reply depends on the snapshot. -/
theorem read_eq (s : Snapshot) (t : Talk) (bs : Bytes) :
    t.read s bs = (t.next bs, if t.replies bs then s.encode else []) := by
  cases t with
  | ignoring | ended => rfl
  | asking got =>
    rw [read, next, replies]
    cases Request.judge got bs with
    | none => rfl
    | some r => cases r <;> rfl

theorem next_of_replies {t : Talk} {bs : Bytes} (h : t.replies bs = true) : t.next bs = ended := by
  cases t with
  | ignoring | ended => cases h
  | asking got =>
    rw [replies, decide_eq_true_eq] at h
    rw [next, h]

theorem replies_iff {t : Talk} {bs : Bytes} :
    t.replies bs = true ↔ ∃ got, t = asking got ∧ bs ≠ [] ∧ got ++ bs = Query.token := by
  cases t with
  | ignoring | ended => simp [replies]
  | asking got => simp [replies, Request.judge_eq_status_iff]

theorem next_eq_asking_iff {t : Talk} {bs got : Bytes} :
    t.next bs = asking got ↔
      ∃ before, t = asking before ∧ bs ≠ [] ∧ got = before ++ bs ∧ got <+: Query.token ∧
        got ≠ Query.token := by
  cases t with
  | ignoring => rw [next]; split <;> simp
  | ended => simp [next]
  | asking before =>
    have hmore : Request.judge before bs = none ↔
        bs ≠ [] ∧ before ++ bs <+: Query.token ∧ before ++ bs ≠ Query.token := Request.judge_eq_none_iff
    rw [next]
    cases hj : Request.judge before bs with
    | none =>
      obtain ⟨hbs, hbegin, htoken⟩ := hmore.mp hj
      simp only [asking.injEq]
      constructor
      · rintro rfl
        exact ⟨before, rfl, hbs, rfl, hbegin, htoken⟩
      · rintro ⟨_, rfl, -, rfl, -⟩
        rfl
    | some r =>
      have hnot : ¬∃ b, asking before = asking b ∧ bs ≠ [] ∧ got = b ++ bs ∧ got <+: Query.token ∧
          got ≠ Query.token := by
        rintro ⟨_, ⟨⟩, hbs, rfl, hbegin, htoken⟩
        rw [hmore.mpr ⟨hbs, hbegin, htoken⟩] at hj
        cases hj
      cases r <;> simpa using hnot

/-- What is read before the end of what the client sends, which is an empty read. -/
def heard : List Bytes → Bytes
  | [] => []
  | bs :: reads => if bs = [] then [] else bs ++ heard reads

/-- What has been read only grows, and it grows until the end. -/
theorem heard_append (xs ys : List Bytes) :
    heard (xs ++ ys) = heard xs ++ if [] ∈ xs then [] else heard ys := by
  induction xs with
  | nil => simp [heard]
  | cons bs xs ih =>
    by_cases hbs : bs = []
    · simp [heard, hbs]
    · simp [heard, hbs, ih, Ne.symm hbs]

theorem heard_concat (reads : List Bytes) (bs : Bytes) :
    heard (reads ++ [bs]) = heard reads ++ if [] ∈ reads then [] else bs := by
  have hone : heard [bs] = bs := by
    by_cases hbs : bs = [] <;> simp [heard, hbs]
  rw [heard_append, hone]

/-- The server waits for more as long as what has been read is the beginning of the query. -/
theorem foldl_next_eq_asking_iff {reads : List Bytes} {got : Bytes} :
    reads.foldl next (asking []) = asking got ↔
      [] ∉ reads ∧ heard reads = got ∧ got <+: Query.token ∧ got ≠ Query.token := by
  induction reads using List.reverseRecOn generalizing got with
  | nil =>
    constructor
    · rintro ⟨⟩
      exact ⟨nofun, rfl, List.nil_prefix, Query.nil_ne_token⟩
    · rintro ⟨-, rfl, -⟩
      rfl
  | append_singleton reads bs ih =>
    rw [List.foldl_append, List.foldl_cons, List.foldl_nil, next_eq_asking_iff, heard_concat,
      List.mem_append, List.mem_singleton]
    constructor
    · rintro ⟨before, hfold, hbs, rfl, hbegin, htoken⟩
      obtain ⟨hreads, rfl, -⟩ := ih.mp hfold
      exact ⟨fun h => h.elim hreads (Ne.symm hbs), by rw [if_neg hreads], hbegin, htoken⟩
    · rintro ⟨hmem, rfl, hbegin, htoken⟩
      have hreads : [] ∉ reads := fun h => hmem (.inl h)
      rw [if_neg hreads] at hbegin htoken ⊢
      have hbs : bs ≠ [] := fun h => hmem (.inr h.symm)
      refine ⟨heard reads, ih.mpr ⟨hreads, rfl, (List.prefix_append _ bs).trans hbegin, ?_⟩, hbs, rfl,
        hbegin, htoken⟩
      -- the query cannot be complete before more of it is read
      intro heq
      rw [heq] at hbegin
      have hlen := hbegin.length_le
      rw [List.length_append] at hlen
      have hpos := List.length_pos_iff.mpr hbs
      omega

/-- **A read is answered iff it makes what has been read the query.** -/
theorem replies_foldl_next_iff {reads : List Bytes} {bs : Bytes} :
    (reads.foldl next (asking [])).replies bs = true ↔
      heard reads ≠ Query.token ∧ heard (reads ++ [bs]) = Query.token := by
  rw [replies_iff, heard_concat]
  constructor
  · rintro ⟨got, hfold, -, hbs⟩
    obtain ⟨hreads, rfl, -, htoken⟩ := foldl_next_eq_asking_iff.mp hfold
    rw [if_neg hreads]
    exact ⟨htoken, hbs⟩
  · rintro ⟨htoken, hbs⟩
    by_cases hreads : [] ∈ reads
    · rw [if_pos hreads, List.append_nil] at hbs
      exact absurd hbs htoken
    · rw [if_neg hreads] at hbs
      refine ⟨heard reads, foldl_next_eq_asking_iff.mpr ⟨hreads, rfl, ⟨bs, hbs⟩, htoken⟩, ?_, hbs⟩
      rintro rfl
      rw [List.append_nil] at hbs
      exact htoken hbs

end Talk

/-! ## One connection -/

namespace Server

theorem not_mem_concat {α : Type} {a b : α} {xs ys : List α} (h : a ∉ xs ++ b :: ys) : a ∉ xs ++ [b] := by
  rw [List.append_cons, List.mem_append, not_or] at h
  exact h.1

variable {κ : Type} [DecidableEq κ]

def Input.readOn? (conn : κ) : Input κ → Option Bytes
  | .read c bs => if c = conn then some bs else none
  | .connect _ | .publish .. | .stop => none

def readsOn (conn : κ) (history : List (Input κ)) : List Bytes := history.filterMap (·.readOn? conn)

def heard (conn : κ) (history : List (Input κ)) : Bytes := Talk.heard (readsOn conn history)

/-- The server after things that happen. -/
def after (s : Server κ) (history : List (Input κ)) : Server κ := (s.run history).1

def sentAt (s : Server κ) (conn : κ) (i : Input κ) : Bytes :=
  match i.readOn? conn with
  | some _ => (s.step i).2
  | none => []

/-- All that is sent on a connection. -/
def sentOn (s : Server κ) (conn : κ) : List (Input κ) → Bytes
  | [] => []
  | i :: is => s.sentAt conn i ++ (s.step i).1.sentOn conn is

theorem readsOn_append (conn : κ) (xs ys : List (Input κ)) :
    readsOn conn (xs ++ ys) = readsOn conn xs ++ readsOn conn ys := List.filterMap_append

theorem readsOn_singleton (conn : κ) (i : Input κ) : readsOn conn [i] = (i.readOn? conn).toList := by
  rw [readsOn, List.filterMap_cons]
  cases i.readOn? conn <;> rfl

theorem readsOn_cons (conn : κ) (i : Input κ) (is : List (Input κ)) :
    readsOn conn (i :: is) = (i.readOn? conn).toList ++ readsOn conn is := by
  rw [← List.singleton_append, readsOn_append, readsOn_singleton]

theorem after_cons (s : Server κ) (i : Input κ) (is : List (Input κ)) :
    s.after (i :: is) = (s.step i).1.after is := rfl

theorem after_append (s : Server κ) (xs ys : List (Input κ)) :
    s.after (xs ++ ys) = (s.after xs).after ys := by
  induction xs generalizing s with
  | nil => rfl
  | cons i xs ih => rw [List.cons_append, after_cons, ih, after_cons]

theorem sentOn_append (s : Server κ) (conn : κ) (xs ys : List (Input κ)) :
    s.sentOn conn (xs ++ ys) = s.sentOn conn xs ++ (s.after xs).sentOn conn ys := by
  induction xs generalizing s with
  | nil => rfl
  | cons i xs ih => rw [List.cons_append, sentOn, ih, sentOn, after_cons, List.append_assoc]

/-- **What happens changes a connection only by its own reads**, and they alone are answered. -/
theorem talk?_step {s : Server κ} {conn : κ} {t : Talk} (ht : s.talk? conn = some t) {i : Input κ}
    (hi : i ≠ .connect conn) :
    (s.step i).1.talk? conn = some ((i.readOn? conn).elim t t.next) ∧
      s.sentAt conn i =
        if (i.readOn? conn).any t.replies then s.store.current.encode else [] := by
  cases i with
  | publish | stop => exact ⟨ht, rfl⟩
  | connect c =>
    refine ⟨?_, rfl⟩
    rw [step]
    split
    · have hne : (conn == c) = false := beq_false_of_ne fun h => hi (h ▸ rfl)
      rw [talk?, List.lookup_cons, hne]
      exact ht
    · exact ht
  | read c bs =>
    by_cases hc : c = conn
    · subst hc
      simp only [Input.readOn?, if_true, sentAt, step, ht, Talk.read_eq, talk?_setTalk, Option.map_some]
      exact ⟨rfl, rfl⟩
    · simp only [Input.readOn?, if_neg hc, sentAt, step]
      refine ⟨?_, rfl⟩
      split
      · rw [talk?_setTalk, if_neg (Ne.symm hc)]
        exact ht
      · exact ht

theorem talk?_after {s : Server κ} {conn : κ} {t : Talk} (ht : s.talk? conn = some t)
    {history : List (Input κ)} (hnew : .connect conn ∉ history) :
    (s.after history).talk? conn = some ((readsOn conn history).foldl Talk.next t) := by
  induction history generalizing s t with
  | nil => exact ht
  | cons i history ih =>
    rw [List.mem_cons, not_or] at hnew
    have hstep := (talk?_step ht (Ne.symm hnew.1)).1
    rw [after_cons, ih hstep hnew.2, readsOn_cons, List.foldl_append]
    cases i.readOn? conn <;> rfl

theorem sentOn_eq_nil_of_ended {s : Server κ} {conn : κ} (ht : s.talk? conn = some .ended)
    {history : List (Input κ)} (hnew : .connect conn ∉ history) : s.sentOn conn history = [] := by
  induction history generalizing s with
  | nil => rfl
  | cons i history ih =>
    rw [List.mem_cons, not_or] at hnew
    obtain ⟨hnext, hsent⟩ := talk?_step ht (Ne.symm hnew.1)
    have hended : (i.readOn? conn).elim Talk.ended Talk.ended.next = .ended := by
      cases i.readOn? conn <;> rfl
    have hnone : (i.readOn? conn).any Talk.ended.replies = false := by
      cases i.readOn? conn <;> rfl
    rw [hended] at hnext
    rw [hnone, if_neg Bool.false_ne_true] at hsent
    rw [sentOn, hsent, List.nil_append, ih hnext hnew.2]

/-! ## One exchange -/

/-- What has been read on a connection becomes the query when something happens. -/
def Completes (conn : κ) (before : List (Input κ)) (i : Input κ) : Prop :=
  heard conn before ≠ Query.token ∧ heard conn (before ++ [i]) = Query.token

instance (conn : κ) (before : List (Input κ)) (i : Input κ) : Decidable (Completes conn before i) :=
  inferInstanceAs (Decidable (_ ∧ _))

/-- What is sent on a new connection at a moment is the snapshot of the moment if the query is complete
then, and nothing otherwise. -/
theorem sentAt_after {s : Server κ} {conn : κ} (ht : s.talk? conn = some (.asking []))
    {before : List (Input κ)} {i : Input κ} (hnew : .connect conn ∉ before ++ [i]) :
    (s.after before).sentAt conn i =
      if Completes conn before i then (s.after before).store.current.encode else [] := by
  rw [List.mem_append, List.mem_singleton, not_or] at hnew
  rw [(talk?_step (talk?_after ht hnew.1) (Ne.symm hnew.2)).2]
  refine if_congr ?_ rfl rfl
  rw [Completes, heard, heard, readsOn_append, readsOn_singleton]
  cases i.readOn? conn with
  | none => simp
  | some bs => exact Talk.replies_foldl_next_iff

theorem talk?_of_sentAt {s : Server κ} {conn : κ} {t : Talk} (ht : s.talk? conn = some t) {i : Input κ}
    (hi : i ≠ .connect conn) (hsent : s.sentAt conn i ≠ []) : (s.step i).1.talk? conn = some .ended := by
  obtain ⟨hnext, hreply⟩ := talk?_step ht hi
  rw [hreply] at hsent
  cases hread : i.readOn? conn with
  | none => rw [hread] at hsent; exact absurd rfl hsent
  | some bs =>
    rw [hread, Option.any_some] at hsent
    cases hr : t.replies bs with
    | false => rw [hr] at hsent; exact absurd rfl hsent
    | true => rw [hnext, hread, Option.elim_some, Talk.next_of_replies hr]

theorem exists_completes {conn : κ} {history : List (Input κ)} (h : heard conn history = Query.token) :
    ∃ before i after, history = before ++ i :: after ∧ Completes conn before i := by
  induction history using List.reverseRecOn with
  | nil => exact absurd h Query.nil_ne_token
  | append_singleton history i ih =>
    by_cases hearlier : heard conn history = Query.token
    · obtain ⟨before, j, after, rfl, hcompletes⟩ := ih hearlier
      exact ⟨before, j, after ++ [i], by simp, hcompletes⟩
    · exact ⟨history, i, [], rfl, hearlier, h⟩

/-- On a new connection nothing is sent as long as the query is not complete. -/
theorem sentOn_eq_nil {s : Server κ} {conn : κ} (ht : s.talk? conn = some (.asking []))
    {history : List (Input κ)} (hnew : .connect conn ∉ history)
    (hnone : ∀ earlier, earlier <+: history → heard conn earlier ≠ Query.token) :
    s.sentOn conn history = [] := by
  induction history using List.reverseRecOn with
  | nil => rfl
  | append_singleton history i ih =>
    have hbegin : history <+: history ++ [i] := List.prefix_append _ _
    have hlast : (s.after history).sentAt conn i = [] := by
      rw [sentAt_after ht hnew, if_neg fun h => hnone _ List.prefix_rfl h.2]
    rw [sentOn_append, sentOn, sentOn, hlast, List.append_nil, List.append_nil]
    exact ih (fun h => hnew (hbegin.subset h)) fun earlier h => hnone earlier (h.trans hbegin)

theorem heard_prefix (conn : κ) {xs ys : List (Input κ)} (h : xs <+: ys) :
    heard conn xs <+: heard conn ys := by
  obtain ⟨more, rfl⟩ := h
  rw [heard, heard, readsOn_append, Talk.heard_append]
  exact List.prefix_append _ _

theorem heard_ne_of_completes {conn : κ} {before earlier : List (Input κ)} {i : Input κ}
    (h : Completes conn before i) (hearlier : earlier <+: before) : heard conn earlier ≠ Query.token := by
  intro heq
  -- what has been read lies between the query and the query
  have hfirst := heard_prefix conn hearlier
  have hlast := heard_prefix conn (List.prefix_append before [i])
  rw [heq] at hfirst
  rw [h.2] at hlast
  exact h.1 (hlast.eq_of_length (Nat.le_antisymm hlast.length_le hfirst.length_le))

/-- **A query is answered once.** Nothing is sent before it is complete; with the answer the server hangs
up, and sends nothing more. -/
theorem once_of_completes {s : Server κ} {conn : κ} (ht : s.talk? conn = some (.asking []))
    {before after : List (Input κ)} {i : Input κ} (hnew : .connect conn ∉ before ++ i :: after)
    (h : Completes conn before i) :
    s.sentOn conn before = [] ∧ (s.after (before ++ [i])).talk? conn = some .ended ∧
      (s.after (before ++ [i])).sentOn conn after = [] := by
  obtain ⟨hbefore, hi, hafter⟩ : .connect conn ∉ before ∧ .connect conn ≠ i ∧ .connect conn ∉ after := by
    simpa using hnew
  have hended : (s.after (before ++ [i])).talk? conn = some .ended := by
    rw [after_append]
    refine talk?_of_sentAt (talk?_after ht hbefore) (Ne.symm hi) ?_
    rw [sentAt_after ht (not_mem_concat hnew), if_pos h]
    exact Snapshot.encode_ne_nil _
  exact ⟨sentOn_eq_nil ht hbefore fun _ => heard_ne_of_completes h, hended,
    sentOn_eq_nil_of_ended hended hafter⟩

theorem sentOn_of_completes {s : Server κ} {conn : κ} (ht : s.talk? conn = some (.asking []))
    {before after : List (Input κ)} {i : Input κ} (hnew : .connect conn ∉ before ++ i :: after)
    (h : Completes conn before i) :
    s.sentOn conn (before ++ i :: after) = (s.after before).store.current.encode := by
  obtain ⟨hbefore, -, hafter⟩ := once_of_completes ht hnew h
  have hreply : (s.after before).sentAt conn i = (s.after before).store.current.encode := by
    rw [sentAt_after ht (not_mem_concat hnew), if_pos h]
  rw [after_append] at hafter
  rw [sentOn_append, hbefore, sentOn, hreply, List.nil_append]
  exact (congrArg _ hafter).trans (List.append_nil _)

/-! ## The others -/

/-- A server whose only connection has just been taken. -/
def single (store : Store) : Server Unit := { store, talks := [((), .asking [])] }

/-- What concerns a connection: its own reads, and the store. -/
def Input.own? (conn : κ) : Input κ → Option (Input Unit)
  | .read c bs => if c = conn then some (.read () bs) else none
  | .publish t now => some (.publish t now)
  | .connect _ | .stop => none

/-- A server on which a connection stands as the only one does on another with the same store. -/
structure Alongside (s : Server κ) (conn : κ) (one : Server Unit) : Prop where
  store : s.store = one.store
  talk : s.talk? conn = one.talk? ()

theorem store_step (s : Server κ) (i : Input κ) :
    (s.step i).1.store =
      match i with
      | .publish t now => s.store.publish t now
      | _ => s.store := by
  cases i with
  | publish | stop => rfl
  | connect => rw [step]; split <;> rfl
  | read => rw [step]; split <;> rfl

/-- What does not concern a connection does not change how it stands, and what does is answered as if it
were the only one. -/
theorem Alongside.step {s : Server κ} {conn : κ} {one : Server Unit} {t : Talk} (h : s.Alongside conn one)
    (ht : s.talk? conn = some t) {i : Input κ} (hi : i ≠ .connect conn) :
    (s.step i).1.Alongside conn (one.after (i.own? conn).toList) ∧
      s.sentAt conn i = one.sentOn () (i.own? conn).toList := by
  obtain ⟨hstore, htalk⟩ := h
  obtain ⟨hnext, hsent⟩ := talk?_step ht hi
  have hstep := store_step s i
  rw [ht] at htalk
  cases i with
  | connect | stop => exact ⟨⟨hstep.trans hstore, hnext.trans htalk⟩, hsent⟩
  | publish =>
    rw [hstore] at hstep
    exact ⟨⟨hstep, hnext.trans htalk⟩, hsent⟩
  | read c bs =>
    by_cases hc : c = conn
    · subst hc
      obtain ⟨honenext, honesent⟩ := talk?_step htalk.symm (i := .read () bs) nofun
      have honestep := store_step one (.read () bs)
      simp only [Input.readOn?, Input.own?, if_true] at hnext hsent honenext honesent ⊢
      refine ⟨⟨?_, ?_⟩, ?_⟩
      · exact hstep.trans (hstore.trans honestep.symm)
      · exact hnext.trans honenext.symm
      · rw [hsent, Option.toList_some, sentOn, sentOn, List.append_nil, honesent, hstore]
    · simp only [Input.readOn?, Input.own?, if_neg hc] at hnext hsent ⊢
      exact ⟨⟨hstep.trans hstore, hnext.trans htalk⟩, hsent⟩

/-- **A connection does not notice the others**: what is sent on it, and how it stands in the end, are
what they would be if it were the only one. -/
theorem Alongside.run {s : Server κ} {conn : κ} {one : Server Unit} {t : Talk} (h : s.Alongside conn one)
    (ht : s.talk? conn = some t) {history : List (Input κ)} (hnew : .connect conn ∉ history) :
    (s.after history).Alongside conn (one.after (history.filterMap (·.own? conn))) ∧
      s.sentOn conn history = one.sentOn () (history.filterMap (·.own? conn)) := by
  induction history generalizing s one t with
  | nil => exact ⟨h, rfl⟩
  | cons i history ih =>
    rw [List.mem_cons, not_or] at hnew
    have hsplit : (i :: history).filterMap (·.own? conn) =
        (i.own? conn).toList ++ history.filterMap (·.own? conn) := by
      rw [List.filterMap_cons]
      cases i.own? conn <;> rfl
    obtain ⟨hnext, hsent⟩ := h.step ht (Ne.symm hnew.1)
    obtain ⟨hrun, hrest⟩ := ih hnext (talk?_step ht (Ne.symm hnew.1)).1 hnew.2
    rw [hsplit, after_cons, after_append, sentOn, sentOn_append, hsent, hrest]
    exact ⟨hrun, rfl⟩

/-! ## The law -/

/-- The law of an exchange on a connection, over things that happen to a server: reads on any connections in
any fragments, ends of what clients send, new connections, and changes of the snapshot. -/
structure IsExchange (s : Server κ) (conn : κ) (history : List (Input κ)) : Prop where
  /-- At each moment, what is sent is the snapshot of the moment if it is then that the octets that have
  been read become the query, and else nothing. -/
  reply : ∀ before i after, history = before ++ i :: after →
    (s.after before).sentAt conn i =
      if Completes conn before i then (s.after before).store.current.encode else []
  /-- Nothing is sent before a reply, the server hangs up with it, and nothing is sent after it. -/
  once : ∀ before i after, history = before ++ i :: after → (s.after before).sentAt conn i ≠ [] →
    s.sentOn conn before = [] ∧ (s.after (before ++ [i])).talk? conn = some .ended ∧
      (s.after (before ++ [i])).sentOn conn after = []
  /-- A client that sends the query, in whatever pieces, gets a reply. -/
  answered : ∀ before after, history = before ++ after → heard conn before = Query.token →
    ∃ earlier i later, before = earlier ++ i :: later ∧ Completes conn earlier i ∧
      s.sentOn conn history = (s.after earlier).store.current.encode
  /-- A client whose octets stop being a beginning of the query before they are the query, or that
  finishes before that, gets nothing. -/
  silent : ∀ before after, history = before ++ after →
    (∀ earlier, earlier <+: before → heard conn earlier ≠ Query.token) →
    (¬heard conn before <+: Query.token ∨ [] ∈ readsOn conn before) → s.sentOn conn history = []
  /-- What the client gets is what it would get if its connection were the only one. -/
  alone : s.sentOn conn history = (single s.store).sentOn () (history.filterMap (·.own? conn)) ∧
    (s.after history).talk? conn = ((single s.store).after (history.filterMap (·.own? conn))).talk? ()

theorem sentOn_eq_nil_of_hopeless {s : Server κ} {conn : κ} (ht : s.talk? conn = some (.asking []))
    {before after : List (Input κ)} (hnew : .connect conn ∉ before ++ after)
    (hearlier : ∀ earlier, earlier <+: before → heard conn earlier ≠ Query.token)
    (hopeless : ¬heard conn before <+: Query.token ∨ [] ∈ readsOn conn before) :
    s.sentOn conn (before ++ after) = [] := by
  refine sentOn_eq_nil ht hnew fun sofar hsofar heq => ?_
  rcases List.prefix_or_prefix_of_prefix hsofar (List.prefix_append before after) with h | h
  · exact hearlier sofar h heq
  · rcases hopeless with hne | hend
    · exact hne (heq ▸ heard_prefix conn h)
    · -- nothing is read after the end
      obtain ⟨more, rfl⟩ := h
      rw [heard, readsOn_append, Talk.heard_append, if_pos hend, List.append_nil] at heq
      exact hearlier before List.prefix_rfl heq

/-- **The law of an exchange** holds for every connection that a listening server takes, whatever it has done
before, however many connections it has, and whatever happens from then on. -/
theorem exchange_of_connect (s : Server κ) (conn : κ) (history : List (Input κ))
    (hlisten : s.isListening = true) (hnew : .connect conn ∉ history) :
    (s.step (.connect conn)).1.IsExchange conn history := by
  have ht : (s.step (.connect conn)).1.talk? conn = some (.asking []) := by
    rw [step, if_pos hlisten]
    exact List.lookup_cons_self
  have halone : (s.step (.connect conn)).1.Alongside conn (single (s.step (.connect conn)).1.store) :=
    ⟨rfl, ht⟩
  -- from here on it matters only that the connection has just been taken
  generalize (s.step (.connect conn)).1 = s at ht halone
  constructor
  case reply =>
    rintro before i after rfl
    exact sentAt_after ht (not_mem_concat hnew)
  case once =>
    rintro before i after rfl hsent
    refine once_of_completes ht hnew ?_
    by_contra hnone
    exact hsent (by rw [sentAt_after ht (not_mem_concat hnew), if_neg hnone])
  case answered =>
    rintro before after rfl hheard
    obtain ⟨earlier, i, later, rfl, hcompletes⟩ := exists_completes hheard
    refine ⟨earlier, i, later, rfl, hcompletes, ?_⟩
    rw [List.append_assoc, List.cons_append] at hnew ⊢
    exact sentOn_of_completes ht hnew hcompletes
  case silent =>
    rintro before after rfl
    exact sentOn_eq_nil_of_hopeless ht hnew
  case alone =>
    obtain ⟨hafter, hsent⟩ := halone.run ht hnew
    exact ⟨hsent, hafter.talk⟩

/-- A query in two pieces, while another connection is answered and the snapshot changes. -/
theorem exchange_of_two_connections :
    let s : Server Nat := { store := .new 0 }
    let history : List (Input Nat) :=
      [.read 1 (Utf8.ofString "GET_"), .connect 2, .read 2 Query.token,
        .publish (.committed ⟨"found 1 error and 0 warnings", 1, 0⟩) 7, .read 2 [],
        .read 1 (Utf8.ofString "STATUS"), .publish .reset 9, .read 1 []]
    (s.isListening = true ∧ .connect 1 ∉ history) ∧
      (s.step (.connect 1)).1.IsExchange 1 history ∧
      (s.step (.connect 1)).1.sentOn 1 history =
        Snapshot.encode ⟨"found 1 error and 0 warnings", true, false, true, 7⟩ := by
  intro s history
  have hnew : .connect 1 ∉ history := by simp [history]
  refine ⟨⟨rfl, hnew⟩, exchange_of_connect s 1 history rfl hnew, ?_⟩
  decide +kernel

end Server

end WarmCheck
