import WarmCheck.Text.Utf8

/-!
# Reading encoded text

The decoder undoes the encoder, character by character, so that what is encoded is read back whatever
follows it.

* `Utf8.scanFrom_encodeChar`: the octets of a character are read as this character.
* **`Utf8.decode?_encode`**: the octets of a text are read as this text.
* `Utf8.exists_encodeChar`: what is read without a malformed run begins with the octets of a character.
* **`Utf8.decode?_eq_some_iff`**: a text is read from its own octets only.
-/

namespace WarmCheck.Utf8

theorem toNat_octet {n : Nat} (h : n < 256) : (octet n).toNat = n := by
  rw [octet, UInt8.toNat_ofNat']
  exact Nat.mod_eq_of_lt h

theorem scanFrom_cons (p : Pending) (b : UInt8) (bs : Bytes) :
    scanFrom p (b :: bs) = (step p b).1 ++ scanFrom (step p b).2 bs := by
  cases p <;> rfl

/-! ## One character -/

theorem scanFrom_wants {value left lo hi m : Nat} (hm : m < 64) (hlo : lo ≤ 0x80 + m)
    (hhi : 0x80 + m ≤ hi) (bs : Bytes) :
    scanFrom (.wants value left lo hi) (octet (0x80 + m) :: bs) =
      if left ≤ 1 then some (Char.ofNat (value * 64 + m)) :: scanFrom .idle bs
      else scanFrom (.wants (value * 64 + m) (left - 1) 0x80 0xBF) bs := by
  have hb : (octet (0x80 + m)).toNat = 0x80 + m := toNat_octet (by omega)
  have hv : 0x80 + m - 0x80 = m := by omega
  simp only [scanFrom_cons, step, hb, if_pos (And.intro hlo hhi), hv]
  split <;> rfl

theorem lead_two {k : Nat} (h2 : 2 ≤ k) (hk : k < 32) :
    lead (octet (0xC0 + k)) = ([], .wants k 1 0x80 0xBF) := by
  have hb : (octet (0xC0 + k)).toNat = 0xC0 + k := toNat_octet (by omega)
  have hv : 0xC0 + k - 0xC0 = k := by omega
  simp only [lead, hb]
  rw [if_neg (by omega), if_neg (by omega), if_pos (by omega), hv]

/-- The lead of three octets allows the next one, where that keeps the form short and is no surrogate. -/
theorem lead_three {k m : Nat} (hk : k < 16) (hm : m < 64) (h0 : k = 0 → 32 ≤ m) (h13 : k = 13 → m < 32) :
    ∃ lo hi, lead (octet (0xE0 + k)) = ([], .wants k 2 lo hi) ∧ lo ≤ 0x80 + m ∧ 0x80 + m ≤ hi := by
  have hb : (octet (0xE0 + k)).toNat = 0xE0 + k := toNat_octet (by omega)
  have hv : 0xE0 + k - 0xE0 = k := by omega
  simp only [lead, hb]
  rw [if_neg (by omega), if_neg (by omega), if_neg (by omega)]
  by_cases hz : k = 0
  · have := h0 hz
    rw [if_pos (by omega), hz]
    exact ⟨_, _, rfl, by omega, by omega⟩
  · rw [if_neg (by omega)]
    by_cases hs : k = 13
    · have := h13 hs
      rw [if_pos (by omega), hs]
      exact ⟨_, _, rfl, by omega, by omega⟩
    · rw [if_neg (by omega), if_pos (by omega), hv]
      exact ⟨_, _, rfl, by omega, by omega⟩

/-- The lead of four octets allows the next one, where that keeps the form short and the character in
range. -/
theorem lead_four {k m : Nat} (hk : k ≤ 4) (hm : m < 64) (h0 : k = 0 → 16 ≤ m) (h4 : k = 4 → m < 16) :
    ∃ lo hi, lead (octet (0xF0 + k)) = ([], .wants k 3 lo hi) ∧ lo ≤ 0x80 + m ∧ 0x80 + m ≤ hi := by
  have hb : (octet (0xF0 + k)).toNat = 0xF0 + k := toNat_octet (by omega)
  have hv : 0xF0 + k - 0xF0 = k := by omega
  simp only [lead, hb]
  rw [if_neg (by omega), if_neg (by omega), if_neg (by omega), if_neg (by omega), if_neg (by omega),
    if_neg (by omega)]
  by_cases hz : k = 0
  · have := h0 hz
    rw [if_pos (by omega), hz]
    exact ⟨_, _, rfl, by omega, by omega⟩
  · rw [if_neg (by omega)]
    by_cases hl : k = 4
    · have := h4 hl
      rw [if_neg (by omega), if_pos (by omega), hl]
      exact ⟨_, _, rfl, by omega, by omega⟩
    · rw [if_pos (by omega), hv]
      exact ⟨_, _, rfl, by omega, by omega⟩

theorem toNat_lt_or (c : Char) : c.toNat < 0xD800 ∨ 0xE000 ≤ c.toNat ∧ c.toNat < 0x110000 := by
  rcases c.valid with h | ⟨h, h'⟩
  · exact .inl h
  · exact .inr ⟨h, h'⟩

/-- The octets of a character are read as this character, whatever follows. -/
theorem scanFrom_encodeChar (c : Char) (bs : Bytes) :
    scanFrom .idle (encodeChar c ++ bs) = some c :: scanFrom .idle bs := by
  have hvalid := toNat_lt_or c
  have hc : Char.ofNat c.toNat = c := Char.ofNat_toNat c
  simp only [encodeChar]
  -- the four lengths of the form
  split
  · have hb : (octet c.toNat).toNat = c.toNat := toNat_octet (by omega)
    rw [List.singleton_append, scanFrom_cons, step, lead, hb, if_pos (by assumption), hc]
    rfl
  split
  · have hval : c.toNat / 64 * 64 + c.toNat % 64 = c.toNat := by omega
    rw [List.cons_append, List.singleton_append, scanFrom_cons, step, lead_two (by omega) (by omega),
      List.nil_append, scanFrom_wants (by omega) (by omega) (by omega), if_pos (by omega), hval, hc]
  split
  · obtain ⟨lo, hi, hlead, hlo, hhi⟩ := lead_three (k := c.toNat / 4096) (m := c.toNat / 64 % 64)
      (by omega) (by omega) (by omega) (by omega)
    have hval : (c.toNat / 4096 * 64 + c.toNat / 64 % 64) * 64 + c.toNat % 64 = c.toNat := by omega
    rw [List.cons_append, List.cons_append, List.singleton_append, scanFrom_cons, step, hlead,
      List.nil_append, scanFrom_wants (by omega) hlo hhi, if_neg (by omega),
      scanFrom_wants (by omega) (by omega) (by omega), if_pos (by omega), hval, hc]
  · obtain ⟨lo, hi, hlead, hlo, hhi⟩ := lead_four (k := c.toNat / 262144) (m := c.toNat / 4096 % 64)
      (by omega) (by omega) (by omega) (by omega)
    have hval : ((c.toNat / 262144 * 64 + c.toNat / 4096 % 64) * 64 + c.toNat / 64 % 64) * 64 +
        c.toNat % 64 = c.toNat := by omega
    rw [List.cons_append, List.cons_append, List.cons_append, List.singleton_append, scanFrom_cons, step,
      hlead, List.nil_append, scanFrom_wants (by omega) hlo hhi, if_neg (by omega),
      scanFrom_wants (by omega) (by omega) (by omega), if_neg (by omega),
      scanFrom_wants (by omega) (by omega) (by omega), if_pos (by omega), hval, hc]

/-! ## Text -/

theorem encode_append (cs ds : List Char) : encode (cs ++ ds) = encode cs ++ encode ds :=
  List.flatMap_append

theorem scan_encode (cs : List Char) : scan (encode cs) = cs.map some := by
  induction cs with
  | nil => rfl
  | cons c cs ih =>
    rw [encode, List.flatMap_cons, scan, scanFrom_encodeChar, List.map_cons]
    exact congrArg _ ih

/-- **The octets of a text are read as this text.** -/
theorem decode?_encode (cs : List Char) : decode? (encode cs) = some cs := by
  rw [decode?, scan_encode]
  induction cs with
  | nil => rfl
  | cons c cs ih => simp [List.map_cons, List.mapM_cons, ih]

theorem encode_inj {cs ds : List Char} : encode cs = encode ds ↔ cs = ds := by
  refine ⟨fun h => ?_, congrArg encode⟩
  have hdecode := decode?_encode cs
  rw [h, decode?_encode] at hdecode
  exact (Option.some.inj hdecode).symm

/-! ## Octets of text -/

theorem toNat_ofNat {n : Nat} (h : n < 0xD800 ∨ 0xE000 ≤ n ∧ n < 0x110000) : (Char.ofNat n).toNat = n := by
  have hvalid : n.isValidChar := by
    unfold Nat.isValidChar
    omega
  unfold Char.ofNat
  rw [dif_pos hvalid]
  rfl

theorem encodeChar_two {k m : Nat} (h2 : 2 ≤ k) (hk : k < 32) (hm : m < 64) :
    encodeChar (Char.ofNat (k * 64 + m)) = [octet (0xC0 + k), octet (0x80 + m)] := by
  have hn : (Char.ofNat (k * 64 + m)).toNat = k * 64 + m := toNat_ofNat (by omega)
  unfold encodeChar
  rw [hn]
  simp only [show ¬k * 64 + m < 0x80 by omega, show k * 64 + m < 0x800 by omega, if_true, if_false]
  rw [show (k * 64 + m) / 64 = k by omega, show (k * 64 + m) % 64 = m by omega]

theorem encodeChar_three {k m l : Nat} (hk : k < 16) (hm : m < 64) (hl : l < 64) (h0 : k = 0 → 32 ≤ m)
    (h13 : k = 13 → m < 32) :
    encodeChar (Char.ofNat ((k * 64 + m) * 64 + l)) = [octet (0xE0 + k), octet (0x80 + m), octet (0x80 + l)] := by
  have hn : (Char.ofNat ((k * 64 + m) * 64 + l)).toNat = (k * 64 + m) * 64 + l := toNat_ofNat (by omega)
  unfold encodeChar
  rw [hn]
  simp only [show ¬(k * 64 + m) * 64 + l < 0x80 by omega, show ¬(k * 64 + m) * 64 + l < 0x800 by omega,
    show (k * 64 + m) * 64 + l < 0x10000 by omega, if_true, if_false]
  rw [show ((k * 64 + m) * 64 + l) / 4096 = k by omega, show ((k * 64 + m) * 64 + l) / 64 % 64 = m by omega,
    show ((k * 64 + m) * 64 + l) % 64 = l by omega]

theorem encodeChar_four {k m l j : Nat} (hk : k ≤ 4) (hm : m < 64) (hl : l < 64) (hj : j < 64)
    (h0 : k = 0 → 16 ≤ m) (h4 : k = 4 → m < 16) :
    encodeChar (Char.ofNat (((k * 64 + m) * 64 + l) * 64 + j)) =
      [octet (0xF0 + k), octet (0x80 + m), octet (0x80 + l), octet (0x80 + j)] := by
  have hn : (Char.ofNat (((k * 64 + m) * 64 + l) * 64 + j)).toNat = ((k * 64 + m) * 64 + l) * 64 + j :=
    toNat_ofNat (by omega)
  unfold encodeChar
  rw [hn]
  simp only [show ¬((k * 64 + m) * 64 + l) * 64 + j < 0x80 by omega,
    show ¬((k * 64 + m) * 64 + l) * 64 + j < 0x800 by omega,
    show ¬((k * 64 + m) * 64 + l) * 64 + j < 0x10000 by omega, if_false]
  rw [show (((k * 64 + m) * 64 + l) * 64 + j) / 262144 = k by omega,
    show (((k * 64 + m) * 64 + l) * 64 + j) / 4096 % 64 = m by omega,
    show (((k * 64 + m) * 64 + l) * 64 + j) / 64 % 64 = l by omega,
    show (((k * 64 + m) * 64 + l) * 64 + j) % 64 = j by omega]

theorem octet_toNat (b : UInt8) : octet b.toNat = b := UInt8.ofNat_toNat

theorem exists_tail {value left lo hi : Nat} {bs : Bytes} (hlo : 0x80 ≤ lo) (hhi : hi ≤ 0xBF)
    (h : none ∉ scanFrom (.wants value left lo hi) bs) :
    ∃ m bs', bs = octet (0x80 + m) :: bs' ∧ m < 64 ∧ lo ≤ 0x80 + m ∧ 0x80 + m ≤ hi := by
  cases bs with
  | nil => exact absurd List.mem_cons_self h
  | cons b bs =>
    rw [scanFrom_cons, step] at h
    by_cases hb : lo ≤ b.toNat ∧ b.toNat ≤ hi
    · have hval : 0x80 + (b.toNat - 0x80) = b.toNat := by omega
      exact ⟨b.toNat - 0x80, bs, by rw [hval, octet_toNat], by omega, by omega, by omega⟩
    · rw [if_neg hb] at h
      exact absurd (List.mem_append_left _ List.mem_cons_self) h

theorem encodeChar_ne_nil (c : Char) : encodeChar c ≠ [] := by
  simp only [encodeChar]
  split
  · exact List.cons_ne_nil _ _
  · split
    · exact List.cons_ne_nil _ _
    · split <;> exact List.cons_ne_nil _ _

/-- What an octet that opens a character makes of the next one. -/
theorem lead_cases {b : UInt8} (hb : 0x80 ≤ b.toNat) (h : none ∉ (lead b).1) :
    (∃ k, b = octet (0xC0 + k) ∧ 2 ≤ k ∧ k < 32 ∧ lead b = ([], .wants k 1 0x80 0xBF)) ∨
    (∃ k lo hi, b = octet (0xE0 + k) ∧ k < 16 ∧ lead b = ([], .wants k 2 lo hi) ∧ 0x80 ≤ lo ∧ hi ≤ 0xBF ∧
      (k = 0 → 0xA0 ≤ lo) ∧ (k = 13 → hi ≤ 0x9F)) ∨
    ∃ k lo hi, b = octet (0xF0 + k) ∧ k ≤ 4 ∧ lead b = ([], .wants k 3 lo hi) ∧ 0x80 ≤ lo ∧ hi ≤ 0xBF ∧
      (k = 0 → 0x90 ≤ lo) ∧ (k = 4 → hi ≤ 0x8F) := by
  have hoctet (n k : Nat) (hn : b.toNat = n + k) : b = octet (n + k) := by rw [← hn, octet_toNat]
  simp only [lead] at h ⊢
  rw [if_neg (by omega)] at h ⊢
  split at h
  · exact absurd List.mem_cons_self h
  · next h2 =>
    rw [if_neg h2]
    split
    · exact .inl ⟨b.toNat - 0xC0, hoctet 0xC0 _ (by omega), by omega, by omega, rfl⟩
    split
    · exact .inr (.inl ⟨0, _, _, hoctet 0xE0 0 (by omega), by omega, rfl, by omega⟩)
    split
    · exact .inr (.inl ⟨13, _, _, hoctet 0xE0 13 (by omega), by omega, rfl, by omega⟩)
    split
    · exact .inr (.inl ⟨b.toNat - 0xE0, _, _, hoctet 0xE0 _ (by omega), by omega, rfl, by omega⟩)
    split
    · exact .inr (.inr ⟨0, _, _, hoctet 0xF0 0 (by omega), by omega, rfl, by omega⟩)
    split
    · exact .inr (.inr ⟨b.toNat - 0xF0, _, _, hoctet 0xF0 _ (by omega), by omega, rfl, by omega⟩)
    split
    · exact .inr (.inr ⟨4, _, _, hoctet 0xF0 4 (by omega), by omega, rfl, by omega⟩)
    · simp_all

/-- What is read without a malformed run begins with the octets of a character. -/
theorem exists_encodeChar {b : UInt8} {bs : Bytes} (h : none ∉ scanFrom .idle (b :: bs)) :
    ∃ c rest, b :: bs = encodeChar c ++ rest := by
  rw [scanFrom_cons, step, List.mem_append, not_or] at h
  by_cases hb : b.toNat < 0x80
  · have hc : (Char.ofNat b.toNat).toNat = b.toNat := toNat_ofNat (by omega)
    exact ⟨Char.ofNat b.toNat, bs, by simp [encodeChar, hc, hb, octet_toNat]⟩
  obtain ⟨hhead, hrest⟩ := h
  rcases lead_cases (by omega) hhead with ⟨k, rfl, h2, hk, hlead⟩ | ⟨k, lo, hi, rfl, hk, hlead, hlo, hhi, h0, h13⟩ |
    ⟨k, lo, hi, rfl, hk, hlead, hlo, hhi, h0, h4⟩ <;> rw [hlead] at hrest
  · obtain ⟨m, bs, rfl, hm, -, -⟩ := exists_tail (by omega) (by omega) hrest
    exact ⟨_, bs, by rw [encodeChar_two h2 hk hm]; rfl⟩
  · obtain ⟨m, bs, rfl, hm, hlom, hhim⟩ := exists_tail hlo hhi hrest
    rw [scanFrom_wants hm hlom hhim, if_neg (by omega)] at hrest
    obtain ⟨l, bs, rfl, hl, -, -⟩ := exists_tail (by omega) (by omega) hrest
    exact ⟨_, bs, by rw [encodeChar_three hk hm hl (by omega) (by omega)]; rfl⟩
  · obtain ⟨m, bs, rfl, hm, hlom, hhim⟩ := exists_tail hlo hhi hrest
    rw [scanFrom_wants hm hlom hhim, if_neg (by omega)] at hrest
    obtain ⟨l, bs, rfl, hl, hlol, hhil⟩ := exists_tail (by omega) (by omega) hrest
    rw [scanFrom_wants hl hlol hhil, if_neg (by omega)] at hrest
    obtain ⟨j, bs, rfl, hj, -, -⟩ := exists_tail (by omega) (by omega) hrest
    exact ⟨_, bs, by rw [encodeChar_four hk hm hl hj (by omega) (by omega)]; rfl⟩

theorem exists_encode {bs : Bytes} (h : none ∉ scan bs) : ∃ cs, bs = encode cs := by
  induction hn : bs.length using Nat.strongRecOn generalizing bs with
  | _ n ih =>
    cases bs with
    | nil => exact ⟨[], rfl⟩
    | cons b bs =>
      obtain ⟨c, rest, hsplit⟩ := exists_encodeChar h
      rw [hsplit, scan, scanFrom_encodeChar, List.mem_cons, not_or] at h
      have hlen : rest.length < n := by
        have hpos := List.length_pos_iff.mpr (encodeChar_ne_nil c)
        rw [← hn, hsplit, List.length_append]
        omega
      obtain ⟨cs, hcs⟩ := ih rest.length hlen h.2 rfl
      exact ⟨c :: cs, by rw [hsplit, hcs]; rfl⟩

theorem none_not_mem_of_mapM {α : Type} {os : List (Option α)} {xs : List α} (h : os.mapM id = some xs) :
    none ∉ os := by
  induction os generalizing xs with
  | nil => exact List.not_mem_nil
  | cons o os ih =>
    cases o with
    | none => simp at h
    | some x =>
      simp only [List.mapM_cons, id, Option.bind_eq_bind, Option.bind_some, Option.pure_def] at h
      obtain ⟨ys, hys, -⟩ := Option.bind_eq_some_iff.mp h
      simpa using ih hys

/-- **A text is read from its own octets only.** -/
theorem decode?_eq_some_iff {bs : Bytes} {cs : List Char} : decode? bs = some cs ↔ bs = encode cs := by
  constructor
  · intro h
    obtain ⟨ds, rfl⟩ := exists_encode (none_not_mem_of_mapM h)
    rw [decode?_encode] at h
    rw [Option.some.inj h]
  · rintro rfl
    exact decode?_encode cs

end WarmCheck.Utf8
