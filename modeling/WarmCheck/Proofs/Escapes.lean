import WarmCheck.Proofs.Quoting
import WarmCheck.Proofs.Utf8

/-!
# Ways to write a text

One text can stand in a string in many ways: each character for itself, by a letter behind a backslash, by its code in
hexadecimal, or by the codes of two surrogates. All of them are read as this text, and nothing else is.

* `Json.Denotes`: what is written, and the text that it denotes.
* `Json.unescape?_eq_some_iff`: escapes are read as the text that they denote.
* **`Json.textOf?_eq_some_iff`**: when the body of a string is read as a text.
-/

namespace WarmCheck.Json

/-- The code of the first surrogate for a character. -/
def highHalf (c : Char) : Nat := 0xD800 + (c.toNat - 0x10000) / 0x400

/-- The code of the second surrogate for a character. -/
def lowHalf (c : Char) : Nat := 0xDC00 + (c.toNat - 0x10000) % 0x400

/-- What is written, in the first place, denotes a text. A surrogate by itself denotes nothing. -/
inductive Denotes : List Char → List Char → Prop where
  | nil : Denotes [] []
  | plain {c : Char} {w cs : List Char} (hc : c ≠ '\\') (h : Denotes w cs) : Denotes (c :: w) (c :: cs)
  | letter {d c : Char} {w cs : List Char} (hc : unescaped? d = some c) (h : Denotes w cs) :
    Denotes ('\\' :: d :: w) (c :: cs)
  | code {x y z t c : Char} {w cs : List Char} (hc : unit? x y z t = some c.toNat) (h : Denotes w cs) :
    Denotes ('\\' :: 'u' :: x :: y :: z :: t :: w) (c :: cs)
  | pair {x y z t x' y' z' t' c : Char} {w cs : List Char} (hc : 0x10000 ≤ c.toNat)
    (hhigh : unit? x y z t = some (highHalf c)) (hlow : unit? x' y' z' t' = some (lowHalf c)) (h : Denotes w cs) :
    Denotes ('\\' :: 'u' :: x :: y :: z :: t :: '\\' :: 'u' :: x' :: y' :: z' :: t' :: w) (c :: cs)

/-- The body of a string denotes a text: it is the UTF-8 of something that does. -/
def Means (body : Bytes) (cs : List Char) : Prop := ∃ w, body = Utf8.encode w ∧ Denotes w cs

/-! ## Codes -/

theorem hexValue?_lt {c : Char} {n : Nat} (h : hexValue? c = some n) : n < 16 := by
  have hrange : ∀ {a b : Char}, a ≤ c ∧ c ≤ b → a.toNat ≤ c.toNat ∧ c.toNat ≤ b.toNat := fun hc =>
    hc.imp UInt32.le_iff_toNat_le.mp UInt32.le_iff_toNat_le.mp
  unfold hexValue? at h
  split at h
  · next hc =>
    have : ('9').toNat = 57 := rfl
    have := (hrange hc).2
    cases h
    omega
  · split at h
    · next hc =>
      have : ('f').toNat = 102 := rfl
      have := (hrange hc).2
      cases h
      omega
    · split at h
      · next hc =>
        have : ('F').toNat = 70 := rfl
        have := (hrange hc).2
        cases h
        omega
      · cases h

theorem unit?_lt {x y z t : Char} {n : Nat} (h : unit? x y z t = some n) : n < 0x10000 := by
  simp only [unit?, Option.bind_eq_bind, Option.bind_eq_some_iff, Option.pure_def, Option.some.injEq] at h
  obtain ⟨a, ha, b, hb, c, hc, d, hd, rfl⟩ := h
  have := hexValue?_lt ha
  have := hexValue?_lt hb
  have := hexValue?_lt hc
  have := hexValue?_lt hd
  omega

theorem isHighSurrogate_iff {n : Nat} : isHighSurrogate n = true ↔ 0xD800 ≤ n ∧ n < 0xDC00 := by
  rw [isHighSurrogate, Bool.and_eq_true, decide_eq_true_iff, decide_eq_true_iff]

theorem isLowSurrogate_iff {n : Nat} : isLowSurrogate n = true ↔ 0xDC00 ≤ n ∧ n < 0xE000 := by
  rw [isLowSurrogate, Bool.and_eq_true, decide_eq_true_iff, decide_eq_true_iff]

theorem isHighSurrogate_highHalf {c : Char} (hc : 0x10000 ≤ c.toNat) : isHighSurrogate (highHalf c) = true := by
  have := Utf8.toNat_lt_or c
  rw [isHighSurrogate_iff, highHalf]
  omega

theorem isLowSurrogate_lowHalf (c : Char) : isLowSurrogate (lowHalf c) = true := by
  rw [isLowSurrogate_iff, lowHalf]
  omega

theorem halves_eq {c : Char} (hc : 0x10000 ≤ c.toNat) :
    0x10000 + (highHalf c - 0xD800) * 0x400 + (lowHalf c - 0xDC00) = c.toNat := by
  rw [highHalf, lowHalf]
  omega

/-! ## What denotes a text is read as it -/

theorem unescape?_pair {x y z t x' y' z' t' c : Char} {n m : Nat} (hn : unit? x y z t = some n)
    (hm : unit? x' y' z' t' = some m) (hhigh : isHighSurrogate n = true) (hlow : isLowSurrogate m = true)
    (hc : 0x10000 + (n - 0xD800) * 0x400 + (m - 0xDC00) = c.toNat) (rest : List Char) :
    unescape? ('\\' :: 'u' :: x :: y :: z :: t :: '\\' :: 'u' :: x' :: y' :: z' :: t' :: rest) =
      (unescape? rest).map (c :: ·) := by
  rw [unescape?, hn]
  simp only [Option.bind_eq_bind, Option.bind_some, hhigh, if_true, hm, hlow, hc, Char.ofNat_toNat, Option.pure_def]
  cases unescape? rest <;> rfl

theorem unescape?_of_denotes {w cs : List Char} (h : Denotes w cs) : unescape? w = some cs := by
  induction h with
  | nil => rfl
  | plain hc _ ih => rw [unescape?_plain hc, ih, Option.map_some]
  | @letter d c w cs hc _ ih =>
    have hu : d ≠ 'u' := by rintro rfl; cases hc
    rw [unescape?_letter hc hu, ih, Option.map_some]
  | code hc _ ih => rw [unescape?_code hc, ih, Option.map_some]
  | @pair _ _ _ _ _ _ _ _ c _ _ hc hhigh hlow _ ih =>
    rw [unescape?_pair hhigh hlow (isHighSurrogate_highHalf hc) (isLowSurrogate_lowHalf c) (halves_eq hc), ih,
      Option.map_some]

/-! ## What is read as a text denotes it -/

theorem exists_char {n : Nat} (h : n < 0xD800 ∨ 0xE000 ≤ n ∧ n < 0x110000) : ∃ c, Char.ofNat n = c ∧ c.toNat = n :=
  ⟨_, rfl, Utf8.toNat_ofNat h⟩

theorem denotes_of_unescape? {w cs : List Char} (h : unescape? w = some cs) : Denotes w cs := by
  fun_induction unescape? w generalizing cs with
  | case1 =>
    cases h
    exact .nil
  | case2 x y z t rest ihPair ihCode =>
    obtain ⟨n, hn, h⟩ := Option.bind_eq_some_iff.mp h
    have hmax := unit?_lt hn
    split at h
    · next hhigh =>
      rw [isHighSurrogate_iff] at hhigh
      split at h
      · obtain ⟨m, hm, h⟩ := Option.bind_eq_some_iff.mp h
        split at h
        · next hlow =>
          rw [isLowSurrogate_iff] at hlow
          obtain ⟨ds, hds, heq⟩ := Option.bind_eq_some_iff.mp h
          cases heq
          obtain ⟨c, hchar, hc⟩ := exists_char (n := 0x10000 + (n - 0xD800) * 0x400 + (m - 0xDC00)) (by omega)
          have hfirst : highHalf c = n := by rw [highHalf, hc]; omega
          have hsecond : lowHalf c = m := by rw [lowHalf, hc]; omega
          rw [hchar]
          exact .pair (by omega) (hfirst.symm ▸ hn) (hsecond.symm ▸ hm) (ihPair hds)
        · cases h
      · cases h
    · next hhigh =>
      split at h
      · cases h
      · next hlow =>
        rw [isHighSurrogate_iff] at hhigh
        rw [isLowSurrogate_iff] at hlow
        obtain ⟨ds, hds, heq⟩ := Option.bind_eq_some_iff.mp h
        cases heq
        obtain ⟨c, hchar, hc⟩ := exists_char (n := n) (by omega)
        rw [hchar]
        exact .code (hc.symm ▸ hn) (ihCode hds)
  | case3 d rest _ ih =>
    obtain ⟨c, hc, h⟩ := Option.bind_eq_some_iff.mp h
    obtain ⟨ds, hds, heq⟩ := Option.bind_eq_some_iff.mp h
    cases heq
    exact .letter hc (ih hds)
  | case4 => cases h
  | case5 c rest _ hletter hlast ih =>
    obtain ⟨ds, hds, heq⟩ := Option.bind_eq_some_iff.mp h
    cases heq
    refine .plain (fun hc => ?_) (ih hds)
    cases rest with
    | nil => exact hlast hc rfl
    | cons d rest => exact hletter d rest hc rfl

theorem unescape?_eq_some_iff {w cs : List Char} : unescape? w = some cs ↔ Denotes w cs :=
  ⟨denotes_of_unescape?, unescape?_of_denotes⟩

/-- **The body of a string is read as a text exactly if it denotes the text.** -/
theorem textOf?_eq_some_iff {body : Bytes} {cs : List Char} : textOf? body = some cs ↔ Means body cs := by
  rw [textOf?, Option.bind_eq_some_iff, Means]
  exact exists_congr fun w => and_congr Utf8.decode?_eq_some_iff unescape?_eq_some_iff

theorem Means.unique {body : Bytes} {cs ds : List Char} (hcs : Means body cs) (hds : Means body ds) : cs = ds := by
  rw [← textOf?_eq_some_iff] at hcs hds
  exact Option.some.inj (hcs.symm.trans hds)

end WarmCheck.Json
