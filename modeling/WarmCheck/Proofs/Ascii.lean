import Mathlib.Tactic.Ring
import Mathlib.Tactic.SplitIfs
import WarmCheck.Proofs.Utf8

/-!
# Single octets in decoded text

A character below 128 is read only where its own octet stands: the octets of a longer character never give
one, since each of them is 128 or more and what they gather is too large.

* `Utf8.Pending.IsWide`: the invariant of the decoder, that an open character is no character of one octet.
* **`Utf8.mem_of_mem_decodeLossy`**: the octet of such a character is among the octets that are decoded.
-/

namespace WarmCheck.Utf8

/-- What is gathered of an open character makes it one of two octets or more. -/
def Pending.IsWide : Pending → Prop
  | .idle => True
  | .wants value left lo _ => 1 ≤ left ∧ 0x80 ≤ value * 64 ^ left + (lo - 0x80) * 64 ^ (left - 1)

theorem isWide_lead (b : UInt8) : (lead b).2.IsWide := by
  simp only [lead]
  split_ifs <;> simp only [Pending.IsWide] <;> omega

theorem isWide_step {p : Pending} (h : p.IsWide) (b : UInt8) : (step p b).2.IsWide := by
  cases p with
  | idle => exact isWide_lead b
  | wants value left lo hi =>
    obtain ⟨hleft, hwide⟩ := h
    simp only [step]
    split_ifs with hb hl
    · trivial
    · obtain ⟨k, rfl⟩ : ∃ k, left = k + 2 := ⟨left - 2, by omega⟩
      refine ⟨by omega, ?_⟩
      have hmono : (lo - 0x80) * 64 ^ (k + 1) ≤ (b.toNat - 0x80) * 64 ^ (k + 1) :=
        Nat.mul_le_mul_right _ (by omega)
      have hpow : value * 64 ^ (k + 2) = value * 64 * 64 ^ (k + 1) := by ring
      simp only [Nat.add_sub_cancel, Nat.add_mul, Nat.reduceSubDiff] at hwide ⊢
      omega
    · exact isWide_lead b

theorem toNat_ofNat_le (n : Nat) : (Char.ofNat n).toNat = n ∨ (Char.ofNat n).toNat = 0 := by
  by_cases h : n.isValidChar
  · exact .inl (by rw [Char.ofNat, dif_pos h]; rfl)
  · exact .inr (by rw [Char.ofNat, dif_neg h]; rfl)

/-- A character of a single octet is only read where this octet stands. -/
theorem eq_of_mem_lead {c : Char} (h0 : 0 < c.toNat) {b : UInt8} (h : some c ∈ (lead b).1) :
    b.toNat = c.toNat := by
  simp only [lead] at h
  split_ifs at h with hb <;> simp at h
  subst h
  rcases toNat_ofNat_le b.toNat with hn | hn <;> omega

theorem eq_of_mem_step {c : Char} (h0 : 0 < c.toNat) (hc : c.toNat < 0x80) {p : Pending} (hp : p.IsWide)
    {b : UInt8} (h : some c ∈ (step p b).1) : b.toNat = c.toNat := by
  cases p with
  | idle => exact eq_of_mem_lead h0 h
  | wants value left lo hi =>
    obtain ⟨hleft, hwide⟩ := hp
    simp only [step] at h
    split_ifs at h with hb hl
    · -- an open character that is finished here is too large
      obtain rfl : left = 1 := by omega
      have hval : c = Char.ofNat (value * 64 + (b.toNat - 0x80)) := Option.some.inj (List.mem_singleton.mp h)
      rcases toNat_ofNat_le (value * 64 + (b.toNat - 0x80)) with hn | hn <;> rw [← hval] at hn <;> omega
    · simp at h
    · simp only [List.mem_cons, reduceCtorEq, false_or] at h
      exact eq_of_mem_lead h0 h

theorem mem_of_mem_scanFrom {c : Char} (h0 : 0 < c.toNat) (hc : c.toNat < 0x80) {bs : Bytes} {p : Pending}
    (hp : p.IsWide) (h : some c ∈ scanFrom p bs) : octet c.toNat ∈ bs := by
  induction bs generalizing p with
  | nil => cases p <;> simp [scanFrom] at h
  | cons b bs ih =>
    rw [scanFrom_cons, List.mem_append] at h
    rcases h with h | h
    · have hb : b = octet c.toNat := by
        rw [← UInt8.toNat_inj, toNat_octet (by omega)]
        exact eq_of_mem_step h0 hc hp h
      exact hb ▸ List.mem_cons_self
    · exact List.mem_cons_of_mem b (ih (isWide_step hp b) h)

theorem mem_of_mem_decodeLossy {c : Char} (h0 : 0 < c.toNat) (hc : c.toNat < 0x80) {bs : Bytes}
    (h : c ∈ decodeLossy bs) : octet c.toNat ∈ bs := by
  obtain ⟨x, hx, hxc⟩ := List.mem_map.mp h
  cases x with
  | none =>
    rw [Option.getD_none] at hxc
    subst hxc
    exact absurd hc (by decide)
  | some d =>
    rw [Option.getD_some] at hxc
    exact mem_of_mem_scanFrom h0 hc (p := .idle) trivial (hxc ▸ hx)

end WarmCheck.Utf8
