import Mathlib.Data.List.Induction
import Mathlib.Data.Nat.Digits.Defs
import WarmCheck.Line
import WarmCheck.Marker
import WarmCheck.Proofs.Utf8

/-!
# Numbers in decimal

Numbers are written in ASCII digits without leading zeros and read back by their value. A run of ASCII
digits has the value zero only if it consists of zeros.

* `Text.decimalValue_decimal`: a number is read as it was written.
* `Text.decimalValue_eq_zero_iff`, `Line.countOf_eq_zero_iff`: when digits stand for zero.
* `Marker.number?_signed`: a number is read with its sign.
* **`Marker.pid?_contentOf`**: a marker names the process that it was written for.
-/

namespace WarmCheck

namespace Text

/-! ## Digits -/

theorem isDigit_iff {c : Char} : c.isDigit = true ↔ 48 ≤ c.toNat ∧ c.toNat ≤ 57 := by
  simp only [Char.isDigit, Bool.and_eq_true, decide_eq_true_eq]
  exact and_congr UInt32.le_iff_toNat_le UInt32.le_iff_toNat_le

theorem not_isBlank_of_isDigit {c : Char} (h : c.isDigit = true) : isBlank c = false := by
  obtain ⟨h1, h2⟩ := isDigit_iff.mp h
  rw [isBlank, List.any_eq_false]
  intro r hr
  simp only [blankRanges, List.mem_cons, List.not_mem_nil, or_false] at hr
  simp only [Bool.and_eq_true, decide_eq_true_eq]
  rcases hr with rfl | rfl | rfl | rfl | rfl | rfl | rfl | rfl | rfl | rfl <;> simp only <;> omega

theorem isDigit_of_mem_decimal {n : Nat} {c : Char} (h : c ∈ decimal n) : c.isDigit = true :=
  Nat.isDigit_of_mem_toDigits (by decide) (Nat.le_refl 10) h

theorem decimal_ne_nil (n : Nat) : decimal n ≠ [] := Nat.toDigits_ne_nil

theorem decimalValue_decimal (n : Nat) : decimalValue (decimal n) = n := by
  have h := @Nat.ofDigitChars_ten_toDigits n
  rw [Nat.ofDigitChars_eq_foldl] at h
  exact h

theorem head_decimal_ne_zero {n : Nat} (h : 0 < n) : (decimal n).head? ≠ some '0' := by
  induction n using Nat.strongRecOn with
  | ind n ih =>
    rw [decimal, Nat.toDigits_eq_if (by decide)]
    split
    · next hlt =>
      rw [List.head?_cons, ne_eq, Option.some.injEq]
      intro hc
      have := congrArg digitValue hc
      rw [digitValue, Nat.toNat_digitChar_of_lt_ten hlt] at this
      simp only [digitValue] at this
      have hz : ('0').toNat = 48 := rfl
      omega
    · next hge =>
      obtain ⟨d, ds, hds⟩ := List.exists_cons_of_ne_nil (decimal_ne_nil (n / 10))
      have hhead := ih (n / 10) (by omega) (by omega)
      rw [decimal] at hds hhead
      rw [hds] at hhead ⊢
      exact hhead

theorem decimalValue_eq_ofDigits (ds : List Char) :
    decimalValue ds = Nat.ofDigits 10 (ds.reverse.map digitValue) := by
  induction ds using List.reverseRecOn with
  | nil => rfl
  | append_singleton ds d ih =>
    rw [decimalValue, List.foldl_append, ← decimalValue, ih, List.reverse_concat, List.map_cons, Nat.ofDigits_cons]
    exact Nat.add_comm _ _

/-! ## Zero -/

theorem foldl_digits_eq_zero_iff (ds : List Char) (init : Nat) :
    ds.foldl (fun n d => 10 * n + digitValue d) init = 0 ↔ init = 0 ∧ ∀ d ∈ ds, digitValue d = 0 := by
  induction ds generalizing init with
  | nil => simp
  | cons d ds ih =>
    have hnext : 10 * init + digitValue d = 0 ↔ init = 0 ∧ digitValue d = 0 := by omega
    rw [List.foldl_cons, ih, List.forall_mem_cons, hnext, and_assoc]

theorem decimalValue_eq_zero_iff {ds : List Char} (h : ds.all Char.isDigit = true) :
    decimalValue ds = 0 ↔ ∀ d ∈ ds, d = '0' := by
  rw [decimalValue, foldl_digits_eq_zero_iff]
  constructor
  · rintro ⟨-, hz⟩ d hd
    have hdigit := isDigit_iff.mp (List.all_eq_true.mp h d hd)
    have hv := hz d hd
    rw [digitValue] at hv
    exact Char.toNat_inj.mp (by have : ('0').toNat = 48 := rfl; omega)
  · intro hz
    exact ⟨rfl, fun d hd => by rw [hz d hd]; rfl⟩

end Text

/-- A count is zero only if it is written with ASCII zeros alone: neither a count that is too large nor
one in other digits is taken for zero. -/
theorem Line.countOf_eq_zero_iff (ds : List Char) : countOf ds = 0 ↔ ∀ d ∈ ds, d = '0' := by
  rw [countOf]
  split
  · next h => exact Text.decimalValue_eq_zero_iff h.1
  · next h =>
    refine ⟨fun hm => absurd hm (by decide), fun hz => absurd ⟨?_, ?_⟩ h⟩
    · exact List.all_eq_true.mpr fun d hd => by rw [hz d hd]; rfl
    · have hall : ds.all Char.isDigit = true := List.all_eq_true.mpr fun d hd => by rw [hz d hd]; rfl
      rw [(Text.decimalValue_eq_zero_iff hall).mpr hz]
      exact Nat.zero_le _

/-! ## Markers -/

namespace Marker

theorem trim_eq_self {cs : List Char} (h : ∀ c ∈ cs, Text.isBlank c = false) : Text.trim cs = cs := by
  have hdrop : ∀ ds : List Char, (∀ c ∈ ds, Text.isBlank c = false) → ds.dropWhile Text.isBlank = ds := by
    intro ds hds
    cases ds with
    | nil => rfl
    | cons d ds => rw [List.dropWhile_cons_of_neg (by simp [hds d List.mem_cons_self])]
  rw [Text.trim, Text.trimStart, hdrop cs h, Text.trimEnd, hdrop cs.reverse (by simpa using h),
    List.reverse_reverse]

/-- The sign of a number, where one is written. -/
inductive Sign where
  | none
  | plus
  | minus

/-- How a sign is written. -/
def Sign.text : Sign → List Char
  | none => []
  | plus => ['+']
  | minus => ['-']

/-- What a sign makes of a number. -/
def Sign.factor : Sign → Int
  | none | plus => 1
  | minus => -1

/-- A number is read with its sign, if it is within the limits. -/
theorem number?_signed (sign : Sign) {ds : List Char} (hne : ds ≠ []) (hdigits : ∀ d ∈ ds, d.isDigit = true) :
    number? (sign.text ++ ds) =
      if minPid ≤ sign.factor * (Text.decimalValue ds : Int) ∧ sign.factor * (Text.decimalValue ds : Int) ≤ maxPid
      then some (sign.factor * (Text.decimalValue ds : Int)) else none := by
  have hnumber : ds ≠ [] ∧ ds.all Char.isDigit = true := ⟨hne, List.all_eq_true.mpr hdigits⟩
  cases sign with
  | plus | minus => exact if_pos hnumber
  | none =>
    show number? ds = _
    unfold number?
    split
    next heq =>
      split at heq
      -- a digit is no sign
      · exact absurd (hdigits '+' List.mem_cons_self) (by decide)
      · exact absurd (hdigits '-' List.mem_cons_self) (by decide)
      · cases heq
        exact if_pos hnumber

theorem number?_decimal (n : Nat) : number? (Text.decimal n) = if (n : Int) ≤ maxPid then some (n : Int) else none := by
  have hmin : minPid ≤ (n : Int) := by
    unfold minPid
    omega
  have hnumber := number?_signed .none (Text.decimal_ne_nil n) fun d hd => Text.isDigit_of_mem_decimal hd
  rw [Text.decimalValue_decimal, Sign.factor, Int.one_mul] at hnumber
  exact hnumber.trans (if_congr (and_iff_right hmin) rfl rfl)

theorem pid?_contentOf_eq (n : Nat) : pid? (contentOf n) = if (n : Int) ≤ maxPid then some (n : Int) else none := by
  have htrim : Text.trim (Text.decimal n) = Text.decimal n :=
    trim_eq_self fun c hc => Text.not_isBlank_of_isDigit (Text.isDigit_of_mem_decimal hc)
  rw [pid?, contentOf, Utf8.decode?_encode, Option.bind_some, htrim, number?_decimal]

/-- **A marker names the process that it was written for.** -/
theorem pid?_contentOf {n : Nat} (h : (n : Int) ≤ maxPid) : pid? (contentOf n) = some (n : Int) := by
  rw [pid?_contentOf_eq, if_pos h]

/-- A marker names no other process than the one that it was written for. -/
theorem eq_of_pid?_contentOf {m n : Nat} (h : pid? (contentOf m) = some (n : Int)) : m = n := by
  rw [pid?_contentOf_eq] at h
  split at h
  · exact Int.ofNat.inj (Option.some.inj h)
  · cases h

end Marker

end WarmCheck
