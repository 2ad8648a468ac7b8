import Mathlib.Data.Nat.Digits.Lemmas
import WarmCheck.Daemon.Artifacts
import WarmCheck.Proofs.Decimal

/-!
# One marker written over another

Two processes that have one file open write their numbers over one another, each from the beginning of the file on.
What stays of the longer number makes the file name another process, or none.

* `Marker.pid?_encode`: digits are read by their value.
* `Text.decimalValue_eq_iff`: digits as many as those of a number stand for it only if they are its own.
* **`Marker.pid?_overlay_later`**, **`Marker.pid?_overlay_earlier`**: when the file still names the process that has
  written later, or earlier.
-/

namespace WarmCheck

namespace Text

theorem decimalValue_append (ds es : List Char) :
    decimalValue (ds ++ es) = decimalValue ds * 10 ^ es.length + decimalValue es := by
  simp only [decimalValue_eq_ofDigits, List.reverse_append, List.map_append, Nat.ofDigits_append, List.length_map,
    List.length_reverse]
  rw [Nat.add_comm, Nat.mul_comm]

theorem digitChar_digitValue {d : Char} (h : d.isDigit = true) : Nat.digitChar (digitValue d) = d := by
  have hrange := isDigit_iff.mp h
  have hzero : ('0').toNat = 48 := rfl
  rw [← Char.toNat_inj, Nat.toNat_digitChar_of_lt_ten (by rw [digitValue]; omega), digitValue]
  omega

theorem eq_of_map_digitValue {ds es : List Char} (hds : ∀ d ∈ ds, d.isDigit = true)
    (hes : ∀ d ∈ es, d.isDigit = true) (h : ds.map digitValue = es.map digitValue) : ds = es := by
  have hback : ∀ {cs : List Char}, (∀ d ∈ cs, d.isDigit = true) → (cs.map digitValue).map Nat.digitChar = cs := by
    intro cs hcs
    rw [List.map_map]
    exact (List.map_congr_left fun d hd => digitChar_digitValue (hcs d hd)).trans (List.map_id' cs)
  rw [← hback hds, h, hback hes]

/-- Digits as many as those of a number stand for it only if they are its own. -/
theorem decimalValue_eq_iff {ds : List Char} {n : Nat} (hdigits : ∀ d ∈ ds, d.isDigit = true)
    (hlength : ds.length = (decimal n).length) : decimalValue ds = n ↔ ds = decimal n := by
  refine ⟨fun h => ?_, fun h => by rw [h, decimalValue_decimal]⟩
  have hsmall : ∀ {es : List Char}, (∀ d ∈ es, d.isDigit = true) → ∀ k ∈ es.reverse.map digitValue, k < 10 := by
    intro es hes k hk
    obtain ⟨d, hd, rfl⟩ := List.mem_map.mp hk
    have hrange := isDigit_iff.mp (hes d (List.mem_reverse.mp hd))
    rw [digitValue]
    omega
  have hown : ∀ d ∈ decimal n, d.isDigit = true := fun _ => isDigit_of_mem_decimal
  have hvalues :
      Nat.ofDigits 10 (ds.reverse.map digitValue) = Nat.ofDigits 10 ((decimal n).reverse.map digitValue) := by
    rw [← decimalValue_eq_ofDigits, ← decimalValue_eq_ofDigits, decimalValue_decimal, h]
  have hreverse :=
    Nat.ofDigits_inj_of_len_eq (by decide) (by simpa using hlength) (hsmall hdigits) (hsmall hown) hvalues
  rw [List.map_reverse, List.map_reverse, List.reverse_inj] at hreverse
  exact eq_of_map_digitValue hdigits hown hreverse

/-- More digits behind those of a number stand for a greater one. -/
theorem lt_decimalValue_append {n : Nat} (hn : 0 < n) {ds : List Char} (hne : ds ≠ []) :
    n < decimalValue (decimal n ++ ds) := by
  have hpow : 10 ≤ 10 ^ ds.length := Nat.le_self_pow (by simpa using hne) 10
  calc n < n * 10 := by omega
    _ ≤ n * 10 ^ ds.length := Nat.mul_le_mul_left n hpow
    _ ≤ decimalValue (decimal n ++ ds) := by rw [decimalValue_append, decimalValue_decimal]; exact Nat.le_add_right _ _

end Text

namespace Marker

open Daemon.Slot (overlay)

/-- Digits are read by their value. -/
theorem pid?_encode {ds : List Char} (hne : ds ≠ []) (hdigits : ∀ d ∈ ds, d.isDigit = true) {n : Nat}
    (hn : (n : Int) ≤ maxPid) : pid? (Utf8.encode ds) = some (n : Int) ↔ Text.decimalValue ds = n := by
  have htrim : Text.trim ds = ds := trim_eq_self fun c hc => Text.not_isBlank_of_isDigit (hdigits c hc)
  have hnumber : number? ds = if minPid ≤ (Text.decimalValue ds : Int) ∧ (Text.decimalValue ds : Int) ≤ maxPid
      then some (Text.decimalValue ds : Int) else none := by
    have hsigned := number?_signed .none hne hdigits
    rwa [Sign.factor, Int.one_mul] at hsigned
  have hmin : minPid ≤ (n : Int) := by
    unfold minPid
    omega
  rw [pid?, Utf8.decode?_encode, Option.bind_some, htrim, hnumber]
  constructor
  · intro h
    split at h
    · exact Int.ofNat.inj (Option.some.inj h)
    · cases h
  · rintro rfl
    exact if_pos ⟨hmin, hn⟩

/-- The octets of digits are as many as the digits. -/
theorem encode_of_isDigit {ds : List Char} (h : ∀ d ∈ ds, d.isDigit = true) :
    Utf8.encode ds = ds.map fun d => Utf8.octet d.toNat := by
  induction ds with
  | nil => rfl
  | cons d ds ih =>
    have hd := Text.isDigit_iff.mp (h d List.mem_cons_self)
    have hone : Utf8.encodeChar d = [Utf8.octet d.toNat] := if_pos (by omega)
    rw [Utf8.encode, List.flatMap_cons, hone, List.singleton_append, List.map_cons, ← Utf8.encode,
      ih fun e he => h e (List.mem_cons_of_mem d he)]

theorem contentOf_eq (n : Nat) : contentOf n = (Text.decimal n).map fun d => Utf8.octet d.toNat :=
  encode_of_isDigit fun _ => Text.isDigit_of_mem_decimal

theorem length_contentOf (n : Nat) : (contentOf n).length = (Text.decimal n).length := by
  rw [contentOf_eq, List.length_map]

/-- What remains of one number under another is digits. -/
theorem overlay_contentOf (n m : Nat) :
    overlay (contentOf n) (contentOf m) =
      Utf8.encode (Text.decimal n ++ (Text.decimal m).drop (Text.decimal n).length) := by
  have hrest : ∀ d ∈ (Text.decimal m).drop (Text.decimal n).length, d.isDigit = true := fun d hd =>
    Text.isDigit_of_mem_decimal (List.mem_of_mem_drop hd)
  rw [Utf8.encode_append, encode_of_isDigit hrest, List.map_drop, ← contentOf_eq, overlay, length_contentOf]
  rfl

theorem isDigit_of_mem_overlay {n m : Nat} {d : Char}
    (h : d ∈ Text.decimal n ++ (Text.decimal m).drop (Text.decimal n).length) : d.isDigit = true := by
  rcases List.mem_append.mp h with h | h
  · exact Text.isDigit_of_mem_decimal h
  · exact Text.isDigit_of_mem_decimal (List.mem_of_mem_drop h)

theorem append_decimal_ne_nil (n : Nat) (ds : List Char) : Text.decimal n ++ ds ≠ [] := by
  simp [Text.decimal_ne_nil]

/-- **A file names the process that has written later** unless more digits were there. -/
theorem pid?_overlay_later {n : Nat} (hn : (n : Int) ≤ maxPid) (hpos : 0 < n) (m : Nat) :
    pid? (overlay (contentOf n) (contentOf m)) = some (n : Int) ↔ (contentOf m).length ≤ (contentOf n).length := by
  rw [overlay_contentOf, pid?_encode (append_decimal_ne_nil n _) (fun _ => isDigit_of_mem_overlay) hn,
    length_contentOf, length_contentOf]
  constructor
  · intro h
    by_contra hlt
    have hrest : (Text.decimal m).drop (Text.decimal n).length ≠ [] := by
      rw [ne_eq, List.drop_eq_nil_iff]
      exact hlt
    exact absurd h (Nat.ne_of_gt (Text.lt_decimalValue_append hpos hrest))
  · intro hle
    rw [List.drop_eq_nil_of_le hle, List.append_nil, Text.decimalValue_decimal]

/-- **A file names the process that has written earlier** only if what has been written over its number is the
beginning of this. -/
theorem pid?_overlay_earlier {n m : Nat} (hn : (n : Int) ≤ maxPid) (hm : (m : Int) ≤ maxPid) (hne : m ≠ n) :
    pid? (overlay (contentOf m) (contentOf n)) = some (n : Int) ↔ contentOf m <+: contentOf n := by
  have hbegins : contentOf m <+: contentOf n ↔ overlay (contentOf m) (contentOf n) = contentOf n :=
    List.prefix_iff_eq_append
  by_cases hle : (contentOf m).length ≤ (contentOf n).length
  · rw [hbegins, overlay_contentOf, pid?_encode (append_decimal_ne_nil m _) (fun _ => isDigit_of_mem_overlay) hn]
    rw [length_contentOf, length_contentOf] at hle
    have hlength : (Text.decimal m ++ (Text.decimal n).drop (Text.decimal m).length).length =
        (Text.decimal n).length := by
      rw [List.length_append, List.length_drop]
      omega
    rw [Text.decimalValue_eq_iff (fun _ => isDigit_of_mem_overlay) hlength, contentOf, Utf8.encode_inj]
  · have hall : overlay (contentOf m) (contentOf n) = contentOf m := by
      rw [overlay, List.drop_eq_nil_of_le (by omega), List.append_nil]
    rw [hall, pid?_contentOf hm]
    refine ⟨fun h => absurd (Int.ofNat.inj (Option.some.inj h)) hne, fun h => absurd h.length_le hle⟩

end Marker

end WarmCheck
