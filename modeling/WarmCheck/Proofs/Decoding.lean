import Mathlib.Data.Nat.Digits.Defs
import WarmCheck.Proofs.Documents
import WarmCheck.Proofs.Escapes
import WarmCheck.Snapshot.Format

/-!
# Snapshots in any layout

An object denotes a snapshot if each of the five members is there once. Their order, the blanks, the ways to write keys
and texts, and what else is in the object do not matter; but a member that is missing or is there twice, however its
key is written, makes the object denote nothing.

* `Snapshot.IsHeldOnce`, `Snapshot.IsHeldBy`: the objects that hold a snapshot.
* `Snapshot.Fields.get?`: what has been read for a member; `Snapshot.Fields.exists_put?`: one member more.
* `Snapshot.members?_eq_some_iff`: what is read of the members of an object.
* **`Snapshot.decode?_of_isDocument`**: which documents of objects denote which snapshots.
-/

namespace WarmCheck.Snapshot

open WarmCheck.Json

/-! ## Objects that hold a snapshot -/

/-- Decimal digits with this value, without a sign, a point or a power of ten. -/
def IsDecimal (text : Bytes) (n : Nat) : Prop :=
  text.all isDigit = true ∧ Nat.ofDigits 10 (text.reverse.map fun b => b.toNat - 48) = n

/-- A value stands for what a member of the snapshot holds. -/
def IsValueOf (s : Snapshot) : Key → Value → Prop
  | .output, v => ∃ body, v = .string body ∧ Means body s.output.toList
  | .hasErrors, v => v = .bool s.hasErrors
  | .hasWarnings, v => v = .bool s.hasWarnings
  | .isComplete, v => v = .bool s.isComplete
  | .lastUpdate, v => ∃ text, v = .number text ∧ IsDecimal text s.lastUpdate.toNat

/-- Among the members of an object is once, and only once, the name of each member of the snapshot, with a value that
stands for what this member holds. -/
def IsHeldOnce (s : Snapshot) (ms : List (Bytes × Value)) : Prop :=
  ∀ k : Key, ∃ before m after, ms = before ++ m :: after ∧ Means m.1 k.name ∧ s.IsValueOf k m.2 ∧
    ∀ other ∈ before ++ after, ¬Means other.1 k.name

/-- An object holds a snapshot: it holds each member once, and all its keys are texts, whatever they name. -/
structure IsHeldBy (s : Snapshot) (ms : List (Bytes × Value)) : Prop where
  text : ∀ m ∈ ms, ∃ name, Means m.1 name
  once : s.IsHeldOnce ms

theorem IsHeldOnce.concat {s : Snapshot} {ms : List (Bytes × Value)} (h : s.IsHeldOnce ms) {m : Bytes × Value}
    (hm : ∀ name, ¬Means m.1 name) : s.IsHeldOnce (ms ++ [m]) := by
  intro k
  obtain ⟨before, own, after, rfl, hown, hvalue, hother⟩ := h k
  refine ⟨before, own, after ++ [m], by rw [List.append_assoc, List.cons_append], hown, hvalue, fun other hin => ?_⟩
  rw [← List.append_assoc] at hin
  rcases List.mem_append.mp hin with hin | hin
  · exact hother other hin
  · rw [List.mem_singleton.mp hin]
    exact hm k.name

/-! ## Members -/

/-- What a member holds, whichever it is. -/
inductive Datum where
  | text (s : String)
  | flag (b : Bool)
  | word (n : UInt64)

/-- What a value stands for as the value of a member. -/
def Key.read? : Key → Value → Option Datum
  | output, v => (stringOf? v).map .text
  | hasErrors, v | hasWarnings, v | isComplete, v => (boolOf? v).map .flag
  | lastUpdate, v => (wordOf? v).map .word

/-- What a member of the snapshot holds. -/
def datum (s : Snapshot) : Key → Datum
  | .output => .text s.output
  | .hasErrors => .flag s.hasErrors
  | .hasWarnings => .flag s.hasWarnings
  | .isComplete => .flag s.isComplete
  | .lastUpdate => .word s.lastUpdate

theorem Key.ofName?_eq_some_iff {name : List Char} {k : Key} : Key.ofName? name = some k ↔ name = k.name := by
  constructor
  · intro h
    have hname := List.find?_some (p := fun k : Key => k.name == name) h
    exact (eq_of_beq hname).symm
  · rintro rfl
    cases k <;> rfl

theorem wordOf?_eq_some_iff {v : Value} {n : UInt64} :
    wordOf? v = some n ↔ ∃ text, v = .number text ∧ IsDecimal text n.toNat := by
  have hvalue : ∀ text : Bytes, Nat.ofDigits 10 (text.reverse.map fun b => b.toNat - 48) =
      text.foldl (fun n b => 10 * n + (b.toNat - 48)) 0 := by
    intro text
    rw [Nat.ofDigits_eq_foldr, List.foldr_map, List.foldr_reverse]
    simp [Nat.add_comm]
  constructor
  · intro h
    cases v with
    | number text =>
      rw [wordOf?] at h
      split at h
      · next hdigits =>
        refine ⟨text, rfl, hdigits, ?_⟩
        rw [hvalue]
        simp only [Option.ite_none_right_eq_some, Option.some.injEq] at h
        obtain ⟨hsize, rfl⟩ := h
        exact (UInt64.toNat_ofNat_of_lt' hsize).symm
      · cases h
    | null | bool | string | array | object => cases h
  · rintro ⟨text, rfl, hdigits, heq⟩
    rw [hvalue] at heq
    rw [wordOf?, if_pos hdigits, heq]
    simp only [if_pos n.toNat_lt, UInt64.ofNat_toNat]

theorem stringOf?_eq_some_iff {v : Value} {s : String} :
    stringOf? v = some s ↔ ∃ body, v = .string body ∧ Means body s.toList := by
  constructor
  · intro h
    cases v with
    | string body =>
      obtain ⟨cs, hcs, rfl⟩ := Option.map_eq_some_iff.mp h
      exact ⟨body, rfl, by rw [String.toList_ofList]; exact textOf?_eq_some_iff.mp hcs⟩
    | null | bool | number | array | object => cases h
  · rintro ⟨body, rfl, hbody⟩
    rw [stringOf?, textOf?_eq_some_iff.mpr hbody, Option.map_some, String.ofList_toList]

theorem boolOf?_eq_some_iff {v : Value} {b : Bool} : boolOf? v = some b ↔ v = .bool b := by
  cases v with
  | bool c => exact ⟨fun h => congrArg Value.bool (Option.some.inj h), fun h => by cases h; rfl⟩
  | null | number | string | array | object => exact iff_of_false (Option.some_ne_none b).symm Value.noConfusion

theorem read?_eq_some_iff {s : Snapshot} {k : Key} {v : Value} :
    k.read? v = some (s.datum k) ↔ s.IsValueOf k v := by
  cases k with
  | output => simp [Key.read?, datum, IsValueOf, stringOf?_eq_some_iff]
  | hasErrors | hasWarnings | isComplete => simp [Key.read?, datum, IsValueOf, boolOf?_eq_some_iff]
  | lastUpdate => simp [Key.read?, datum, IsValueOf, wordOf?_eq_some_iff]

namespace Fields

/-- What has been read for a member. -/
def get? (f : Fields) : Key → Option Datum
  | .output => f.output.map .text
  | .hasErrors => f.hasErrors.map .flag
  | .hasWarnings => f.hasWarnings.map .flag
  | .isComplete => f.isComplete.map .flag
  | .lastUpdate => f.lastUpdate.map .word

theorem fill?_of_none {α : Type} (a : α) : fill? none (some a) = some (some a) := rfl

theorem fill?_eq_none {α : Type} {old new : Option α} (h : old ≠ none ∨ new = none) : fill? old new = none := by
  cases old with
  | none =>
    obtain rfl := h.resolve_left (not_not_intro rfl)
    rfl
  | some a => rfl

/-- A member for which nothing has been read takes what its value stands for, and the others stay as they are. -/
theorem exists_put? {f : Fields} {k : Key} {v : Value} {d : Datum} (h : f.get? k = none) (hv : k.read? v = some d) :
    ∃ f', f.put? k v = some f' ∧ f'.get? k = some d ∧ ∀ j ≠ k, f'.get? j = f.get? j := by
  cases k
  all_goals
    have hold := Option.map_eq_none_iff.mp h
    obtain ⟨a, hnew, rfl⟩ := Option.map_eq_some_iff.mp hv
    rw [put?, hold, hnew, fill?_of_none]
    refine ⟨_, rfl, rfl, fun j hj => ?_⟩
    cases j <;> first | exact absurd rfl hj | rfl

/-- A member for which something has been read, or whose value is of another kind, makes the whole fail. -/
theorem put?_eq_none {f : Fields} {k : Key} {v : Value} (h : f.get? k ≠ none ∨ k.read? v = none) :
    f.put? k v = none := by
  cases k
  all_goals
    simp only [get?, Key.read?, ne_eq, Option.map_eq_none_iff] at h
    rw [put?, fill?_eq_none h, Option.map_none]

theorem toSnapshot?_eq_some_iff {f : Fields} {s : Snapshot} :
    f.toSnapshot? = some s ↔ ∀ k, f.get? k = some (s.datum k) := by
  constructor
  · intro h
    simp only [toSnapshot?, Option.bind_eq_bind, Option.bind_eq_some_iff, Option.pure_def, Option.some.injEq] at h
    obtain ⟨output, houtput, errors, herrors, warnings, hwarnings, complete, hcomplete, update, hupdate, rfl⟩ := h
    intro k
    cases k <;> simp [get?, datum, houtput, herrors, hwarnings, hcomplete, hupdate]
  · intro h
    have houtput := h .output
    have herrors := h .hasErrors
    have hwarnings := h .hasWarnings
    have hcomplete := h .isComplete
    have hupdate := h .lastUpdate
    simp only [get?, datum, Option.map_eq_some_iff, Datum.text.injEq, Datum.flag.injEq, Datum.word.injEq,
      exists_eq_right] at houtput herrors hwarnings hcomplete hupdate
    simp only [toSnapshot?, houtput, herrors, hwarnings, hcomplete, hupdate]
    rfl

end Fields

/-! ## Objects -/

/-- Whether the key of a member is a name of a member of snapshots. -/
def isNamed (k : Key) (m : Bytes × Value) : Bool := textOf? m.1 == some k.name

theorem isNamed_iff {k : Key} {m : Bytes × Value} : isNamed k m = true ↔ Means m.1 k.name := by
  rw [isNamed, beq_iff_eq, textOf?_eq_some_iff]

/-- The members `ms` of an object bring what is lacking of a member of the snapshot: it is there already and none of
them has its name, or it is not and one of them does, with a value that stands for it. -/
def Completes (s : Snapshot) (k : Key) (old : Option Datum) (ms : List (Bytes × Value)) : Prop :=
  old = some (s.datum k) ∧ ms.filter (isNamed k) = [] ∨
    old = none ∧ ∃ m, ms.filter (isNamed k) = [m] ∧ k.read? m.2 = some (s.datum k)

theorem completes_cons_of_not_isNamed {s : Snapshot} {k : Key} {old : Option Datum} {m : Bytes × Value}
    {ms : List (Bytes × Value)} (h : isNamed k m = false) :
    s.Completes k old (m :: ms) ↔ s.Completes k old ms := by
  rw [Completes, Completes, List.filter_cons_of_neg (by rw [h]; exact Bool.false_ne_true)]

theorem completes_cons_of_isNamed {s : Snapshot} {k : Key} {old : Option Datum} {m : Bytes × Value}
    {ms : List (Bytes × Value)} (h : isNamed k m = true) :
    s.Completes k old (m :: ms) ↔ old = none ∧ ∃ d, k.read? m.2 = some d ∧ s.Completes k (some d) ms := by
  rw [Completes, List.filter_cons_of_pos h]
  constructor
  · rintro (⟨-, hms⟩ | ⟨hold, m', hms, hread⟩)
    · cases hms
    · obtain ⟨rfl, hnone⟩ := List.cons.inj hms
      exact ⟨hold, _, hread, .inl ⟨rfl, hnone⟩⟩
  · rintro ⟨hold, d, hread, ⟨hd, hms⟩ | ⟨hnone, -⟩⟩
    · rw [hd] at hread
      exact .inr ⟨hold, m, by rw [hms], hread⟩
    · cases hnone

theorem isNamed_unique {j k : Key} {m : Bytes × Value} (hj : isNamed j m = true) (hk : isNamed k m = true) : j = k := by
  rw [isNamed_iff] at hj hk
  have hname := Key.ofName?_eq_some_iff.mpr (hj.unique hk)
  rw [Key.ofName?_eq_some_iff.mpr rfl, Option.some.injEq] at hname
  exact hname

/-- A member completes the snapshot if it takes a place that was empty. -/
theorem completes_put?_iff {f f' : Fields} {k : Key} {m : Bytes × Value} {d : Datum} {ms : List (Bytes × Value)}
    {s : Snapshot} (hnamed : isNamed k m = true) (hempty : f.get? k = none) (hread : k.read? m.2 = some d)
    (hk : f'.get? k = some d) (hother : ∀ j ≠ k, f'.get? j = f.get? j) :
    (∀ j, s.Completes j (f'.get? j) ms) ↔ ∀ j, s.Completes j (f.get? j) (m :: ms) := by
  refine forall_congr' fun j => ?_
  by_cases hj : j = k
  · subst hj
    rw [completes_cons_of_isNamed hnamed, hk, hread]
    simp [hempty]
  · have hnot : isNamed j m = false := Bool.eq_false_iff.mpr fun h => hj (isNamed_unique h hnamed)
    rw [completes_cons_of_not_isNamed hnot, hother j hj]

/-- What is made of a member: it fails if its key is no text, it is passed over if its key is no name of a member of
snapshots, and else it is put under this name. -/
theorem member?_cases (f : Fields) (m : Bytes × Value) :
    (¬∃ name, Means m.1 name) ∧ f.member? m.1 m.2 = none ∨
      (∃ name, Means m.1 name) ∧ (f.member? m.1 m.2 = some f ∧ (∀ k, isNamed k m = false) ∨
        ∃ k, f.member? m.1 m.2 = f.put? k m.2 ∧ isNamed k m = true) := by
  rw [Fields.member?]
  cases hkey : textOf? m.1 with
  | none =>
    refine .inl ⟨?_, rfl⟩
    rintro ⟨name, hname⟩
    rw [textOf?_eq_some_iff.mpr hname] at hkey
    cases hkey
  | some name =>
    refine .inr ⟨⟨name, textOf?_eq_some_iff.mp hkey⟩, ?_⟩
    have hnamed : ∀ k, isNamed k m = true ↔ Key.ofName? name = some k := fun k => by
      rw [isNamed, hkey, beq_iff_eq, Option.some.injEq, Key.ofName?_eq_some_iff]
    cases hk : Key.ofName? name with
    | none => exact .inl ⟨by simp only [hk], fun k => Bool.eq_false_iff.mpr fun h => by simp [hnamed, hk] at h⟩
    | some k => exact .inr ⟨k, by simp only [hk], (hnamed k).mpr hk⟩

/-- **The members of an object make a snapshot** if all keys are texts and each member of the snapshot is completed. -/
theorem members?_eq_some_iff {f : Fields} {ms : List (Bytes × Value)} {s : Snapshot} :
    (f.members? ms).bind Fields.toSnapshot? = some s ↔
      (∀ m ∈ ms, ∃ name, Means m.1 name) ∧ ∀ k, s.Completes k (f.get? k) ms := by
  induction ms generalizing f with
  | nil =>
    rw [Fields.members?, Option.bind_some, Fields.toSnapshot?_eq_some_iff]
    simp [Completes]
  | cons m ms ih =>
    rw [Fields.members?, List.forall_mem_cons]
    rcases member?_cases f m with ⟨hno, hmember⟩ | ⟨htext, ⟨hmember, hother⟩ | ⟨k, hmember, hnamed⟩⟩
    · rw [hmember]
      exact iff_of_false (by simp) fun h => hno h.1.1
    · rw [hmember, Option.bind_some, ih]
      simp only [htext, true_and, completes_cons_of_not_isNamed (hother _)]
    · rw [hmember]
      by_cases hempty : f.get? k = none
      · cases hread : k.read? m.2 with
        | some d =>
          obtain ⟨f', hput, hnew, hold⟩ := Fields.exists_put? hempty hread
          rw [hput, Option.bind_some, ih, completes_put?_iff hnamed hempty hread hnew hold]
          simp only [htext, true_and]
        | none =>
          rw [Fields.put?_eq_none (.inr hread)]
          refine iff_of_false (by simp) fun h => ?_
          obtain ⟨-, d, hd, -⟩ := (completes_cons_of_isNamed hnamed).mp (h.2 k)
          rw [hread] at hd
          cases hd
      · rw [Fields.put?_eq_none (.inl hempty)]
        exact iff_of_false (by simp) fun h => hempty ((completes_cons_of_isNamed hnamed).mp (h.2 k)).1

theorem completes_none_iff {s : Snapshot} {k : Key} {ms : List (Bytes × Value)} :
    s.Completes k none ms ↔ ∃ before m after, ms = before ++ m :: after ∧ Means m.1 k.name ∧ s.IsValueOf k m.2 ∧
      ∀ other ∈ before ++ after, ¬Means other.1 k.name := by
  simp only [← isNamed_iff, ← read?_eq_some_iff]
  constructor
  · rintro (⟨hnone, -⟩ | ⟨-, m, hms, hread⟩)
    · cases hnone
    · obtain ⟨before, after, rfl, hbefore, hm, hafter⟩ := List.filter_eq_cons_iff.mp hms
      refine ⟨before, m, after, rfl, hm, hread, fun other hother => ?_⟩
      rcases List.mem_append.mp hother with hother | hother
      · exact hbefore other hother
      · exact List.filter_eq_nil_iff.mp hafter other hother
  · rintro ⟨before, m, after, rfl, hm, hread, hother⟩
    refine .inr ⟨rfl, m, ?_, hread⟩
    have hbefore : ∀ other ∈ before, ¬isNamed k other = true := fun other h => hother other (List.mem_append_left _ h)
    have hafter : ∀ other ∈ after, ¬isNamed k other = true := fun other h => hother other (List.mem_append_right _ h)
    rw [List.filter_append, List.filter_eq_nil_iff.mpr hbefore, List.filter_cons_of_pos hm,
      List.filter_eq_nil_iff.mpr hafter]
    rfl

theorem ofValue?_object_iff {ms : List (Bytes × Value)} {s : Snapshot} :
    ofValue? (.object ms) = some s ↔ s.IsHeldBy ms := by
  have hempty : ∀ k, Fields.get? {} k = none := fun k => by cases k <;> rfl
  rw [ofValue?, members?_eq_some_iff]
  simp only [hempty, completes_none_iff]
  exact ⟨fun h => ⟨h.1, h.2⟩, fun h => ⟨h.text, h.once⟩⟩

/-- A name that is the only one of its kind does not occur twice. -/
theorem IsHeldBy.not_sublist {s : Snapshot} {ms : List (Bytes × Value)} (h : s.IsHeldBy ms) {k : Key}
    {m m' : Bytes × Value} (hm : Means m.1 k.name) (hm' : Means m'.1 k.name) : ¬[m, m'].Sublist ms := by
  intro hsub
  have hcompletes := completes_none_iff.mpr (h.once k)
  rcases hcompletes with ⟨hnone, -⟩ | ⟨-, only, honly, -⟩
  · cases hnone
  · have hfilter := (hsub.filter (isNamed k)).length_le
    rw [honly, List.filter_cons_of_pos (isNamed_iff.mpr hm), List.filter_cons_of_pos (isNamed_iff.mpr hm')] at hfilter
    exact absurd hfilter (by simp)

/-- **A document of an object is read as the snapshot that the object holds**, whatever its layout, the order of its
members and the other members are, and only as this one. If the name of some member of snapshots is missing, or is
there twice, it is not read as any. -/
theorem decode?_of_isDocument {ms : List (Bytes × Value)} {bs : Bytes} (h : (Value.object ms).IsDocument bs) :
    (∀ s, decode? bs = some s ↔ s.IsHeldBy ms) ∧
      ∀ k : Key, ((∀ m ∈ ms, ¬Means m.1 k.name) ∨
          ∃ m m', [m, m'].Sublist ms ∧ Means m.1 k.name ∧ Means m'.1 k.name) → decode? bs = none := by
  have hiff : ∀ s, decode? bs = some s ↔ s.IsHeldBy ms := fun s => by
    rw [decode?, Value.parse?_of_isDocument h, Option.bind_some, ofValue?_object_iff]
  refine ⟨hiff, fun k hk => Option.eq_none_iff_forall_ne_some.mpr fun s hs => ?_⟩
  have hheld := (hiff s).mp hs
  rcases hk with hmissing | ⟨m, m', hsub, hm, hm'⟩
  · obtain ⟨before, m, after, rfl, hm, -⟩ := hheld.once k
    exact hmissing m (List.mem_append_right _ List.mem_cons_self) hm
  · exact hheld.not_sublist hm hm' hsub

/-- Members in an order of their own, one of them with an escape in its key, and one more with values inside. -/
def shuffled : List (Bytes × Value) :=
  [(Utf8.ofString "lastUpdate", .number (Utf8.ofString "70")),
    (Utf8.ofString "x", .array [.number (Utf8.ofString "-0.5E+1"), .object []]),
    (Utf8.ofString "isComplete", .bool true),
    (Utf8.ofString "hasWarnings", .bool false),
    (Utf8.ofString "\\u006futput", .string (Utf8.ofString "\\ud83d\\ude00")),
    (Utf8.ofString "hasErrors", .bool true)]

/-- A member twice, once with an escape in its key. -/
def doubled : List (Bytes × Value) :=
  [(Utf8.ofString "output", .string []), (Utf8.ofString "\\u006futput", .null)]

/-- The shuffled members are read from a document with blanks, and the doubled ones are not. -/
theorem decode?_shuffled_doubled :
    let bs := Utf8.ofString ("\x7b \"lastUpdate\":70,\n\"x\":[-0.5E+1,\t\x7b\x7d],\"isComplete\":true," ++
      "\"hasWarnings\":false,\"\\u006futput\":\"\\ud83d\\ude00\",\"hasErrors\":true\x7d\n")
    let bs' := Utf8.ofString "\x7b\"output\":\"\",\"\\u006futput\":null\x7d"
    let s : Snapshot := ⟨"😀", true, false, true, 70⟩
    ((Value.object shuffled).IsDocument bs ∧ s.IsHeldBy shuffled ∧ decode? bs = some s) ∧
      (Value.object doubled).IsDocument bs' ∧ decode? bs' = none := by
  intro bs bs' s
  have hwhole : IsNumber (Utf8.ofString "70") :=
    @IsNumber.mk [] (Utf8.ofString "70") [] [] (.inl rfl) (by decide) .absent .absent
  have hpower : IsNumber (Utf8.ofString "-0.5E+1") :=
    @IsNumber.mk [0x2D] [0x30] [0x2E, 0x35] [0x45, 0x2B, 0x31] (.inr rfl) (by decide) (.point (by decide))
      (@IsPower.mark 0x45 [0x2B] [0x31] (.inr rfl) (.inr (.inl rfl)) (by decide))
  have hkey : IsBody (Utf8.ofString "\\u006futput") := .code rfl rfl rfl rfl (.of_isPlain rfl)
  have hpair : IsBody (Utf8.ofString "\\ud83d\\ude00") := .code rfl rfl rfl rfl (.code rfl rfl rfl rfl .nil)
  have hdocument : (Value.object shuffled).IsDocument _ :=
    .next .openObject <|
    @Token.AreWritten.cons _ _ [0x20] _ _ rfl (.of_isPlain rfl) <| .next .colon <| .next (.number hwhole) <|
    .next .comma <| @Token.AreWritten.cons _ _ [0x0A] _ _ rfl (.of_isPlain rfl) <| .next .colon <|
      .next .openArray <| .next (.number hpower) <|
      .next .comma <| @Token.AreWritten.cons _ _ [0x09] _ _ rfl .openObject <| .next .closeObject <|
      .next .closeArray <|
    .next .comma <| .next (.of_isPlain rfl) <| .next .colon <| .next (.bool true) <|
    .next .comma <| .next (.of_isPlain rfl) <| .next .colon <| .next (.bool false) <|
    .next .comma <| .next (.string hkey) <| .next .colon <| .next (.string hpair) <|
    .next .comma <| .next (.of_isPlain rfl) <| .next .colon <| .next (.bool true) <|
    .next .closeObject <| @Token.AreWritten.nil [0x0A] rfl
  have hdocument' : (Value.object doubled).IsDocument _ :=
    .next .openObject <|
    .next (.of_isPlain rfl) <| .next .colon <| .next (.string .nil) <|
    .next .comma <| .next (.string hkey) <| .next .colon <| .next .null <|
    .next .closeObject <| @Token.AreWritten.nil [] rfl
  have hbs : (Value.object shuffled).IsDocument bs := cast (congrArg _ (by decide +kernel)) hdocument
  have hbs' : (Value.object doubled).IsDocument bs' := cast (congrArg _ (by decide +kernel)) hdocument'
  have hheld : s.IsHeldBy shuffled := ofValue?_object_iff.mp (by decide +kernel)
  have hkeys : Means (Utf8.ofString "output") Key.output.name ∧ Means (Utf8.ofString "\\u006futput") Key.output.name :=
    ⟨textOf?_eq_some_iff.mp (by decide +kernel), textOf?_eq_some_iff.mp (by decide +kernel)⟩
  exact ⟨⟨hbs, hheld, ((decode?_of_isDocument hbs).1 s).mpr hheld⟩,
    hbs', (decode?_of_isDocument hbs').2 .output (.inr ⟨_, _, .refl _, hkeys.1, hkeys.2⟩)⟩

/-- The members once each. -/
def plain : List (Bytes × Value) :=
  [(Utf8.ofString "output", .string []), (Utf8.ofString "hasErrors", .bool false),
    (Utf8.ofString "hasWarnings", .bool false), (Utf8.ofString "isComplete", .bool true),
    (Utf8.ofString "lastUpdate", .number (Utf8.ofString "7"))]

/-- Another member whose key is a surrogate by itself: the object holds the five members once each, and is not read,
because the key is no text. -/
theorem decode?_of_surrogate :
    let bs := Utf8.ofString ("\x7b\"output\":\"\",\"hasErrors\":false,\"hasWarnings\":false,\"isComplete\":true," ++
      "\"lastUpdate\":7,\"\\ud800\":0\x7d")
    let ms := plain ++ [(Utf8.ofString "\\ud800", .number (Utf8.ofString "0"))]
    (Value.object ms).IsDocument bs ∧ IsHeldOnce ⟨"", false, false, true, 7⟩ ms ∧ decode? bs = none := by
  intro bs ms
  have hnumber : IsNumber (Utf8.ofString "7") :=
    @IsNumber.mk [] (Utf8.ofString "7") [] [] (.inl rfl) (by decide) .absent .absent
  have hzero : IsNumber (Utf8.ofString "0") :=
    @IsNumber.mk [] (Utf8.ofString "0") [] [] (.inl rfl) (by decide) .absent .absent
  have hkey : IsBody (Utf8.ofString "\\ud800") := .code rfl rfl rfl rfl .nil
  have hdocument : (Value.object ms).IsDocument _ :=
    .next .openObject <|
    .next (.of_isPlain rfl) <| .next .colon <| .next (.string .nil) <|
    .next .comma <| .next (.of_isPlain rfl) <| .next .colon <| .next (.bool false) <|
    .next .comma <| .next (.of_isPlain rfl) <| .next .colon <| .next (.bool false) <|
    .next .comma <| .next (.of_isPlain rfl) <| .next .colon <| .next (.bool true) <|
    .next .comma <| .next (.of_isPlain rfl) <| .next .colon <| .next (.number hnumber) <|
    .next .comma <| .next (.string hkey) <| .next .colon <| .next (.number hzero) <|
    .next .closeObject <| @Token.AreWritten.nil [] rfl
  have hbs : (Value.object ms).IsDocument bs := cast (congrArg _ (by decide +kernel)) hdocument
  have hplain : IsHeldBy ⟨"", false, false, true, 7⟩ plain := ofValue?_object_iff.mp (by decide +kernel)
  have hsurrogate : ∀ name, ¬Means (Utf8.ofString "\\ud800") name := by
    intro name hname
    have hnone : textOf? (Utf8.ofString "\\ud800") = none := by decide +kernel
    exact Option.some_ne_none _ ((textOf?_eq_some_iff.mpr hname).symm.trans hnone)
  refine ⟨hbs, hplain.once.concat hsurrogate, Option.eq_none_iff_forall_ne_some.mpr fun s hs => ?_⟩
  rw [decode?, Value.parse?_of_isDocument hbs, Option.bind_some, ofValue?_object_iff] at hs
  obtain ⟨name, hname⟩ := hs.text _ (List.mem_append_right _ List.mem_cons_self)
  exact hsurrogate name hname

end WarmCheck.Snapshot
