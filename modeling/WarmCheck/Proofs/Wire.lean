import WarmCheck.Proofs.Quoting
import WarmCheck.Proofs.Spelling
import WarmCheck.Snapshot.Format

/-!
# Snapshots on the wire

What is written for a snapshot is read as this snapshot, and what has been cut off is read as none: the
object that is opened at the beginning is closed by the last octet only. Nor is it read with more than
blanks behind it.

* `Snapshot.tokens`: the tokens of a snapshot.
* `Snapshot.spells_members`: the members of a snapshot spell its tokens.
* `Snapshot.run?_encode`, `Snapshot.run?_pretty`: so do both layouts.
* **`Snapshot.decode?_append`**: a document with these tokens denotes the snapshot.
* **`Snapshot.decode?_encode`**, **`Snapshot.decode?_of_cut`**: whole and cut replies.
-/

namespace WarmCheck.Snapshot

open WarmCheck.Json

/-! ## Writing -/

/-- The value of a member. -/
def value (s : Snapshot) : Key → Value
  | .output => .string (Utf8.encode (s.output.toList.flatMap escape))
  | .hasErrors => .bool s.hasErrors
  | .hasWarnings => .bool s.hasWarnings
  | .isComplete => .bool s.isComplete
  | .lastUpdate => .number (Utf8.encode (Text.decimal s.lastUpdate.toNat))

/-- The name of a member as it stands in a string. -/
def nameBody (k : Key) : Bytes := Utf8.encode (k.name.flatMap escape)

/-- The tokens of a member. -/
def memberTokens (s : Snapshot) (k : Key) : List Token :=
  [.string (nameBody k), .colon, (s.value k).token]

/-- The tokens of a snapshot but for the end of the object. -/
def openTokens (s : Snapshot) : List Token :=
  .openObject :: [Token.comma].intercalate (Key.all.map s.memberTokens)

/-- The tokens of a snapshot. -/
def tokens (s : Snapshot) : List Token := s.openTokens ++ [.closeObject]

theorem run?_flag (b : Bool) :
    Mode.between.run? (Utf8.encode (flag b)) = some ([.bool b], .between) := by
  cases b <;> rfl

theorem spells_valueText (s : Snapshot) (k : Key) :
    Mode.Spells (Utf8.encode (s.valueText k)) [(s.value k).token] := by
  cases k with
  | output => exact .inl (run?_quote _)
  | hasErrors | hasWarnings | isComplete => exact .inl (run?_flag _)
  | lastUpdate =>
    obtain ⟨part, -, hpart, h⟩ := run?_decimal s.lastUpdate.toNat
    refine .inr ⟨[], part, _, hpart, ?_, h⟩
    rw [List.reverse_reverse]; rfl

theorem spells_memberText (s : Snapshot) {gap : List Char}
    (hgap : Mode.between.run? (Utf8.encode (':' :: gap)) = some ([.colon], .between)) (k : Key) :
    Mode.Spells (Utf8.encode (s.memberText gap k)) (s.memberTokens k) := by
  have h := Mode.Spells.cons (Mode.run?_of_append (run?_quote k.name) hgap) (s.spells_valueText k)
  rw [← Utf8.encode_append, ← Utf8.encode_append] at h
  simpa [memberText, memberTokens, nameBody] using h

/-- The members of a snapshot spell its tokens, whatever blanks stand between them. -/
theorem spells_members (s : Snapshot) {opening gap sep : List Char} {b : UInt8} {bs : Bytes}
    (hopening : Mode.between.run? (Utf8.encode opening) = some ([.openObject], .between))
    (hgap : Mode.between.run? (Utf8.encode (':' :: gap)) = some ([.colon], .between))
    (hsep : Utf8.encode sep = b :: bs) (hb : endsNumber b = true)
    (hbs : Mode.between.run? (b :: bs) = some ([.comma], .between)) :
    Mode.Spells (Utf8.encode (opening ++ sep.intercalate (Key.all.map (s.memberText gap)))) s.openTokens := by
  rw [Utf8.encode_append]
  exact Mode.Spells.cons hopening
    (Mode.spells_intercalate (fun k => s.spells_memberText hgap k) hsep hb hbs _ _)

/-- All octets of a reply but the last one spell all tokens but the last one. -/
theorem encode_eq (s : Snapshot) :
    ∃ cs, s.encode = cs ++ [0x7D] ∧ cs.head? = some 0x7B ∧ Mode.Spells cs s.openTokens := by
  refine ⟨Utf8.encode (['{'] ++ [','].intercalate (Key.all.map (s.memberText []))), ?_, ?_, ?_⟩
  · rw [encode, compact, Utf8.encode_append]
    rfl
  · rw [Utf8.encode_append]
    rfl
  · exact s.spells_members rfl rfl rfl rfl rfl

/-- The octets of a reply spell the tokens of the snapshot. -/
theorem run?_encode (s : Snapshot) : Mode.between.run? s.encode = some (s.tokens, .between) := by
  obtain ⟨cs, hcs, -, hspell⟩ := s.encode_eq
  have hclose : Mode.between.run? [0x7D] = some ([.closeObject], .between) := rfl
  rw [hcs, hspell.run?_append rfl hclose, tokens]

/-- So do the lines that show the snapshot. -/
theorem run?_pretty (s : Snapshot) :
    Mode.between.run? (Utf8.encode s.pretty) = some (s.tokens, .between) := by
  have hopening : Mode.between.run? (Utf8.encode "\x7b\n  ".toList) = some ([.openObject], .between) := rfl
  have hgap : Mode.between.run? (Utf8.encode [':', ' ']) = some ([.colon], .between) := rfl
  have hsep : Utf8.encode ",\n  ".toList = [0x2C, 0x0A, 0x20, 0x20] := rfl
  have hclose : Mode.between.run? [0x0A, 0x7D] = some ([.closeObject], .between) := rfl
  rw [pretty, Utf8.encode_append]
  exact (s.spells_members hopening hgap hsep rfl rfl).run?_append rfl hclose

theorem encode_ne_nil (s : Snapshot) : s.encode ≠ [] := by
  obtain ⟨cs, hcs, -⟩ := s.encode_eq
  rw [hcs]
  exact List.append_ne_nil_of_right_ne_nil cs (List.cons_ne_nil _ _)

/-! ## Reading -/

theorem textOf?_escaped (cs : List Char) : textOf? (Utf8.encode (cs.flatMap escape)) = some cs := by
  rw [textOf?, Utf8.decode?_encode, Option.bind_some, unescape?_flatMap_escape]

theorem ofTokens?_tokens (s : Snapshot) :
    Value.ofTokens? s.tokens = some (.object (Key.all.map fun k => (nameBody k, s.value k))) := rfl

theorem foldl_octets {ds : List Char} (h : ∀ d ∈ ds, d.isDigit = true) (init : Nat) :
    (ds.map fun d => Utf8.octet d.toNat).foldl (fun n b => 10 * n + (b.toNat - 48)) init =
      ds.foldl (fun n d => 10 * n + Text.digitValue d) init := by
  induction ds generalizing init with
  | nil => rfl
  | cons d ds ih =>
    have hd : (Utf8.octet d.toNat).toNat = d.toNat :=
      Utf8.toNat_octet (by have := (Text.isDigit_iff.mp (h d List.mem_cons_self)).2; omega)
    rw [List.map_cons, List.foldl_cons, List.foldl_cons, hd, ← Text.digitValue]
    exact ih (fun e he => h e (List.mem_cons_of_mem d he)) _

theorem wordOf?_decimal (n : UInt64) :
    wordOf? (.number (Utf8.encode (Text.decimal n.toNat))) = some n := by
  have hdigits : ∀ d ∈ Text.decimal n.toNat, d.isDigit = true := fun d hd =>
    Text.isDigit_of_mem_decimal hd
  obtain ⟨hmap, hall⟩ := encode_digits hdigits
  have hvalue : (Utf8.encode (Text.decimal n.toNat)).foldl (fun n b => 10 * n + (b.toNat - 48)) 0 =
      n.toNat := by
    rw [hmap, foldl_octets hdigits]
    exact Text.decimalValue_decimal n.toNat
  rw [wordOf?, if_pos hall, hvalue]
  simp only [if_pos n.toNat_lt, UInt64.ofNat_toNat]

theorem member?_nameBody (f : Fields) (k : Key) (v : Value) : f.member? (nameBody k) v = f.put? k v := by
  have hname : Key.ofName? k.name = some k := by cases k <;> rfl
  rw [Fields.member?, nameBody, textOf?_escaped]
  simp only [hname]

theorem ofValue?_members (s : Snapshot) :
    ofValue? (.object (Key.all.map fun k => (nameBody k, s.value k))) = some s := by
  have hstring : stringOf? (s.value .output) = some s.output := by
    rw [value, stringOf?, textOf?_escaped, Option.map_some, String.ofList_toList]
  have herrors : boolOf? (s.value .hasErrors) = some s.hasErrors := rfl
  have hwarnings : boolOf? (s.value .hasWarnings) = some s.hasWarnings := rfl
  have hcomplete : boolOf? (s.value .isComplete) = some s.isComplete := rfl
  have hword : wordOf? (s.value .lastUpdate) = some s.lastUpdate := wordOf?_decimal _
  rw [ofValue?]
  simp only [Key.all, List.map_cons, List.map_nil, Fields.members?, member?_nameBody, Fields.put?,
    Fields.fill?, hstring, herrors, hwarnings, hcomplete, hword, Option.map_some, Option.bind_some]
  rfl

/-- **A document with the tokens of a snapshot denotes the snapshot**, and only blanks may follow it. -/
theorem decode?_append {s : Snapshot} {bs : Bytes} (h : Mode.between.run? bs = some (s.tokens, .between))
    (more : Bytes) : decode? (bs ++ more) = if more.all isSpace then some s else none := by
  rw [decode?, Value.parse?_append h s.ofTokens?_tokens]
  split
  · rw [Option.bind_some, ofValue?_members]
  · rfl

/-- **A reply is read as the snapshot for which it was written.** -/
theorem decode?_encode (s : Snapshot) : decode? s.encode = some s := by
  simpa using decode?_append s.run?_encode []

/-- **A reply that has been cut off is not read as any snapshot.** -/
theorem decode?_of_cut {s : Snapshot} {bs : Bytes} (h : bs <+: s.encode) (hne : bs ≠ s.encode) :
    decode? bs = none := by
  obtain ⟨cs, hcs, hhead, hspell⟩ := s.encode_eq
  have hopen : s.openTokens.all (!·.isCloser) = true := rfl
  have hcloser : ∀ t ∈ s.openTokens, t.isCloser = false := fun t ht => by
    simpa using List.all_eq_true.mp hopen t ht
  rw [hcs] at h hne
  have hcut : bs <+: cs := (List.prefix_concat_iff.mp h).resolve_left hne
  rw [decode?, Value.parse?_of_cut hspell hhead hcloser hcut, Option.bind_none]

end WarmCheck.Snapshot
