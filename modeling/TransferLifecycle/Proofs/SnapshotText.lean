import TransferLifecycle.Proofs.SnapshotBytes
import TransferLifecycle.Proofs.TableReadBack

set_option autoImplicit false

/- What a snapshot says, character by character: the names of the columns, then a line for each
process. The bytes that are written, field by field and byte by byte, are those of this text. -/
namespace TransferLifecycle

namespace Snapshot

/-- A comma, a quote or a line break. -/
def isMark (c : Char) : Bool := c = ',' || c = '"' || c = '\n' || c = '\r'

def doubled (c : Char) : List Char := if c = '"' then ['"', '"'] else [c]

/-- A field as it stands in a line: with a mark in it, it is quoted and its quotes are doubled. -/
def entry (field : String) : String :=
  if field.toList.any isMark then
    "\"" ++ String.ofList (field.toList.flatMap doubled) ++ "\""
  else field

def line (p : TransferProcess) : String :=
  entry p.id.text ++ "," ++ entry p.state.name ++ "," ++ entry (toString p.stateCount.toNat) ++
    "," ++ entry (p.errorDetail.getD "") ++ "\n"

/-- The text of processes in the order in which they are listed. -/
def text (listed : List TransferProcess) : String :=
  "process,state,state_count,error_detail\n" ++ String.join (listed.map line)

end Snapshot

namespace Csv

open String (utf8EncodeChar)

/-- Every byte of a character outside ASCII is above those that have a meaning in a table. -/
theorem high_of_mem_utf8EncodeChar {c : Char} (high : 0x80 ≤ c.toNat) {b : UInt8}
    (member : b ∈ utf8EncodeChar c) : 0x80 ≤ b.toNat := by
  have wide : ¬ c.val.toNat ≤ 127 := Nat.not_le.2 high
  have whole : ∀ n, 0x80 ≤ n → n < 0x100 → 0x80 ≤ (UInt8.ofNat n).toNat := by
    intro n lower upper
    rwa [UInt8.toNat_ofNat', Nat.mod_eq_of_lt upper]
  simp only [utf8EncodeChar, wide, if_false] at member
  split at member
  next =>
    simp only [List.mem_cons, List.not_mem_nil, or_false] at member
    rcases member with rfl | rfl <;> exact whole _ (by omega) (by omega)
  next =>
    split at member
    next =>
      simp only [List.mem_cons, List.not_mem_nil, or_false] at member
      rcases member with rfl | rfl | rfl <;> exact whole _ (by omega) (by omega)
    next =>
      simp only [List.mem_cons, List.not_mem_nil, or_false] at member
      rcases member with rfl | rfl | rfl | rfl <;> exact whole _ (by omega) (by omega)

section High

variable {bytes : List UInt8}

theorem needsQuotes_of_high (high : ∀ b ∈ bytes, 0x80 ≤ b.toNat) : needsQuotes bytes = false := by
  refine List.any_eq_false.2 fun b member => ?_
  have above := high b member
  simp only [isLineEnd, Bool.or_eq_true, beq_iff_eq]
  rintro ((rfl | rfl) | rfl | rfl) <;> exact absurd above (by decide)

theorem flatMap_quotedByte_of_high (high : ∀ b ∈ bytes, 0x80 ≤ b.toNat) :
    bytes.flatMap quotedByte = bytes := by
  have single : ∀ b ∈ bytes, quotedByte b = [b] := by
    intro b member
    have above := high b member
    refine if_neg ?_
    rintro rfl
    exact absurd above (by decide)
  rw [List.flatMap_congr single, List.flatMap_singleton']

end High

/-- The encoding of a character needs quotes where the character does. -/
theorem needsQuotes_utf8EncodeChar (c : Char) :
    needsQuotes (utf8EncodeChar c) = Snapshot.isMark c := by
  by_cases ascii : c.toNat < 0x80
  · have all : ∀ n < 0x80,
        needsQuotes (utf8EncodeChar (.ofNat n)) = Snapshot.isMark (.ofNat n) := by decide
    rw [← c.ofNat_toNat]
    exact all c.toNat ascii
  · have plain : Snapshot.isMark c = false := by
      simp only [Snapshot.isMark, Bool.or_eq_false_iff, decide_eq_false_iff_not]
      refine ⟨⟨⟨?_, ?_⟩, ?_⟩, ?_⟩ <;> rintro rfl <;> exact ascii (by decide)
    rw [plain]
    exact needsQuotes_of_high fun b => high_of_mem_utf8EncodeChar (Nat.not_lt.1 ascii)

theorem flatMap_quotedByte_utf8EncodeChar (c : Char) :
    (utf8EncodeChar c).flatMap quotedByte = (Snapshot.doubled c).flatMap utf8EncodeChar := by
  by_cases ascii : c.toNat < 0x80
  · have all : ∀ n < 0x80, (utf8EncodeChar (.ofNat n)).flatMap quotedByte =
        (Snapshot.doubled (.ofNat n)).flatMap utf8EncodeChar := by decide
    rw [← c.ofNat_toNat]
    exact all c.toNat ascii
  · have other : c ≠ '"' := by
      rintro rfl
      exact ascii (by decide)
    rw [Snapshot.doubled, if_neg other, List.flatMap_singleton]
    exact flatMap_quotedByte_of_high fun b => high_of_mem_utf8EncodeChar (Nat.not_lt.1 ascii)

theorem needsQuotes_encode (field : String) :
    needsQuotes (Text.encode field) = field.toList.any Snapshot.isMark := by
  rw [Text.encode_eq_flatMap, needsQuotes, List.any_flatMap]
  exact congrArg field.toList.any (funext needsQuotes_utf8EncodeChar)

theorem flatMap_quotedByte_encode (field : String) :
    (Text.encode field).flatMap quotedByte =
      Text.encode (.ofList (field.toList.flatMap Snapshot.doubled)) := by
  rw [Text.encode_eq_flatMap, Text.encode_eq_flatMap, String.toList_ofList, List.flatMap_assoc,
    List.flatMap_assoc]
  exact congrArg (List.flatMap · field.toList) (funext flatMap_quotedByte_utf8EncodeChar)

/-- The bytes of a field are those of its entry. -/
theorem flatten_fieldChunks_encode (field : String) :
    (fieldChunks (Text.encode field)).flatten = Text.encode (Snapshot.entry field) := by
  rw [fieldChunks, needsQuotes_encode, Snapshot.entry]
  split
  next marked =>
    have mark : Text.encode "\"" = [quote] := by
      rw [Text.encode_eq]
      rfl
    rw [Text.encode_append, Text.encode_append, ← flatMap_quotedByte_encode, mark,
      List.flatten_append, List.flatten_singleton, List.flatten_cons, ← List.flatMap_def]
  next => exact List.flatMap_singleton' _

end Csv

namespace Snapshot

theorem flatten_rowChunks_fields (p : TransferProcess) :
    (Csv.rowChunks ((fields p).map Text.encode)).flatten = Text.encode (line p) := by
  have comma : Text.encode "," = [Csv.comma] := by
    rw [Text.encode_eq]
    rfl
  have ended : Text.encode "\n" = [Csv.lineFeed] := by
    rw [Text.encode_eq]
    rfl
  simp only [fields, line, List.map_cons, List.map_nil, Csv.flatten_rowChunks_cons,
    Csv.flatten_rowChunks_single, Csv.flatten_fieldChunks_encode, Text.encode_append, comma, ended,
    List.append_assoc, List.cons_append, List.nil_append]

theorem flatten_rowChunks_header :
    (Csv.rowChunks (header.map Text.encode)).flatten =
      Text.encode "process,state,state_count,error_detail\n" := by decide +kernel

theorem flatten_flatMap_rowChunks (listed : List TransferProcess) :
    ((listed.map fields).flatMap fun row => Csv.rowChunks (row.map Text.encode)).flatten =
      Text.encode (String.join (listed.map line)) := by
  induction listed with
  | nil =>
    rw [Text.encode_join]
    rfl
  | cons p rest ih =>
    rw [List.map_cons, List.flatMap_cons, List.flatten_append, flatten_rowChunks_fields, ih,
      List.map_cons, String.join_cons, Text.encode_append]

/-- The bytes of a snapshot are those of its text. -/
theorem contents_eq_encode (processes : List TransferProcess) :
    contents processes = Text.encode (text (sorted processes)) := by
  unfold text
  rw [Text.encode_append, contents, chunks, rows, List.flatMap_cons, List.flatten_append,
    flatten_rowChunks_header, flatten_flatMap_rowChunks]

example :
    text [⟨⟨"a,b"⟩, .suspended, 3, .ofSeconds 1, some "so \"far\""⟩] =
      "process,state,state_count,error_detail\n\"a,b\",SUSPENDED,3,\"so \"\"far\"\"\"\n" := by
  decide +kernel

end Snapshot

end TransferLifecycle
