import Aspia.SystemInfo.DmiEntries
/-!
# What the numeric fields of a BIOS entry depend on

The numeric accessors of `DmiBiosTable` read the entry's bytes at fixed offsets, and only two
of them look at `length()` first: `biosSize` before it takes the size bits of the extended
size word at `0x18`, and `characteristics` before it reads the extension bytes at `0x12` and
`0x13`.  So each field is a function of the entry's bytes below a fixed end `E` --- `0x1A` for
`biosSize`, `0x16` for `biosRevision`, `0x18` for `firmwareRevision`, `8` for `address` and
`runtimeSize`, `0x12` for `characteristics` --- and `characteristics` also of the formatted
area, inside which alone it reads the extension bytes.

## 1.  Two entries

`AgreeBelow t₁ d₁ t₂ d₂ n` says that two entries, possibly of two tables, hold the same bytes
at offsets `[0, n)`.  `bios_fields_agree_within` is the statement for the six accessors: two
entries with the same bytes below `E` (and, for `characteristics`, the same formatted area) get
the same result.  For a formatted length `L ≥ E` the formatted area alone fixes the field.

## 2.  Reads past a short formatted area

An entry laid out as SMBIOS 2.0 to 2.3 define the BIOS structure has formatted length `0x12`.
The guards on `length()` that `biosSize`'s size bits and the extension bytes have are missing
on the revision bytes at `0x14` to `0x17` and on `biosSize`'s unit bits at `0x19`: those are read
from the string-set.  Two such entries with the same formatted area and different strings get
different revisions, and with the ROM size byte `0xFF` the one whose string is `AAAAAAAA`
reports 16 GB where the source's comment promises a default of 16 MB
(`bios_fields_read_past_formatted`).
-/

namespace Aspia
namespace Dmi

/-- The entries `d₁` of `t₁` and `d₂` of `t₂` hold the same bytes at offsets `[0, n)`. -/
def AgreeBelow (t₁ : SmBiosData) (d₁ : DmiTable) (t₂ : SmBiosData) (d₂ : DmiTable) (n : Nat) :
    Prop :=
  ∀ i < n, t₁.byteAt (d₁.table + i) = t₂.byteAt (d₂.table + i)

instance (t₁ : SmBiosData) (d₁ : DmiTable) (t₂ : SmBiosData) (d₂ : DmiTable) (n : Nat) :
    Decidable (AgreeBelow t₁ d₁ t₂ d₂ n) :=
  inferInstanceAs (Decidable (∀ i < n, t₁.byteAt (d₁.table + i) = t₂.byteAt (d₂.table + i)))

/-! ## 1.  Reads at fixed offsets -/

section Congr

variable {t₁ t₂ : SmBiosData} {d₁ d₂ : DmiTable} {n : Nat}

theorem AgreeBelow.mono {m : Nat} (h : AgreeBelow t₁ d₁ t₂ d₂ n) (hmn : m ≤ n) :
    AgreeBelow t₁ d₁ t₂ d₂ m :=
  fun i hi => h i (Nat.lt_of_lt_of_le hi hmn)

theorem readLE_congr {o₁ o₂ size : Nat}
    (h : ∀ i < size, t₁.byteAt (o₁ + i) = t₂.byteAt (o₂ + i)) :
    (readLE t₁ o₁ size).val = (readLE t₂ o₂ size).val := by
  induction size generalizing o₁ o₂ with
  | zero => rfl
  | succ size ih =>
    have h0 : t₁.byteAt o₁ = t₂.byteAt o₂ := h 0 (Nat.succ_pos _)
    have hrest : (readLE t₁ (o₁ + 1) size).val = (readLE t₂ (o₂ + 1) size).val := ih fun i hi => by
      rw [Nat.add_right_comm, Nat.add_right_comm o₂]
      exact h (i + 1) (by omega)
    simp only [readLE, Traced.bind_val, readByte_val, Traced.pure_val, h0, hrest]

theorem DmiTable.number_congr (h : AgreeBelow t₁ d₁ t₂ d₂ n) {size offset : Nat}
    (hn : offset + size ≤ n) : (d₁.number t₁ size offset).val = (d₂.number t₂ size offset).val :=
  readLE_congr fun i hi => by
    rw [Nat.add_assoc, Nat.add_assoc]
    exact h (offset + i) (by omega)

theorem DmiTable.length_congr (h : AgreeBelow t₁ d₁ t₂ d₂ n) (hn : 1 < n) :
    (d₁.length t₁).val = (d₂.length t₂).val :=
  h 1 hn

namespace DmiBiosTable

theorem biosSize_congr (h : AgreeBelow t₁ d₁ t₂ d₂ 0x1A) :
    (biosSize t₁ d₁).val = (biosSize t₂ d₂).val := by
  simp only [biosSize, Traced.bind_val, apply_ite Traced.val,
    DmiTable.number_congr h (by decide : 0x09 + 1 ≤ 0x1A),
    DmiTable.number_congr h (by decide : 0x18 + 2 ≤ 0x1A), DmiTable.length_congr h (by decide)]

theorem revision_congr (a b : Nat) (h : AgreeBelow t₁ d₁ t₂ d₂ n) (ha : a < n) (hb : b < n) :
    (revision t₁ d₁ a b).val = (revision t₂ d₂ a b).val := by
  simp only [revision, Traced.bind_val, DmiTable.number_congr h (show a + 1 ≤ n from ha),
    DmiTable.number_congr h (show b + 1 ≤ n from hb)]

theorem address_congr (h : AgreeBelow t₁ d₁ t₂ d₂ 8) :
    (address t₁ d₁).val = (address t₂ d₂).val := by
  simp only [address, Traced.bind_val, DmiTable.number_congr h (by decide : 6 + 2 ≤ 8)]

theorem runtimeSize_congr (h : AgreeBelow t₁ d₁ t₂ d₂ 8) :
    (runtimeSize t₁ d₁).val = (runtimeSize t₂ d₂).val := by
  simp only [runtimeSize, Traced.bind_val, DmiTable.number_congr h (by decide : 6 + 2 ≤ 8)]

/-- An extension byte is read only when the formatted area reaches past it, so it is a
function of the formatted area and the length byte. -/
theorem extensionFlags_congr {minLength offset k : Nat}
    (hL : AgreeBelow t₁ d₁ t₂ d₂ (t₁.byteAt (d₁.table + 1)).toNat) (h2 : AgreeBelow t₁ d₁ t₂ d₂ 2)
    (hoff : offset < minLength) :
    (extensionFlags t₁ d₁ minLength offset k).val =
      (extensionFlags t₂ d₂ minLength offset k).val := by
  have hlen := DmiTable.length_congr h2 (by omega)
  simp only [extensionFlags, Traced.bind_val, ← hlen, DmiTable.length_val, apply_ite Traced.val]
  split
  · next hm => simp only [Traced.bind_val, DmiTable.number_congr hL (by omega : offset + 1 ≤ _)]
  · rfl

theorem characteristics_congr (hL : AgreeBelow t₁ d₁ t₂ d₂ (t₁.byteAt (d₁.table + 1)).toNat)
    (h : AgreeBelow t₁ d₁ t₂ d₂ 0x12) :
    (characteristics t₁ d₁).val = (characteristics t₂ d₂).val := by
  have h2 := h.mono (by omega : 2 ≤ 0x12)
  simp only [characteristics, Traced.bind_val,
    DmiTable.number_congr h (by decide : 0x0A + 8 ≤ 0x12),
    extensionFlags_congr hL h2 (by decide : 0x12 < 0x13),
    extensionFlags_congr hL h2 (by decide : 0x13 < 0x14)]

end DmiBiosTable

end Congr

open DmiBiosTable in
/-- **Which bytes the numeric fields of a BIOS entry depend on.**  For two entries `d₁` of
`t₁` and `d₂` of `t₂`, each accessor returns the same result on both when they hold the same
bytes below `E`: `0x1A` for `biosSize`, `0x16` for `biosRevision`, `0x18` for
`firmwareRevision`, `8` for `address` and `runtimeSize`; and `characteristics` when they hold
the same bytes below `0x12` and the same formatted area (`L` bytes, `L` the formatted length of
`d₁`).  So two entries with the same formatted area of length `L ≥ E` agree on the field. -/
theorem bios_fields_agree_within (t₁ t₂ : SmBiosData) (d₁ d₂ : DmiTable) :
    (AgreeBelow t₁ d₁ t₂ d₂ 0x1A → (biosSize t₁ d₁).val = (biosSize t₂ d₂).val) ∧
    (AgreeBelow t₁ d₁ t₂ d₂ 0x16 → (biosRevision t₁ d₁).val = (biosRevision t₂ d₂).val) ∧
    (AgreeBelow t₁ d₁ t₂ d₂ 0x18 →
      (firmwareRevision t₁ d₁).val = (firmwareRevision t₂ d₂).val) ∧
    (AgreeBelow t₁ d₁ t₂ d₂ 8 → (address t₁ d₁).val = (address t₂ d₂).val) ∧
    (AgreeBelow t₁ d₁ t₂ d₂ 8 → (runtimeSize t₁ d₁).val = (runtimeSize t₂ d₂).val) ∧
    (AgreeBelow t₁ d₁ t₂ d₂ (t₁.byteAt (d₁.table + 1)).toNat → AgreeBelow t₁ d₁ t₂ d₂ 0x12 →
      (characteristics t₁ d₁).val = (characteristics t₂ d₂).val) :=
  ⟨biosSize_congr, fun h => revision_congr 0x14 0x15 h (by omega) (by omega),
    fun h => revision_congr 0x16 0x17 h (by omega) (by omega), address_congr, runtimeSize_congr,
    characteristics_congr⟩

/-! ## 2.  An entry shorter than the fields -/

/-- The BIOS structure of formatted length `0x12` with the ROM size byte `0xFF` and one
string of eight bytes `c`. -/
def legacyBios (c : UInt8) (hc : c ≠ 0) : SmBiosStructure :=
  ⟨[0, 0x12, 0, 0, 0, 0, 0, 0, 0, 0xFF] ++ List.replicate 8 0, [List.replicate 8 c], by decide,
    by decide, by decide, by simp [IsSmBiosString, hc]⟩

theorem advance_legacyBios {c : UInt8} (hc : c ≠ 0)
    (hb : BytesAt (biosTable 0x12 c) 0 (legacyBios c hc).bytes) :
    (advance (biosTable 0x12 c) 0).val = some ⟨0, 0x1C⟩ :=
  (advance_structure hb (by simp [biosTable, biosBytes, SmBiosStructure.length_bytes,
    legacyBios, stringSet])).trans (by simp [legacyBios, SmBiosStructure.type,
      SmBiosStructure.bytes, stringSet])

open DmiBiosTable in
/-- **The formatted area does not fix the fields.**  Two BIOS entries made current by
`advance()`, both of formatted length `0x12` with the same formatted bytes and the ROM size
byte `0xFF`, whose strings are `AAAAAAAA` and eight spaces.  `biosRevision` reads its major
and minor release at `0x14` and `0x15`, inside the string-set, and returns `65.65` for one and
`32.32` for the other.  `biosSize` defaults the size to 16 for the short entry but takes the
unit from the string bytes at `0x18` and `0x19`, and returns 16 GB (in kilobytes) for the
first, 16 MB for the second. -/
theorem bios_fields_read_past_formatted :
    (¬ ∀ (t₁ t₂ : SmBiosData) (next₁ next₂ : Nat) (e₁ e₂ : DmiTableEnumerator)
        (d₁ d₂ : DmiTable),
      (advance t₁ next₁).val = some e₁ → (advance t₂ next₂).val = some e₂ →
      (table t₁ e₁.current).val = some d₁ → (table t₂ e₂.current).val = some d₂ →
      t₁.byteAt (e₁.current + 1) = t₂.byteAt (e₂.current + 1) →
      AgreeBelow t₁ d₁ t₂ d₂ (t₁.byteAt (e₁.current + 1)).toNat →
      (biosSize t₁ d₁).val = (biosSize t₂ d₂).val ∧
        (biosRevision t₁ d₁).val = (biosRevision t₂ d₂).val ∧
        (firmwareRevision t₁ d₁).val = (firmwareRevision t₂ d₂).val ∧
        (address t₁ d₁).val = (address t₂ d₂).val ∧
        (runtimeSize t₁ d₁).val = (runtimeSize t₂ d₂).val ∧
        (characteristics t₁ d₁).val = (characteristics t₂ d₂).val) ∧
      (biosRevision (biosTable 0x12 0x41) ⟨0⟩).val = "65.65" ∧
      (biosRevision (biosTable 0x12 0x20) ⟨0⟩).val = "32.32" ∧
      (biosSize (biosTable 0x12 0x41) ⟨0⟩).val = 16 * 1024 * 1024 ∧
      (biosSize (biosTable 0x12 0x20) ⟨0⟩).val = 16 * 1024 := by
  have hA : (biosRevision (biosTable 0x12 0x41) ⟨0⟩).val = "65.65" := by decide
  have hS : (biosRevision (biosTable 0x12 0x20) ⟨0⟩).val = "32.32" := by decide
  refine ⟨fun h => ?_, hA, hS, by decide, by decide⟩
  have := (h (biosTable 0x12 0x41) (biosTable 0x12 0x20) 0 0 ⟨0, 0x1C⟩ ⟨0, 0x1C⟩ ⟨0⟩ ⟨0⟩
    (advance_legacyBios (by decide) (by decide)) (advance_legacyBios (by decide) (by decide))
    (by decide) (by decide) (by decide) (by decide)).2.1
  rw [hA, hS] at this
  exact absurd this (by decide)

end Dmi
end Aspia
