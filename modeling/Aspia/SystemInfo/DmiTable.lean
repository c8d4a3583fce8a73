import Aspia.SystemInfo.DmiStructures

/-!
# `DmiTable` and `DmiBiosTable`: reading one entry

`DmiTableEnumerator::table()` wraps the current entry in a `DmiBiosTable` when its type
is BIOS (0), and the accessors read fields of it at fixed offsets from `table_`:
strings through `DmiTable::string`, numbers through `DmiTable::number<T>`.  A
`DmiTable` holds only `table_`; it never sees `data_.length`.

`DmiTable::string(offset)` takes the byte at `offset` as a 1-based handle into the
string-set that follows the formatted area, and walks the set with `strlen` hops until
it has skipped `handle - 1` strings or meets a NUL where a string should begin.

`QString` results are modelled as Lean strings: `DmiTable::string` returns
`QLatin1String(string).trimmed()`, whose `trimmed` removes the ASCII whitespace bytes (tab,
line feed, vertical tab, form feed, carriage return and space) at both ends and keeps every
other byte, `0x85` and `0xA0` included; the `QLatin1String` is then read as a `QString`, one
character per byte.

## Where the model takes the missing header

`dmi_impl.h` is not among the sources.  It declares `DmiTable::length()`,
`DmiTable::number<T>()`, the type code `TYPE_BIOS`, and `BitSet<T>` comes from
`base/bitset.h`; the model reads them the way SMBIOS lays entries out: `length()` is
byte 1 of the entry, `number<T>` reads `sizeof(T)` bytes little-endian, `TYPE_BIOS` is 0,
and `BitSet<T>::range(a, b)` is bits `a` to `b` of the value.
-/

namespace Aspia
namespace Dmi

/-! ## Entries -/

/-- A `DmiTable`: its pointer `table_`, as an offset into `smbios_table_data`. -/
structure DmiTable where
  table : Nat
  deriving DecidableEq, Repr

/-- Modelled from the spec: `DmiTable::TYPE_BIOS`, the SMBIOS type of the BIOS
information structure. -/
def typeBios : UInt8 := 0

/-- `DmiTableEnumerator::table` for a non-null `current_`: a `DmiBiosTable` for a BIOS
entry, null for any other type. -/
def table (t : SmBiosData) (current : Nat) : Traced (Option DmiTable) := do
  let tableType ← readByte t current
  if tableType = typeBios then pure (some ⟨current⟩) else pure none

/-- Modelled from the spec: `DmiTable::length()`, the entry's formatted length, which is
byte 1 of the entry. -/
def DmiTable.length (t : SmBiosData) (d : DmiTable) : Traced UInt8 := readByte t (d.table + 1)

/-- `size` bytes from offset `o`, little-endian. -/
def readLE (t : SmBiosData) (o : Nat) : Nat → Traced Nat
  | 0 => pure 0
  | size + 1 => do
    let b ← readByte t o
    let rest ← readLE t (o + 1) size
    pure (b.toNat + 256 * rest)

/-- Modelled from the spec: `DmiTable::number<T>(offset)`, the `sizeof(T)`-byte value at
`offset` of the entry. -/
def DmiTable.number (t : SmBiosData) (d : DmiTable) (size offset : Nat) : Traced Nat :=
  readLE t (d.table + offset) size

/-- Modelled from the spec: `BitSet<T>::range(from, to)`, bits `from` to `to` of the
value. -/
def bitRange (value lo hi : Nat) : Nat := (value >>> lo) % (1 <<< (hi - lo + 1))

/-! ## Strings -/

/-- The C string at `p` (what `strlen` measures and `QLatin1String` copies): the bytes
before the first NUL, with the reads of each of them and of the NUL.  Past the end of the
buffer the model reads zeros. -/
def cString (t : SmBiosData) (p : Nat) : Traced (List UInt8) :=
  let s := (t.tableData.drop p).takeWhile (· != 0)
  ⟨s, List.range' p (s.length + 1)⟩

/-- The whitespace test of `QLatin1String::trimmed`: an ASCII space, or a byte from tab
(`0x09`) to carriage return (`0x0D`). -/
def isSpace (c : UInt8) : Bool :=
  c == 0x20 || (0x09 ≤ c && c ≤ 0x0D)

/-- `QLatin1String::trimmed`: the bytes without the whitespace at either end. -/
def trimmed (s : List UInt8) : List UInt8 :=
  ((s.dropWhile isSpace).reverse.dropWhile isSpace).reverse

/-- `QLatin1String`: the string whose characters are the bytes. -/
def latin1 (s : List UInt8) : String := String.mk (s.map fun b => Char.ofNat b.toNat)

/-- The loop `while (handle > 1 && *string)` of `DmiTable::string`: step past a string
and its NUL, once per remaining handle; the byte at `string` is read only while
`handle > 1`. -/
def skipStrings (t : SmBiosData) (p : Nat) : Nat → Traced Nat
  | handle + 2 => do
    let c ← readByte t p
    if c = 0 then pure p
    else do
      let s ← cString t p
      skipStrings t (p + s.length + 1) (handle + 1)
  | _ => pure p

/-- `DmiTable::string(offset)`. -/
def DmiTable.string (t : SmBiosData) (d : DmiTable) (offset : Nat) : Traced String := do
  let handle ← readByte t (d.table + offset)
  if handle = 0 then pure ""
  else do
    let len ← d.length t
    let p ← skipStrings t (d.table + len.toNat) handle.toNat
    let c ← readByte t p
    if c = 0 then pure ""
    else do
      let s ← cString t p
      pure (latin1 (trimmed s))

/-! ## `DmiBiosTable` -/

namespace DmiBiosTable

/-- `DmiBiosTable::manufacturer`. -/
def manufacturer (t : SmBiosData) (d : DmiTable) : Traced String := d.string t 0x04

/-- `DmiBiosTable::version`. -/
def version (t : SmBiosData) (d : DmiTable) : Traced String := d.string t 0x05

/-- `DmiBiosTable::date`. -/
def date (t : SmBiosData) (d : DmiTable) : Traced String := d.string t 0x08

/-- `DmiBiosTable::biosSize`, in kilobytes. -/
def biosSize (t : SmBiosData) (d : DmiTable) : Traced Nat := do
  let oldSize ← d.number t 1 0x09
  if oldSize ≠ 0xFF then pure ((oldSize + 1) <<< 6)
  else do
    let bitfield ← d.number t 2 0x18
    let len ← d.length t
    let size := if 0x1A ≤ len.toNat then bitRange bitfield 0 13 else 16
    match bitRange bitfield 14 15 with
    | 0 => pure (size * 1024)
    | 1 => pure (size * 1024 * 1024)
    | _ => pure 0

/-- A `"%1.%2"` revision from the bytes at `majorOffset` and `minorOffset`, empty when
either is `0xFF`: `DmiBiosTable::biosRevision` and `firmwareRevision`. -/
def revision (t : SmBiosData) (d : DmiTable) (majorOffset minorOffset : Nat) :
    Traced String := do
  let major ← d.number t 1 majorOffset
  let minor ← d.number t 1 minorOffset
  if major = 0xFF ∨ minor = 0xFF then pure ""
  else pure (toString major ++ "." ++ toString minor)

/-- `DmiBiosTable::biosRevision`. -/
def biosRevision (t : SmBiosData) (d : DmiTable) : Traced String := revision t d 0x14 0x15

/-- `DmiBiosTable::firmwareRevision`. -/
def firmwareRevision (t : SmBiosData) (d : DmiTable) : Traced String :=
  revision t d 0x16 0x17

/-- `QString("%10h").arg(address, 4, 16)`.  `QString::arg` reads up to two digits after a
`%`, so `%10` is the place marker 10, the only one in the text: the segment's hexadecimal
digits right-aligned in four places with spaces, then `h`. -/
def addressText (address : Nat) : String :=
  let digits := Nat.toDigits 16 address
  String.mk (List.replicate (4 - digits.length) ' ' ++ digits) ++ "h"

/-- `DmiBiosTable::address`: the segment of the BIOS start address. -/
def address (t : SmBiosData) (d : DmiTable) : Traced String := do
  let address ← d.number t 2 0x06
  if address = 0 then pure "" else pure (addressText address)

/-- `DmiBiosTable::runtimeSize`, in bytes. -/
def runtimeSize (t : SmBiosData) (d : DmiTable) : Traced Nat := do
  let address ← d.number t 2 0x06
  if address = 0 then pure 0
  else
    let code := (0x10000 - address) <<< 4
    if code % 0x400 ≠ 0 then pure code else pure ((code >>> 10) * 1024)

/-- `DmiBiosTable::Characteristics`, its fields grouped by the byte they come from:
`legacy i` is the field of bit `i + 4` of the characteristics qword (`isa` for bit 4 up to
`nec_pc98` for bit 31), `ext1 i` of bit `i` of extension byte 1 (`acpi` to
`smart_battery`), `ext2 i` of bit `i` of extension byte 2 (`bios_boot_specification` to
`virtual_machine`). -/
structure Characteristics where
  legacy : Fin 28 → Bool
  ext1 : Fin 8 → Bool
  ext2 : Fin 5 → Bool

/-- One extension byte of `DmiBiosTable::characteristics`: `length()` is read, and the
byte at `offset` only when the formatted area reaches it (`minLength <= length()`); its
low `n` bits, or all clear. -/
def extensionFlags (t : SmBiosData) (d : DmiTable) (minLength offset n : Nat) :
    Traced (Fin n → Bool) := do
  let len ← d.length t
  if minLength ≤ len.toNat then do
    let bf ← d.number t 1 offset
    pure fun i => bf.testBit i
  else pure fun _ => false

/-- `DmiBiosTable::characteristics`: bit 3 of the qword means "not supported" and leaves
the legacy fields cleared. -/
def characteristics (t : SmBiosData) (d : DmiTable) : Traced Characteristics := do
  let bf ← d.number t 8 0x0A
  let legacy : Fin 28 → Bool :=
    if bf.testBit 3 then fun _ => false else fun i => bf.testBit (i + 4)
  let ext1 ← extensionFlags t d 0x13 0x12 8
  let ext2 ← extensionFlags t d 0x14 0x13 5
  pure ⟨legacy, ext1, ext2⟩

end DmiBiosTable

/-- The accessors of `DmiBiosTable`. -/
inductive BiosField where
  | manufacturer
  | version
  | date
  | biosSize
  | biosRevision
  | firmwareRevision
  | address
  | runtimeSize
  | characteristics
  deriving DecidableEq, Repr

/-- The offsets an accessor reads. -/
def BiosField.reads (t : SmBiosData) (d : DmiTable) : BiosField → List Nat
  | .manufacturer => (DmiBiosTable.manufacturer t d).reads
  | .version => (DmiBiosTable.version t d).reads
  | .date => (DmiBiosTable.date t d).reads
  | .biosSize => (DmiBiosTable.biosSize t d).reads
  | .biosRevision => (DmiBiosTable.biosRevision t d).reads
  | .firmwareRevision => (DmiBiosTable.firmwareRevision t d).reads
  | .address => (DmiBiosTable.address t d).reads
  | .runtimeSize => (DmiBiosTable.runtimeSize t d).reads
  | .characteristics => (DmiBiosTable.characteristics t d).reads

/-! ## What the accessors read -/

variable {t : SmBiosData}

@[simp] theorem readLE_reads (t : SmBiosData) (o size : Nat) :
    (readLE t o size).reads = List.range' o size := by
  induction size generalizing o with
  | zero => rfl
  | succ size ih => simp [readLE, ih, List.range'_succ]

@[simp] theorem DmiTable.length_val (t : SmBiosData) (d : DmiTable) :
    (d.length t).val = t.byteAt (d.table + 1) := rfl

@[simp] theorem DmiTable.length_reads (t : SmBiosData) (d : DmiTable) :
    (d.length t).reads = [d.table + 1] := rfl

@[simp] theorem DmiTable.number_reads (t : SmBiosData) (d : DmiTable) (size offset : Nat) :
    (d.number t size offset).reads = List.range' (d.table + offset) size := by
  simp [DmiTable.number]

theorem cString_reads (t : SmBiosData) (p : Nat) :
    (cString t p).reads = List.range' p ((cString t p).val.length + 1) := rfl

theorem cString_val_of_nul {p : Nat} (h : t.byteAt p = 0) : (cString t p).val = [] := by
  simp only [cString]
  unfold SmBiosData.byteAt at h
  rw [List.getD_eq_getElem?_getD] at h
  cases hd : t.tableData.drop p with
  | nil => rfl
  | cons a l =>
    have : t.tableData[p]? = some a := by
      rw [← Nat.add_zero p, ← List.getElem?_drop, hd]
      simp
    rw [this, Option.getD_some] at h
    simp [h]

theorem cString_val_cons {p : Nat} (h : t.byteAt p ≠ 0) :
    (cString t p).val = t.byteAt p :: (cString t (p + 1)).val := by
  unfold SmBiosData.byteAt at h ⊢
  rw [List.getD_eq_getElem?_getD] at h ⊢
  have hp : p < t.tableData.length := by
    rcases Nat.lt_or_ge p t.tableData.length with hp | hp
    · exact hp
    · rw [List.getElem?_eq_none hp] at h
      exact absurd rfl h
  simp only [List.getElem?_eq_getElem hp, Option.getD_some] at h ⊢
  simp only [cString]
  rw [List.drop_eq_getElem_cons hp, List.takeWhile_cons]
  simp [h]

/-- The C string at `p` ends at or before any NUL from `p` on. -/
theorem cString_length_le {p z : Nat} (hz : t.byteAt z = 0) (hp : p ≤ z) :
    p + (cString t p).val.length ≤ z := by
  obtain ⟨k, hk⟩ : ∃ k, z - p = k := ⟨_, rfl⟩
  induction k generalizing p with
  | zero =>
    rw [show p = z by omega, cString_val_of_nul hz]
    simp
  | succ k ih =>
    by_cases hb : t.byteAt p = 0
    · simp [cString_val_of_nul hb, hp]
    · rw [cString_val_cons hb, List.length_cons]
      have := ih (p := p + 1) (by omega) (by omega)
      omega

/-- One turn of the string walk: stop on a NUL, or step past the string and its NUL. -/
theorem skipStrings_add_two (t : SmBiosData) (p handle : Nat) :
    skipStrings t p (handle + 2) =
      if t.byteAt p = 0 then ⟨p, [p]⟩
      else
        let w := skipStrings t (p + (cString t p).val.length + 1) (handle + 1)
        ⟨w.val, p :: ((cString t p).reads ++ w.reads)⟩ := by
  split
  next hc => refine Traced.ext ?_ ?_ <;> simp [skipStrings, hc]
  next hc => refine Traced.ext ?_ ?_ <;> simp [skipStrings, hc]

theorem le_of_byteAt_ne_zero {r p : Nat} (h1 : t.byteAt (r + 1) = 0) (hp : p ≤ r + 1)
    (hc : ¬t.byteAt p = 0) : p ≤ r :=
  Nat.lt_succ_iff.1 (Nat.lt_of_le_of_ne hp fun h => hc (h ▸ h1))

/-- The string walk, between `p` and a double NUL at `r`: it reads nothing outside
`[p, r + 1]` and stops inside it. -/
theorem skipStrings_within {r : Nat} (h0 : t.byteAt r = 0) (h1 : t.byteAt (r + 1) = 0) :
    ∀ (handle p : Nat), p ≤ r + 1 →
      (∀ o ∈ (skipStrings t p handle).reads, p ≤ o ∧ o ≤ r + 1) ∧
        p ≤ (skipStrings t p handle).val ∧ (skipStrings t p handle).val ≤ r + 1
  | 0, p, hp => by simp [skipStrings, hp]
  | 1, p, hp => by simp [skipStrings, hp]
  | handle + 2, p, hp => by
    rw [skipStrings_add_two]
    split
    · simp [hp]
    next hc =>
      have hs := cString_length_le h0 (le_of_byteAt_ne_zero h1 hp hc)
      obtain ⟨ih1, ih2, ih3⟩ := skipStrings_within h0 h1 (handle + 1)
        (p + (cString t p).val.length + 1) (by omega)
      refine ⟨fun o ho => ?_, by dsimp only; omega, ih3⟩
      simp only [List.mem_cons, List.mem_append, cString_reads, List.mem_range'_1] at ho
      rcases ho with rfl | ho | ho
      · omega
      · omega
      · have := ih1 o ho
        omega

/-- The walk `DmiTable::string(offset)` makes over the string-set, from `table_ +
length()` with the handle at `offset`. -/
def DmiTable.walk (t : SmBiosData) (d : DmiTable) (off : Nat) : Traced Nat :=
  skipStrings t (d.table + (t.byteAt (d.table + 1)).toNat) (t.byteAt (d.table + off)).toNat

/-- `DmiTable::string` with its reads spelled out: the handle byte, then the length byte,
the walk, the byte it stops on, and the C string there. -/
theorem DmiTable.string_eq (t : SmBiosData) (d : DmiTable) (off : Nat) :
    d.string t off =
      if t.byteAt (d.table + off) = 0 then ⟨"", [d.table + off]⟩
      else if t.byteAt (d.walk t off).val = 0 then
        ⟨"", (d.table + off) :: (d.table + 1) :: ((d.walk t off).reads ++ [(d.walk t off).val])⟩
      else ⟨latin1 (trimmed (cString t (d.walk t off).val).val),
        (d.table + off) :: (d.table + 1) ::
          ((d.walk t off).reads ++ (d.walk t off).val :: (cString t (d.walk t off).val).reads)⟩ := by
  split
  next hh => refine Traced.ext ?_ ?_ <;> simp [DmiTable.string, hh]
  next hh =>
    split
    next hc =>
      simp only [DmiTable.walk] at hc
      refine Traced.ext ?_ ?_ <;> simp [DmiTable.string, DmiTable.walk, hh, hc]
    next hc =>
      simp only [DmiTable.walk] at hc
      refine Traced.ext ?_ ?_ <;> simp [DmiTable.string, DmiTable.walk, hh, hc]

/-- **What `DmiTable::string` reads.**  With a double NUL at `r` no earlier than the
string-set's start, `string(offset)` reads the handle byte, the length byte, and bytes of
`[table_ + length(), r + 1]` only. -/
theorem DmiTable.string_reads {d : DmiTable} {off r : Nat} (h0 : t.byteAt r = 0)
    (h1 : t.byteAt (r + 1) = 0) (hr : d.table + (t.byteAt (d.table + 1)).toNat ≤ r + 1) :
    ∀ o ∈ (d.string t off).reads, o = d.table + off ∨ o = d.table + 1 ∨
      (d.table + (t.byteAt (d.table + 1)).toNat ≤ o ∧ o ≤ r + 1) := by
  have hw := skipStrings_within h0 h1 (t.byteAt (d.table + off)).toNat _ hr
  rw [← DmiTable.walk] at hw
  intro o ho
  rw [DmiTable.string_eq] at ho
  generalize d.walk t off = w at hw ho
  obtain ⟨hw1, hw2, hw3⟩ := hw
  split at ho
  · simp_all
  split at ho
  · simp only [List.mem_cons, List.mem_append, List.not_mem_nil, or_false] at ho
    rcases ho with ho | ho | ho | rfl
    · exact .inl ho
    · exact .inr (.inl ho)
    · exact .inr (.inr (hw1 o ho))
    · exact .inr (.inr ⟨hw2, hw3⟩)
  next hc =>
    have hs := cString_length_le h0 (le_of_byteAt_ne_zero h1 hw3 hc)
    simp only [List.mem_cons, List.mem_append, cString_reads, List.mem_range'_1] at ho
    rcases ho with ho | ho | ho | ho | ho
    · exact .inl ho
    · exact .inr (.inl ho)
    · exact .inr (.inr (hw1 o ho))
    · exact .inr (.inr (by omega))
    · exact .inr (.inr (by omega))

theorem DmiBiosTable.biosSize_reads (t : SmBiosData) (d : DmiTable) :
    ∀ o ∈ (biosSize t d).reads, d.table ≤ o ∧ o < d.table + 0x1A := by
  intro o ho
  simp only [biosSize, Traced.bind_reads, Traced.bind_val, DmiTable.number_reads,
    List.mem_append] at ho
  rcases ho with ho | ho
  · simp at ho; omega
  split at ho
  · simp at ho
  simp only [Traced.bind_reads, Traced.bind_val, DmiTable.number_reads, DmiTable.length_reads,
    List.mem_append] at ho
  rcases ho with ho | ho | ho
  · simp [List.mem_range'_1] at ho; omega
  · simp at ho; omega
  · split at ho <;> simp at ho

theorem DmiBiosTable.revision_reads (t : SmBiosData) (d : DmiTable) (a b : Nat) :
    (revision t d a b).reads = [d.table + a, d.table + b] := by
  simp only [revision, Traced.bind_reads, Traced.bind_val, DmiTable.number_reads]
  split <;> simp

theorem DmiBiosTable.address_reads (t : SmBiosData) (d : DmiTable) :
    (address t d).reads = [d.table + 6, d.table + 7] := by
  simp only [address, Traced.bind_reads, Traced.bind_val, DmiTable.number_reads]
  split <;> simp [List.range'_succ]

theorem DmiBiosTable.runtimeSize_reads (t : SmBiosData) (d : DmiTable) :
    (runtimeSize t d).reads = [d.table + 6, d.table + 7] := by
  simp only [runtimeSize, Traced.bind_reads, Traced.bind_val, DmiTable.number_reads]
  split
  · simp [List.range'_succ]
  · split <;> simp [List.range'_succ]

theorem DmiBiosTable.extensionFlags_reads (t : SmBiosData) (d : DmiTable)
    (minLength offset n : Nat) :
    ∀ o ∈ (extensionFlags t d minLength offset n).reads, o = d.table + 1 ∨ o = d.table + offset := by
  intro o ho
  simp only [extensionFlags, Traced.bind_reads, Traced.bind_val, DmiTable.length_reads,
    List.mem_append, List.mem_singleton] at ho
  rcases ho with ho | ho
  · exact .inl ho
  · split at ho <;> simp at ho
    exact .inr ho

theorem DmiBiosTable.characteristics_reads (t : SmBiosData) (d : DmiTable) :
    ∀ o ∈ (characteristics t d).reads, d.table ≤ o ∧ o < d.table + 0x14 := by
  intro o ho
  simp only [characteristics, Traced.bind_reads, Traced.bind_val, DmiTable.number_reads,
    List.mem_append, List.mem_range'_1, Traced.pure_reads, List.not_mem_nil, or_false] at ho
  rcases ho with ho | ho | ho
  · omega
  · rcases extensionFlags_reads t d _ _ _ o ho with rfl | rfl <;> omega
  · rcases extensionFlags_reads t d _ _ _ o ho with rfl | rfl <;> omega

/-- The numeric accessors read only the entry's first `0x1A` bytes. -/
theorem BiosField.reads_fixed {d : DmiTable} :
    ∀ f ∈ [BiosField.biosSize, .biosRevision, .firmwareRevision, .address, .runtimeSize,
      .characteristics], ∀ o ∈ f.reads t d, o < d.table + 0x1A := by
  simp only [List.mem_cons, List.not_mem_nil, or_false, forall_eq_or_imp, forall_eq]
  refine ⟨fun o ho => (DmiBiosTable.biosSize_reads t d o ho).2, ?_, ?_, ?_, ?_,
    fun o ho => by have := DmiBiosTable.characteristics_reads t d o ho; omega⟩ <;>
    intro o ho <;>
    simp [BiosField.reads, DmiBiosTable.biosRevision, DmiBiosTable.firmwareRevision,
      DmiBiosTable.revision_reads, DmiBiosTable.address_reads,
      DmiBiosTable.runtimeSize_reads] at ho <;>
    omega

/-- Every accessor reads the entry's first `0x1A` bytes, or, for a string, bytes of the
string-set up to a double NUL at `r`. -/
theorem BiosField.reads_within {d : DmiTable} {r : Nat} (h0 : t.byteAt r = 0)
    (h1 : t.byteAt (r + 1) = 0) (hr : d.table + (t.byteAt (d.table + 1)).toNat ≤ r + 1)
    (f : BiosField) : ∀ o ∈ f.reads t d, o < d.table + 0x1A ∨ o ≤ r + 1 := by
  intro o ho
  cases f
  case manufacturer =>
    rcases DmiTable.string_reads h0 h1 hr o ho with h | h | h <;> omega
  case version =>
    rcases DmiTable.string_reads h0 h1 hr o ho with h | h | h <;> omega
  case date =>
    rcases DmiTable.string_reads h0 h1 hr o ho with h | h | h <;> omega
  all_goals exact .inl (BiosField.reads_fixed _ (by simp) o ho)

end Dmi
end Aspia
