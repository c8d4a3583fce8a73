import Aspia.SystemInfo.DmiTable

/-!
# What reading an entry returns and touches

Two facts about an entry that `advance()` has made current.

* `bios_reads_within_length`: `advance()` and `table()` stay below `data_.length`, but
  the accessors of `DmiBiosTable` never look at `data_.length`.  They read fixed offsets
  below `0x1A` from the entry's start, and the strings read the string-set up to the
  double NUL that `advance()` found; so they stay below `data_.length` when the entry has
  `0x1A` bytes before it and `advance()` found its double NUL before it
  (`next_ ≤ data_.length`), and not in general (`bios_reads_past_length`).
* `string_of_stringSet`: on a well-formed string-set, `DmiTable::string(offset)` returns
  the string its handle names with the ASCII whitespace at its ends removed, or the empty
  string for handle 0 and for a handle past the last string; it reads the handle byte, the length byte, and the string-set
  only, which ends where `advance()` put `next_`.

The walk over a string-set is followed one string at a time: `stringOffset ss k` is
where the walk is after skipping `k` strings, and `stringSet_at` reads the string found
there.
-/

namespace Aspia
namespace Dmi

variable {t : SmBiosData}

/-! ## The walk over a well-formed string-set -/

/-- Where the walk is after skipping `k` strings of `ss`, from the start of the set: at
the next string, or at the final NUL once the strings run out. -/
def stringOffset : List (List UInt8) → Nat → Nat
  | s :: ss, k + 1 => s.length + 1 + stringOffset ss k
  | _, _ => 0

theorem stringSet_cons (s : List UInt8) (ss : List (List UInt8)) :
    stringSet (s :: ss) = s ++ 0 :: (if ss = [] then [0] else stringSet ss) := by
  cases ss <;> simp [stringSet]

/-- A NUL-free string followed by a NUL is the C string there. -/
theorem cString_of_bytesAt {p : Nat} {s : List UInt8} (hs : ∀ c ∈ s, c ≠ 0)
    (h : BytesAt t p (s ++ [0])) : (cString t p).val = s := by
  induction s generalizing p with
  | nil => exact cString_val_of_nul (by simpa using h)
  | cons c s ih =>
    simp only [List.mem_cons, forall_eq_or_imp] at hs
    simp only [List.cons_append, bytesAt_cons] at h
    rw [cString_val_cons (h.1 ▸ hs.1), h.1, ih hs.2 h.2]

theorem skipStrings_of_nul {p : Nat} (h : t.byteAt p = 0) :
    ∀ handle, (skipStrings t p handle).val = p
  | 0 | 1 => rfl
  | _ + 2 => by rw [skipStrings_add_two, if_pos h]

/-- The string found after skipping `k` strings: the `k`-th string and its NUL, or the
final NUL. -/
theorem stringSet_at {ss : List (List UInt8)} (hss : ∀ s ∈ ss, IsSmBiosString s) :
    ∀ {p k : Nat}, BytesAt t p (stringSet ss) →
      (k < ss.length → BytesAt t (p + stringOffset ss k) (ss.getD k [] ++ [0])) ∧
        (ss.length ≤ k → t.byteAt (p + stringOffset ss k) = 0) := by
  induction ss with
  | nil =>
    intro p k h
    exact ⟨fun hk => absurd hk (Nat.not_lt_zero _), fun _ => h.1⟩
  | cons s rest ih =>
    intro p k h
    rw [stringSet_cons] at h
    obtain ⟨hs, h0, hrest⟩ := bytesAt_append.1 h
    cases k with
    | zero => exact ⟨fun _ => bytesAt_append.2 ⟨hs, h0, trivial⟩, fun hk => by simp at hk⟩
    | succ k =>
      have hoff : p + stringOffset (s :: rest) (k + 1) = p + s.length + 1 + stringOffset rest k := by
        simp only [stringOffset]
        omega
      rw [hoff]
      split at hrest
      next he =>
        subst he
        exact ⟨fun hk => by simp at hk, fun _ => by simpa [stringOffset] using hrest.1⟩
      next =>
        obtain ⟨ih1, ih2⟩ := ih (fun x hx => hss x (List.mem_cons_of_mem _ hx)) (k := k) hrest
        exact ⟨fun hk => by simpa using ih1 (by simpa using hk),
          fun hk => ih2 (by simpa using hk)⟩

/-- The walk on a well-formed string-set with handle `handle ≥ 1` skips `handle - 1`
strings, or all of them. -/
theorem skipStrings_stringSet {ss : List (List UInt8)} (hss : ∀ s ∈ ss, IsSmBiosString s) :
    ∀ {p handle : Nat}, BytesAt t p (stringSet ss) → 1 ≤ handle →
      (skipStrings t p handle).val = p + stringOffset ss (handle - 1) := by
  induction ss with
  | nil =>
    intro p handle h _
    rw [skipStrings_of_nul h.1]
    simp [stringOffset]
  | cons s rest ih =>
    intro p handle h hh
    obtain ⟨hne, hs⟩ := hss s (List.mem_cons_self _ _)
    rw [stringSet_cons] at h
    obtain ⟨hsb, h0, hrest⟩ := bytesAt_append.1 h
    match handle, hh with
    | 1, _ => simp [skipStrings, stringOffset]
    | handle + 2, _ =>
      obtain ⟨c, cs, rfl⟩ := List.exists_cons_of_ne_nil hne
      have hc : t.byteAt p ≠ 0 := hsb.1 ▸ hs c (List.mem_cons_self _ _)
      have hstr : (cString t p).val = c :: cs :=
        cString_of_bytesAt hs (bytesAt_append.2 ⟨hsb, h0, trivial⟩)
      rw [skipStrings_add_two, if_neg hc]
      dsimp only
      rw [hstr]
      split at hrest
      next he =>
        subst he
        rw [skipStrings_of_nul hrest.1]
        simp only [stringOffset, Nat.add_sub_cancel]
        omega
      next =>
        rw [ih (fun x hx => hss x (List.mem_cons_of_mem _ hx)) hrest (by omega)]
        simp only [stringOffset, Nat.add_sub_cancel]
        omega

/-- **`DmiTable::string` on a well-formed string-set.**  The string the handle names,
trimmed of ASCII whitespace; the empty string for handle 0 and past the last string. -/
theorem DmiTable.string_stringSet {d : DmiTable} {ss : List (List UInt8)}
    (hss : ∀ s ∈ ss, IsSmBiosString s)
    (h : BytesAt t (d.table + (t.byteAt (d.table + 1)).toNat) (stringSet ss)) (off : Nat) :
    (d.string t off).val =
      if t.byteAt (d.table + off) = 0 ∨ ss.length < (t.byteAt (d.table + off)).toNat then ""
      else latin1 (trimmed (ss.getD ((t.byteAt (d.table + off)).toNat - 1) [])) := by
  rw [DmiTable.string_eq]
  by_cases h0 : t.byteAt (d.table + off) = 0
  · simp [h0]
  have hpos : 1 ≤ (t.byteAt (d.table + off)).toNat :=
    Nat.pos_of_ne_zero fun hz => h0 (UInt8.toNat.inj (hz.trans rfl))
  have hw : (d.walk t off).val = d.table + (t.byteAt (d.table + 1)).toNat +
      stringOffset ss ((t.byteAt (d.table + off)).toNat - 1) :=
    skipStrings_stringSet hss h hpos
  obtain ⟨hin, hout⟩ := stringSet_at hss (k := (t.byteAt (d.table + off)).toNat - 1) h
  rw [if_neg h0, hw]
  by_cases hk : (t.byteAt (d.table + off)).toNat - 1 < ss.length
  · have hb := hin hk
    have hmem : ss.getD ((t.byteAt (d.table + off)).toNat - 1) [] ∈ ss := by
      rw [List.getD_eq_getElem?_getD, List.getElem?_eq_getElem hk]
      exact List.getElem_mem hk
    obtain ⟨hne, hs⟩ := hss _ hmem
    obtain ⟨c, cs, hcs⟩ := List.exists_cons_of_ne_nil hne
    rw [hcs] at hb hs
    have hc : t.byteAt _ ≠ 0 := hb.1 ▸ hs c (List.mem_cons_self _ _)
    rw [if_neg hc, if_neg (not_or.2 ⟨h0, by omega⟩), cString_of_bytesAt hs hb, hcs]
  · rw [if_pos (hout (by omega)), if_pos (.inr (by omega))]
/-! ## Reads of an entry made current -/

theorem table_val {c : Nat} {d : DmiTable} (h : (table t c).val = some d) : d = ⟨c⟩ := by
  simp only [table, Traced.bind_val, readByte_val] at h
  split at h <;> simp_all

@[simp] theorem table_reads (t : SmBiosData) (c : Nat) : (table t c).reads = [c] := by
  simp only [table, Traced.bind_reads, readByte_reads, Traced.bind_val]
  split <;> rfl

/-- When `next_` is within `data_.length`, `advance()`'s search ended on a double NUL just
before `next_`, no earlier than the entry's string-set. -/
theorem advance_strings_end {next : Nat} {e : DmiTableEnumerator}
    (h : (advance t next).val = some e) (hn : e.next ≤ t.length) :
    t.byteAt (e.next - 2) = 0 ∧ t.byteAt (e.next - 2 + 1) = 0 ∧
      e.current + (t.byteAt (e.current + 1)).toNat ≤ e.next - 2 + 1 := by
  obtain ⟨rfl, -, -⟩ := advance_some h
  have hn' := advance_next h
  have hge := findStringsEnd_ge t (e.current + (t.byteAt (e.current + 1)).toNat)
  obtain ⟨h0, h1⟩ := findStringsEnd_nul t (e.current + (t.byteAt (e.current + 1)).toNat)
    (by omega)
  rw [hn', Nat.add_sub_cancel]
  exact ⟨h0, h1, by omega⟩

/-- A BIOS entry of formatted length 4 with an empty string-set. -/
def shortBios : SmBiosStructure := ⟨[0, 4, 0, 0], [], by decide, by decide, by decide, by decide⟩

/-- `shortBios` alone, filling six bytes. -/
def shortBiosTable : SmBiosData := ⟨[0, 4, 0, 0, 0, 0], 6, by decide⟩

theorem advance_shortBiosTable : (advance shortBiosTable 0).val = some ⟨0, 6⟩ := by
  have := advance_structure (t := shortBiosTable) (S := shortBios) (o := 0) (by decide)
    (by decide)
  simpa [shortBios, SmBiosStructure.type] using this

/-- The accessors of a BIOS entry made current can read past `data_.length`: `date()`
reads its handle at offset 8 of an entry that ends at offset 6. -/
theorem bios_reads_past_length :
    ¬ ∀ (t : SmBiosData) (next : Nat) (e : DmiTableEnumerator), (advance t next).val = some e →
      (∀ o ∈ (table t e.current).reads, o < t.length) ∧
        ∀ d, (table t e.current).val = some d → ∀ f : BiosField, ∀ o ∈ f.reads t d, o < t.length := by
  intro h
  have := (h shortBiosTable 0 ⟨0, 6⟩ advance_shortBiosTable).2 ⟨0⟩ (by decide) .date 8
    (by decide)
  exact absurd this (by decide)

/-- **Which reads stay below `data_.length`.**  For every entry that `advance()` makes
current, `advance()` and `table()` read only below `data_.length`.  The accessors of the
`DmiBiosTable` do not consult `data_.length`; they read only below it when the entry has
`0x1A` bytes before `data_.length` and `advance()` found the entry's double NUL before it
(`next_ ≤ data_.length`). -/
theorem bios_reads_within_length (t : SmBiosData) (next : Nat) (e : DmiTableEnumerator)
    (h : (advance t next).val = some e) :
    (∀ o ∈ (advance t next).reads, o < t.length) ∧
      (∀ o ∈ (table t e.current).reads, o < t.length) ∧
      (e.current + 0x1A ≤ t.length → e.next ≤ t.length →
        ∀ d, (table t e.current).val = some d → ∀ f : BiosField, ∀ o ∈ f.reads t d,
          o < t.length) := by
  obtain ⟨hc, h4, h6⟩ := advance_some h
  refine ⟨advance_reads t next, by simp; omega, fun h1A hn d hd f o ho => ?_⟩
  rw [table_val hd] at ho
  obtain ⟨h0, h1, hr⟩ := advance_strings_end h hn
  have := BiosField.reads_within (d := ⟨e.current⟩) h0 h1 hr f o ho
  dsimp only at this
  omega

/-- The bytes of a BIOS entry of formatted length `L` (at least 10) whose ROM size byte at
`0x09` is `0xFF`, the marker of the extended size, its other fields zero, followed by one
string of eight bytes `c`. -/
def biosBytes (L : Nat) (c : UInt8) : List UInt8 :=
  [0, UInt8.ofNat L, 0, 0, 0, 0, 0, 0, 0, 0xFF] ++ List.replicate (L - 10) 0 ++
    List.replicate 8 c ++ [0, 0]

/-- A table holding only that entry. -/
def biosTable (L : Nat) (c : UInt8) : SmBiosData :=
  ⟨biosBytes L c, (biosBytes L c).length, Nat.le_refl _⟩

/-- The BIOS entry of formatted length `0x1A`, as SMBIOS 3 lays it out, with the string
`AAAAAAAA`. -/
def currentBios : SmBiosStructure :=
  ⟨[0, 0x1A, 0, 0, 0, 0, 0, 0, 0, 0xFF] ++ List.replicate 16 0, [List.replicate 8 0x41],
    by decide, by decide, by decide, by decide⟩

theorem advance_currentBios : (advance (biosTable 0x1A 0x41) 0).val = some ⟨0, 36⟩ := by
  have := advance_structure (t := biosTable 0x1A 0x41) (S := currentBios) (o := 0) (by decide)
    (by decide)
  simpa [currentBios, SmBiosStructure.type] using this

/-- The short entry, where only `advance()` and `table()` are covered, and the entry of
length `0x1A`, where every accessor reads below `data_.length`. -/
theorem bios_reads_within_length_entries :
    (advance shortBiosTable 0).val = some ⟨0, 6⟩ ∧
      (∀ o ∈ (table shortBiosTable 0).reads, o < shortBiosTable.length) ∧
      (advance (biosTable 0x1A 0x41) 0).val = some ⟨0, 36⟩ ∧
      ∀ f : BiosField, ∀ o ∈ f.reads (biosTable 0x1A 0x41) ⟨0⟩, o < (biosTable 0x1A 0x41).length :=
  ⟨advance_shortBiosTable,
    (bios_reads_within_length shortBiosTable 0 ⟨0, 6⟩ advance_shortBiosTable).2.1,
    advance_currentBios,
    (bios_reads_within_length (biosTable 0x1A 0x41) 0 ⟨0, 36⟩ advance_currentBios).2.2
      (by decide) (by decide) ⟨0⟩ (by decide)⟩

/-- **`DmiTable::string` on an entry made current.**  When the bytes from `length()` on
are a well-formed string-set ending before `data_.length`, `string(offset)` returns the
string its handle names with the ASCII whitespace at its ends removed, or the empty string
for handle 0 and past the last string; and it reads the handle byte, the length byte, and otherwise only bytes of
`[table_ + length(), next_)`. -/
theorem string_of_stringSet (t : SmBiosData) (next : Nat) (e : DmiTableEnumerator)
    (h : (advance t next).val = some e) (ss : List (List UInt8))
    (hss : ∀ s ∈ ss, IsSmBiosString s)
    (hset : BytesAt t (e.current + (t.byteAt (e.current + 1)).toNat) (stringSet ss))
    (hend : e.current + (t.byteAt (e.current + 1)).toNat + (stringSet ss).length ≤ t.length)
    (off : Nat) :
    (DmiTable.string t ⟨e.current⟩ off).val =
        (if t.byteAt (e.current + off) = 0 ∨ ss.length < (t.byteAt (e.current + off)).toNat
          then "" else latin1 (trimmed (ss.getD ((t.byteAt (e.current + off)).toNat - 1) []))) ∧
      ∀ o ∈ (DmiTable.string t ⟨e.current⟩ off).reads, o = e.current + off ∨
        o = e.current + 1 ∨ (e.current + (t.byteAt (e.current + 1)).toNat ≤ o ∧ o < e.next) := by
  refine ⟨DmiTable.string_stringSet hss hset off, fun o ho => ?_⟩
  have hnext : e.next = e.current + (t.byteAt (e.current + 1)).toNat + (stringSet ss).length := by
    obtain ⟨rfl, -, -⟩ := advance_some h
    have := two_le_length_stringSet ss
    rw [advance_next h, findStringsEnd_stringSet hss hset hend]
    omega
  have := two_le_length_stringSet ss
  obtain ⟨h0, h1, hr⟩ := advance_strings_end h (by omega)
  have hs := DmiTable.string_reads (d := ⟨e.current⟩) h0 h1 hr o ho
  dsimp only at hs
  rcases hs with h | h | h
  · exact .inl h
  · exact .inr (.inl h)
  · exact .inr (.inr ⟨h.1, by omega⟩)

/-- A BIOS entry of formatted length 5 whose manufacturer handle names its one string. -/
def namedBios : SmBiosStructure :=
  ⟨[0, 5, 0, 0, 1], [[0x41]], by decide, by decide, by decide, by decide⟩

/-- `namedBios` alone, filling eight bytes. -/
def namedBiosTable : SmBiosData := ⟨[0, 5, 0, 0, 1, 0x41, 0, 0], 8, by decide⟩

theorem advance_namedBiosTable : (advance namedBiosTable 0).val = some ⟨0, 8⟩ := by
  have := advance_structure (t := namedBiosTable) (S := namedBios) (o := 0) (by decide)
    (by decide)
  simpa [namedBios, SmBiosStructure.type] using this

theorem string_of_stringSet_namedBiosTable :
    (advance namedBiosTable 0).val = some ⟨0, 8⟩ ∧
      (DmiTable.string namedBiosTable ⟨0⟩ 4).val = "A" :=
  ⟨advance_namedBiosTable,
    (string_of_stringSet namedBiosTable 0 ⟨0, 8⟩ advance_namedBiosTable [[0x41]] (by decide)
      (by decide) (by decide) 4).1.trans (by decide)⟩

/-- Besides the handle byte and the string-set, `string()` reads the length byte: on
`namedBiosTable`, `manufacturer()` reads offset 1. -/
theorem string_reads_length_byte :
    ¬ ∀ (t : SmBiosData) (next : Nat) (e : DmiTableEnumerator), (advance t next).val = some e →
      ∀ ss : List (List UInt8), (∀ s ∈ ss, IsSmBiosString s) →
      BytesAt t (e.current + (t.byteAt (e.current + 1)).toNat) (stringSet ss) →
      e.current + (t.byteAt (e.current + 1)).toNat + (stringSet ss).length ≤ t.length →
      ∀ off < (t.byteAt (e.current + 1)).toNat,
        (DmiTable.string t ⟨e.current⟩ off).val =
            (if t.byteAt (e.current + off) = 0 ∨ ss.length < (t.byteAt (e.current + off)).toNat
              then "" else latin1 (trimmed (ss.getD ((t.byteAt (e.current + off)).toNat - 1) []))) ∧
          ∀ o ∈ (DmiTable.string t ⟨e.current⟩ off).reads, o = e.current + off ∨
            (e.current + (t.byteAt (e.current + 1)).toNat ≤ o ∧ o < e.next) := by
  intro h
  have := (h namedBiosTable 0 ⟨0, 8⟩ advance_namedBiosTable [[0x41]] (by decide) (by decide)
    (by decide) 4 (by decide)).2 1 (by decide)
  exact absurd this (by decide)

end Dmi
end Aspia
