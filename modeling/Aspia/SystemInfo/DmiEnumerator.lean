import Mathlib.Logic.Basic

/-!
# `system_info/serializer/dmi_impl.cc`: walking the SMBIOS structure table

`DmiTableEnumerator` walks the raw SMBIOS table that `GetSystemFirmwareTable('RSMB')`
copies into `data_`: `smbios_table_data` holds the structures end to end, and
`data_.length` says how many of its bytes the firmware filled.  Each structure is a
formatted area, whose byte 1 is its length, followed by a string-set ended by a double
NUL; `advance()` makes the structure at `next_` current and searches for that double NUL
to find the next one.

## Reads

What matters in this code is as much *which bytes are read* as what is computed, so every
function here returns a `Traced` value: the result together with the
offsets into `smbios_table_data` of every byte the code reads, in order.  `readByte` is
the only way the model touches the table.  Reading is total (the model reads a zero past
the end of the buffer, where the code would read whatever lies there): whether that ever
happens is a statement about the `reads`, not something the model prevents.

## The enumerator

`current_` and `next_` are pointers into `smbios_table_data`, set to null together.  The
model keeps them as offsets in a `DmiTableEnumerator`, and null as `none`.  `advance()`
reads only `next_`, so `advance` takes that offset.

* `advance_bounded`: every byte `advance()` reads lies below `data_.length`, every entry
  it makes current has four bytes before `data_.length`, and each next entry starts at
  least six bytes further on; so the walk from the constructed enumerator ends within
  `data_.length / 6 + 2` calls.
-/

namespace Aspia
namespace Dmi

/-! ## Traced reads -/

/-- A value computed from the firmware table, with the offsets of the bytes read for
it, in the order the code reads them. -/
@[ext] structure Traced (α : Type) where
  val : α
  reads : List Nat

instance : Monad Traced where
  pure a := ⟨a, []⟩
  bind x f := ⟨(f x.val).val, x.reads ++ (f x.val).reads⟩

section Traced

variable {α β : Type}

@[simp] theorem Traced.pure_val (a : α) : (pure a : Traced α).val = a := rfl

@[simp] theorem Traced.pure_reads (a : α) : (pure a : Traced α).reads = [] := rfl

@[simp] theorem Traced.bind_val (x : Traced α) (f : α → Traced β) :
    (x >>= f).val = (f x.val).val := rfl

@[simp] theorem Traced.bind_reads (x : Traced α) (f : α → Traced β) :
    (x >>= f).reads = x.reads ++ (f x.val).reads := rfl

end Traced

/-- `data_` as `DmiTableEnumerator` holds it: the buffer `smbios_table_data` and the
number `data_.length` of its bytes the firmware filled, no more than the buffer holds.  The
header fields of `SmBiosData` are not read by the enumerator. -/
structure SmBiosData where
  tableData : List UInt8
  length : Nat
  length_le : length ≤ tableData.length

/-- The byte at offset `o` of `smbios_table_data`; zero past the end of the buffer. -/
def SmBiosData.byteAt (t : SmBiosData) (o : Nat) : UInt8 := t.tableData.getD o 0

/-- The byte at offset `o` of `smbios_table_data`, and the read of it. -/
def readByte (t : SmBiosData) (o : Nat) : Traced UInt8 := ⟨t.byteAt o, [o]⟩

@[simp] theorem readByte_val (t : SmBiosData) (o : Nat) : (readByte t o).val = t.byteAt o := rfl

@[simp] theorem readByte_reads (t : SmBiosData) (o : Nat) : (readByte t o).reads = [o] := rfl

/-! ## `advance()` -/

/-- The test `next_[0] != 0 || next_[1] != 0` of the search in `advance()`; `next_[1]`
is read only when `next_[0]` is NUL. -/
def notDoubleNul (t : SmBiosData) (p : Nat) : Traced Bool := do
  let b0 ← readByte t p
  if b0 ≠ 0 then pure true else do
    let b1 ← readByte t (p + 1)
    pure (b1 != 0)

/-- The search for the next handle in `advance()`: from `p`, step over bytes while
`p + 1 < length` and the bytes at `p` and `p + 1` are not both NUL. -/
def findStringsEnd (t : SmBiosData) (p : Nat) : Traced Nat :=
  if p + 1 < t.length then do
    let more ← notDoubleNul t p
    if more then findStringsEnd t (p + 1) else pure p
  else pure p
termination_by t.length - p

/-- `current_` and `next_` as offsets into `smbios_table_data`, when they are not null. -/
structure DmiTableEnumerator where
  current : Nat
  next : Nat
  deriving DecidableEq, Repr

/-- The enumerator the constructor builds when `readSmBios` succeeds: both cursors at
the start of the table. -/
def DmiTableEnumerator.init : DmiTableEnumerator := ⟨0, 0⟩

/-- `DmiTableEnumerator::advance` with `next_` at offset `next`: the new cursors, or
`none` when it sets both to null.  The `while` runs its body at most once. -/
def advance (t : SmBiosData) (next : Nat) : Traced (Option DmiTableEnumerator) :=
  if next + 4 ≤ t.length then do
    let tableType ← readByte t next
    let tableLength ← readByte t (next + 1)
    if tableLength.toNat < 4 then pure none
    else if tableType = 127 then pure none
    else do
      let p ← findStringsEnd t (next + tableLength.toNat)
      pure (some ⟨next, p + 2⟩)
  else pure none

/-- The enumerator after `n` calls of `advance()`, made while `current_` is non-null. -/
def advanceN (t : SmBiosData) : Nat → Option DmiTableEnumerator → Option DmiTableEnumerator
  | 0, e => e
  | _ + 1, none => none
  | n + 1, some e => advanceN t n (advance t e.next).val

/-- The offsets that `n` calls of `advance()` from `next_ = next` make current; the
first call that sets the cursors to null ends the list. -/
def currents (t : SmBiosData) : Nat → Nat → List Nat
  | 0, _ => []
  | n + 1, next =>
      match (advance t next).val with
      | none => []
      | some e => e.current :: currents t n e.next

/-! ## Bounds -/

variable {t : SmBiosData}

@[simp] theorem notDoubleNul_val (t : SmBiosData) (p : Nat) :
    (notDoubleNul t p).val = (t.byteAt p != 0 || t.byteAt (p + 1) != 0) := by
  unfold notDoubleNul
  simp only [Traced.bind_val, readByte_val]
  split <;> simp_all

theorem notDoubleNul_reads {t : SmBiosData} {p o : Nat} (h : o ∈ (notDoubleNul t p).reads) :
    o = p ∨ o = p + 1 := by
  unfold notDoubleNul at h
  simp only [Traced.bind_reads, readByte_reads, List.mem_append, List.mem_singleton,
    readByte_val] at h
  split at h <;> simp_all

/-- The search reads only bytes from `p` on, and below `length`. -/
theorem findStringsEnd_reads (t : SmBiosData) (p : Nat) :
    ∀ o ∈ (findStringsEnd t p).reads, p ≤ o ∧ o < t.length := by
  rw [findStringsEnd]
  split
  · intro o ho
    simp only [Traced.bind_reads, List.mem_append] at ho
    rcases ho with ho | ho
    · rcases notDoubleNul_reads ho with rfl | rfl <;> omega
    · split at ho
      · have := findStringsEnd_reads t (p + 1) o ho
        omega
      · simp at ho
  · simp
termination_by t.length - p

theorem findStringsEnd_ge (t : SmBiosData) (p : Nat) : p ≤ (findStringsEnd t p).val := by
  rw [findStringsEnd]
  split
  · simp only [Traced.bind_val]
    split
    · have := findStringsEnd_ge t (p + 1)
      omega
    · simp
  · simp
termination_by t.length - p

/-- Every byte `advance()` reads lies below `length`. -/
theorem advance_reads (t : SmBiosData) (next : Nat) :
    ∀ o ∈ (advance t next).reads, o < t.length := by
  unfold advance
  split
  · intro o ho
    simp only [Traced.bind_reads, readByte_reads, Traced.bind_val, readByte_val,
      List.mem_append, List.mem_singleton] at ho
    rcases ho with rfl | rfl | ho
    · omega
    · omega
    · split at ho
      · simp at ho
      · split at ho
        · simp at ho
        · simp only [Traced.bind_reads, List.mem_append, Traced.pure_reads, List.not_mem_nil,
            or_false] at ho
          exact (findStringsEnd_reads t _ o ho).2
  · simp

/-- An entry `advance()` makes current starts at the old `next_`, has four bytes before
`length`, and the new `next_` lies at least six bytes further on. -/
theorem advance_some {next : Nat} {e : DmiTableEnumerator}
    (h : (advance t next).val = some e) :
    e.current = next ∧ next + 4 ≤ t.length ∧ next + 6 ≤ e.next := by
  unfold advance at h
  split at h
  · simp only [Traced.bind_val, readByte_val] at h
    split at h
    · simp at h
    · split at h
      · simp at h
      · simp only [Traced.bind_val, Traced.pure_val, Option.some.injEq] at h
        subst h
        have := findStringsEnd_ge t (next + (t.byteAt (next + 1)).toNat)
        refine ⟨rfl, by assumption, ?_⟩
        dsimp only
        omega
  · simp at h

/-- The new `next_` is two past where the double-NUL search stopped. -/
theorem advance_next {next : Nat} {e : DmiTableEnumerator}
    (h : (advance t next).val = some e) :
    e.next = (findStringsEnd t (next + (t.byteAt (next + 1)).toNat)).val + 2 := by
  unfold advance at h
  split at h
  · simp only [Traced.bind_val, readByte_val] at h
    split at h
    · simp at h
    · split at h
      · simp at h
      · simp only [Traced.bind_val, Traced.pure_val, Option.some.injEq] at h
        rw [← h]
  · simp at h

/-- The search's position, as a pure function of the bytes. -/
theorem findStringsEnd_val (t : SmBiosData) (p : Nat) :
    (findStringsEnd t p).val =
      if p + 1 < t.length ∧ (t.byteAt p ≠ 0 ∨ t.byteAt (p + 1) ≠ 0) then
        (findStringsEnd t (p + 1)).val
      else p := by
  rw [findStringsEnd]
  split
  · simp only [Traced.bind_val, notDoubleNul_val]
    split <;> simp_all
  · rw [if_neg (by omega)]
    rfl

/-- A search that stops two bytes before `length` stopped on a double NUL. -/
theorem findStringsEnd_nul (t : SmBiosData) (p : Nat)
    (h : (findStringsEnd t p).val + 2 ≤ t.length) :
    t.byteAt (findStringsEnd t p).val = 0 ∧ t.byteAt ((findStringsEnd t p).val + 1) = 0 := by
  rw [findStringsEnd_val] at h ⊢
  split at h
  next hm =>
    rw [if_pos hm]
    exact findStringsEnd_nul t (p + 1) h
  next hm =>
    rw [if_neg hm]
    simp only [not_and, not_or, not_not] at hm
    exact hm (by omega)
termination_by t.length - p

/-- From `next_ = x`, at most `(length + 2 - x) / 6` calls leave `current_` non-null. -/
theorem advanceN_eq_none (t : SmBiosData) :
    ∀ (n : Nat) (e : DmiTableEnumerator), (t.length + 2 - e.next) / 6 < n →
      advanceN t n (some e) = none
  | 0, _, h => absurd h (Nat.not_lt_zero _)
  | n + 1, e, h => by
    rw [advanceN]
    cases he : (advance t e.next).val with
    | none => cases n <;> rfl
    | some e' =>
      obtain ⟨-, h4, h6⟩ := advance_some he
      exact advanceN_eq_none t n e' (by omega)

/-- **The walk stays inside the table and ends.**  For every content of
`smbios_table_data` and every `data_.length`: every byte `advance()` reads lies below
`data_.length`; an entry it makes current starts at `next_`, with four bytes before
`data_.length`, and the following entry starts at least six bytes further on; and from
the constructed enumerator the cursors are null after `data_.length / 6 + 2` calls. -/
theorem advance_bounded (t : SmBiosData) :
    (∀ next, ∀ o ∈ (advance t next).reads, o < t.length) ∧
    (∀ next e, (advance t next).val = some e →
      e.current = next ∧ e.current + 4 ≤ t.length ∧ e.current + 6 ≤ e.next) ∧
    advanceN t (t.length / 6 + 2) (some .init) = none := by
  refine ⟨advance_reads t, fun next e h => ?_, advanceN_eq_none t _ _ ?_⟩
  · obtain ⟨rfl, h4, h6⟩ := advance_some h
    exact ⟨rfl, h4, h6⟩
  · simp only [DmiTableEnumerator.init]
    omega

end Dmi
end Aspia
