import Aspia.SystemInfo.DmiEnumerator

/-!
# Well-formed structure tables

What the firmware is supposed to hand over: structures laid end to end, each a formatted
area whose byte 1 is its own length (at least 4), then a string-set of non-empty
NUL-terminated strings and one more NUL.  `SmBiosStructure` carries these conditions as
fields, and `WellFormed t ss` says that the first `data_.length` bytes of the table are
exactly the structures `ss`.

On such a table `advance()` finds every structure in turn and stops at the
end-of-table structure (type 127) or at the end of the data (`currents_wellFormed`).

The one step that needs an argument is the double-NUL search.  Inside a string-set a NUL
is followed by the first byte of the next string, which is not NUL, except after the
last string; and the search starts after the formatted area, whose bytes it never looks
at.  So the first double NUL the search meets is the one that ends the set
(`findStringsEnd_stringSet`).
-/

namespace Aspia
namespace Dmi

variable {t : SmBiosData}

/-! ## Bytes at an offset -/

/-- `bs` lies in `smbios_table_data` from offset `o` on. -/
def BytesAt (t : SmBiosData) : Nat → List UInt8 → Prop
  | _, [] => True
  | o, b :: bs => t.byteAt o = b ∧ BytesAt t (o + 1) bs

instance decBytesAt (t : SmBiosData) : (o : Nat) → (bs : List UInt8) → Decidable (BytesAt t o bs)
  | _, [] => isTrue trivial
  | o, b :: bs =>
    haveI := decBytesAt t (o + 1) bs
    inferInstanceAs (Decidable (t.byteAt o = b ∧ BytesAt t (o + 1) bs))

@[simp] theorem bytesAt_nil (o : Nat) : BytesAt t o [] := trivial

@[simp] theorem bytesAt_cons {o : Nat} {b : UInt8} {bs : List UInt8} :
    BytesAt t o (b :: bs) ↔ t.byteAt o = b ∧ BytesAt t (o + 1) bs := Iff.rfl

theorem bytesAt_append {o : Nat} {as bs : List UInt8} :
    BytesAt t o (as ++ bs) ↔ BytesAt t o as ∧ BytesAt t (o + as.length) bs := by
  induction as generalizing o with
  | nil => simp
  | cons a as ih =>
    simp only [List.cons_append, bytesAt_cons, ih, List.length_cons, and_assoc]
    rw [Nat.add_right_comm, Nat.add_assoc]

theorem BytesAt.byteAt {o : Nat} {bs : List UInt8} (h : BytesAt t o bs) (i : Nat)
    (hi : i < bs.length) : t.byteAt (o + i) = bs[i] := by
  induction bs generalizing o i with
  | nil => simp at hi
  | cons b bs ih =>
    cases i with
    | zero => exact h.1
    | succ i =>
      have := ih h.2 i (by simpa using hi)
      rw [show o + 1 + i = o + (i + 1) by omega] at this
      simpa using this

/-! ## Structures -/

/-- The string-set of a structure: each string with its NUL, then one more NUL; two NULs
when there are no strings. -/
def stringSet : List (List UInt8) → List UInt8
  | [] => [0, 0]
  | [s] => s ++ [0, 0]
  | s :: s' :: ss => s ++ 0 :: stringSet (s' :: ss)

theorem two_le_length_stringSet (ss : List (List UInt8)) : 2 ≤ (stringSet ss).length := by
  match ss with
  | [] => simp [stringSet]
  | [s] => simp [stringSet]
  | s :: s' :: ss =>
    have := two_le_length_stringSet (s' :: ss)
    simp only [stringSet, List.length_append, List.length_cons]
    omega

theorem stringSet_cons_cons (c : UInt8) (cs : List UInt8) (ss : List (List UInt8)) :
    ∃ rest, stringSet ((c :: cs) :: ss) = c :: rest := by
  cases ss <;> simp [stringSet]

/-- A string of a string-set: non-empty, and NUL only at its end, which `stringSet`
adds. -/
def IsSmBiosString (s : List UInt8) : Prop := s ≠ [] ∧ ∀ c ∈ s, c ≠ 0

instance : DecidablePred IsSmBiosString :=
  fun s => inferInstanceAs (Decidable (s ≠ [] ∧ ∀ c ∈ s, c ≠ 0))

/-- One SMBIOS structure as the firmware lays it out: the formatted area, whose byte 0 is
the type and byte 1 the area's length, and the strings of the string-set without their
NULs. -/
structure SmBiosStructure where
  formatted : List UInt8
  strings : List (List UInt8)
  length_ge : 4 ≤ formatted.length
  length_lt : formatted.length < 256
  length_byte : formatted[1]? = some (UInt8.ofNat formatted.length)
  strings_wf : ∀ s ∈ strings, IsSmBiosString s

/-- The structure's type, byte 0 of its formatted area. -/
def SmBiosStructure.type (S : SmBiosStructure) : UInt8 := S.formatted.getD 0 0

/-- The structure's bytes: the formatted area, then the string-set. -/
def SmBiosStructure.bytes (S : SmBiosStructure) : List UInt8 :=
  S.formatted ++ stringSet S.strings

/-- The first `data_.length` bytes of the table are the structures `ss`, end to end. -/
structure WellFormed (t : SmBiosData) (ss : List SmBiosStructure) : Prop where
  bytesAt : BytesAt t 0 (ss.flatMap SmBiosStructure.bytes)
  length_eq : (ss.flatMap SmBiosStructure.bytes).length = t.length

/-- The structures a walk should visit: those before the first end-of-table structure
(type 127). -/
def visited (ss : List SmBiosStructure) : List SmBiosStructure :=
  ss.takeWhile (·.type != 127)

/-- The offsets at which the structures `ss` start, laid end to end from `o`. -/
def starts : Nat → List SmBiosStructure → List Nat
  | _, [] => []
  | o, S :: ss => o :: starts (o + S.bytes.length) ss

/-! ## The double-NUL search on a string-set -/

theorem findStringsEnd_continue {p : Nat} (hp : p + 1 < t.length)
    (hb : t.byteAt p ≠ 0 ∨ t.byteAt (p + 1) ≠ 0) :
    (findStringsEnd t p).val = (findStringsEnd t (p + 1)).val := by
  rw [findStringsEnd, if_pos hp]
  simp only [Traced.bind_val, notDoubleNul_val]
  rw [if_pos (by simpa [bne_iff_ne] using hb)]

theorem findStringsEnd_stop {p : Nat} (hp : p + 1 < t.length) (h0 : t.byteAt p = 0)
    (h1 : t.byteAt (p + 1) = 0) : (findStringsEnd t p).val = p := by
  rw [findStringsEnd, if_pos hp]
  simp [notDoubleNul_val, h0, h1]

theorem findStringsEnd_skip {p : Nat} {s : List UInt8} (hs : ∀ c ∈ s, c ≠ 0)
    (h : BytesAt t p s) (hlen : p + s.length < t.length) :
    (findStringsEnd t p).val = (findStringsEnd t (p + s.length)).val := by
  induction s generalizing p with
  | nil => rfl
  | cons c s ih =>
    simp only [List.mem_cons, forall_eq_or_imp] at hs
    simp only [List.length_cons] at hlen ⊢
    rw [findStringsEnd_continue (by omega) (.inl (h.1 ▸ hs.1)), ih hs.2 h.2 (by omega),
      Nat.add_right_comm, Nat.add_assoc]

/-- **The search ends on the string-set's double NUL.** -/
theorem findStringsEnd_stringSet {p : Nat} {ss : List (List UInt8)}
    (hss : ∀ s ∈ ss, IsSmBiosString s) (h : BytesAt t p (stringSet ss))
    (hlen : p + (stringSet ss).length ≤ t.length) :
    (findStringsEnd t p).val = p + (stringSet ss).length - 2 := by
  induction ss generalizing p with
  | nil =>
    simp only [stringSet, List.length_cons, List.length_nil] at h hlen ⊢
    rw [findStringsEnd_stop (by omega) h.1 h.2.1]
    omega
  | cons s ss ih =>
    have hs := (hss s (List.mem_cons_self _ _)).2
    cases ss with
    | nil =>
      simp only [stringSet, List.length_append, List.length_cons, List.length_nil] at h hlen ⊢
      obtain ⟨hsb, h0⟩ := bytesAt_append.1 h
      rw [findStringsEnd_skip hs hsb (by omega), findStringsEnd_stop (by omega) h0.1 h0.2.1]
      omega
    | cons s' ss =>
      simp only [stringSet, List.length_append, List.length_cons] at h hlen ⊢
      obtain ⟨hsb, h0, hrest⟩ := bytesAt_append.1 h
      have hs' := hss s' (by simp)
      obtain ⟨c, cs, rfl⟩ := List.exists_cons_of_ne_nil hs'.1
      have hc : t.byteAt (p + s.length + 1) ≠ 0 := by
        obtain ⟨rest, hr⟩ := stringSet_cons_cons c cs ss
        rw [hr] at hrest
        rw [hrest.1]
        exact hs'.2 c (List.mem_cons_self _ _)
      have := two_le_length_stringSet ((c :: cs) :: ss)
      rw [findStringsEnd_skip hs hsb (by omega), findStringsEnd_continue (by omega) (.inr hc),
        ih (fun x hx => hss x (List.mem_cons_of_mem _ hx)) hrest (by omega)]
      omega

/-! ## `advance()` on well-formed structures -/

theorem SmBiosStructure.length_bytes (S : SmBiosStructure) :
    S.bytes.length = S.formatted.length + (stringSet S.strings).length := by
  simp [SmBiosStructure.bytes]

/-- `advance()` at a structure: the end-of-table structure nulls the cursors; any other
is made current, with `next_` just past its string-set. -/
theorem advance_structure {o : Nat} {S : SmBiosStructure} (h : BytesAt t o S.bytes)
    (hlen : o + S.bytes.length ≤ t.length) :
    (advance t o).val = if S.type = 127 then none else some ⟨o, o + S.bytes.length⟩ := by
  have hL := S.length_ge
  have hset := two_le_length_stringSet S.strings
  rw [S.length_bytes] at hlen ⊢
  obtain ⟨hf, hs⟩ := bytesAt_append.1 h
  have h0 : t.byteAt o = S.type := by
    have := hf.byteAt 0 (by omega)
    simpa [SmBiosStructure.type, List.getD_eq_getElem?_getD, List.getElem?_eq_getElem (by omega : 0 < S.formatted.length)] using this
  have h1 : (t.byteAt (o + 1)).toNat = S.formatted.length := by
    have hb := S.length_byte
    rw [List.getElem?_eq_getElem (by omega), Option.some_inj] at hb
    rw [hf.byteAt 1 (by omega), hb]
    exact UInt8.toNat_ofNat_of_lt S.length_lt
  unfold advance
  rw [if_pos (by omega)]
  simp only [Traced.bind_val, readByte_val, h0, h1, Nat.not_lt.2 hL, if_false]
  split
  · rfl
  · simp only [Traced.bind_val, Traced.pure_val,
      findStringsEnd_stringSet S.strings_wf hs (by omega)]
    congr 2
    omega

theorem currents_from {o : Nat} {ss : List SmBiosStructure}
    (h : BytesAt t o (ss.flatMap SmBiosStructure.bytes))
    (hlen : o + (ss.flatMap SmBiosStructure.bytes).length = t.length) (n : Nat) :
    currents t n o = (starts o (visited ss)).take n ∧
      (advance t (o + ((visited ss).flatMap SmBiosStructure.bytes).length)).val = none := by
  induction ss generalizing o n with
  | nil =>
    simp only [List.flatMap_nil, List.length_nil, Nat.add_zero] at hlen
    have hnone : (advance t o).val = none := by
      unfold advance
      rw [if_neg (by omega)]
      rfl
    cases n <;> simp [currents, visited, starts, hnone]
  | cons S ss ih =>
    simp only [List.flatMap_cons, List.length_append] at h hlen
    obtain ⟨hS, hrest⟩ := bytesAt_append.1 h
    have ha := advance_structure hS (by omega)
    by_cases ht : S.type = 127
    · rw [if_pos ht] at ha
      cases n <;> simp [currents, visited, starts, ha, ht]
    · rw [if_neg ht] at ha
      obtain ⟨ih1, ih2⟩ := ih hrest (by omega) (n - 1)
      have hv : visited (S :: ss) = S :: visited ss := by simp [visited, ht]
      refine ⟨?_, ?_⟩
      · cases n with
        | zero => rfl
        | succ n => simpa [currents, ha, hv, starts] using ih1
      · simpa [hv, Nat.add_assoc] using (ih hrest (by omega) 0).2

/-- **`advance()` visits a well-formed table in order.**  If the first `data_.length`
bytes of `smbios_table_data` are the structures `ss`, then the entries that successive
`advance()` calls from the constructed enumerator make current are the structures of
`visited ss` (those before the first of type 127), in order, and the call after the last
of them sets `current_` and `next_` to null. -/
theorem currents_wellFormed {ss : List SmBiosStructure} (h : WellFormed t ss) :
    (∀ n, currents t n DmiTableEnumerator.init.next = (starts 0 (visited ss)).take n) ∧
      (advance t ((visited ss).flatMap SmBiosStructure.bytes).length).val = none := by
  have := currents_from h.bytesAt (by simpa using h.length_eq)
  exact ⟨fun n => (this n).1, by simpa using (this 0).2⟩

/-- The end-of-table structure, with no strings. -/
def endOfTable : SmBiosStructure := ⟨[127, 4, 0, 0], [], by decide, by decide, by decide, by decide⟩

/-- A BIOS structure of formatted length 4, the end-of-table structure, and one more BIOS
structure after it, filling eighteen bytes. -/
def biosThenEnd : SmBiosData :=
  ⟨[0, 4, 0, 0, 0, 0, 127, 4, 0, 0, 0, 0, 0, 4, 0, 0, 0, 0], 18, by decide⟩

theorem currents_wellFormed_biosThenEnd :
    WellFormed biosThenEnd
        [⟨[0, 4, 0, 0], [], by decide, by decide, by decide, by decide⟩, endOfTable,
          ⟨[0, 4, 0, 0], [], by decide, by decide, by decide, by decide⟩] ∧
      currents biosThenEnd 3 0 = [0] := by
  have hwf : WellFormed biosThenEnd
      [⟨[0, 4, 0, 0], [], by decide, by decide, by decide, by decide⟩, endOfTable,
        ⟨[0, 4, 0, 0], [], by decide, by decide, by decide, by decide⟩] := ⟨by decide, by decide⟩
  exact ⟨hwf, ((currents_wellFormed hwf).1 3).trans (by decide)⟩

end Dmi
end Aspia
