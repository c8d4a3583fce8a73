import Aspia.DesktopCapture.Cursor
/-!
# What `mouseCursorFromHCursor` builds, pixel by pixel

For a cursor whose mask `M` has width `w` and height `H`, the image has height
`h = H` for a colour cursor and `h = H / 2` for a monochrome one, whose colour
plane `S` is then the lower half of the mask.  The result is `alphaMul S` when
the colour plane carries alpha; otherwise it is the transparency rebuilt from
the mask (`maskTable`), outlined in white when some pixel was reverse screen
(`outlinedImage`).  That is `mouseCursorFromHCursor_pixels`, which also says
that the result depends on no mask pixel past `w * H`.

## The steps

* `addCursorOutline_eq` --- the in-place outline scan computes the
  simultaneous update `outlineAll`: a pixel rewritten earlier in the scan turns
  transparent into white, so it is black after the rewrite exactly when it was
  black before, and the later neighbour tests see no difference.
* `hasBlackNeighbour_iff` --- the pointer offsets `-width`, `+width`, `-1`, `+1`
  of the scan, each with its guard, are exactly the four neighbours of the
  pixel inside the grid (`isGridNeighbour`).
* `addCursorOutline_simultaneous` --- together, the scan on its own: it reads
  only offsets of the image (`addCursorOutlineTraced`, whatever the pixels) and
  leaves the simultaneous update stated on the grid.
* `reconstructTransparency_eq` --- the reconstruction loop and the outline pass
  together compute `outlinedImage`.
* `premultiply_outlinedImage` --- the final `alphaMul` changes none of those
  pixels, since each is opaque or zero when the colour plane has no alpha.

## Every answer of Windows

* `mouseCursorFromHCursor_premultiplied` --- every image is premultiplied: no colour byte
  above the alpha byte.
* `monochrome_cursor_palette` --- a monochrome cursor is black, white and transparent.
-/

namespace Aspia
namespace Cursor

/-! ## Pixels that `alphaMul` leaves alone -/

theorem premultiply_of_opaque {p : UInt32} (h : rgbReserved p = 0xFF) : premultiply p = p := by
  have hp : p.toNat < 4294967296 := p.toNat_lt_size
  simp only [rgbReserved] at h
  apply UInt32.toNat.inj
  rw [premultiply, rgbReserved, h, Nat.mul_div_cancel _ (by decide), Nat.mul_div_cancel _ (by decide),
    Nat.mul_div_cancel _ (by decide), UInt32.toNat_ofNat_of_lt] <;>
  · simp only [rgbBlue, rgbGreen, rgbRed, UInt32.size]
    omega

theorem premultiply_zero : premultiply 0 = 0 := rfl

theorem rgbReserved_black_xor {s : UInt32} (h : rgbReserved s = 0) :
    rgbReserved (0xFF000000 ^^^ s) = 0xFF := by
  have hs : s.toBitVec >>> 24 = 0#32 := by
    apply BitVec.eq_of_toNat_eq
    rw [BitVec.toNat_ushiftRight, Nat.shiftRight_eq_div_pow]
    exact h
  show (0xFF000000#32 ^^^ s.toBitVec).toNat / 0x1000000 = 255
  rw [show (0x1000000 : Nat) = 2 ^ 24 from rfl, ← Nat.shiftRight_eq_div_pow, ← BitVec.toNat_ushiftRight, BitVec.ushiftRight_xor_distrib, hs,
    BitVec.xor_zero]
  rfl

/-! ## The image a cursor should have -/

/-- The pixel whose `RGBQUAD` bytes are `b`, `g`, `r` and alpha `a`. -/
def rgbQuad (b g r a : Nat) : UInt32 := UInt32.ofNat (b + g * 0x100 + r * 0x10000 + a * 0x1000000)

/-- A pixel premultiplied by its alpha: each colour byte `c` becomes `c * a / 0xFF`, and the
alpha byte `a` is kept. -/
def premultiplied (p : UInt32) : UInt32 :=
  rgbQuad (rgbBlue p * rgbReserved p / 0xFF) (rgbGreen p * rgbReserved p / 0xFF)
    (rgbRed p * rgbReserved p / 0xFF) (rgbReserved p)

theorem premultiply_eq_premultiplied (p : UInt32) : premultiply p = premultiplied p := rfl

/-- The reconstruction table for mask pixel `a` and colour pixel `s`: mask white with a
non-zero colour is black, mask white with colour zero is transparent, and otherwise the
colour is made opaque by flipping its alpha byte. -/
def maskTable (a s : UInt32) : UInt32 :=
  if a = 0x00FFFFFF then (if s ≠ 0 then 0xFF000000 else 0) else 0xFF000000 ^^^ s

/-- Pixels `p` and `q` of a `width × height` image stored row by row are 4-neighbours:
both inside the image, and one step apart in one coordinate. -/
def isGridNeighbour (width height p q : Nat) : Bool :=
  p < width * height && q < width * height &&
    (p % width == q % width && (p / width + 1 == q / width || q / width + 1 == p / width) ||
      p / width == q / width && (p % width + 1 == q % width || q % width + 1 == p % width))

/-- The image rebuilt from mask `A` and colour plane `S`: the table, and, when some pixel is
reverse screen, white at every transparent pixel with a black 4-neighbour. -/
def outlinedImage (width height : Nat) (A S : Buffer) (p : Nat) : UInt32 :=
  let T := fun q => maskTable (A q) (S q)
  if (∃ q < width * height, A q = 0x00FFFFFF ∧ S q ≠ 0) ∧ T p = 0 ∧
      ∃ q < width * height, isGridNeighbour width height p q ∧ T q = 0xFF000000 then 0xFFFFFFFF
  else T p

/-- The pixels a cursor should end with: the premultiplied colour plane when it is a colour
cursor with alpha, the rebuilt image otherwise. -/
def cursorImageSpec (hasColor : Bool) (width height : Nat) (A S : Buffer) : List UInt32 :=
  (List.range (width * height)).map fun p =>
    if hasColor ∧ ∃ q < width * height, rgbReserved (S q) ≠ 0 then premultiplied (S p)
    else outlinedImage width height A S p

/-- The image height: the mask height for a colour cursor, half of it for a monochrome one. -/
def imageHeight (hasColor : Bool) (height : Nat) : Nat := if hasColor then height else height / 2

/-- The colour plane: the colour bitmap, or the lower half of the mask. -/
def imageSource (hasColor : Bool) (width height : Nat) (mask color : Buffer) : Buffer :=
  if hasColor then color else fun p => mask (width * (height / 2) + p)

/-- `addCursorOutline` described all at once: a pixel that is transparent in the input and
passes the neighbour test on the input turns white. -/
def outlineAll (width height : Nat) (data : Buffer) : Buffer := fun i =>
  if i < width * height ∧ data i = 0 ∧ hasBlackNeighbour width height data (i / width) (i % width)
  then 0xFFFFFFFF else data i

/-! ## The outline scan -/

section Outline

variable {width height : Nat}

theorem hasBlackNeighbour_congr {d d' : Buffer} (h : ∀ q, d q = 0xFF000000 ↔ d' q = 0xFF000000)
    (y x : Nat) : hasBlackNeighbour width height d y x = hasBlackNeighbour width height d' y x := by
  have hb : ∀ q, (d q == kPixelRgbaBlack) = (d' q == kPixelRgbaBlack) := fun q => by
    rw [Bool.eq_iff_iff, beq_iff_eq, beq_iff_eq, kPixelRgbaBlack_eq]
    exact h q
  simp only [hasBlackNeighbour, hb]

/-- The outline only turns transparent pixels white, so no pixel becomes or stops being
black. -/
theorem outlineAll_eq_black_iff (d : Buffer) (q : Nat) :
    outlineAll width height d q = 0xFF000000 ↔ d q = 0xFF000000 := by
  unfold outlineAll
  split
  · next h => simp [h.2.1]
  · rfl

/-- **The scan after `k` pixels**: the first `k` pixels hold the simultaneous update, the
rest their input. -/
theorem foldl_outlineStep (d : Buffer) {k : Nat} (hk : k ≤ width * height) :
    (List.range k).foldl (fun b i => outlineStep width height b (i / width) (i % width)) d =
      fun j => if j < k then outlineAll width height d j else d j := by
  induction k with
  | zero => funext j; simp
  | succ k ih =>
    set D : Buffer := fun j => if j < k then outlineAll width height d j else d j
    have hDk : D k = d k := by simp [D]
    have hblack : ∀ q, D q = 0xFF000000 ↔ d q = 0xFF000000 := fun q => by
      simp only [D]
      split
      · exact outlineAll_eq_black_iff d q
      · rfl
    rw [List.range_succ, List.foldl_append, ih (by omega), List.foldl_cons, List.foldl_nil,
      ← update_ite_lt, outlineStep, Nat.div_add_mod', hasBlackNeighbour_congr hblack]
    change _ = Function.update D k (outlineAll width height d k)
    simp only [outlineAll, hDk, show k < width * height by omega, true_and, Bool.and_eq_true,
      beq_iff_eq, kPixelRgbaTransparent_eq]
    split
    · rw [kPixelRgbaWhite_eq]
    · rw [← hDk, Function.update_eq_self]

/-- **The in-place outline scan is the simultaneous update.** -/
theorem addCursorOutline_eq (d : Buffer) :
    addCursorOutline width height d = outlineAll width height d := by
  rw [addCursorOutline, forEachPixel_eq, foldl_outlineStep d le_rfl]
  funext j
  split
  · rfl
  · next h => simp [outlineAll, h]

end Outline

/-! ## The neighbours the scan compares -/

section Neighbours

variable {width height : Nat}

theorem isGridNeighbour_index {y x y' x' : Nat} (hy : y < height) (hx : x < width)
    (hy' : y' < height) (hx' : x' < width) :
    isGridNeighbour width height (y * width + x) (y' * width + x') = true ↔
      (x = x' ∧ (y + 1 = y' ∨ y' + 1 = y)) ∨ (y = y' ∧ (x + 1 = x' ∨ x' + 1 = x)) := by
  simp [isGridNeighbour, div_of_lt hx, mod_of_lt hx, div_of_lt hx', mod_of_lt hx', index_lt hy hx,
    index_lt hy' hx']

theorem exists_index {q : Nat} (hq : q < width * height) :
    ∃ y x, y < height ∧ x < width ∧ q = y * width + x :=
  ⟨q / width, q % width, Nat.div_lt_of_lt_mul hq,
    Nat.mod_lt _ (Nat.pos_of_ne_zero fun h => by simp [h] at hq), (Nat.div_add_mod' q width).symm⟩

/-- **The four reads of the outline test are the four grid neighbours**: the offsets
`-width`, `+width`, `-1` and `+1`, each under its guard, reach exactly the pixels above,
below, left and right of row `y`, column `x` inside the image. -/
theorem hasBlackNeighbour_iff (d : Buffer) {y x : Nat} (hy : y < height) (hx : x < width) :
    hasBlackNeighbour width height d y x = true ↔
      ∃ q < width * height, isGridNeighbour width height (y * width + x) q ∧ d q = 0xFF000000 := by
  simp only [hasBlackNeighbour, Bool.or_eq_true, Bool.and_eq_true, decide_eq_true_eq, beq_iff_eq,
    kPixelRgbaBlack_eq]
  constructor
  · rintro (((⟨hy0, h⟩ | ⟨hy1, h⟩) | ⟨hx0, h⟩) | ⟨hx1, h⟩)
    · have e : y * width + x - width = (y - 1) * width + x := by
        have := Nat.le_mul_of_pos_left width hy0
        rw [Nat.sub_one_mul]
        omega
      refine ⟨_, index_lt (by omega) hx, ?_, e ▸ h⟩
      exact (isGridNeighbour_index hy hx (by omega) hx).2 (.inl ⟨rfl, .inr (by omega)⟩)
    · have e : y * width + x + width = (y + 1) * width + x := by rw [Nat.succ_mul]; omega
      exact ⟨_, index_lt hy1 hx, (isGridNeighbour_index hy hx hy1 hx).2 (.inl ⟨rfl, .inl rfl⟩),
        e ▸ h⟩
    · have e : y * width + x - 1 = y * width + (x - 1) := by omega
      refine ⟨_, index_lt hy (by omega), ?_, e ▸ h⟩
      exact (isGridNeighbour_index hy hx hy (by omega)).2 (.inr ⟨rfl, .inr (by omega)⟩)
    · exact ⟨_, index_lt hy hx1, (isGridNeighbour_index hy hx hy hx1).2 (.inr ⟨rfl, .inl rfl⟩),
        Nat.add_assoc _ _ _ ▸ h⟩
  · rintro ⟨q, hq, hn, h⟩
    obtain ⟨y', x', hy', hx', rfl⟩ := exists_index hq
    rcases (isGridNeighbour_index hy hx hy' hx').1 hn with ⟨rfl, rfl | rfl⟩ | ⟨rfl, rfl | rfl⟩
    · exact .inl (.inl (.inr ⟨hy', by rwa [Nat.succ_mul, Nat.add_right_comm] at h⟩))
    · refine .inl (.inl (.inl ⟨by omega, ?_⟩))
      rwa [Nat.succ_mul, Nat.add_right_comm, Nat.add_sub_cancel]
    · exact .inr ⟨hx', by rwa [← Nat.add_assoc] at h⟩
    · exact .inl (.inr ⟨by omega, by rwa [← Nat.add_assoc, Nat.add_sub_cancel]⟩)

end Neighbours

/-! ## The outline scan: what it reads and what it leaves -/

section OutlineScan

variable {width height : Nat}

/-- `outlineAll` in terms of the grid: a pixel of the image turns white when it is transparent
and one of its 4-neighbours is black. -/
theorem outlineAll_apply (d : Buffer) (p : Nat) :
    outlineAll width height d p =
      if p < width * height ∧ d p = 0 ∧
          ∃ q < width * height, isGridNeighbour width height p q ∧ d q = 0xFF000000
      then 0xFFFFFFFF else d p := by
  by_cases hp : p < width * height
  · obtain ⟨y, x, hy, hx, rfl⟩ := exists_index hp
    simp only [outlineAll, hp, true_and, div_of_lt hx, mod_of_lt hx, hasBlackNeighbour_iff _ hy hx]
  · simp [outlineAll, hp]

theorem mem_probeReads {d : Buffer} {g : Bool} {j o : Nat} {rest : List Nat}
    (h : o ∈ probeReads d g j rest) : (g = true ∧ o = j) ∨ o ∈ rest := by
  unfold probeReads at h
  split at h
  · next hg =>
    rcases List.mem_cons.1 h with rfl | h
    · exact .inl ⟨hg, rfl⟩
    · split at h
      · simp at h
      · exact .inr h
  · exact .inr h

/-- Every offset one iteration reads is a pixel of the image: the guards keep the four
neighbour reads inside it. -/
theorem outlineStepReads_lt (d : Buffer) {y x : Nat} (hy : y < height) (hx : x < width) :
    ∀ o ∈ outlineStepReads width height d y x, o < width * height := by
  have hi := index_lt hy hx
  intro o ho
  simp only [outlineStepReads, List.mem_cons] at ho
  rcases ho with rfl | ho
  · exact hi
  split at ho
  · rcases mem_probeReads ho with ⟨-, rfl⟩ | ho
    · omega
    rcases mem_probeReads ho with ⟨hg, rfl⟩ | ho
    · have := index_lt (of_decide_eq_true hg) hx
      rw [Nat.succ_mul] at this
      omega
    rcases mem_probeReads ho with ⟨-, rfl⟩ | ho
    · omega
    rcases mem_probeReads ho with ⟨hg, rfl⟩ | ho
    · have := index_lt hy (of_decide_eq_true hg)
      omega
    · simp at ho
  · simp at ho

theorem addCursorOutlineTraced_fst (d : Buffer) :
    (addCursorOutlineTraced width height d).1 = addCursorOutline width height d := by
  rw [addCursorOutlineTraced, addCursorOutline, forEachPixel_eq, forEachPixel_eq]
  exact foldl_traced_fst _ (fun b i => outlineStep width height b (i / width) (i % width))
    (fun b i => outlineStepReads width height b (i / width) (i % width)) _

theorem addCursorOutlineTraced_reads (d : Buffer) :
    ∀ o ∈ (addCursorOutlineTraced width height d).2, o < width * height := by
  rw [addCursorOutlineTraced, forEachPixel_eq]
  refine foldl_traced_reads _ (fun b i => outlineStep width height b (i / width) (i % width))
    (fun b i => outlineStepReads width height b (i / width) (i % width)) (fun b i hi => ?_) _
    (by simp)
  obtain ⟨y, x, hy, hx, rfl⟩ := exists_index (List.mem_range.1 hi)
  dsimp only
  rw [div_of_lt hx, mod_of_lt hx]
  exact outlineStepReads_lt b hy hx

end OutlineScan

/-- **The in-place outline scan reads only the image and is the simultaneous update.**  For
every width, height and buffer, the scan with its reads leaves the buffer `addCursorOutline`
leaves and reads no offset outside `[0, width * height)`; and each pixel of the result is
`0xFFFFFFFF` when it was `0` in the input and one of its 4-neighbours inside the grid was
`0xFF000000` in the input, and its input value otherwise. -/
theorem addCursorOutline_simultaneous (width height : Nat) (data : Buffer) :
    (addCursorOutlineTraced width height data).1 = addCursorOutline width height data ∧
      (∀ o ∈ (addCursorOutlineTraced width height data).2, o < width * height) ∧
      ∀ p, addCursorOutline width height data p =
        if p < width * height ∧ data p = 0 ∧
            ∃ q < width * height, isGridNeighbour width height p q ∧ data q = 0xFF000000
        then 0xFFFFFFFF else data p :=
  ⟨addCursorOutlineTraced_fst data, addCursorOutlineTraced_reads data,
    fun p => by rw [addCursorOutline_eq, outlineAll_apply]⟩

/-! ## The reconstruction and the final image -/

section Reconstruction

variable {width height : Nat}

theorem reconstructStep_eq (mask : Buffer) (s : Bool × Buffer) (i : Nat) :
    reconstructStep mask width s (i / width) (i % width) =
      (s.1 || (mask i == 0x00FFFFFF && s.2 i != 0),
        Function.update s.2 i (maskTable (mask i) (s.2 i))) := by
  by_cases hm : mask i = 0x00FFFFFF <;> by_cases hs : s.2 i = 0 <;>
    simp [reconstructStep, maskTable, Nat.div_add_mod', hm, hs]

/-- The reconstruction loop leaves the table at every pixel, and raises its flag when some
pixel is reverse screen. -/
theorem forEachPixel_reconstructStep (mask image : Buffer) :
    forEachPixel width height (reconstructStep mask width) (false, image) =
      ((List.range (width * height)).any (fun i => mask i == 0x00FFFFFF && image i != 0),
        fun j => if j < width * height then maskTable (mask j) (image j) else image j) := by
  rw [forEachPixel_eq]
  simp only [reconstructStep_eq]
  simpa using foldl_update_flag_range (width * height) (fun i v => mask i == 0x00FFFFFF && v != 0)
    (fun i v => maskTable (mask i) v) false image

/-- The outline pass over the table, at a pixel inside the image. -/
theorem outlineAll_table (mask image : Buffer) {j : Nat} (hj : j < width * height) :
    outlineAll width height
        (fun j => if j < width * height then maskTable (mask j) (image j) else image j) j =
      if maskTable (mask j) (image j) = 0 ∧ ∃ q < width * height,
          isGridNeighbour width height j q ∧ maskTable (mask q) (image q) = 0xFF000000
      then 0xFFFFFFFF else maskTable (mask j) (image j) := by
  have hn : (∃ q < width * height, isGridNeighbour width height j q ∧
      (if q < width * height then maskTable (mask q) (image q) else image q) = 0xFF000000) ↔
      ∃ q < width * height, isGridNeighbour width height j q ∧
        maskTable (mask q) (image q) = 0xFF000000 :=
    exists_congr fun q => and_congr_right fun hq => by rw [if_pos hq]
  simp only [outlineAll_apply, hj, if_true, true_and, hn]

/-- **The reconstruction block computes `outlinedImage`.** -/
theorem reconstructTransparency_eq (mask image : Buffer) :
    reconstructTransparency mask image width height =
      fun j => if j < width * height then outlinedImage width height mask image j else image j := by
  have hflag : (List.range (width * height)).any (fun i => mask i == 0x00FFFFFF && image i != 0) =
      true ↔ ∃ q < width * height, mask q = 0x00FFFFFF ∧ image q ≠ 0 := by
    simp [List.any_eq_true]
  funext j
  simp only [reconstructTransparency, forEachPixel_reconstructStep]
  split
  · next h =>
    rw [addCursorOutline_eq]
    split
    · next hj => simp only [outlineAll_table mask image hj, outlinedImage, hflag.1 h, true_and]
    · next hj => simp [outlineAll, hj]
  · next h =>
    split
    · next hj => simp only [hj, if_true, outlinedImage, ← hflag, h, Bool.false_eq_true, false_and,
        if_false]
    · next hj => exact if_neg hj

theorem alphaMul_eq (d : Buffer) :
    alphaMul d width height = fun j => if j < width * height then premultiply (d j) else d j :=
  foldl_update_range _ _ d

theorem maskTable_cases (a s : UInt32) :
    maskTable a s = 0xFF000000 ∨ maskTable a s = 0 ∨ maskTable a s = 0xFF000000 ^^^ s := by
  unfold maskTable
  by_cases ha : a = 0x00FFFFFF <;> by_cases hs : s = 0 <;> simp [ha, hs]

theorem outlinedImage_cases (A S : Buffer) (p : Nat) :
    outlinedImage width height A S p = 0xFFFFFFFF ∨
      outlinedImage width height A S p = maskTable (A p) (S p) := by
  dsimp only [outlinedImage]
  split
  · exact .inl rfl
  · exact .inr rfl

/-- **`alphaMul` changes no pixel of `outlinedImage`** when the colour plane has no alpha:
every such pixel is opaque or zero. -/
theorem premultiply_outlinedImage (A S : Buffer) (p : Nat) (hS : rgbReserved (S p) = 0) :
    premultiply (outlinedImage width height A S p) = outlinedImage width height A S p := by
  rcases outlinedImage_cases A S p with h | h <;> rw [h]
  · apply premultiply_of_opaque; decide
  · rcases maskTable_cases (A p) (S p) with h | h | h <;> rw [h]
    · apply premultiply_of_opaque; decide
    · exact premultiply_zero
    · exact premultiply_of_opaque (rgbReserved_black_xor hS)

theorem map_alphaMul_reconstruct (A S : Buffer)
    (hS : ∀ p < width * height, rgbReserved (S p) = 0) :
    (List.range (width * height)).map
        (alphaMul (reconstructTransparency A S width height) width height) =
      (List.range (width * height)).map (outlinedImage width height A S) := by
  refine List.map_congr_left fun p hp => ?_
  rw [List.mem_range] at hp
  simp only [alphaMul_eq, reconstructTransparency_eq, if_pos hp]
  exact premultiply_outlinedImage A S p (hS p hp)

theorem half_index_lt {p : Nat} (hp : p < width * (height / 2)) :
    width * (height / 2) + p < width * height := by
  have : width * (height / 2) + width * (height / 2) ≤ width * height := by
    rw [← Nat.mul_add]
    exact Nat.mul_le_mul_left _ (by omega)
  omega

end Reconstruction

/-- `cursorImageSpec` depends on the mask and the colour plane only inside the image. -/
theorem cursorImageSpec_congr {hasColor : Bool} {width height : Nat} {A A' S S' : Buffer}
    (hA : ∀ q < width * height, A q = A' q) (hS : ∀ q < width * height, S q = S' q) :
    cursorImageSpec hasColor width height A S = cursorImageSpec hasColor width height A' S' := by
  have hT : ∀ q < width * height, maskTable (A q) (S q) = maskTable (A' q) (S' q) :=
    fun q hq => by rw [hA q hq, hS q hq]
  have hrev : (∃ q < width * height, A q = 0x00FFFFFF ∧ S q ≠ 0) ↔
      ∃ q < width * height, A' q = 0x00FFFFFF ∧ S' q ≠ 0 :=
    exists_congr fun q => and_congr_right fun hq => by rw [hA q hq, hS q hq]
  have hblack : ∀ p, (∃ q < width * height, isGridNeighbour width height p q ∧
      maskTable (A q) (S q) = 0xFF000000) ↔ ∃ q < width * height,
        isGridNeighbour width height p q ∧ maskTable (A' q) (S' q) = 0xFF000000 :=
    fun p => exists_congr fun q => and_congr_right fun hq => by rw [hT q hq]
  have halpha : (∃ q < width * height, rgbReserved (S q) ≠ 0) ↔
      ∃ q < width * height, rgbReserved (S' q) ≠ 0 :=
    exists_congr fun q => and_congr_right fun hq => by rw [hS q hq]
  refine List.map_congr_left fun p hp => ?_
  rw [List.mem_range] at hp
  simp only [outlinedImage, hrev, hblack, halpha, hA p hp, hS p hp]

theorem hasAlphaChannel_iff (data : Buffer) (width height : Nat) :
    hasAlphaChannel data width height = true ↔ ∃ q < width * height, rgbReserved (data q) ≠ 0 := by
  simp [hasAlphaChannel_eq, List.any_eq_true]

/-- The result of `mouseCursorFromHCursor` when every call to Windows succeeds. -/
theorem mouseCursorFromHCursor_eq (info : IconInfo) (width height : Nat) (mask color : Buffer)
    (hmask : ∀ i < width * height, rgbReserved (mask i) = 0) :
    mouseCursorFromHCursor ⟨some info, some (width, height), some mask, some color⟩ =
      some ⟨cursorImageSpec info.hasColor width (imageHeight info.hasColor height) mask
          (imageSource info.hasColor width height mask color),
        (width, imageHeight info.hasColor height), (info.xHotspot, info.yHotspot)⟩ := by
  cases hc : info.hasColor <;>
    simp only [mouseCursorFromHCursor, colorSource, hc, Option.map_some', Option.pure_def,
      Option.bind_eq_bind, Option.some_bind, imageHeight, imageSource, cursorImageSpec, if_true,
      Bool.false_eq_true, if_false]
  · simp only [false_and, if_false]
    rw [map_alphaMul_reconstruct _ _ fun p hp => hmask _ (half_index_lt hp)]
  · cases ha : hasAlphaChannel color width height
    · have hS : ∀ q < width * height, rgbReserved (color q) = 0 := by
        simpa [← Bool.not_eq_true, hasAlphaChannel_iff] using ha
      simp only [if_true, Bool.false_eq_true, if_false, true_and, ← hasAlphaChannel_iff, ha]
      rw [map_alphaMul_reconstruct _ _ hS]
    · simp only [if_true, true_and, ← hasAlphaChannel_iff, ha, alphaMul_eq,
        premultiply_eq_premultiplied]
      congr 2
      exact List.map_congr_left fun p hp => if_pos (List.mem_range.1 hp)

/-- **`mouseCursorFromHCursor` rebuilds the cursor image.**  For a mask of width `w` and
height `H` whose alpha bytes are zero, as `GetDIBits` delivers it, and any colour bitmap, the
cursor has size `w × h` and the pixels `cursorImageSpec`: the premultiplied colour plane when
it is a colour cursor with alpha, otherwise the table and outline of `outlinedImage`.  The
result is the same for every mask that agrees with this one on its `w * H` pixels: no mask
pixel at or past `w * H` is read. -/
theorem mouseCursorFromHCursor_pixels (info : IconInfo) (width height : Nat) (mask color : Buffer)
    (hmask : ∀ i < width * height, rgbReserved (mask i) = 0) :
    ∃ c : MouseCursor,
      mouseCursorFromHCursor ⟨some info, some (width, height), some mask, some color⟩ = some c ∧
      c.size = (width, imageHeight info.hasColor height) ∧
      c.image = cursorImageSpec info.hasColor width (imageHeight info.hasColor height) mask
        (imageSource info.hasColor width height mask color) ∧
      ∀ mask' : Buffer, (∀ i < width * height, mask' i = mask i) →
        mouseCursorFromHCursor ⟨some info, some (width, height), some mask', some color⟩ =
          some c := by
  refine ⟨_, mouseCursorFromHCursor_eq info width height mask color hmask, rfl, rfl,
    fun mask' h' => ?_⟩
  rw [mouseCursorFromHCursor_eq info width height mask' color fun i hi => by
    rw [h' i hi]; exact hmask i hi]
  have hle : width * imageHeight info.hasColor height ≤ width * height :=
    Nat.mul_le_mul_left _ (by unfold imageHeight; split <;> omega)
  congr 2
  refine cursorImageSpec_congr (fun q hq => h' q (by omega)) fun q hq => ?_
  unfold imageSource
  split
  · rfl
  · next hc => exact h' _ (half_index_lt (by simpa [imageHeight, hc] using hq))

/-- A monochrome cursor three pixels wide: the AND row is white, white, black, and the XOR row
makes the first pixel reverse screen, leaves the second transparent and the third white. -/
def reverseScreenMask : Buffer := fun i => if i = 0 ∨ i = 1 ∨ i = 3 ∨ i = 5 then 0x00FFFFFF else 0

/-- The reverse-screen pixel turns black and its transparent neighbour gets the outline. -/
theorem mouseCursorFromHCursor_pixels_reverseScreen :
    (∀ i < 3 * 2, rgbReserved (reverseScreenMask i) = 0) ∧
      ∃ c : MouseCursor, mouseCursorFromHCursor
          ⟨some ⟨0, 0, false⟩, some (3, 2), some reverseScreenMask, some fun _ => 0⟩ = some c ∧
        c.image = [0xFF000000, 0xFFFFFFFF, 0xFFFFFFFF] := by
  have hmask : ∀ i < 3 * 2, rgbReserved (reverseScreenMask i) = 0 := by decide
  obtain ⟨c, hc, -, himage, -⟩ :=
    mouseCursorFromHCursor_pixels ⟨0, 0, false⟩ 3 2 reverseScreenMask (fun _ => 0) hmask
  exact ⟨hmask, c, hc, himage.trans (by decide)⟩

/-! ## The image is premultiplied -/

theorem mul_rgbReserved_div_le (p : UInt32) {c : Nat} (hc : c < 0x100) :
    c * rgbReserved p / 0xFF ≤ rgbReserved p :=
  Nat.div_le_of_le_mul (Nat.mul_le_mul_right _ (by omega))

/-- **The bytes of a premultiplied pixel**: the alpha byte is kept and each colour byte `c`
becomes `c * alpha / 0xFF`; no byte carries into the next. -/
theorem premultiply_bytes (p : UInt32) :
    rgbReserved (premultiply p) = rgbReserved p ∧
      rgbBlue (premultiply p) = rgbBlue p * rgbReserved p / 0xFF ∧
      rgbGreen (premultiply p) = rgbGreen p * rgbReserved p / 0xFF ∧
      rgbRed (premultiply p) = rgbRed p * rgbReserved p / 0xFF := by
  have hp : p.toNat < 4294967296 := p.toNat_lt_size
  have ha : rgbReserved p ≤ 0xFF := by simp only [rgbReserved]; omega
  have hb := mul_rgbReserved_div_le p (show rgbBlue p < 0x100 from Nat.mod_lt _ (by decide))
  have hg := mul_rgbReserved_div_le p (show rgbGreen p < 0x100 from Nat.mod_lt _ (by decide))
  have hr := mul_rgbReserved_div_le p (show rgbRed p < 0x100 from Nat.mod_lt _ (by decide))
  simp only [premultiply]
  generalize rgbBlue p * rgbReserved p / 0xFF = B at hb ⊢
  generalize rgbGreen p * rgbReserved p / 0xFF = G at hg ⊢
  generalize rgbRed p * rgbReserved p / 0xFF = R at hr ⊢
  generalize rgbReserved p = a at ha hb hg hr ⊢
  have hv : (UInt32.ofNat (B + G * 0x100 + R * 0x10000 + a * 0x1000000)).toNat =
      B + G * 0x100 + R * 0x10000 + a * 0x1000000 :=
    UInt32.toNat_ofNat_of_lt (by simp only [UInt32.size]; omega)
  simp only [rgbBlue, rgbGreen, rgbRed, rgbReserved, hv]
  refine ⟨by omega, by omega, by omega, ?_⟩
  rw [show B + G * 0x100 + R * 0x10000 + a * 0x1000000 = B + G * 0x100 + (R + a * 0x100) * 0x10000
    by omega, Nat.add_mul_div_right _ _ (by decide), Nat.div_eq_of_lt (by omega)]
  omega

/-- A premultiplied pixel is a valid one: no colour byte exceeds the alpha byte. -/
theorem premultiply_valid (p : UInt32) :
    rgbBlue (premultiply p) ≤ rgbReserved (premultiply p) ∧
      rgbGreen (premultiply p) ≤ rgbReserved (premultiply p) ∧
      rgbRed (premultiply p) ≤ rgbReserved (premultiply p) := by
  obtain ⟨ha, hb, hg, hr⟩ := premultiply_bytes p
  rw [ha, hb, hg, hr]
  exact ⟨mul_rgbReserved_div_le p (Nat.mod_lt _ (by decide)),
    mul_rgbReserved_div_le p (Nat.mod_lt _ (by decide)),
    mul_rgbReserved_div_le p (Nat.mod_lt _ (by decide))⟩

/-- Whatever Windows answers, a cursor that `mouseCursorFromHCursor` returns holds the first
`width * height` pixels of some image after `alphaMul`. -/
theorem mouseCursorFromHCursor_some {cursor : CursorBitmaps} {c : MouseCursor}
    (h : mouseCursorFromHCursor cursor = some c) :
    ∃ width height image, c.size = (width, height) ∧
      c.image = (List.range (width * height)).map (alphaMul image width height) := by
  unfold mouseCursorFromHCursor at h
  simp only [Option.bind_eq_bind, Option.bind_eq_some, Option.pure_def, Option.some.injEq] at h
  obtain ⟨-, -, -, -, -, -, -, -, rfl⟩ := h
  exact ⟨_, _, _, rfl, rfl⟩

/-- **Every cursor image is premultiplied.**  For every answer of Windows (colour or
monochrome cursor, with or without alpha, any mask), the cursor `mouseCursorFromHCursor`
returns holds exactly `width × height` pixels, and in each of them the blue, green and red
bytes are at most the alpha byte, as a premultiplied `MouseCursor` image must be. -/
theorem mouseCursorFromHCursor_premultiplied (cursor : CursorBitmaps) (c : MouseCursor)
    (h : mouseCursorFromHCursor cursor = some c) :
    c.image.length = c.size.1 * c.size.2 ∧
      ∀ q ∈ c.image, rgbBlue q ≤ rgbReserved q ∧ rgbGreen q ≤ rgbReserved q ∧
        rgbRed q ≤ rgbReserved q := by
  obtain ⟨width, height, image, hs, hi⟩ := mouseCursorFromHCursor_some h
  refine ⟨by simp [hi, hs], fun q hq => ?_⟩
  rw [hi, List.mem_map] at hq
  obtain ⟨j, hj, rfl⟩ := hq
  simp only [alphaMul_eq, if_pos (List.mem_range.1 hj)]
  exact premultiply_valid (image j)

/-- A one-pixel colour cursor whose pixel has alpha `0x80` and full red. -/
def halfRedCursor : CursorBitmaps :=
  ⟨some ⟨0, 0, true⟩, some (1, 1), some fun _ => 0, some fun _ => 0x80FF0000⟩

/-- Its red byte is scaled to the alpha byte. -/
theorem mouseCursorFromHCursor_premultiplied_halfRed :
    ∃ c, mouseCursorFromHCursor halfRedCursor = some c ∧ c.image = [0x80800000] ∧
      ∀ q ∈ c.image, rgbBlue q ≤ rgbReserved q ∧ rgbGreen q ≤ rgbReserved q ∧
        rgbRed q ≤ rgbReserved q :=
  ⟨_, rfl, by decide, (mouseCursorFromHCursor_premultiplied halfRedCursor _ rfl).2⟩

/-! ## A monochrome cursor is black, white and transparent -/

theorem maskTable_monochrome {a s : UInt32} (ha : a = 0 ∨ a = kPixelRgbWhite)
    (hs : s = 0 ∨ s = kPixelRgbWhite) :
    maskTable a s = kPixelRgbaBlack ∨ maskTable a s = kPixelRgbaWhite ∨
      maskTable a s = kPixelRgbaTransparent := by
  rcases ha with rfl | rfl <;> rcases hs with rfl | rfl <;> decide

/-- **A monochrome cursor is black, white and transparent.**  For every monochrome cursor
whose mask bitmap `GetDIBits` delivers as black and white pixels (`0` or `kPixelRgbWhite`),
every pixel of the image `mouseCursorFromHCursor` builds is `kPixelRgbaBlack`,
`kPixelRgbaWhite` or `kPixelRgbaTransparent`: reverse-screen pixels become black, the outline
is white, and no grey or half-transparent pixel is ever produced. -/
theorem monochrome_cursor_palette (info : IconInfo) (hmono : info.hasColor = false)
    (width height : Nat) (mask color : Buffer)
    (hmask : ∀ i < width * height, mask i = 0 ∨ mask i = kPixelRgbWhite) (c : MouseCursor)
    (h : mouseCursorFromHCursor ⟨some info, some (width, height), some mask, some color⟩ = some c) :
    ∀ q ∈ c.image, q = kPixelRgbaBlack ∨ q = kPixelRgbaWhite ∨ q = kPixelRgbaTransparent := by
  have hres : ∀ i < width * height, rgbReserved (mask i) = 0 := fun i hi => by
    rcases hmask i hi with h | h <;> rw [h] <;> decide
  rw [mouseCursorFromHCursor_eq info width height mask color hres, Option.some.injEq] at h
  subst h
  intro q hq
  simp only [cursorImageSpec, hmono, imageHeight, imageSource, Bool.false_eq_true, false_and,
    if_false, List.mem_map, List.mem_range] at hq
  obtain ⟨p, hp, rfl⟩ := hq
  have hA := hmask p (Nat.lt_of_lt_of_le hp (Nat.mul_le_mul_left _ (Nat.div_le_self _ _)))
  have hS := hmask _ (half_index_lt hp)
  rcases @outlinedImage_cases width (height / 2) mask _ p with h | h <;> rw [h]
  · exact .inr (.inl rfl)
  · exact maskTable_monochrome hA hS

/-- The reverse-screen cursor: black, then two whites. -/
theorem monochrome_cursor_palette_reverseScreen :
    (∀ i < 3 * 2, reverseScreenMask i = 0 ∨ reverseScreenMask i = kPixelRgbWhite) ∧
      ∃ c, mouseCursorFromHCursor
          ⟨some ⟨0, 0, false⟩, some (3, 2), some reverseScreenMask, some fun _ => 0⟩ = some c ∧
        ∀ q ∈ c.image, q = kPixelRgbaBlack ∨ q = kPixelRgbaWhite ∨ q = kPixelRgbaTransparent := by
  have hmask : ∀ i < 3 * 2, reverseScreenMask i = 0 ∨ reverseScreenMask i = kPixelRgbWhite := by
    decide
  exact ⟨hmask, _, rfl,
    monochrome_cursor_palette ⟨0, 0, false⟩ rfl 3 2 reverseScreenMask (fun _ => 0) hmask _ rfl⟩

end Cursor
end Aspia
