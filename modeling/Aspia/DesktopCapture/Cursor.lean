import Mathlib.Logic.Function.Basic
import Mathlib.Data.List.Range
/-!
# Cursor shapes: the conversion of an `HCURSOR` into a `MouseCursor`

`mouseCursorFromHCursor` (`desktop_capture/win/cursor.cc`) asks Windows for the
two bitmaps of a cursor, the AND mask and (for a colour cursor) the colour
image, both converted to 32 bits per pixel by `GetDIBits`, and builds one
premultiplied image from them.  This module is the faithful model; the
description of its result pixel by pixel is `CursorReconstruction`.

## Buffers

A `quint32*` buffer is modelled as `Buffer := Nat → UInt32`, the pixel at
every offset from the pointer, and a store as `Function.update`.  Offsets past
the end of an allocation are part of the function too, so "the code reads only
inside the buffer" is a statement about the model: the result does not depend
on those offsets.

## Loops

The cursor code walks its buffers with the nested loops
`for (y = 0; y < height; ++y) for (x = 0; x < width; ++x)` and a pointer
incremented after each pixel, so the pixel of row `y`, column `x` is
`y * width + x`.  `forEachPixel` is that loop nest; `forEachPixel_eq` turns it
into one loop over `List.range (height * width)` once, and the other proofs use
only that form.  `hasAlphaChannel` returns from inside the loop nest, which is
`List.any`.

`addCursorOutlineTraced` is `addCursorOutline` with the offsets each iteration
reads, in the order the short-circuiting test reads them, so that "reads only
inside the image" is also a statement about the read offsets themselves.

## What is left out

The `ICONINFO` handles are reduced to what the code reads (`hbmColor` being
null, the hot spot), the `BITMAPV5HEADER` request to the fact that `GetDIBits`
answers with 32-bpp top-down rows, and negative bitmap sizes to `Nat`.
-/

namespace Aspia
namespace Cursor

/-! ## Pixels -/

/-- `RGBA(r, g, b, a)`: alpha in the top byte, then blue, green, red. -/
def rgba (r g b a : UInt32) : UInt32 :=
  ((a <<< (24 : UInt32)) &&& (0xFF000000 : UInt32)) ||| ((b <<< (16 : UInt32)) &&& 0xFF0000) |||
    ((g <<< (8 : UInt32)) &&& 0xFF00) ||| (r &&& 0xFF)

/-- The Windows SDK macro `RGB(r, g, b)`: red in the low byte, alpha zero. -/
def rgb (r g b : UInt32) : UInt32 := r ||| (g <<< (8 : UInt32)) ||| (b <<< (16 : UInt32))

/-- Opaque black, used for the visible cursor pixels. -/
def kPixelRgbaBlack : UInt32 := rgba 0 0 0 0xFF

/-- Opaque white, used for the outline. -/
def kPixelRgbaWhite : UInt32 := rgba 0xFF 0xFF 0xFF 0xFF

/-- Fully transparent black. -/
def kPixelRgbaTransparent : UInt32 := rgba 0 0 0 0

/-- A white mask pixel as `GetDIBits` delivers it: alpha zero. -/
def kPixelRgbWhite : UInt32 := rgb 0xFF 0xFF 0xFF

@[simp] theorem kPixelRgbaBlack_eq : kPixelRgbaBlack = 0xFF000000 := rfl
@[simp] theorem kPixelRgbaWhite_eq : kPixelRgbaWhite = 0xFFFFFFFF := rfl
@[simp] theorem kPixelRgbaTransparent_eq : kPixelRgbaTransparent = 0 := rfl
@[simp] theorem kPixelRgbWhite_eq : kPixelRgbWhite = 0x00FFFFFF := rfl

/-- The `RGBQUAD` view of a pixel: `rgbBlue` is byte 0. -/
def rgbBlue (p : UInt32) : Nat := p.toNat % 0x100

/-- `rgbGreen`, byte 1. -/
def rgbGreen (p : UInt32) : Nat := p.toNat / 0x100 % 0x100

/-- `rgbRed`, byte 2. -/
def rgbRed (p : UInt32) : Nat := p.toNat / 0x10000 % 0x100

/-- `rgbReserved`, byte 3: the alpha channel. -/
def rgbReserved (p : UInt32) : Nat := p.toNat / 0x1000000

/-- The body of `alphaMul`: each colour byte `c` becomes `c * a / 0xFF`, computed in
`quint16`-promoted arithmetic that cannot overflow, and alpha `a` is kept. -/
def premultiply (p : UInt32) : UInt32 :=
  let a := rgbReserved p
  UInt32.ofNat (rgbBlue p * a / 0xFF + rgbGreen p * a / 0xFF * 0x100 +
    rgbRed p * a / 0xFF * 0x10000 + a * 0x1000000)

/-! ## Buffers and loops -/

/-- A `quint32*` buffer: the pixel at every offset from the pointer. -/
abbrev Buffer := Nat → UInt32

/-- The loop nest `for (y < height) for (x < width)` of the cursor code, threading the
loop state through `body state y x`. -/
def forEachPixel {β : Type} (width height : Nat) (body : β → Nat → Nat → β) (init : β) : β :=
  (List.range height).foldl (fun b y => (List.range width).foldl (fun b x => body b y x) b) init

/-- `hasAlphaChannel`: scans the `width * height` pixels in order and returns `true` at
the first one whose `rgbReserved` is non-zero. -/
def hasAlphaChannel (data : Buffer) (width height : Nat) : Bool :=
  (List.range height).any fun y => (List.range width).any fun x =>
    rgbReserved (data (y * width + x)) != 0

/-- The test of `addCursorOutline` at row `y`, column `x`: the pixel above, below, left or
right of it, where the image has one, is black. -/
def hasBlackNeighbour (width height : Nat) (data : Buffer) (y x : Nat) : Bool :=
  let i := y * width + x
  (0 < y && data (i - width) == kPixelRgbaBlack) ||
    (y + 1 < height && data (i + width) == kPixelRgbaBlack) ||
    (0 < x && data (i - 1) == kPixelRgbaBlack) ||
    (x + 1 < width && data (i + 1) == kPixelRgbaBlack)

/-- One iteration of `addCursorOutline`: a transparent pixel with a black neighbour is
overwritten with white, in place. -/
def outlineStep (width height : Nat) (data : Buffer) (y x : Nat) : Buffer :=
  let i := y * width + x
  if data i == kPixelRgbaTransparent && hasBlackNeighbour width height data y x then
    Function.update data i kPixelRgbaWhite
  else data

/-- `addCursorOutline`: one in-place scan of the image.  Pixels rewritten earlier in the
scan are visible to the later neighbour tests. -/
def addCursorOutline (width height : Nat) (data : Buffer) : Buffer :=
  forEachPixel width height (outlineStep width height) data

/-- One test `guard && data[j] == kPixelRgbaBlack` of the outline condition, followed by the
reads `rest` of the tests after it: `data[j]` is read only under `guard`, and the later tests
only when it is not black (`&&` and `||` short-circuit). -/
def probeReads (data : Buffer) (guard : Bool) (j : Nat) (rest : List Nat) : List Nat :=
  if guard then j :: (if data j == kPixelRgbaBlack then [] else rest) else rest

/-- The offsets that one iteration of `addCursorOutline` at row `y`, column `x` reads, in
order: `*data`, then, when it is transparent, `data[-width]`, `data[width]`, `data[-1]` and
`data[1]` under their guards, up to the first that is black. -/
def outlineStepReads (width height : Nat) (data : Buffer) (y x : Nat) : List Nat :=
  let i := y * width + x
  i :: if data i == kPixelRgbaTransparent then
    probeReads data (0 < y) (i - width) <| probeReads data (y + 1 < height) (i + width) <|
      probeReads data (0 < x) (i - 1) <| probeReads data (x + 1 < width) (i + 1) []
  else []

/-- `addCursorOutline` with its reads: the buffer the scan leaves, and every offset it reads,
in order, each test reading the buffer as the earlier iterations left it. -/
def addCursorOutlineTraced (width height : Nat) (data : Buffer) : Buffer × List Nat :=
  forEachPixel width height
    (fun s y x => (outlineStep width height s.1 y x, s.2 ++ outlineStepReads width height s.1 y x))
    (data, [])

/-- `alphaMul`: `for (data_end = data + width * height; data != data_end; ++data)`,
premultiplying each pixel in place. -/
def alphaMul (data : Buffer) (width height : Nat) : Buffer :=
  (List.range (width * height)).foldl (fun d i => Function.update d i (premultiply (d i))) data

/-- One iteration of the transparency reconstruction, at row `y`, column `x`, following the
table in the source: mask 0 keeps the colour made opaque (`kPixelRgbaBlack ^ *dst`), mask 1
with colour 0 is transparent, mask 1 with a non-zero colour (reverse screen) becomes black
and asks for an outline. The loop state is `(add_outline, dst)`. -/
def reconstructStep (mask : Buffer) (width : Nat) (s : Bool × Buffer) (y x : Nat) :
    Bool × Buffer :=
  let i := y * width + x
  if mask i = kPixelRgbWhite then
    if s.2 i ≠ 0 then (true, Function.update s.2 i kPixelRgbaBlack)
    else (s.1, Function.update s.2 i kPixelRgbaTransparent)
  else (s.1, Function.update s.2 i (kPixelRgbaBlack ^^^ s.2 i))

/-- The `if (!has_alpha)` block: the reconstruction loop, then the outline pass when a
reverse-screen pixel was seen. -/
def reconstructTransparency (mask image : Buffer) (width height : Nat) : Buffer :=
  let s := forEachPixel width height (reconstructStep mask width) (false, image)
  if s.1 then addCursorOutline width height s.2 else s.2

/-! ## The conversion -/

/-- The fields of `ICONINFO` the conversion reads: the hot spot, and whether `hbmColor` is
non-null. -/
structure IconInfo where
  xHotspot : Nat
  yHotspot : Nat
  hasColor : Bool

/-- What Windows answers for one cursor handle, `none` where a call fails: `GetIconInfo`,
`GetObjectW` on the mask (`bmWidth`, `bmHeight`), and `GetDIBits` on the mask and on the
colour bitmap (32 bpp, top-down rows, alpha bytes as the bitmap has them). -/
structure CursorBitmaps where
  iconInfo : Option IconInfo
  maskSize : Option (Nat × Nat)
  maskBits : Option Buffer
  colorBits : Option Buffer

/-- A `MouseCursor`: its premultiplied pixels, `QSize(width, height)` and hot spot. -/
structure MouseCursor where
  image : List UInt32
  size : Nat × Nat
  hotspot : Nat × Nat

/-- The colour source of a cursor: its height, image and whether it carries alpha.  A colour
cursor brings its own image; a monochrome one keeps the XOR mask in the lower half of the
mask bitmap (`memcpy` from `mask_plane + width * height`, with `height /= 2`). -/
def colorSource (info : IconInfo) (cursor : CursorBitmaps) (maskPlane : Buffer)
    (width height : Nat) : Option (Nat × Buffer × Bool) :=
  if info.hasColor then
    cursor.colorBits.map fun image => (height, image, hasAlphaChannel image width height)
  else
    some (height / 2, fun i => maskPlane (width * (height / 2) + i), false)

/-- `mouseCursorFromHCursor`: `none` where the source logs a failure and returns
`nullptr`. -/
def mouseCursorFromHCursor (cursor : CursorBitmaps) : Option MouseCursor := do
  let info ← cursor.iconInfo
  let (width, height) ← cursor.maskSize
  let maskPlane ← cursor.maskBits
  let (height, image, hasAlpha) ← colorSource info cursor maskPlane width height
  let image := if hasAlpha then image else reconstructTransparency maskPlane image width height
  let image := alphaMul image width height
  pure ⟨(List.range (width * height)).map image, (width, height), (info.xHotspot, info.yHotspot)⟩

/-! ## The loops as one loop over the pixels -/

theorem div_of_lt {w y x : Nat} (hx : x < w) : (y * w + x) / w = y := by
  rw [Nat.add_comm, Nat.add_mul_div_right _ _ (by omega), Nat.div_eq_of_lt hx, Nat.zero_add]

theorem mod_of_lt {w y x : Nat} (hx : x < w) : (y * w + x) % w = x := by
  rw [Nat.add_comm, Nat.add_mul_mod_self_right, Nat.mod_eq_of_lt hx]

theorem index_lt {w h y x : Nat} (hy : y < h) (hx : x < w) : y * w + x < w * h :=
  calc y * w + x < (y + 1) * w := by rw [Nat.succ_mul]; omega
    _ ≤ w * h := by rw [Nat.mul_comm w]; exact Nat.mul_le_mul_right _ hy

/-- **The loop nest is one loop over `List.range (width * height)`**, pixel `i` being row
`i / width`, column `i % width`. -/
theorem forEachPixel_eq {β : Type} (width height : Nat) (body : β → Nat → Nat → β) (init : β) :
    forEachPixel width height body init =
      (List.range (width * height)).foldl (fun b i => body b (i / width) (i % width)) init := by
  induction height with
  | zero => simp [forEachPixel]
  | succ h ih =>
    rw [forEachPixel, List.range_succ, List.foldl_append, ← forEachPixel, ih, Nat.mul_succ,
      List.range_add, List.foldl_append, List.foldl_map, List.foldl_cons, List.foldl_nil]
    exact List.foldl_ext _ _ _ fun b x hx => by
      rw [List.mem_range] at hx
      rw [Nat.mul_comm, div_of_lt hx, mod_of_lt hx]

/-- A loop that also collects what each step reads computes the same state as the loop
without the reads. -/
theorem foldl_traced_fst {β : Type} (l : List Nat) (step : β → Nat → β)
    (reads : β → Nat → List Nat) (s : β × List Nat) :
    (l.foldl (fun s i => (step s.1 i, s.2 ++ reads s.1 i)) s).1 = l.foldl step s.1 := by
  induction l generalizing s with
  | nil => rfl
  | cons i l ih => exact ih _

/-- Such a loop reads only what its steps may read. -/
theorem foldl_traced_reads {β : Type} {P : Nat → Prop} (l : List Nat) (step : β → Nat → β)
    (reads : β → Nat → List Nat) (hr : ∀ b, ∀ i ∈ l, ∀ o ∈ reads b i, P o) (s : β × List Nat)
    (hs : ∀ o ∈ s.2, P o) :
    ∀ o ∈ (l.foldl (fun s i => (step s.1 i, s.2 ++ reads s.1 i)) s).2, P o := by
  induction l generalizing s with
  | nil => exact hs
  | cons i l ih =>
    refine ih (fun b j hj => hr b j (List.mem_cons_of_mem _ hj)) _ fun o ho => ?_
    rcases List.mem_append.1 ho with ho | ho
    · exact hs o ho
    · exact hr _ i (List.mem_cons_self _ _) o ho

/-- The scan of `hasAlphaChannel` finds a non-zero alpha among the first `width * height`
pixels. -/
theorem hasAlphaChannel_eq (data : Buffer) (width height : Nat) :
    hasAlphaChannel data width height =
      (List.range (width * height)).any fun i => rgbReserved (data i) != 0 := by
  apply Bool.eq_iff_iff.2
  simp only [hasAlphaChannel, List.any_eq_true, List.mem_range]
  constructor
  · rintro ⟨y, hy, x, hx, h⟩
    exact ⟨y * width + x, index_lt hy hx, h⟩
  · rintro ⟨i, hi, h⟩
    refine ⟨i / width, Nat.div_lt_of_lt_mul hi, i % width,
      Nat.mod_lt _ (Nat.pos_of_ne_zero fun h0 => by simp [h0] at hi), ?_⟩
    rwa [Nat.div_add_mod']

theorem update_ite_lt (n : Nat) (f d : Buffer) :
    Function.update (fun j => if j < n then f j else d j) n (f n) =
      fun j => if j < n + 1 then f j else d j := by
  funext j
  rw [Function.update_apply]
  by_cases hj : j = n
  · simp [hj]
  · simp [hj, Nat.lt_succ_iff_lt_or_eq]

/-- A loop that rewrites each of the first `n` pixels from its own old value leaves the
pointwise image. -/
theorem foldl_update_range (n : Nat) (g : Nat → UInt32 → UInt32) (d : Buffer) :
    (List.range n).foldl (fun d i => Function.update d i (g i (d i))) d =
      fun j => if j < n then g j (d j) else d j := by
  induction n with
  | zero => rfl
  | succ n ih =>
    rw [List.range_succ, List.foldl_append, ih]
    simpa using update_ite_lt n (fun j => g j (d j)) d

/-- The same loop with a flag raised at the pixels satisfying `p`. -/
theorem foldl_update_flag_range (n : Nat) (p : Nat → UInt32 → Bool) (g : Nat → UInt32 → UInt32)
    (b : Bool) (d : Buffer) :
    (List.range n).foldl
        (fun (s : Bool × Buffer) i => (s.1 || p i (s.2 i), Function.update s.2 i (g i (s.2 i))))
        (b, d) =
      (b || (List.range n).any fun i => p i (d i), fun j => if j < n then g j (d j) else d j) := by
  induction n with
  | zero => simp
  | succ n ih =>
    rw [List.range_succ, List.foldl_append, ih]
    simpa [Bool.or_assoc] using update_ite_lt n (fun j => g j (d j)) d

end Cursor
end Aspia
