import Mathlib.Logic.Function.Basic
import Mathlib.Data.List.FinRange
/-!
# `ScreenCapturerGDI`: capture resources and the two-frame ring

`ScreenCapturerGDI::captureImage` (`desktop_capture/screen_capturer_gdi.cc`) first calls
`prepareCaptureResources`, which drops the GDI contexts when the input desktop changed or the
screen rectangle moved, and rebuilds the contexts, both frames of the ring and the differ when
the desktop context is gone.  It then copies the screen into the current slot, diffs it against
the other slot, and turns the ring.

This file is the state machine.  A `State` holds what the capturer owns, each resource present
or absent; a `CallEnv` is what Windows answers during one call: whether the input desktop is a
different one, `fullScreenRect()`, whether `CreateCompatibleDC` and each
`DesktopFrameDIB::create` succeed (and the pixels a fresh frame starts with), and the pixels
`BitBlt` copies, or that `SelectObject` fails.

## Where the model is forced

* **Dereferencing a null pointer is a `Fault`.**  `captureImage` reads `frame_[i]`, `differ_`
  and the frames' sizes without checking them, so the model returns `.error` where the code
  would dereference null or diff frames of another size than the differ's.
* **The differ is a parameter.**  `Differ` is not in the source; its `calcDirtyRegion` is
  an argument of `captureImage`, and `DifferContract` states what the capturer may assume of
  it.
* **What is left out.**  The desktop's identity (the environment says whether it changed),
  `setThreadDesktop`'s result, which the code ignores, `DwmEnableComposition`, and the pixel
  format.
-/

namespace Aspia
namespace ScreenCapturerGDI

/-! ## Geometry and frames -/

/-- `QSize`. -/
structure Size where
  width : Nat
  height : Nat
  deriving DecidableEq, Repr

/-- `QRect`: top-left corner and size. -/
structure Rect where
  x : Int
  y : Int
  width : Nat
  height : Nat
  deriving DecidableEq, Repr

/-- `QRect()`, the null rectangle. -/
def Rect.null : Rect := ⟨0, 0, 0, 0⟩

/-- `QRect::size()`. -/
def Rect.size (r : Rect) : Size := ⟨r.width, r.height⟩

/-- The pixel at column `x`, row `y` lies in the rectangle. -/
def Rect.contains (r : Rect) (x y : Nat) : Bool :=
  r.x ≤ x && (x : Int) < r.x + r.width && r.y ≤ y && (y : Int) < r.y + r.height

/-- Frame pixels: the pixel at column `x`, row `y`. -/
abbrev Image := Nat → Nat → UInt32

/-- A `DesktopFrameDIB`: its size, its pixels and `updatedRegion()`. -/
structure Frame where
  size : Size
  data : Image
  updatedRegion : List Rect

/-- The contract of `Differ::calcDirtyRegion` for a differ built for `size`: every pixel
inside `size` at which the two frames differ lies in a returned rectangle. -/
def DifferContract (calcDirtyRegion : Size → Image → Image → List Rect) : Prop :=
  ∀ size prev curr x y, x < size.width → y < size.height → prev x y ≠ curr x y →
    ∃ r ∈ calcDirtyRegion size prev curr, r.contains x y = true

/-! ## State and environment -/

/-- `kNumFrames`, the slots of the ring.  Modelled from the spec: the header that declares it
is not in the source. -/
def kNumFrames : Nat := 2

/-- What `ScreenCapturerGDI` owns: whether `desktop_dc_` and `memory_dc_` are non-null,
`differ_` (null, or the size it was built for), `desktop_dc_rect_`, the slots `frame_[i]`
and `curr_frame_id_`. -/
structure State where
  desktopDc : Bool
  memoryDc : Bool
  differ : Option Size
  desktopDcRect : Rect
  frame : Fin kNumFrames → Option Frame
  currFrameId : Fin kNumFrames

/-- The capturer before its first call: every resource absent, the null rectangle, slot 0
current.  Modelled from the spec: the header's initializers are not in the source. -/
def init : State := ⟨false, false, none, Rect.null, fun _ => none, ⟨0, by decide⟩⟩

/-- What Windows answers during one `captureImage` call: whether
`input_desktop.isValid() && !desktop_.isSame(input_desktop)`, `fullScreenRect()`, whether
`CreateCompatibleDC` returns a context, the pixels `DesktopFrameDIB::create` gives slot `i`
(`none` if it fails), and the pixels `BitBlt` copies (`none` if `SelectObject` fails). -/
structure CallEnv where
  switchDesktop : Bool
  screenRect : Rect
  createDc : Bool
  createFrame : Fin kNumFrames → Option Image
  screen : Option Image

/-! ## The two operations -/

/-- The loop `for (i = 0; i < kNumFrames; ++i) { frame_[i] = create(...); if (!frame_[i])
return false; }` over the remaining slots `is`. -/
def createFrames (env : CallEnv) (size : Size) :
    List (Fin kNumFrames) → (Fin kNumFrames → Option Frame) → (Fin kNumFrames → Option Frame) × Bool
  | [], frames => (frames, true)
  | i :: is, frames =>
    let f := (env.createFrame i).map fun data => (⟨size, data, []⟩ : Frame)
    let frames := Function.update frames i f
    if f.isNone then (frames, false) else createFrames env size is frames

/-- The first two blocks of `prepareCaptureResources`: a switch of the input desktop releases
both contexts; a `fullScreenRect()` other than `desktop_dc_rect_` releases them and resets the
rectangle to `QRect()`. -/
def releaseResources (env : CallEnv) (s : State) : State :=
  let s := if env.switchDesktop then { s with desktopDc := false, memoryDc := false } else s
  if env.screenRect ≠ s.desktopDcRect then
    { s with desktopDc := false, memoryDc := false, desktopDcRect := Rect.null } else s

/-- The `if (!desktop_dc_)` block: the desktop context (`ScopedGetDC` cannot fail), the memory
context, the rectangle, the two frames and the differ, stopping at the first failure. -/
def createResources (env : CallEnv) (s : State) : State × Bool :=
  let s := { s with desktopDc := true, memoryDc := env.createDc }
  if !env.createDc then (s, false) else
  let s := { s with desktopDcRect := env.screenRect }
  let r := createFrames env env.screenRect.size (List.finRange kNumFrames) s.frame
  let s := { s with frame := r.1 }
  if !r.2 then (s, false) else ({ s with differ := some env.screenRect.size }, true)

/-- `prepareCaptureResources`: the new state and its result. -/
def prepareCaptureResources (env : CallEnv) (s : State) : State × Bool :=
  let s := releaseResources env s
  if s.desktopDc then (s, true) else createResources env s

/-- The `Q_ASSERT(!memory_dc_)` that opens the `if (!desktop_dc_)` block of
`prepareCaptureResources`: it is evaluated when no desktop context is left after the release
step, and holds when no memory context is left either. -/
def creationAssertHolds (env : CallEnv) (s : State) : Bool :=
  let s := releaseResources env s
  s.desktopDc || !s.memoryDc

/-- `prev_frame_id = curr_frame_id_ - 1`, wrapped to `kNumFrames - 1` below zero. -/
def prevFrameId (curr : Fin kNumFrames) : Fin kNumFrames :=
  if curr.val = 0 then ⟨kNumFrames - 1, by decide⟩ else ⟨curr.val - 1, by omega⟩

/-- What `captureImage` would dereference or misuse: a null `frame_[curr_frame_id_]` or
`frame_[prev_frame_id]`, a null `differ_`, or frames of another size than the differ was
built for. -/
inductive Fault where
  | missingFrame
  | missingDiffer
  | sizeMismatch
  deriving DecidableEq, Repr

/-- The `SelectObject`/`BitBlt` block: the screen pixels copied into the frame, or nothing
when `SelectObject` fails. -/
def blitFrame (curr : Frame) (screen : Option Image) : Frame :=
  match screen with
  | some pixels => { curr with data := pixels }
  | none => curr

@[simp] theorem blitFrame_size (curr : Frame) (screen : Option Image) :
    (blitFrame curr screen).size = curr.size := by
  cases screen <;> rfl

/-- `captureImage`: the new state and the frame returned (`none` for `nullptr`), or the fault.
Without a memory context `SelectObject` fails and nothing is copied. -/
def captureImage (calcDirtyRegion : Size → Image → Image → List Rect) (env : CallEnv) (s : State) :
    Except Fault (State × Option Frame) :=
  let (s, ok) := prepareCaptureResources env s
  if !ok then .ok (s, none) else
  let prevId := prevFrameId s.currFrameId
  match s.frame s.currFrameId, s.frame prevId, s.differ with
  | none, _, _ => .error .missingFrame
  | some _, none, _ => .error .missingFrame
  | some _, some _, none => .error .missingDiffer
  | some curr, some prev, some size =>
    let curr := blitFrame curr (if s.memoryDc then env.screen else none)
    if prev.size ≠ size ∨ curr.size ≠ size then .error .sizeMismatch else
    let curr := { curr with updatedRegion := calcDirtyRegion size prev.data curr.data }
    .ok ({ s with
        frame := Function.update s.frame s.currFrameId (some curr)
        currFrameId := prevId }, some curr)

/-- A run of calls: the frames returned, or the first fault. -/
def run (calcDirtyRegion : Size → Image → Image → List Rect) :
    List CallEnv → State → Except Fault (List (Option Frame))
  | [], _ => .ok []
  | env :: envs, s => do
    let (s', out) ← captureImage calcDirtyRegion env s
    let outs ← run calcDirtyRegion envs s'
    pure (out :: outs)

end ScreenCapturerGDI
end Aspia
