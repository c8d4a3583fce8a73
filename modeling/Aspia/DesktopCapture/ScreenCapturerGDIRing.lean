import Aspia.DesktopCapture.ScreenCapturerGDI
/-!
# The capture resources and the frame ring over runs

Two properties one expects of `ScreenCapturerGDI` fail, each on a run of two calls:

* `prepare_true_with_missing_frame` --- after a `DesktopFrameDIB::create` failure the
  desktop context stays, so the next call with the same screen rectangle skips the
  re-creation and `prepareCaptureResources` returns `true` with `frame_[1]` and `differ_`
  null; `captureImage` then dereferences them.
* `desktop_switch_loses_change` --- a desktop switch rebuilds both frames but leaves
  `curr_frame_id_`, so the next diff compares the new screen with a fresh frame instead of
  the frame returned last.  A pixel that changed can be missing from the updated region.

What does hold is the ring discipline when nothing is rebuilt: the slot diffed as previous
holds the frame returned last (`captureImage_spec`, `prevFrameId_prevFrameId`), so with a
differ that meets its contract every changed pixel is in the region
(`consecutive_frames_covered`).  And when every allocation succeeds, every call of a run
finds both contexts, both frames and the differ ready, and returns a frame of the screen's
size (`reliable_run_returns_frames`).

Over every run, whatever Windows answers, the two contexts stay in step:
`prepareCaptureResources` always leaves a desktop context, so a memory context is never
present without one, and the `Q_ASSERT(!memory_dc_)` of the creation block never fails
(`memoryDc_only_with_desktopDc`).
-/

namespace Aspia
namespace ScreenCapturerGDI

variable {calcDirtyRegion : Size → Image → Image → List Rect}

/-! ## The ring -/

theorem prevFrameId_prevFrameId (c : Fin kNumFrames) : prevFrameId (prevFrameId c) = c := by
  revert c
  decide

/-- **What a call that returns a frame did**: `prepareCaptureResources` returned `true`, the
slot before the current one held `prev`, of the differ's size; the frame returned has that
size and the differ's region for `prev` and itself, it is stored in the current slot, and the
ring turned. -/
theorem captureImage_spec {env : CallEnv} {s s'' : State} {F : Frame}
    (h : captureImage calcDirtyRegion env s = .ok (s'', some F)) :
    ∃ s' prev size, prepareCaptureResources env s = (s', true) ∧
      s'.frame (prevFrameId s'.currFrameId) = some prev ∧ s'.differ = some size ∧
      prev.size = size ∧ F.size = size ∧ F.updatedRegion = calcDirtyRegion size prev.data F.data ∧
      s'' = { s' with frame := Function.update s'.frame s'.currFrameId (some F),
                      currFrameId := prevFrameId s'.currFrameId } := by
  unfold captureImage at h
  generalize hp : prepareCaptureResources env s = p at h
  rcases p with ⟨s', _ | _⟩
  · simp at h
  · simp only [Bool.not_true, Bool.false_eq_true, if_false] at h
    split at h
    · cases h
    · cases h
    · cases h
    · next curr prev size hcurr hprev hdiffer =>
      simp only [blitFrame_size] at h
      by_cases hsize : prev.size = size ∧ curr.size = size
      · rw [if_neg (by rw [not_or, not_not, not_not]; exact hsize)] at h
        simp only [Except.ok.injEq, Prod.mk.injEq, Option.some.injEq] at h
        obtain ⟨rfl, rfl⟩ := h
        exact ⟨s', prev, size, rfl, hprev, hdiffer, hsize.1, by simpa using hsize.2, rfl, rfl⟩
      · rw [if_pos (by rw [← not_and_or]; exact hsize)] at h
        cases h

/-! ## `prepareCaptureResources` -/

section Prepare

variable {env : CallEnv} {s : State}

@[simp] theorem releaseResources_frame : (releaseResources env s).frame = s.frame := by
  unfold releaseResources; split <;> (dsimp only; split <;> rfl)

@[simp] theorem releaseResources_currFrameId :
    (releaseResources env s).currFrameId = s.currFrameId := by
  unfold releaseResources; split <;> (dsimp only; split <;> rfl)

/-- The desktop context survives the release step exactly when the input desktop and the
screen rectangle are unchanged, and then nothing is released. -/
theorem releaseResources_desktopDc :
    (releaseResources env s).desktopDc = true ↔
      s.desktopDc = true ∧ env.switchDesktop = false ∧ env.screenRect = s.desktopDcRect := by
  unfold releaseResources
  cases hsw : env.switchDesktop <;> by_cases hr : env.screenRect = s.desktopDcRect <;> simp [hr]

theorem releaseResources_keep (hsw : env.switchDesktop = false)
    (hr : env.screenRect = s.desktopDcRect) : releaseResources env s = s := by
  simp [releaseResources, hsw, hr]

theorem createResources_desktopDc : (createResources env s).1.desktopDc = true := by
  unfold createResources; split
  · rfl
  · dsimp only; split <;> rfl

/-- `prepareCaptureResources` always leaves a desktop context: it keeps one or makes one. -/
theorem prepare_desktopDc (env : CallEnv) (s : State) :
    (prepareCaptureResources env s).1.desktopDc = true := by
  unfold prepareCaptureResources
  dsimp only
  split
  · assumption
  · exact createResources_desktopDc

theorem prepare_keep (hd : s.desktopDc = true) (hsw : env.switchDesktop = false)
    (hr : env.screenRect = s.desktopDcRect) : prepareCaptureResources env s = (s, true) := by
  simp [prepareCaptureResources, releaseResources_keep hsw hr, hd]

/-- With every frame allocation succeeding, the loop fills every slot it visits with a fresh
frame of the given size. -/
theorem createFrames_reliable {size : Size} (hf : ∀ i, (env.createFrame i).isSome = true)
    (is : List (Fin kNumFrames)) (frames : Fin kNumFrames → Option Frame) :
    (createFrames env size is frames).2 = true ∧ ∀ i, (createFrames env size is frames).1 i =
      if i ∈ is then (env.createFrame i).map (fun data => ⟨size, data, []⟩) else frames i := by
  induction is generalizing frames with
  | nil => exact ⟨rfl, fun i => rfl⟩
  | cons j is ih =>
    have hj : ((env.createFrame j).map fun data => (⟨size, data, []⟩ : Frame)).isNone = false := by
      simpa [Option.isNone_iff_eq_none, ← Option.isSome_iff_ne_none] using hf j
    simp only [createFrames, hj, Bool.false_eq_true, if_false]
    refine ⟨(ih _).1, fun i => ?_⟩
    rw [(ih _).2 i, Function.update_apply]
    by_cases hi : i ∈ is
    · simp [hi]
    · by_cases hij : i = j <;> simp [hi, hij]

end Prepare

/-- A call returns `nullptr` only when `prepareCaptureResources` returned `false`, and then it
leaves the state `prepareCaptureResources` left. -/
theorem captureImage_none {env : CallEnv} {s s'' : State}
    (h : captureImage calcDirtyRegion env s = .ok (s'', none)) :
    prepareCaptureResources env s = (s'', false) := by
  unfold captureImage at h
  generalize hp : prepareCaptureResources env s = p at h
  rcases p with ⟨s', _ | _⟩
  · simp only [Bool.not_false, if_true, Except.ok.injEq, Prod.mk.injEq, and_true] at h
    rw [h]
  · simp only [Bool.not_true, Bool.false_eq_true, if_false] at h
    split at h
    · cases h
    · cases h
    · cases h
    · next curr prev size _ _ _ =>
      simp only [blitFrame_size] at h
      by_cases hsize : prev.size ≠ size ∨ curr.size ≠ size
      · rw [if_pos hsize] at h
        cases h
      · rw [if_neg hsize] at h
        cases h

/-- After every call that returns, the desktop context is present: `prepareCaptureResources`
keeps it or makes it, and `captureImage` does not touch it. -/
theorem captureImage_desktopDc {env : CallEnv} {s s'' : State} {out : Option Frame}
    (h : captureImage calcDirtyRegion env s = .ok (s'', out)) : s''.desktopDc = true := by
  cases out with
  | none => simpa [captureImage_none h] using prepare_desktopDc env s
  | some F =>
    obtain ⟨s', -, -, hp, -, -, -, -, -, rfl⟩ := captureImage_spec h
    simpa [hp] using prepare_desktopDc env s

/-! ## Resources under reliable allocation -/

/-- Every allocation of the call succeeds. -/
def CallEnv.Reliable (env : CallEnv) : Prop :=
  env.createDc = true ∧ ∀ i, (env.createFrame i).isSome = true

/-- Whenever the desktop context is present, so are the memory context, a differ built for
`desktop_dc_rect_` and two frames of its size. -/
def Complete (s : State) : Prop :=
  s.desktopDc = true → s.memoryDc = true ∧ s.differ = some s.desktopDcRect.size ∧
    ∀ i, ∃ f, s.frame i = some f ∧ f.size = s.desktopDcRect.size

/-- What `captureImage` needs after `prepareCaptureResources` returned `true`: both contexts,
both frames of the screen's size, and a differ built for that size. -/
def ReadyFor (env : CallEnv) (s : State) : Prop :=
  s.desktopDc = true ∧ s.memoryDc = true ∧ s.differ = some env.screenRect.size ∧
    ∀ i, ∃ f, s.frame i = some f ∧ f.size = env.screenRect.size

/-- The states a run of calls enters each call in, up to its first fault. -/
def callStates (calcDirtyRegion : Size → Image → Image → List Rect) :
    List CallEnv → State → List State
  | [], _ => []
  | env :: envs, s => s ::
    match captureImage calcDirtyRegion env s with
    | .ok (s', _) => callStates calcDirtyRegion envs s'
    | .error _ => []

theorem complete_init : Complete init := fun h => nomatch h

section Reliable

variable {env : CallEnv} {s : State}

theorem createFrames_ready {size : Size} (hr : env.Reliable) (frames : Fin kNumFrames → Option Frame)
    (i : Fin kNumFrames) :
    ∃ f, (createFrames env size (List.finRange kNumFrames) frames).1 i = some f ∧ f.size = size := by
  obtain ⟨data, hdata⟩ := Option.isSome_iff_exists.1 (hr.2 i)
  refine ⟨⟨size, data, []⟩, ?_, rfl⟩
  rw [(createFrames_reliable hr.2 _ frames).2 i, if_pos (List.mem_finRange i), hdata]
  rfl

/-- Under reliable allocation the creation block succeeds and leaves everything ready. -/
theorem createResources_reliable (hr : env.Reliable) (s : State) :
    (createResources env s).2 = true ∧ ReadyFor env (createResources env s).1 ∧
      Complete (createResources env s).1 := by
  have hfr : (createFrames env env.screenRect.size (List.finRange kNumFrames) s.frame).2 = true :=
    (createFrames_reliable hr.2 _ s.frame).1
  simp only [createResources, hr.1, hfr, Bool.not_true, Bool.false_eq_true, if_false]
  exact ⟨trivial, ⟨rfl, rfl, rfl, createFrames_ready hr s.frame⟩,
    fun _ => ⟨rfl, rfl, createFrames_ready hr s.frame⟩⟩

/-- **Reliable allocation: `prepareCaptureResources` returns `true` and leaves everything
ready**, from any state whose resources are complete. -/
theorem prepare_reliable (hr : env.Reliable) (hc : Complete s) :
    (prepareCaptureResources env s).2 = true ∧ ReadyFor env (prepareCaptureResources env s).1 ∧
      Complete (prepareCaptureResources env s).1 := by
  by_cases hd : (releaseResources env s).desktopDc = true
  · obtain ⟨hd, hsw, hrect⟩ := releaseResources_desktopDc.1 hd
    rw [prepare_keep hd hsw hrect]
    obtain ⟨hm, hdiff, hframes⟩ := hc hd
    exact ⟨rfl, ⟨hd, hm, hrect ▸ hdiff, hrect ▸ hframes⟩, hc⟩
  · have hp : prepareCaptureResources env s = createResources env (releaseResources env s) := by
      simp [prepareCaptureResources, hd]
    rw [hp]
    exact createResources_reliable hr _

/-- Under reliable allocation a call returns a frame of the screen's size and keeps the
resources complete. -/
theorem captureImage_reliable (hr : env.Reliable) (hc : Complete s) :
    ∃ s' F, captureImage calcDirtyRegion env s = .ok (s', some F) ∧ Complete s' ∧
      F.size = env.screenRect.size := by
  have hprep := prepare_reliable (s := s) hr hc
  rcases hpe : prepareCaptureResources env s with ⟨s', ok⟩
  rw [hpe] at hprep
  obtain ⟨hok, ⟨hd, hm, hdiff, hframes⟩, hc'⟩ := hprep
  dsimp only at hok hd hm hdiff hframes hc'
  subst hok
  obtain ⟨fc, hfc, hfcs⟩ := hframes s'.currFrameId
  obtain ⟨fp, hfp, hfps⟩ := hframes (prevFrameId s'.currFrameId)
  simp only [captureImage, hpe, hfc, hfp, hdiff, blitFrame_size, hfcs, hfps, Bool.not_true,
    Bool.false_eq_true, if_false, ne_eq, not_true_eq_false, or_self]
  have hsz : env.screenRect.size = s'.desktopDcRect.size :=
    Option.some.inj (hdiff.symm.trans (hc' hd).2.1)
  refine ⟨_, _, rfl, fun _ => ⟨hm, congrArg some hsz, fun i => ?_⟩, rfl⟩
  dsimp only
  rw [Function.update_apply]
  split
  · exact ⟨_, rfl, hsz⟩
  · exact (hc' hd).2.2 i

/-- **With every allocation succeeding, every call returns a frame.**  From a state whose
resources are complete (the initial one, say), a run of calls in which every
`CreateCompatibleDC` and `DesktopFrameDIB::create` succeeds never faults, and each call
returns a frame of the screen's size.  In each call `prepareCaptureResources` returns `true`
and leaves both contexts, both frames of the screen's size and a differ built for that size. -/
theorem reliable_run_returns_frames (calcDirtyRegion : Size → Image → Image → List Rect) :
    ∀ (envs : List CallEnv) (s : State), Complete s → (∀ env ∈ envs, env.Reliable) →
      ∃ frames, run calcDirtyRegion envs s = .ok frames ∧
        List.Forall₂ (fun env out => ∃ F, out = some F ∧ F.size = env.screenRect.size)
          envs frames ∧
        List.Forall₂ (fun env s' => (prepareCaptureResources env s').2 = true ∧
          ReadyFor env (prepareCaptureResources env s').1) envs (callStates calcDirtyRegion envs s)
  | [], _, _, _ => ⟨[], rfl, .nil, .nil⟩
  | env :: envs, s, hc, hr => by
    have hr₀ := hr env (List.mem_cons_self _ _)
    obtain ⟨s', F, hcap, hc', hsize⟩ := @captureImage_reliable calcDirtyRegion env s hr₀ hc
    obtain ⟨frames, hrun, hout, hprep⟩ := reliable_run_returns_frames calcDirtyRegion envs s' hc'
      fun e he => hr e (List.mem_cons_of_mem _ he)
    refine ⟨some F :: frames, ?_, .cons ⟨F, rfl, hsize⟩ hout, ?_⟩
    · rw [run, hcap]
      change List.cons (some F) <$> run calcDirtyRegion envs s' = _
      rw [hrun]
      rfl
    · obtain ⟨hok, hready, -⟩ := prepare_reliable hr₀ hc
      rw [callStates, hcap]
      exact .cons ⟨hok, hready⟩ hprep

end Reliable

/-! ## Consecutive frames -/

/-- **Consecutive frames with nothing rebuilt between them are covered.**  If a call returns
`F₁` and the next call, with no desktop switch and the same screen rectangle, returns `F₂`,
then for a differ that meets its contract every pixel of `F₂` that differs from `F₁` lies in
`F₂`'s updated region. -/
theorem consecutive_frames_covered (hdiff : DifferContract calcDirtyRegion)
    {e₁ e₂ : CallEnv} {s s₁ s₂ : State} {F₁ F₂ : Frame}
    (h₁ : captureImage calcDirtyRegion e₁ s = .ok (s₁, some F₁))
    (h₂ : captureImage calcDirtyRegion e₂ s₁ = .ok (s₂, some F₂))
    (hsw : e₂.switchDesktop = false) (hr : e₂.screenRect = s₁.desktopDcRect)
    {x y : Nat} (hx : x < F₂.size.width) (hy : y < F₂.size.height)
    (hne : F₁.data x y ≠ F₂.data x y) :
    ∃ r ∈ F₂.updatedRegion, r.contains x y = true := by
  obtain ⟨s', -, -, -, -, -, -, -, -, hs₁⟩ := captureImage_spec h₁
  have hd := captureImage_desktopDc h₁
  obtain ⟨s'', prev, size, hp₂, hprev, -, -, hsize, hregion, -⟩ := captureImage_spec h₂
  rw [prepare_keep hd hsw hr] at hp₂
  obtain ⟨rfl, -⟩ := Prod.mk.inj hp₂
  simp only [hs₁, prevFrameId_prevFrameId, Function.update_same, Option.some.injEq] at hprev
  subst hprev
  rw [hregion]
  exact hdiff size F₁.data F₂.data x y (hsize ▸ hx) (hsize ▸ hy) hne

/-! ## Two failing runs -/

/-- A one-pixel screen at the origin. -/
def onePixel : Rect := ⟨0, 0, 1, 1⟩

/-- Black pixels, as a fresh DIB section holds them. -/
def blank : Image := fun _ _ => 0

/-- White pixels. -/
def whiteScreen : Image := fun _ _ => 0xFFFFFFFF

/-- A call in which the second `DesktopFrameDIB::create` fails. -/
def secondFrameFails : CallEnv :=
  ⟨false, onePixel, true, fun i => if i.val = 0 then some blank else none, some blank⟩

/-- A call in which nothing changes and every allocation succeeds. -/
def steadyCall : CallEnv := ⟨false, onePixel, true, fun _ => some blank, some blank⟩

/-- **After a failed frame allocation the next call finds a frame and the differ missing.**
The first call creates the contexts and `frame_[0]`, fails on `frame_[1]` and returns
`nullptr`.  The second, with the same screen rectangle, finds `desktop_dc_` present, so
`prepareCaptureResources` returns `true` at once with `frame_[1]` and `differ_` null, and
`captureImage` dereferences the null previous frame. -/
theorem prepare_true_with_missing_frame (calcDirtyRegion : Size → Image → Image → List Rect) :
    ∃ s₁, captureImage calcDirtyRegion secondFrameFails init = .ok (s₁, none) ∧
      prepareCaptureResources steadyCall s₁ = (s₁, true) ∧
      s₁.frame ⟨1, by decide⟩ = none ∧ s₁.differ = none ∧
      captureImage calcDirtyRegion steadyCall s₁ = .error .missingFrame :=
  ⟨_, rfl, rfl, rfl, rfl, rfl⟩

/-- A call on a white screen, every allocation succeeding with black pixels. -/
def whiteCall : CallEnv := ⟨false, onePixel, true, fun _ => some blank, some whiteScreen⟩

/-- A call after a switch to an input desktop whose screen is black, on the same rectangle. -/
def switchToBlank : CallEnv := ⟨true, onePixel, true, fun _ => some blank, some blank⟩

/-- **A desktop switch loses a change.**  The first call returns a white frame.  The second
switches desktop, so both frames are rebuilt black, but `curr_frame_id_` is kept: the new
screen, black, is diffed against the fresh black frame in the other slot instead of the white
frame returned last.  For every differ that reports nothing for identical frames, the second
frame's updated region is empty although its one pixel changed. -/
theorem desktop_switch_loses_change (calcDirtyRegion : Size → Image → Image → List Rect)
    (hsame : ∀ size image, calcDirtyRegion size image image = []) :
    ∃ s₁ s₂ F₁ F₂, captureImage calcDirtyRegion whiteCall init = .ok (s₁, some F₁) ∧
      captureImage calcDirtyRegion switchToBlank s₁ = .ok (s₂, some F₂) ∧
      F₂.size = F₁.size ∧ 0 < F₂.size.width ∧ 0 < F₂.size.height ∧
      F₂.data 0 0 ≠ F₁.data 0 0 ∧ F₂.updatedRegion = [] :=
  ⟨_, _, _, _, rfl, rfl, rfl, Nat.one_pos, Nat.one_pos,
    show (0 : UInt32) ≠ 0xFFFFFFFF by decide, hsame _ _⟩

/-- A differ that reports one 1×1 rectangle per changed pixel. -/
def exactDiffer (size : Size) (prev curr : Image) : List Rect :=
  (List.range size.height).flatMap fun (y : Nat) =>
    ((List.range size.width).filter fun x => prev x y ≠ curr x y).map fun (x : Nat) =>
      ⟨x, y, 1, 1⟩

theorem exactDiffer_contract : DifferContract exactDiffer := by
  intro size prev curr x y hx hy hne
  refine ⟨⟨x, y, 1, 1⟩, ?_, ?_⟩
  · exact List.mem_flatMap.2 ⟨y, List.mem_range.2 hy,
      List.mem_map.2 ⟨x, List.mem_filter.2 ⟨List.mem_range.2 hx, decide_eq_true hne⟩, rfl⟩⟩
  · simp only [Rect.contains, Bool.and_eq_true, decide_eq_true_eq]
    omega

theorem exactDiffer_self (size : Size) (image : Image) : exactDiffer size image image = [] := by
  simp [exactDiffer]

/-- The lost change with the exact differ, which meets the differ's contract. -/
theorem desktop_switch_loses_change_exactDiffer :
    DifferContract exactDiffer ∧ (∀ size image, exactDiffer size image image = []) ∧
      ∃ s₁ s₂ F₁ F₂, captureImage exactDiffer whiteCall init = .ok (s₁, some F₁) ∧
        captureImage exactDiffer switchToBlank s₁ = .ok (s₂, some F₂) ∧
        F₂.size = F₁.size ∧ 0 < F₂.size.width ∧ 0 < F₂.size.height ∧
        F₂.data 0 0 ≠ F₁.data 0 0 ∧ F₂.updatedRegion = [] :=
  ⟨exactDiffer_contract, exactDiffer_self,
    desktop_switch_loses_change exactDiffer exactDiffer_self⟩

/-! ## The positive results on concrete runs -/

/-- Two steady calls from the initial state return two frames. -/
theorem reliable_run_returns_frames_steady :
    (∀ env ∈ [steadyCall, steadyCall], env.Reliable) ∧
      ∃ frames, run exactDiffer [steadyCall, steadyCall] init = .ok frames ∧
        List.Forall₂ (fun env out => ∃ F, out = some F ∧ F.size = env.screenRect.size)
          [steadyCall, steadyCall] frames ∧
        List.Forall₂ (fun env s' => (prepareCaptureResources env s').2 = true ∧
          ReadyFor env (prepareCaptureResources env s').1) [steadyCall, steadyCall]
          (callStates exactDiffer [steadyCall, steadyCall] init) := by
  have hr : ∀ env ∈ [steadyCall, steadyCall], env.Reliable := fun env h => by
    simp only [List.mem_cons, List.mem_singleton, List.not_mem_nil, or_false, or_self] at h
    exact h ▸ ⟨rfl, fun _ => rfl⟩
  exact ⟨hr, reliable_run_returns_frames exactDiffer _ init complete_init hr⟩

/-- Without the desktop switch, the change from white to black is reported. -/
theorem consecutive_frames_covered_whiteToBlank :
    ∃ s₁ s₂ F₁ F₂, captureImage exactDiffer whiteCall init = .ok (s₁, some F₁) ∧
      captureImage exactDiffer steadyCall s₁ = .ok (s₂, some F₂) ∧
      ∃ r ∈ F₂.updatedRegion, r.contains 0 0 = true := by
  refine ⟨_, _, _, _, rfl, rfl, ?_⟩
  exact @consecutive_frames_covered exactDiffer exactDiffer_contract whiteCall steadyCall init _ _ _ _
    rfl rfl rfl rfl 0 0 Nat.one_pos Nat.one_pos (by decide)

/-! ## The two contexts over any run -/

/-- The states the capturer can be in between calls: the initial one, and any state that a
call which returns (a frame or `nullptr`) leaves, whatever Windows answers during it. -/
inductive Reachable (calcDirtyRegion : Size → Image → Image → List Rect) : State → Prop
  | initial : Reachable calcDirtyRegion init
  | step {s s' : State} {out : Option Frame} (env : CallEnv) :
      Reachable calcDirtyRegion s → captureImage calcDirtyRegion env s = .ok (s', out) →
      Reachable calcDirtyRegion s'

theorem releaseResources_contexts (env : CallEnv) (s : State) :
    ((releaseResources env s).desktopDc = false ∧ (releaseResources env s).memoryDc = false) ∨
      releaseResources env s = s := by
  unfold releaseResources
  cases env.switchDesktop <;> by_cases hr : env.screenRect = s.desktopDcRect <;> simp [hr]

/-- From a state with no memory context unless a desktop context, the assertion of the
creation block holds. -/
theorem creationAssertHolds_of {env : CallEnv} {s : State}
    (h : s.memoryDc = true → s.desktopDc = true) : creationAssertHolds env s = true := by
  unfold creationAssertHolds
  rcases releaseResources_contexts env s with ⟨-, hm⟩ | he
  · simp [hm]
  · rw [he]
    cases hm : s.memoryDc <;> simp [hm, h]

/-- **`memory_dc_` only with `desktop_dc_`.**  In every state reachable by calls with any
answers of Windows (desktop switches, screen rectangles, failures of `CreateCompatibleDC` and
of `DesktopFrameDIB::create`), a memory context is present only when the desktop context is,
so the `Q_ASSERT(!memory_dc_)` of the creation block holds at the next call, whatever that
call's answers. -/
theorem memoryDc_only_with_desktopDc {s : State} (h : Reachable calcDirtyRegion s) :
    (s.memoryDc = true → s.desktopDc = true) ∧ ∀ env, creationAssertHolds env s = true := by
  have hinv : s.memoryDc = true → s.desktopDc = true := by
    cases h with
    | initial => exact fun hm => nomatch hm
    | step env _ hcap => exact fun _ => captureImage_desktopDc hcap
  exact ⟨hinv, fun _ => creationAssertHolds_of hinv⟩

/-- A call in which `CreateCompatibleDC` fails. -/
def dcFails : CallEnv := ⟨false, onePixel, false, fun _ => some blank, some blank⟩

/-- After a `CreateCompatibleDC` failure the desktop context stays without a memory context,
and the assertion holds at a following call that switches desktop. -/
theorem memoryDc_only_with_desktopDc_afterDcFailure :
    ∃ s, Reachable exactDiffer s ∧ s.desktopDc = true ∧ s.memoryDc = false ∧
      creationAssertHolds switchToBlank s = true :=
  have h : Reachable exactDiffer _ := .step dcFails .initial rfl
  ⟨_, h, rfl, rfl, (memoryDc_only_with_desktopDc h).2 switchToBlank⟩

end ScreenCapturerGDI
end Aspia
