import Aspia.DesktopCapture.ScreenCapturerGDIRing
/-!
# What a run of `captureImage` calls faults on, and what it copies

`ScreenCapturerGDIRing` shows two runs that go wrong after a failed allocation: a missing
frame is dereferenced, and a desktop switch loses a change.  This file says, for every run,
where faults come from, what the frames hold, and what a lost memory context does.

## 1.  Faults come only after a `nullptr`

`Complete` (the desktop context comes with the memory context, the two frames and the differ,
all of `desktop_dc_rect_`'s size) holds initially.  A call from a complete state never
faults: `prepareCaptureResources` either keeps the complete resources or rebuilds them, and a
rebuild that returns `true` has made every one of them (`prepare_true`).  A call that returns
a frame leaves the state complete again, and the frame holds what `BitBlt` copied
(`captureImage_captures`).  Only a call whose rebuild failed, which returns `nullptr`, can
leave the state incomplete.  So in every run the first fault comes after a call that returned
`nullptr` (`faults_only_after_nullptr`), and until then every frame carries its call's screen
(`frames_hold_screen`).

## 2.  Without a memory context the capture is frozen

When `CreateCompatibleDC` fails, the desktop context stays and `memory_dc_` is null.  Until a
desktop switch or a new screen rectangle releases the desktop context, every call skips the
re-creation, `SelectObject` on the null memory context fails, and no `BitBlt` happens.  The
frames the calls return then carry the pixels that the ring held when the memory context was
lost, whatever the screen shows (`capture_frozen_without_memoryDc`).
-/

namespace Aspia
namespace ScreenCapturerGDI

variable {calcDirtyRegion : Size → Image → Image → List Rect}

/-! ## 1.  Faults come only after a `nullptr` -/

section Created

variable {env : CallEnv} {size : Size}

theorem createFrames_not_mem {is : List (Fin kNumFrames)} {frames : Fin kNumFrames → Option Frame}
    {i : Fin kNumFrames} (hi : i ∉ is) : (createFrames env size is frames).1 i = frames i := by
  induction is generalizing frames with
  | nil => rfl
  | cons j is ih =>
    simp only [List.mem_cons, not_or] at hi
    simp only [createFrames]
    split
    · exact Function.update_noteq hi.1 _ _
    · rw [ih hi.2, Function.update_noteq hi.1]

/-- A frame loop that ran to its end left a fresh frame of the given size in every slot it
visited. -/
theorem createFrames_true {is : List (Fin kNumFrames)} {frames : Fin kNumFrames → Option Frame}
    (h : (createFrames env size is frames).2 = true) {i : Fin kNumFrames} (hi : i ∈ is) :
    ∃ f, (createFrames env size is frames).1 i = some f ∧ f.size = size := by
  induction is generalizing frames with
  | nil => cases hi
  | cons j is ih =>
    cases hc : env.createFrame j with
    | none => simp [createFrames, hc] at h
    | some data =>
      simp only [createFrames, hc, Option.map_some', Option.isNone_some, Bool.false_eq_true,
        if_false] at h ⊢
      by_cases his : i ∈ is
      · exact ih h his
      · obtain rfl : i = j := by simpa [his] using hi
        exact ⟨_, by rw [createFrames_not_mem his, Function.update_same], rfl⟩

/-- A creation block that returned `true` made everything, of the screen's size. -/
theorem createResources_true {s s' : State} (h : createResources env s = (s', true)) :
    ReadyFor env s' ∧ Complete s' := by
  cases hdc : env.createDc
  · simp [createResources, hdc] at h
  cases hr : (createFrames env env.screenRect.size (List.finRange kNumFrames) s.frame).2
  · simp [createResources, hdc, hr] at h
  simp only [createResources, hdc, hr, Bool.not_true, Bool.false_eq_true, if_false,
    Prod.mk.injEq, and_true] at h
  subst h
  have hframes := fun i => createFrames_true hr (List.mem_finRange i)
  exact ⟨⟨rfl, rfl, rfl, hframes⟩, fun _ => ⟨rfl, rfl, hframes⟩⟩

/-- **`prepareCaptureResources` returning `true` from a complete state leaves everything
ready**: it kept the complete resources, or it rebuilt all of them. -/
theorem prepare_true {s s' : State} (hc : Complete s)
    (h : prepareCaptureResources env s = (s', true)) : ReadyFor env s' ∧ Complete s' := by
  by_cases hd : (releaseResources env s).desktopDc = true
  · obtain ⟨hd, hsw, hrect⟩ := releaseResources_desktopDc.1 hd
    rw [prepare_keep hd hsw hrect] at h
    obtain ⟨rfl, -⟩ := Prod.mk.inj h
    obtain ⟨hm, hdiff, hframes⟩ := hc hd
    exact ⟨⟨hd, hm, hrect ▸ hdiff, hrect ▸ hframes⟩, hc⟩
  · have hp : prepareCaptureResources env s = createResources env (releaseResources env s) := by
      simp [prepareCaptureResources, hd]
    exact createResources_true (hp ▸ h)

end Created

/-- After a `true` from `prepareCaptureResources` that left everything ready, the call returns
a frame of the screen's size and leaves the state complete. -/
theorem captureImage_of_ready {env : CallEnv} {s s' : State}
    (hp : prepareCaptureResources env s = (s', true)) (hready : ReadyFor env s')
    (hc : Complete s') :
    ∃ s'' F, captureImage calcDirtyRegion env s = .ok (s'', some F) ∧ Complete s'' ∧
      F.size = env.screenRect.size := by
  obtain ⟨hd, -, hdiff, hframes⟩ := hready
  obtain ⟨fc, hfc, hfcs⟩ := hframes s'.currFrameId
  obtain ⟨fp, hfp, hfps⟩ := hframes (prevFrameId s'.currFrameId)
  simp only [captureImage, hp, hfc, hfp, hdiff, blitFrame_size, hfcs, hfps, Bool.not_true,
    Bool.false_eq_true, if_false, ne_eq, not_true_eq_false, or_self]
  have hsz : env.screenRect.size = s'.desktopDcRect.size :=
    Option.some.inj (hdiff.symm.trans (hc hd).2.1)
  refine ⟨_, _, rfl, fun _ => ⟨(hc hd).1, congrArg some hsz, fun i => ?_⟩, rfl⟩
  dsimp only
  rw [Function.update_apply]
  split
  · exact ⟨_, rfl, hsz⟩
  · exact (hc hd).2.2 i

/-- What a call that returns a frame copied: the frame is the current slot's frame after the
`SelectObject`/`BitBlt` block, and the state is the prepared one with that frame stored and the
ring turned. -/
theorem captureImage_data {env : CallEnv} {s s'' : State} {F : Frame}
    (h : captureImage calcDirtyRegion env s = .ok (s'', some F)) :
    ∃ s' curr, prepareCaptureResources env s = (s', true) ∧ s'.frame s'.currFrameId = some curr ∧
      F.data = (blitFrame curr (if s'.memoryDc then env.screen else none)).data ∧
      s'' = { s' with frame := Function.update s'.frame s'.currFrameId (some F),
                      currFrameId := prevFrameId s'.currFrameId } := by
  unfold captureImage at h
  generalize hp : prepareCaptureResources env s = p at h
  rcases p with ⟨s', _ | _⟩
  · simp at h
  · simp only [Bool.not_true, Bool.false_eq_true, if_false] at h
    split at h
    · cases h
    · cases h
    · cases h
    · next curr prev size hcurr _ _ =>
      simp only [blitFrame_size] at h
      by_cases hsize : prev.size ≠ size ∨ curr.size ≠ size
      · rw [if_pos hsize] at h
        cases h
      · rw [if_neg hsize] at h
        simp only [Except.ok.injEq, Prod.mk.injEq, Option.some.injEq] at h
        obtain ⟨rfl, rfl⟩ := h
        exact ⟨s', curr, rfl, hcurr, rfl, rfl⟩

/-- **One call from a complete state**: it never faults; it returns `nullptr`, or a frame and
a complete state. -/
theorem captureImage_complete {env : CallEnv} {s : State} (hc : Complete s) :
    (∃ s', captureImage calcDirtyRegion env s = .ok (s', none)) ∨
      ∃ s' F, captureImage calcDirtyRegion env s = .ok (s', some F) ∧ Complete s' := by
  rcases hp : prepareCaptureResources env s with ⟨s', _ | _⟩
  · exact .inl ⟨s', by simp [captureImage, hp]⟩
  · obtain ⟨hready, hc'⟩ := prepare_true hc hp
    obtain ⟨s'', F, h, hc'', -⟩ := @captureImage_of_ready calcDirtyRegion _ _ _ hp hready hc'
    exact .inr ⟨s'', F, h, hc''⟩

theorem run_cons_of_ok {env : CallEnv} {envs : List CallEnv} {s s' : State} {out : Option Frame}
    (h : captureImage calcDirtyRegion env s = .ok (s', out)) :
    run calcDirtyRegion (env :: envs) s =
      match run calcDirtyRegion envs s' with
      | .ok outs => .ok (out :: outs)
      | .error f => .error f := by
  rw [run, h]
  show (do let outs ← run calcDirtyRegion envs s'; pure (out :: outs)) = _
  cases run calcDirtyRegion envs s' <;> rfl

theorem run_cons_eq_ok {env : CallEnv} {envs : List CallEnv} {s : State}
    {outs : List (Option Frame)} :
    run calcDirtyRegion (env :: envs) s = .ok outs ↔
      ∃ s' out outs', captureImage calcDirtyRegion env s = .ok (s', out) ∧
        run calcDirtyRegion envs s' = .ok outs' ∧ outs = out :: outs' := by
  constructor
  · intro h
    cases hcap : captureImage calcDirtyRegion env s with
    | error e => rw [run, hcap] at h; cases h
    | ok p =>
      rw [run_cons_of_ok hcap] at h
      split at h <;> cases h
      exact ⟨p.1, p.2, _, rfl, ‹_›, rfl⟩
  · rintro ⟨s', out, outs', hcap, hr, rfl⟩
    rw [run_cons_of_ok hcap, hr]

/-- **Faults come only after a `nullptr`.**  For every run of calls from a complete state (the
initial one, say), whatever Windows answers at each call: if the run faults, then the calls
before the fault ran without one and at least one of them returned `nullptr`.  A failed
allocation is the only way into a state that faults. -/
theorem faults_only_after_nullptr (calcDirtyRegion : Size → Image → Image → List Rect) :
    ∀ (envs : List CallEnv) (s : State) (f : Fault), Complete s →
      run calcDirtyRegion envs s = .error f →
      ∃ pre post outs, envs = pre ++ post ∧ run calcDirtyRegion pre s = .ok outs ∧ none ∈ outs
  | [], _, _, _, h => nomatch h
  | env :: envs, s, f, hc, h => by
    rcases @captureImage_complete calcDirtyRegion env _ hc with ⟨s', hs'⟩ | ⟨s', F, hs', hc'⟩
    · exact ⟨[env], envs, [none], rfl, run_cons_eq_ok.2 ⟨_, _, _, hs', rfl, rfl⟩,
        List.mem_singleton_self _⟩
    · rw [run_cons_of_ok hs'] at h
      split at h
      · cases h
      · next f' hr =>
        obtain ⟨pre, post, outs, rfl, hpre, hnone⟩ :=
          faults_only_after_nullptr calcDirtyRegion envs s' f' hc' hr
        exact ⟨env :: pre, post, some F :: outs, rfl, run_cons_eq_ok.2 ⟨_, _, _, hs', hpre, rfl⟩,
          List.mem_cons_of_mem _ hnone⟩

/-- A second frame that cannot be allocated: the fault of the next call follows the `nullptr`
of the failed allocation. -/
theorem faults_only_after_nullptr_secondFrameFails :
    run exactDiffer [secondFrameFails, steadyCall] init = .error .missingFrame ∧
      ∃ pre post outs, [secondFrameFails, steadyCall] = pre ++ post ∧
        run exactDiffer pre init = .ok outs ∧ none ∈ outs := by
  have h : run exactDiffer [secondFrameFails, steadyCall] init = .error .missingFrame := rfl
  exact ⟨h, faults_only_after_nullptr exactDiffer _ init _ complete_init h⟩

/-- The call `env` returned a frame of its `fullScreenRect()` size holding what `BitBlt`
copied, when `SelectObject` succeeded. -/
def Captures (env : CallEnv) (out : Option Frame) : Prop :=
  ∃ F, out = some F ∧ F.size = env.screenRect.size ∧ ∀ px, env.screen = some px → F.data = px

/-- A frame returned from a complete state holds the screen, and leaves the state complete. -/
theorem captureImage_captures {env : CallEnv} {s s' : State} {F : Frame} (hc : Complete s)
    (h : captureImage calcDirtyRegion env s = .ok (s', some F)) :
    Complete s' ∧ Captures env (some F) := by
  obtain ⟨s1, curr, hp, -, hF, -⟩ := captureImage_data h
  obtain ⟨hready, hc1⟩ := prepare_true hc hp
  obtain ⟨s'', F', h', hc'', hsize⟩ := @captureImage_of_ready calcDirtyRegion _ _ _ hp hready hc1
  obtain ⟨rfl, rfl⟩ : s' = s'' ∧ F = F' := by simpa [h] using h'
  refine ⟨hc'', F, rfl, hsize, fun px hpx => ?_⟩
  rw [hF, hready.2.1, if_pos rfl, hpx]
  rfl

/-- **Frames carry the screen until a `nullptr`.**  In every run of calls from a complete state
(the initial one, say) in which no call returned `nullptr`, whatever Windows answers: every
call returned a frame of its own `fullScreenRect()` size, holding exactly the pixels `BitBlt`
copied at that call. -/
theorem frames_hold_screen (calcDirtyRegion : Size → Image → Image → List Rect) :
    ∀ (envs : List CallEnv) (s : State) (outs : List (Option Frame)), Complete s →
      run calcDirtyRegion envs s = .ok outs → none ∉ outs → List.Forall₂ Captures envs outs
  | [], _, _, _, h, _ => by
    cases h
    exact .nil
  | env :: envs, s, outs, hc, h, hnone => by
    obtain ⟨s', out, outs', hs', hr, rfl⟩ := run_cons_eq_ok.1 h
    cases out with
    | none => exact absurd (List.mem_cons_self _ _) hnone
    | some F =>
      obtain ⟨hc', hcap⟩ := captureImage_captures hc hs'
      exact .cons hcap (frames_hold_screen calcDirtyRegion envs s' outs' hc' hr
        fun hm => hnone (List.mem_cons_of_mem _ hm))

/-- A white screen, then a black one: each frame holds its call's screen. -/
theorem frames_hold_screen_whiteThenBlank :
    ∃ outs, run exactDiffer [whiteCall, steadyCall] init = .ok outs ∧ none ∉ outs ∧
      List.Forall₂ Captures [whiteCall, steadyCall] outs := by
  refine ⟨_, rfl, ?_, ?_⟩
  · simp
  · exact frames_hold_screen exactDiffer _ init _ complete_init rfl (by simp)

/-! ## 2.  Without a memory context the capture is frozen -/

/-- The desktop context without a memory context, on the rectangle of `s₀`, with each slot
holding the pixels it held in `s₀`. -/
def Frozen (s₀ s : State) : Prop :=
  s.desktopDc = true ∧ s.memoryDc = false ∧ s.desktopDcRect = s₀.desktopDcRect ∧
    ∀ i, (s.frame i).map Frame.data = (s₀.frame i).map Frame.data

/-- One call without a desktop switch on the same rectangle keeps the capture frozen, and the
frame it returns has the pixels of a slot of `s₀`. -/
theorem frozen_step {s₀ s s' : State} {env : CallEnv} {out : Option Frame} (hz : Frozen s₀ s)
    (hsw : env.switchDesktop = false) (hr : env.screenRect = s₀.desktopDcRect)
    (h : captureImage calcDirtyRegion env s = .ok (s', out)) :
    Frozen s₀ s' ∧ ∀ F, out = some F → ∃ i, (s₀.frame i).map Frame.data = some F.data := by
  obtain ⟨hd, hm, hrect, hdata⟩ := hz
  have hp := prepare_keep hd hsw (hr.trans hrect.symm)
  cases out with
  | none => exact absurd ((captureImage_none h).symm.trans hp) (by simp)
  | some F =>
    obtain ⟨s1, curr, hp1, hcurr, hF, rfl⟩ := captureImage_data h
    obtain ⟨rfl, -⟩ := Prod.mk.inj (hp1.symm.trans hp)
    simp only [hm, Bool.false_eq_true, if_false, blitFrame] at hF
    have hcur : (s₀.frame s1.currFrameId).map Frame.data = some F.data := by
      rw [← hdata, hcurr, hF]
      rfl
    refine ⟨⟨hd, hm, hrect, fun i => ?_⟩, fun G hG => ⟨_, (Option.some.inj hG) ▸ hcur⟩⟩
    dsimp only
    rw [Function.update_apply]
    split
    · next hi => rw [hi, hcur]; rfl
    · exact hdata i

/-- The same over a run: every frame returned has the pixels of a slot of `s₀`. -/
theorem frozen_run {s₀ : State} :
    ∀ (envs : List CallEnv) (s : State) (frames : List (Option Frame)), Frozen s₀ s →
      (∀ env ∈ envs, env.switchDesktop = false ∧ env.screenRect = s₀.desktopDcRect) →
      run calcDirtyRegion envs s = .ok frames →
      ∀ F, some F ∈ frames → ∃ i, (s₀.frame i).map Frame.data = some F.data
  | [], _, _, _, _, h => by
    cases h
    intro F hF
    cases hF
  | env :: envs, s, frames, hz, henv, h => by
    obtain ⟨hsw, hr⟩ := henv env (List.mem_cons_self _ _)
    obtain ⟨s', out, outs, hcap, hrun, rfl⟩ := run_cons_eq_ok.1 h
    obtain ⟨hz', hout⟩ := frozen_step hz hsw hr hcap
    intro F hF
    rcases List.mem_cons.1 hF with hF | hF
    · exact hout F hF.symm
    · exact frozen_run envs s' outs hz' (fun e he => henv e (List.mem_cons_of_mem _ he)) hrun F hF

/-- **Without a memory context the capture is frozen.**  From every state in which the desktop
context is present and the memory context is not (as a failed `CreateCompatibleDC` leaves it),
in every run of calls without a desktop switch and with the same screen rectangle that does
not fault, whatever the screen shows: no call copies the screen, and every frame returned has
the pixels that one of the two slots held at the start. -/
theorem capture_frozen_without_memoryDc (calcDirtyRegion : Size → Image → Image → List Rect)
    (s : State) (hd : s.desktopDc = true) (hm : s.memoryDc = false) (envs : List CallEnv)
    (henv : ∀ env ∈ envs, env.switchDesktop = false ∧ env.screenRect = s.desktopDcRect)
    (frames : List (Option Frame)) (h : run calcDirtyRegion envs s = .ok frames) :
    ∀ F, some F ∈ frames → ∃ i, (s.frame i).map Frame.data = some F.data :=
  frozen_run envs s frames ⟨hd, hm, rfl, fun _ => rfl⟩ henv h

/-- A switch of the input desktop in which `CreateCompatibleDC` fails. -/
def switchNoDc : CallEnv := ⟨true, onePixel, false, fun _ => some blank, some blank⟩

/-- A white frame is captured, then a desktop switch loses the memory context: the next call
on the white screen returns the black pixels still in its slot. -/
theorem capture_frozen_without_memoryDc_afterSwitch :
    ∃ s₁ F₁ s F, captureImage exactDiffer whiteCall init = .ok (s₁, some F₁) ∧
      captureImage exactDiffer switchNoDc s₁ = .ok (s, none) ∧
      s.desktopDc = true ∧ s.memoryDc = false ∧
      run exactDiffer [whiteCall] s = .ok [some F] ∧ F.data 0 0 ≠ whiteScreen 0 0 ∧
      ∃ i, (s.frame i).map Frame.data = some F.data := by
  refine ⟨_, _, _, _, rfl, rfl, rfl, rfl, rfl, by decide, ?_⟩
  refine capture_frozen_without_memoryDc exactDiffer _ ?_ ?_ [whiteCall] ?_ _ ?_ _
    (List.mem_singleton_self _)
  · rfl
  · rfl
  · intro env he
    rw [List.mem_singleton] at he
    subst he
    exact ⟨rfl, rfl⟩
  · rfl

end ScreenCapturerGDI
end Aspia
