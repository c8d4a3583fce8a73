import Aspia.Host.ScreenUpdater

/-!
# The handshake between the worker and its owner

Five facts about every interleaving of `run` with `update()` calls and the destructor.

* `handshake_exec`: a worker that is *blocked* (waiting and not notified) sees
  `update_required_` false and no completed termination request.  `update()` sets the flag
  and notifies inside one critical section, and the worker tests the predicate and enters
  the wait inside another, so no acknowledgement falls between a test and a wait.  The
  unlocked write of `terminate_` can fall there, but the destructor's own `update()`
  follows it.
* `AwaitingAck`: from a post until the next `update()`, the worker can only sit in the
  post wait or, once `terminate_` is set, leave the loop.  So two posts always have an
  `update()` between them.
* `postBudget`: once `terminate_` is set, a worker that has not yet passed its loop test
  never posts again, and one in its capture phase posts at most once.  The publish section
  does not look at `terminate_` before posting; the loop test and the wait predicates do.
* `exitDistance`: once the destructor's `update()` has run, the worker is not blocked and
  reaches its return within three steps, so the destructor's `wait()` returns.
* `exited_exec`: `run` returns only through the loop test with `terminate_` set, or when no
  encoder was built.
-/

namespace Aspia
namespace ScreenUpdater

variable {cfg : Config} {s s' t : State} {a : Action}

/-! ## Blocking and notification -/

/-- Waiting and not notified. -/
def Pc.blocked : Pc → Bool
  | .postWait false | .idleWait false => true
  | _ => false

@[simp] theorem blocked_notifyOne (pc : Pc) : (notifyOne pc).blocked = false := by
  cases pc <;> rfl

@[simp] theorem notifyOne_eq_capture (pc : Pc) : notifyOne pc = .capture ↔ pc = .capture := by
  cases pc <;> simp [notifyOne]

theorem workerStep_flags (h : workerStep cfg s a = some s') :
    s'.terminate = s.terminate ∧ s'.termination = s.termination := by
  unfold workerStep at h
  split at h <;> (try split at h) <;> cases h <;> exact ⟨rfl, rfl⟩

/-- The worker blocks only after a predicate test that saw both flags false. -/
theorem workerStep_blocked (h : workerStep cfg s a = some s') (hb : s'.worker.blocked = true) :
    s'.updateRequired = false ∧ s.terminate = false := by
  unfold workerStep at h
  split at h <;> (try split at h) <;> cases h <;>
    cases ht : s.terminate <;> cases hu : s.updateRequired <;>
    simp_all [State.keepWaiting, Pc.blocked]

/-! ## No lost wakeup -/

/-- The invariant of every reachable state. -/
structure Handshake (s : State) : Prop where
  terminate_iff : s.terminate = true ↔ s.termination ≠ .notRequested
  blocked : s.worker.blocked = true → s.updateRequired = false ∧ s.termination ≠ .completed

theorem handshake_init : Handshake init := ⟨by decide, by decide⟩

theorem handshake_step (hs : Handshake s) (h : step cfg s a = some s') : Handshake s' := by
  cases a
  case update =>
    cases h
    exact ⟨hs.terminate_iff, by simp [update]⟩
  case terminateWrite =>
    simp only [step] at h
    split at h
    · cases h
      exact ⟨by simp, fun hb => ⟨(hs.blocked hb).1, by simp⟩⟩
    · cases h
  case terminateUpdate =>
    simp only [step] at h
    split at h
    next hf =>
      cases h
      have : s.terminate = true := hs.terminate_iff.2 (by simp [hf])
      exact ⟨by simp [update, this], by simp [update]⟩
    · cases h
  all_goals
    obtain ⟨hT, hN⟩ := workerStep_flags h
    refine ⟨by rw [hT, hN]; exact hs.terminate_iff, fun hb => ?_⟩
    obtain ⟨hu, ht⟩ := workerStep_blocked h hb
    refine ⟨hu, ?_⟩
    rw [hN]
    have := hs.terminate_iff
    cases hc : s.termination <;> simp_all

theorem handshake_exec {as : List Action} (hs : Handshake s) (h : exec cfg s as = some t) :
    Handshake t := by
  induction as generalizing s with
  | nil => cases h; exact hs
  | cons a as ih =>
    obtain ⟨s', hst, h⟩ := exec_cons_eq_some.1 h
    exact ih (handshake_step hs hst) h

/-- **No lost wakeup.**  In every interleaving, whenever the worker is blocked on
`update_condition_`, in the post wait or the idle wait, `update_required_` is false and no
termination request has completed. -/
theorem blocked_unsignalled (acts : List Action) (h : exec cfg init acts = some s)
    (hb : s.worker.blocked = true) :
    s.updateRequired = false ∧ s.termination ≠ .completed :=
  (handshake_exec handshake_init h).blocked hb

/-- A cycle with a changed frame and a packet, the cursor feature off. -/
def changedFrame : CycleInput := ⟨true, false, true, false, false⟩

theorem blocked_unsignalled_afterPost :
    exec ⟨.vp8, false⟩ init [.start true, .loopTest, .cycle changedFrame] =
        some ⟨.postWait false, false, false, .notRequested⟩ ∧
      (Pc.postWait false).blocked = true ∧ (false = false ∧ Termination.notRequested ≠ .completed) := by
  have h : exec ⟨.vp8, false⟩ init [.start true, .loopTest, .cycle changedFrame] =
      some ⟨.postWait false, false, false, .notRequested⟩ := rfl
  exact ⟨h, rfl, blocked_unsignalled _ h rfl⟩

/-! ## One post, one acknowledgement -/

/-- From a post until the next `update()`: the flag is down, and the worker is in the post
wait, or `terminate_` is set and it is on its way out of the loop. -/
def AwaitingAck (s : State) : Prop :=
  s.updateRequired = false ∧
    match s.worker with
    | .postWait _ => True
    | .idle | .loopHead | .exited => s.terminate = true
    | _ => False

theorem awaitingAck_of_posts (hp : a.posts cfg = true) (h : step cfg s a = some s') :
    AwaitingAck s' := by
  cases a <;> simp only [Action.posts, Bool.false_eq_true] at hp
  obtain ⟨e, he⟩ := Option.isSome_iff_exists.1 hp
  cases hw : s.worker <;> simp [step, workerStep, hw, he] at h
  subst h
  cases ht : s.terminate <;> simp [AwaitingAck, ht]

theorem Action.isUpdate_of_posts (hp : a.posts cfg = true) : a.isUpdate = false := by
  cases a <;> first | rfl | cases hp

/-- Until an `update()`, a worker awaiting its acknowledgement keeps awaiting it and
posts nothing. -/
theorem awaitingAck_step (ha : AwaitingAck s) (hu : a.isUpdate = false)
    (h : step cfg s a = some s') : AwaitingAck s' ∧ a.posts cfg = false := by
  obtain ⟨hu0, hw⟩ := ha
  cases a <;> simp only [Action.isUpdate, Bool.true_eq_false] at hu
  case terminateWrite =>
    simp only [step] at h
    split at h
    · cases h
      exact ⟨⟨hu0, by revert hw; cases s.worker <;> simp⟩, rfl⟩
    · cases h
  all_goals
    cases hs : s.worker <;> simp only [hs] at hw <;>
      simp only [step, workerStep, hs, reduceCtorEq, Option.some.injEq] at h <;> subst h <;>
      cases ht : s.terminate <;> simp_all [AwaitingAck, State.keepWaiting, Action.posts]

theorem awaitingAck_exec {as : List Action} (ha : AwaitingAck s)
    (hu : ∀ c ∈ as, c.isUpdate = false) (h : exec cfg s as = some t) :
    AwaitingAck t ∧ ∀ c ∈ as, c.posts cfg = false := by
  induction as generalizing s with
  | nil => cases h; simpa using ha
  | cons a as ih =>
    obtain ⟨s', hst, h⟩ := exec_cons_eq_some.1 h
    obtain ⟨ha', hp⟩ := awaitingAck_step ha (hu a (List.mem_cons_self _ _)) hst
    obtain ⟨ht, hps⟩ := ih ha' (fun c hc => hu c (List.mem_cons_of_mem _ hc)) h
    exact ⟨ht, List.forall_mem_cons.2 ⟨hp, hps⟩⟩

/-- **Two posts, one acknowledgement between.**  In every interleaving, between any two
`UpdateEvent`s the worker posts there is an `update()` call, after the first post. -/
theorem update_between_posts {pre mid : List Action} {a b : Action}
    (ha : a.posts cfg = true) (hb : b.posts cfg = true)
    (h : exec cfg init (pre ++ a :: mid ++ [b]) = some t) :
    ∃ c ∈ mid, c.isUpdate = true := by
  refine Classical.byContradiction fun hno => ?_
  have hu : ∀ c ∈ mid, c.isUpdate = false := fun c hc => by
    cases hc' : c.isUpdate
    · rfl
    · exact absurd ⟨c, hc, hc'⟩ hno
  obtain ⟨u, hpre, hb'⟩ := exec_append_eq_some.1 h
  obtain ⟨v, -, hv⟩ := exec_append_eq_some.1 hpre
  obtain ⟨v', hstep, hmid⟩ := exec_cons_eq_some.1 hv
  obtain ⟨w, hw, -⟩ := exec_cons_eq_some.1 hb'
  have hwait := (awaitingAck_exec (awaitingAck_of_posts ha hstep) hu hmid).1
  simp [(awaitingAck_step hwait (Action.isUpdate_of_posts hb) hw).2] at hb

theorem update_between_posts_schedule :
    exec ⟨.vp8, false⟩ init ([.start true, .loopTest] ++ .cycle changedFrame ::
        [.update, .wake, .idleEnter, .timeout, .loopTest] ++ [.cycle changedFrame]) =
        some ⟨.postWait false, false, false, .notRequested⟩ ∧
      ∃ c ∈ [Action.update, .wake, .idleEnter, .timeout, .loopTest], c.isUpdate = true := by
  have h : exec ⟨.vp8, false⟩ init ([.start true, .loopTest] ++ .cycle changedFrame ::
      [.update, .wake, .idleEnter, .timeout, .loopTest] ++ [.cycle changedFrame]) =
      some ⟨.postWait false, false, false, .notRequested⟩ := rfl
  exact ⟨h, update_between_posts (by decide) (by decide) h⟩

/-! ## Posts after the termination request -/

/-- The posts still possible once `terminate_` is set: one while the worker is past its
loop test and has not yet published, none elsewhere. -/
def postBudget (s : State) : Nat := if s.worker = .capture then 1 else 0

/-- With `terminate_` set, a step never raises the budget, and a post spends it. -/
theorem postBudget_step (ht : s.terminate = true) (h : step cfg s a = some s') :
    s'.terminate = true ∧ (if a.posts cfg then 1 else 0) + postBudget s' ≤ postBudget s := by
  cases a
  case update => cases h; simp [update, postBudget, ht, Action.posts]
  case terminateWrite =>
    simp only [step] at h
    split at h <;> cases h
    simp [postBudget, Action.posts]
  case terminateUpdate =>
    simp only [step] at h
    split at h <;> cases h
    simp [update, postBudget, ht, Action.posts]
  case cycle c =>
    cases hs : s.worker <;> simp only [step, workerStep, hs, reduceCtorEq] at h
    cases he : cycleUpdate cfg c <;> simp only [he, Option.some.injEq] at h <;> subst h <;>
      simp [postBudget, Action.posts, he, hs, ht]
  all_goals
    cases hs : s.worker <;> simp only [step, workerStep, hs, reduceCtorEq, Option.some.injEq] at h <;>
      subst h <;> simp [postBudget, Action.posts, hs, ht] <;> split <;> simp

theorem posts_le_postBudget {as : List Action} (h : exec cfg s as = some t)
    (ht : s.terminate = true) : as.countP (Action.posts cfg) ≤ postBudget s := by
  induction as generalizing s with
  | nil => simp
  | cons a as ih =>
    obtain ⟨s', hst, h⟩ := exec_cons_eq_some.1 h
    obtain ⟨ht', hle⟩ := postBudget_step ht hst
    have := ih h ht'
    rw [List.countP_cons]
    omega

/-- Setting `terminate_` does not stop every later post: the worker passes its loop test, the
destructor sets `terminate_`, and the publish section posts anyway. -/
theorem post_after_terminate :
    ¬ ∀ (cfg : Config) (pre post : List Action) (t : State),
      exec cfg init (pre ++ .terminateWrite :: post) = some t →
        ∀ a ∈ post, a.posts cfg = false := by
  intro h
  have := h ⟨.vp8, false⟩ [.start true, .loopTest] [.cycle ⟨true, false, true, false, false⟩]
    _ rfl _ (List.mem_singleton_self _)
  exact absurd this (by decide)

/-- **At most one post after the termination request.**  Once the destructor has set
`terminate_`, the worker posts at most one more `UpdateEvent`, and none unless the request
landed while it was capturing or encoding, between its loop test and its publish. -/
theorem posts_after_terminate_le (post : List Action)
    (h : exec cfg s (.terminateWrite :: post) = some t) :
    post.countP (Action.posts cfg) ≤ if s.worker = .capture then 1 else 0 := by
  obtain ⟨s', hw, h⟩ := exec_cons_eq_some.1 h
  simp only [step] at hw
  split at hw <;> cases hw
  simpa [postBudget] using posts_le_postBudget h rfl

theorem posts_after_terminate_le_capture :
    exec ⟨.vp8, false⟩ ⟨.capture, false, false, .notRequested⟩
        [.terminateWrite, .cycle changedFrame, .idleEnter, .loopTest] =
        some ⟨.exited, false, true, .flagSet⟩ ∧
      [Action.cycle changedFrame, .idleEnter, .loopTest].countP (Action.posts ⟨.vp8, false⟩) ≤ 1 := by
  have h : exec ⟨.vp8, false⟩ ⟨.capture, false, false, .notRequested⟩
      [.terminateWrite, .cycle changedFrame, .idleEnter, .loopTest] =
      some ⟨.exited, false, true, .flagSet⟩ := rfl
  exact ⟨h, posts_after_terminate_le _ h⟩

/-! ## The destructor returns -/

/-- The steps of the worker thread, as opposed to `update()` and the destructor's. -/
def Action.isWorker : Action → Bool
  | .update | .terminateWrite | .terminateUpdate => false
  | _ => true

/-- How many steps the worker still takes before `run` returns once `terminate_` is set:
from `capture`, the cycle, the idle section and the loop test. -/
def exitDistance : Pc → Nat
  | .start => 2
  | .loopHead => 1
  | .capture => 3
  | .postWait _ => 3
  | .idle => 2
  | .idleWait _ => 2
  | .exited => 0

theorem exitDistance_le (pc : Pc) : exitDistance pc ≤ 3 := by
  cases pc <;> simp [exitDistance]

/-- With `terminate_` set, every worker step brings `run` one step closer to its return and
none enters a wait; the other threads' steps move nothing but the notification flag. -/
theorem exitDistance_step (ht : s.terminate = true) (h : step cfg s a = some s') :
    s'.terminate = true ∧
      (if a.isWorker then 1 else 0) + exitDistance s'.worker ≤ exitDistance s.worker ∧
      (s.worker.blocked = false → s'.worker.blocked = false) := by
  cases a
  case update =>
    cases h
    cases hs : s.worker <;> simp [update, notifyOne, hs, ht, exitDistance, Action.isWorker, Pc.blocked]
  case terminateWrite =>
    simp only [step] at h
    split at h <;> cases h
    simp [Action.isWorker]
  case terminateUpdate =>
    simp only [step] at h
    split at h <;> cases h
    cases hs : s.worker <;> simp [update, notifyOne, hs, ht, exitDistance, Action.isWorker, Pc.blocked]
  case start built =>
    cases hs : s.worker <;> simp only [step, workerStep, hs, reduceCtorEq, Option.some.injEq] at h
    subst h
    cases videoEncoderCreated cfg built <;> simp [exitDistance, Action.isWorker, Pc.blocked, hs, ht]
  case cycle c =>
    cases hs : s.worker <;> simp only [step, workerStep, hs, reduceCtorEq] at h
    cases he : cycleUpdate cfg c <;> simp only [he, Option.some.injEq] at h <;> subst h <;>
      simp [exitDistance, Action.isWorker, Pc.blocked, hs, ht]
  all_goals
    cases hs : s.worker <;> simp only [step, workerStep, hs, reduceCtorEq, Option.some.injEq] at h <;>
      subst h <;> simp [exitDistance, Action.isWorker, Pc.blocked, State.keepWaiting, hs, ht]

/-- The same over a run: the worker steps of a run from a state with `terminate_` set are
bounded by the exit distance, and a worker that is not blocked is never blocked again. -/
theorem exitDistance_exec {as : List Action} (ht : s.terminate = true)
    (h : exec cfg s as = some t) :
    as.countP Action.isWorker + exitDistance t.worker ≤ exitDistance s.worker ∧
      (s.worker.blocked = false → t.worker.blocked = false) := by
  induction as generalizing s with
  | nil => cases h; simp
  | cons a as ih =>
    obtain ⟨s', hst, h⟩ := exec_cons_eq_some.1 h
    obtain ⟨ht', hle, hb⟩ := exitDistance_step ht hst
    obtain ⟨hle', hb'⟩ := ih ht' h
    rw [List.countP_cons]
    exact ⟨by omega, fun h0 => hb' (hb h0)⟩

/-- A worker that has not returned from `run` always has a step to take. -/
theorem workerStep_enabled (hw : s.worker ≠ .exited) :
    ∃ a, (workerStep cfg s a).isSome = true := by
  cases hs : s.worker
  case start => exact ⟨.start true, by simp [workerStep, hs]⟩
  case loopHead => exact ⟨.loopTest, by simp [workerStep, hs]⟩
  case capture => exact ⟨.cycle changedFrame, by simp only [workerStep, hs]; split <;> rfl⟩
  case postWait => exact ⟨.wake, by simp [workerStep, hs]⟩
  case idle => exact ⟨.idleEnter, by simp [workerStep, hs]⟩
  case idleWait => exact ⟨.timeout, by simp [workerStep, hs]⟩
  case exited => exact absurd hs hw

/-- **`~ScreenUpdater` returns.**  Once the destructor has set `terminate_` and made its
`update()` call, from any state reachable from the start, in every interleaving with the
consumers' `update()` calls: the worker is not blocked and never blocks again, it takes at most
three more steps (the cycle it may be in, the idle section and the loop test), and until `run`
has returned it always has a step to take, so `wait()` in the destructor returns. -/
theorem destructor_returns {pre as : List Action} (hs : exec cfg init pre = some s)
    (hc : s.termination = .completed) (h : exec cfg s as = some t) :
    as.countP Action.isWorker ≤ 3 ∧ t.worker.blocked = false ∧
      (t.worker = .exited ∨ ∃ a, (workerStep cfg t a).isSome = true) := by
  have hh := handshake_exec handshake_init hs
  have ht : s.terminate = true := hh.terminate_iff.2 (by simp [hc])
  have hb : s.worker.blocked = false := by
    cases hb : s.worker.blocked
    · rfl
    · exact absurd hc (hh.blocked hb).2
  obtain ⟨hle, hbt⟩ := exitDistance_exec ht h
  have := exitDistance_le s.worker
  refine ⟨by omega, hbt hb, ?_⟩
  by_cases hw : t.worker = .exited
  · exact .inl hw
  · exact .inr (workerStep_enabled hw)

/-- The destructor runs while the worker is capturing: the worker still posts, then leaves
through the idle section and the loop test, three steps. -/
theorem destructor_returns_capture :
    exec ⟨.vp8, false⟩ init [.start true, .loopTest, .terminateWrite, .terminateUpdate] =
        some ⟨.capture, true, true, .completed⟩ ∧
      exec ⟨.vp8, false⟩ ⟨.capture, true, true, .completed⟩
          [.cycle changedFrame, .update, .idleEnter, .loopTest] =
        some ⟨.exited, false, true, .completed⟩ ∧
      [Action.cycle changedFrame, .update, .idleEnter, .loopTest].countP Action.isWorker ≤ 3 := by
  have hs : exec ⟨.vp8, false⟩ init [.start true, .loopTest, .terminateWrite, .terminateUpdate] =
      some ⟨.capture, true, true, .completed⟩ := rfl
  have h : exec ⟨.vp8, false⟩ ⟨.capture, true, true, .completed⟩
      [.cycle changedFrame, .update, .idleEnter, .loopTest] =
      some ⟨.exited, false, true, .completed⟩ := rfl
  exact ⟨hs, h, (destructor_returns hs rfl h).1⟩

/-! ## The worker returns only when asked -/

theorem terminate_exec {as : List Action} (ht : s.terminate = true) (h : exec cfg s as = some t) :
    t.terminate = true := by
  induction as generalizing s with
  | nil => cases h; exact ht
  | cons a as ih =>
    obtain ⟨s', hst, h⟩ := exec_cons_eq_some.1 h
    exact ih (exitDistance_step ht hst).1 h

/-- The steps that make `run` return: the loop test with `terminate_` set, and the encoder
`switch` when no encoder was built. -/
theorem exited_step (h : step cfg s a = some s') (hx : s'.worker = .exited) :
    s.worker = .exited ∨ s'.terminate = true ∨
      ∃ built, a = .start built ∧ videoEncoderCreated cfg built = false := by
  cases a
  case update =>
    cases h
    cases hs : s.worker <;> simp_all [update, notifyOne]
  case terminateWrite =>
    simp only [step] at h
    split at h <;> cases h
    exact .inl hx
  case terminateUpdate =>
    simp only [step] at h
    split at h <;> cases h
    cases hs : s.worker <;> simp_all [update, notifyOne]
  case start built =>
    cases hs : s.worker <;> simp only [step, workerStep, hs, reduceCtorEq, Option.some.injEq] at h
    subst h
    cases hc : videoEncoderCreated cfg built <;> simp_all
  case cycle c =>
    cases hs : s.worker <;> simp only [step, workerStep, hs, reduceCtorEq] at h
    cases he : cycleUpdate cfg c <;> simp only [he, Option.some.injEq] at h <;> subst h <;>
      cases ht : s.terminate <;> simp_all
  all_goals
    cases hs : s.worker <;> simp only [step, workerStep, hs, reduceCtorEq, Option.some.injEq] at h <;>
      subst h <;> cases ht : s.terminate <;> cases hu : s.updateRequired <;>
      simp_all [State.keepWaiting]

/-- The same over a run: `run` has returned only if it already had, or `terminate_` is set, or
the run built no encoder. -/
theorem exited_exec {as : List Action} (h : exec cfg s as = some t) (hx : t.worker = .exited) :
    s.worker = .exited ∨ t.terminate = true ∨
      ∃ built, .start built ∈ as ∧ videoEncoderCreated cfg built = false := by
  induction as generalizing s with
  | nil => cases h; exact .inl hx
  | cons a as ih =>
    obtain ⟨s', hst, h⟩ := exec_cons_eq_some.1 h
    rcases ih h with hs' | ht | ⟨built, hb, hc⟩
    · rcases exited_step hst hs' with hs | ht | ⟨built, rfl, hc⟩
      · exact .inl hs
      · exact .inr (.inl (terminate_exec ht h))
      · exact .inr (.inr ⟨built, List.mem_cons_self _ _, hc⟩)
    · exact .inr (.inl ht)
    · exact .inr (.inr ⟨built, List.mem_cons_of_mem _ hb, hc⟩)

/-- **The worker returns only when asked.**  In every interleaving from the start, if `run`
has returned then the destructor has set `terminate_`, or the encoder `switch` built no
encoder (an unsupported encoding, or a factory that failed).  Consumers' `update()` calls,
spurious wakeups and timeouts never end the capture thread. -/
theorem worker_exits_only_on_request {as : List Action} (h : exec cfg init as = some t)
    (hx : t.worker = .exited) :
    t.terminate = true ∨ ∃ built, Action.start built ∈ as ∧ videoEncoderCreated cfg built = false :=
  (exited_exec h hx).resolve_left (by decide)

/-- A VP8 factory that fails: `run` returns at once, with no termination request. -/
theorem worker_exits_only_on_request_noEncoder :
    exec ⟨.vp8, false⟩ init [.start false] = some ⟨.exited, false, false, .notRequested⟩ ∧
      (false = true ∨ ∃ built, Action.start built ∈ [Action.start false] ∧
        videoEncoderCreated ⟨.vp8, false⟩ built = false) := by
  have h : exec ⟨.vp8, false⟩ init [.start false] = some ⟨.exited, false, false, .notRequested⟩ :=
    rfl
  exact ⟨h, worker_exits_only_on_request h rfl⟩

end ScreenUpdater
end Aspia
