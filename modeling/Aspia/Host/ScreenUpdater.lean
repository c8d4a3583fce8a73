import Mathlib.Logic.Basic

/-!
# `host/screen_updater.cc`: the worker and its two signals

`ScreenUpdater::run` is a producer loop on a dedicated thread: capture, encode, post an
`UpdateEvent` to the owner, and wait.  The owner talks back through two flags,
`update_required_` (set by `ScreenUpdater::update`) and `terminate_` (set by the
destructor, which then calls `update()` itself), and one condition variable.

This file is the thread model.  A state records the worker's program point, the two flags
and how far the destructor has got with its termination request; an `Action` is one
atomic step of one thread.  Atomicity follows the lock: each `update_lock_` critical
section is one step, a wait releases the lock, and returning from a wait (on
`notify_one`, spuriously, or on the timeout of `wait_for`) and re-testing the predicate
is one more step.  The write `terminate_ = true` and the test `while (!terminate_)` take no
lock; each is a step of its own.

## Where the model is forced

* **Capture and encode are one step with the publish section.**  They touch no shared
  state, so merging them with the critical section that follows changes no interleaving
  that matters.  The step still starts at the program point `capture`, which the worker
  occupies between its loop test and its publish: a termination request can land there.
* **Waking is a flag on the waiting program points.**  `notify_one` does not run the
  worker; it makes it runnable.  `postWait true` is "notified, not yet back in the
  lock"; `postWait false` is blocked.  Any waiting state may also return spuriously, so a
  `wake` step is allowed from both.
* **What is captured is not modelled here.**  `cycleUpdate` reads the collaborators'
  answers (`CycleInput`) exactly as `run` combines them; which frame and which cursor
  they were is `DesktopCapture`'s business.
-/

namespace Aspia
namespace ScreenUpdater

/-! ## One cycle's event -/

/-- `config_.video_encoding()`: the encodings `run` builds an encoder for, and any other
value of the enum. -/
inductive VideoEncoding where
  | vp8
  | vp9
  | zlib
  | unsupported (value : Nat)
  deriving DecidableEq, Repr

/-- The part of `proto::desktop::Config` that `run` reads for its control flow:
`config_.video_encoding()`, and `config_.features() & proto::desktop::FEATURE_CURSOR_SHAPE`. -/
structure Config where
  videoEncoding : VideoEncoding
  cursorShape : Bool
  deriving DecidableEq, Repr

/-- The `switch` in `run`: an encoder is built for VP8, VP9 and ZLIB, and `built` says
whether that factory returned one.  For any other encoding `video_encoder` stays null. -/
def videoEncoderCreated (cfg : Config) (built : Bool) : Bool :=
  match cfg.videoEncoding with
  | .vp8 | .vp9 | .zlib => built
  | .unsupported _ => false

/-- What the collaborators answer in one cycle: whether `screen_capturer->captureImage()`
returned a frame, whether `screen_frame->updatedRegion().isEmpty()`, whether
`video_encoder->encode(screen_frame)` returned a packet, whether
`cursor_capturer->captureCursor()` returned a cursor, and whether `cursor_encoder->encode(...)`
returned a shape. -/
structure CycleInput where
  frame : Bool
  regionEmpty : Bool
  videoPacket : Bool
  mouseCursor : Bool
  cursorShape : Bool
  deriving DecidableEq, Repr

/-- An `UpdateEvent`: which of its two payloads is present. -/
structure UpdateEvent where
  videoPacket : Bool
  cursorShape : Bool
  deriving DecidableEq, Repr

/-- The body of one iteration of `run` up to the post: the event it posts, if any.  The
cursor is captured only when the cursor feature built a capturer and an encoder, and
nothing is posted without a frame. -/
def cycleUpdate (cfg : Config) (c : CycleInput) : Option UpdateEvent :=
  if c.frame then
    let video := !c.regionEmpty && c.videoPacket
    let cursor := cfg.cursorShape && c.mouseCursor && c.cursorShape
    if video || cursor then some ⟨video, cursor⟩ else none
  else none

/-- **No empty event.**  Every event `run` posts carries a packet or a shape, and a
shape only when the cursor feature is on. -/
theorem cycleUpdate_payload {cfg : Config} {c : CycleInput} {e : UpdateEvent}
    (h : cycleUpdate cfg c = some e) :
    (e.videoPacket || e.cursorShape) = true ∧ (e.cursorShape = true → cfg.cursorShape = true) := by
  simp only [cycleUpdate] at h
  split at h
  · split at h
    · cases h
      exact ⟨‹_›, fun hc => by simp_all⟩
    · cases h
  · cases h

/-! ## Threads -/

/-- The worker's program point in `run`: before the encoder `switch`, at
`while (!terminate_)`, capturing and encoding after `scheduler.beginCapture()`, in
`update_condition_.wait(lock)` after a post, before the idle section that clears
`update_required_`, in its `update_condition_.wait_for(lock, delay)`, and returned.  A
waiting point's `woken` is set once it has been notified. -/
inductive Pc where
  | start
  | loopHead
  | capture
  | postWait (woken : Bool)
  | idle
  | idleWait (woken : Bool)
  | exited
  deriving DecidableEq, Repr

/-- How far `~ScreenUpdater` has got: `terminate_ = true`, then `update()`. -/
inductive Termination where
  | notRequested
  | flagSet
  | completed
  deriving DecidableEq, Repr

/-- The shared state and the threads' positions: the worker's program point,
`update_required_`, `terminate_`, and how far the destructor has got. -/
structure State where
  worker : Pc
  updateRequired : Bool
  terminate : Bool
  termination : Termination
  deriving DecidableEq, Repr

/-- The state when the constructor has started the thread.  The flags' initialisers are
in `screen_updater.h`, which is not among the sources; both start false. -/
def init : State := ⟨.start, false, false, .notRequested⟩

/-- One atomic step of one thread.  The worker's: the encoder `switch` (`built` is the
factory's answer), the test `while (!terminate_)`, capture and encode with the publish
section if there is an event, returning from a wait and re-testing its predicate, the idle
section up to its first `wait_for`, and a `wait_for` that returns
`std::cv_status::timeout`.  Then a consumer's `update()`, and the destructor's
`terminate_ = true` and its own `update()`. -/
inductive Action where
  | start (built : Bool)
  | loopTest
  | cycle (c : CycleInput)
  | wake
  | idleEnter
  | timeout
  | update
  | terminateWrite
  | terminateUpdate
  deriving DecidableEq, Repr

/-- `notify_one`: a waiting worker becomes runnable; otherwise nothing happens. -/
def notifyOne : Pc → Pc
  | .postWait _ => .postWait true
  | .idleWait _ => .idleWait true
  | pc => pc

/-- `ScreenUpdater::update`: the critical section sets `update_required_` and notifies. -/
def update (s : State) : State :=
  { s with updateRequired := true, worker := notifyOne s.worker }

/-- A wait loop's predicate `!update_required_ && !terminate_`. -/
def State.keepWaiting (s : State) : Bool := !s.updateRequired && !s.terminate

/-- One step of `run`, when the worker is at a point where `a` is its next step. -/
def workerStep (cfg : Config) (s : State) (a : Action) : Option State :=
  match s.worker, a with
  | .start, .start built =>
      some { s with worker := if videoEncoderCreated cfg built then .loopHead else .exited }
  | .loopHead, .loopTest =>
      some { s with worker := if s.terminate then .exited else .capture }
  | .capture, .cycle c =>
      match cycleUpdate cfg c with
      | some _ =>
          -- `update_required_ = false`, post, and the first test of the wait loop
          some { s with updateRequired := false,
                        worker := if s.terminate then .idle else .postWait false }
      | none => some { s with worker := .idle }
  | .postWait _, .wake =>
      some { s with worker := if s.keepWaiting then .postWait false else .idle }
  | .idle, .idleEnter =>
      some { s with updateRequired := false,
                    worker := if s.terminate then .loopHead else .idleWait false }
  | .idleWait _, .wake =>
      some { s with worker := if s.keepWaiting then .idleWait false else .loopHead }
  | .idleWait _, .timeout => some { s with worker := .loopHead }
  | _, _ => none

/-- One step of the system: the consumers' `update()`, the destructor, or the worker. -/
def step (cfg : Config) (s : State) : Action → Option State
  | .update => some (update s)
  | .terminateWrite =>
      if s.termination = .notRequested then
        some { s with terminate := true, termination := .flagSet }
      else none
  | .terminateUpdate =>
      if s.termination = .flagSet then some { update s with termination := .completed }
      else none
  | a => workerStep cfg s a

/-- A schedule run from `s`: `none` as soon as a step is not enabled. -/
def exec (cfg : Config) : State → List Action → Option State
  | s, [] => some s
  | s, a :: as => (step cfg s a).bind (exec cfg · as)

/-- The steps that post an `UpdateEvent`. -/
def Action.posts (cfg : Config) : Action → Bool
  | .cycle c => (cycleUpdate cfg c).isSome
  | _ => false

/-- The steps that are an `update()` call, the consumers' or the destructor's. -/
def Action.isUpdate : Action → Bool
  | .update | .terminateUpdate => true
  | _ => false

@[simp] theorem exec_nil (cfg : Config) (s : State) : exec cfg s [] = some s := rfl

theorem exec_cons (cfg : Config) (s : State) (a : Action) (as : List Action) :
    exec cfg s (a :: as) = (step cfg s a).bind (exec cfg · as) := rfl

theorem exec_cons_eq_some {cfg : Config} {s t : State} {a : Action} {as : List Action} :
    exec cfg s (a :: as) = some t ↔ ∃ s', step cfg s a = some s' ∧ exec cfg s' as = some t := by
  simp [exec_cons, Option.bind_eq_some]

theorem exec_append_eq_some {cfg : Config} {s t : State} {as bs : List Action} :
    exec cfg s (as ++ bs) = some t ↔ ∃ u, exec cfg s as = some u ∧ exec cfg u bs = some t := by
  induction as generalizing s with
  | nil => simp
  | cons a as ih =>
    simp only [List.cons_append, exec_cons_eq_some, ih]
    exact ⟨fun ⟨s', h, u, hu, ht⟩ => ⟨u, ⟨s', h, hu⟩, ht⟩,
      fun ⟨u, ⟨s', h, hu⟩, ht⟩ => ⟨s', h, u, hu, ht⟩⟩

end ScreenUpdater
end Aspia
