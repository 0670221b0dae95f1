import Mymuduo.QuitDrain

/-! # A loop in a thread of its own

`EventLoopThread` puts a `LoopSystem` on the stack of a worker thread.  The worker
runs `threadfunc`: it constructs the loop, runs `callback_`, publishes `loop_`, and
calls `loop()`.  Any other thread runs the destructor, which looks at `loop_` without
the mutex, calls `quit()` and joins.  Around these two every thread uses the loop as
`LoopSystem` lets it.

`loop_` is published before `loop()` is entered, and `loop()` begins with
`quit_ = false`.  A `quit()` in between is lost.
-/
namespace Mymuduo
open Transition

/-- Where the worker stands in `threadfunc`. -/
inductive WorkerPc where
  | construct
  /-- In `callback_`. -/
  | callback
  | publish
  /-- About to call `loop()`. -/
  | enter
  /-- In `loop()`, past its first two stores. -/
  | looping
  | unpublish
  | returned
deriving DecidableEq, Repr

/-- Where the destructor stands, and which thread runs it. -/
inductive DestructorPc where
  | notCalled
  /-- Before `if(loop_ != nullptr)`. -/
  | observe (t : Tid)
  | quit (t : Tid)
  /-- In `quit()`, before `wakeup()`. -/
  | wakeup (t : Tid)
  | join (t : Tid)
  | returned
deriving DecidableEq, Repr

namespace WorkerPc

/-- The loop exists. -/
def live : WorkerPc → Bool
  | .construct | .returned => false
  | _ => true

/-- `loop()` has executed `quit_ = false`. -/
def pastReset : WorkerPc → Bool
  | .looping | .unpublish | .returned => true
  | _ => false

end WorkerPc

/-- The thread that is in the destructor. -/
def DestructorPc.thread : DestructorPc → Option Tid
  | .observe t | .quit t | .wakeup t | .join t => some t
  | .notCalled | .returned => none

structure EventLoopThread (φ : Type*) where
  /-- Whether `loop_` points to the loop. -/
  loop_ : Bool
  exiting_ : Bool
  /-- Whether there is a `callback_`. -/
  callback_ : Bool
  worker : WorkerPc
  destructor : DestructorPc
  /-- The loop, from its construction on. -/
  sys : LoopSystem φ

namespace EventLoopThread
variable {φ : Type*}

/-- `startLoop` has just started the worker, which will be thread `tid`. -/
def started (tid : Tid) (callback_ : Bool) : EventLoopThread φ :=
  ⟨false, false, callback_, .construct, .notCalled, LoopSystem.initial tid⟩

/-- The worker's thread id. -/
def tid (s : EventLoopThread φ) : Tid := s.sys.loop.threadId_

/-- One step of thread `t`. -/
inductive Step : EventLoopThread φ → Tid → EventLoopThread φ → Prop where
  | construct {s} (h : s.worker = .construct) :
      Step s s.tid
        { s with sys := LoopSystem.initial s.tid,
                 worker := if s.callback_ then .callback else .publish }
  /-- `callback_` uses the loop. -/
  | callback {s} {sys' : LoopSystem φ} (h : s.worker = .callback)
      (hstep : LoopSystem.Step s.sys s.tid sys') (hout : sys'.pc.isOutside = true) :
      Step s s.tid { s with sys := sys' }
  | callbackReturn {s} (h : s.worker = .callback) : Step s s.tid { s with worker := .publish }
  | publish {s} (h : s.worker = .publish) :
      Step s s.tid { s with loop_ := true, worker := .enter }
  | enter {s} (h : s.worker = .enter) :
      Step s s.tid
        { s with sys := { s.sys with loop := s.sys.loop.enterLoop, pc := .test },
                 worker := .looping }
  /-- Inside `loop()`; its last step leaves it. -/
  | loop {s} {sys' : LoopSystem φ} (h : s.worker = .looping) (hin : s.sys.pc.isOutside = false)
      (hstep : LoopSystem.Step s.sys s.tid sys') :
      Step s s.tid
        { s with sys := sys', worker := if sys'.pc.isOutside then .unpublish else .looping }
  | unpublish {s} (h : s.worker = .unpublish) :
      Step s s.tid { s with loop_ := false, worker := .returned }
  /-- A thread that has a pointer to the loop uses it. -/
  | other {s} {t} {sys' : LoopSystem φ} (ht : t ≠ s.tid) (hlive : s.worker.live = true)
      (hfree : s.destructor.thread ≠ some t) (hstep : LoopSystem.Step s.sys t sys') :
      Step s t { s with sys := sys' }
  | destruct {s} {t} (ht : t ≠ s.tid) (h : s.destructor = .notCalled)
      (hidle : s.sys.callers t = .idle) :
      Step s t { s with exiting_ := true, destructor := .observe t }
  | observe {s} {t} (h : s.destructor = .observe t) :
      Step s t { s with destructor := if s.loop_ then .quit t else .returned }
  /-- (When the worker has returned meanwhile, the store is to a loop that is no
  more.) -/
  | quit {s} {t} {sys' : LoopSystem φ} (ht : t ≠ s.tid) (h : s.destructor = .quit t)
      (hquit : LoopSystem.Quits s.sys t sys') :
      Step s t { s with sys := sys', destructor := .wakeup t }
  | wakeup {s} {t} {sys' : LoopSystem φ} (ht : t ≠ s.tid) (h : s.destructor = .wakeup t)
      (hstep : LoopSystem.Step s.sys t sys') (hidle : sys'.callers t = .idle) :
      Step s t { s with sys := sys', destructor := .join t }
  | join {s} {t} (h : s.destructor = .join t) (hret : s.worker = .returned) :
      Step s t { s with destructor := .returned }

/-- `t` calls `quit()`; the step is its store to `quit_`. -/
def Quits (s : EventLoopThread φ) (t : Tid) (s' : EventLoopThread φ) : Prop :=
  Step s t s' ∧ LoopSystem.Quits s.sys t s'.sys

/-- The destructor waits for a worker that has no reason to leave `loop()`. -/
def Hangs (s : EventLoopThread φ) : Prop :=
  (∃ t, s.destructor = .join t) ∧ s.worker = .looping ∧ s.sys.loop.quit_ = false

/-- What a `quit()` is for: the flag stays up, and the destructor does not wait in
vain. -/
structure QuitKept (s : EventLoopThread φ) : Prop where
  kept : s.sys.loop.quit_ = true
  joins : ¬ s.Hangs

section Step
variable {s s' : EventLoopThread φ} {t : Tid}

theorem quit_of_quits (h : Quits s t s') : s'.sys.loop.quit_ = true := by
  obtain ⟨-, hquit⟩ := h
  generalize s'.sys = sys' at hquit
  cases hquit with
  | here | other => rfl

/-- A call of `quit()` does not take the worker past the reset. -/
theorem pastReset_of_quits (h : Quits s t s') : s'.worker.pastReset = s.worker.pastReset := by
  have hquit := quit_of_quits h
  cases h.1 with
  | construct | enter => cases hquit
  | callbackReturn hw | publish hw | unpublish hw =>
    rw [hw]
    rfl
  | loop hw =>
    rw [hw]
    show (if _ then WorkerPc.unpublish else WorkerPc.looping).pastReset = true
    split <;> rfl
  | _ => rfl

/-- **Past the reset**, a `quit()` is kept by every step of every thread. -/
theorem Step.quit_kept (h : Step s t s') (hpast : s.worker.pastReset = true)
    (hq : s.sys.loop.quit_ = true) :
    s'.worker.pastReset = true ∧ s'.sys.loop.quit_ = true := by
  cases h with
  | construct h | callback h | callbackReturn h | publish h | enter h =>
    rw [h] at hpast
    cases hpast
  | loop h hin hstep =>
    refine ⟨?_, hstep.quit_kept hin hq⟩
    show (if _ then WorkerPc.unpublish else WorkerPc.looping).pastReset = true
    split <;> rfl
  | unpublish => exact ⟨rfl, hq⟩
  | other ht hlive hfree hstep =>
    rcases hstep.quit_kept_or_enter hq with hkept | ⟨htid, -⟩
    · exact ⟨hpast, hkept⟩
    · exact absurd htid ht
  | wakeup ht h hstep =>
    rcases hstep.quit_kept_or_enter hq with hkept | ⟨htid, -⟩
    · exact ⟨hpast, hkept⟩
    · exact absurd htid ht
  | quit ht h hquit =>
    rcases hquit.step.quit_kept_or_enter hq with hkept | ⟨htid, -⟩
    · exact ⟨hpast, hkept⟩
    · exact absurd htid ht
  | destruct | observe | join => exact ⟨hpast, hq⟩

/-- **Before the reset**, the worker's own way into `loop()` clears the flag. -/
theorem exists_reset (hpast : s.worker.pastReset = false) :
    ∃ as s', Run Step s as s' ∧ s'.sys.loop.quit_ = false := by
  cases hw : s.worker with
  | construct => exact ⟨_, _, Run.refl.tail (.construct hw), rfl⟩
  | callback =>
    have hrun := Run.refl
      |>.tail (Step.callbackReturn hw)
      |>.tail (.publish rfl)
      |>.tail (.enter rfl)
    exact ⟨_, _, hrun, rfl⟩
  | publish =>
    have hrun := Run.refl |>.tail (Step.publish hw) |>.tail (.enter rfl)
    exact ⟨_, _, hrun, rfl⟩
  | enter => exact ⟨_, _, Run.refl.tail (.enter hw), rfl⟩
  | looping | unpublish | returned =>
    rw [hw] at hpast
    cases hpast

end Step

/-- **When a `quit()` is kept.**  Whatever has led to the call, whoever makes it, and
under every interleaving after it: no later step clears `quit_`, and the destructor
does not wait for a worker in `loop()` with `quit_` down, exactly when the worker had
executed the `quit_ = false` of `loop()` by then. -/
theorem quit_kept_iff {t : Tid} {s s₁ : EventLoopThread φ} (hquit : Quits s t s₁) :
    (∀ as s₂, Run Step s₁ as s₂ → s₂.QuitKept) ↔ s.worker.pastReset = true := by
  rw [← pastReset_of_quits hquit]
  constructor
  · intro hkept
    by_contra hpast
    obtain ⟨as, s₂, hrun, hq⟩ := exists_reset (Bool.eq_false_iff.mpr hpast)
    rw [(hkept as s₂ hrun).kept] at hq
    cases hq
  · intro hpast as s₂ hrun
    have hs₂ : s₂.worker.pastReset = true ∧ s₂.sys.loop.quit_ = true :=
      hrun.invariant ⟨hpast, quit_of_quits hquit⟩ fun _ _ _ hs hstep => hstep.quit_kept hs.1 hs.2
    refine ⟨hs₂.2, fun ⟨_, _, hq⟩ => ?_⟩
    rw [hs₂.2] at hq
    cases hq

/-- After a run that has brought `t` to the `quit()` of the destructor. -/
theorem quits_destructor {t : Tid} {as : List Tid} {s s₀ : EventLoopThread φ}
    (_ : Run Step s₀ as s) (ht : t ≠ s.tid) (h : s.destructor = .quit t)
    (hidle : s.sys.callers t = .idle) :
    ∃ s₁ : EventLoopThread φ, s₁ = { s with
      sys := { s.sys with loop := s.sys.loop.setQuit }.setCaller t .notifying,
      destructor := .wakeup t } ∧ Quits s t s₁ ∧ Run Step s₁ [] s₁ :=
  ⟨_, rfl, ⟨.quit ht h (.other ht hidle), .other ht hidle⟩, .refl⟩

/-- The destructor, run by thread 1 while the worker polls. -/
theorem quit_in_loop_kept : ∃ as, ∃ s s₁ : EventLoopThread Unit,
    Run Step (started 0 false) as s ∧ Quits s 1 s₁ ∧ s.worker = .looping ∧
      ∀ bs s₂, Run Step s₁ bs s₂ → s₂.QuitKept := by
  have hrun := Run.refl
    |>.tail (Step.construct (s := (started 0 false : EventLoopThread Unit)) rfl)
    |>.tail (.publish rfl)
    |>.tail (.enter rfl)
    |>.tail (.loop rfl rfl (.again rfl rfl))
    |>.tail (.destruct (t := 1) (by decide) rfl rfl)
    |>.tail (.observe rfl)
  obtain ⟨_, rfl, hquit, -⟩ := quits_destructor (t := 1) hrun (by decide) rfl rfl
  exact ⟨_, _, _, hrun, hquit, rfl, (quit_kept_iff hquit).mpr rfl⟩

/-- The destructor, run by thread 1 between `loop_ = &loop` and `loop.loop()`, waits
for a worker that goes on polling. -/
theorem quit_before_loop_hangs : ∃ as bs, ∃ s s₁ s₂ : EventLoopThread Unit,
    Run Step (started 0 false) as s ∧ Quits s 1 s₁ ∧ Run Step s₁ bs s₂ ∧ s₂.Hangs := by
  have hrun := Run.refl
    |>.tail (Step.construct (s := (started 0 false : EventLoopThread Unit)) rfl)
    |>.tail (.publish rfl)
    |>.tail (.destruct (t := 1) (by decide) rfl rfl)
    |>.tail (.observe rfl)
  obtain ⟨_, rfl, hquit, hstart⟩ := quits_destructor (t := 1) hrun (by decide) rfl rfl
  have hhang := hstart
    |>.tail (.wakeup (t := 1) (by decide) rfl (.notify (by decide) rfl) rfl)
    |>.tail (.enter rfl)
    |>.tail (.loop rfl rfl (.again rfl rfl))
  exact ⟨_, _, _, _, _, hrun, hquit, hhang, ⟨1, rfl⟩, rfl, rfl⟩

end EventLoopThread
end Mymuduo
