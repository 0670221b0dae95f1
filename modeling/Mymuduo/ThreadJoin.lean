import Mymuduo.EventLoopThread

/-! # Destroying a thread

`~EventLoopThread` looks at `loop_`, calls `quit()` on the loop it finds there, and joins.  The
loop is on the stack of the worker, which leaves as soon as `loop()` has returned; the members
of the object are used by the worker until then.  So two things have to be right: the loop must
still be there when it is told to quit, and the worker must be gone when the destructor returns.

They are if `startLoop` has returned by the time the destructor is called, and nobody else
tells the loop to quit (`Disciplined`).
-/
namespace Mymuduo
open Transition

variable {φ : Type*}

namespace WorkerPc

/-- `loop_` points to the loop. -/
def published : WorkerPc → Bool
  | .enter | .looping | .unpublish => true
  | _ => false

end WorkerPc

namespace DestructorPc

/-- The destructor has not told the loop to quit. -/
def beforeQuit : DestructorPc → Bool
  | .notCalled | .observe _ | .quit _ => true
  | _ => false

end DestructorPc

/-- `loop()` is left only with `quit_` up. -/
theorem LoopSystem.Step.quit_of_leaves {s s' : LoopSystem φ} {t : Tid} (h : Step s t s')
    (hin : s.pc.isOutside = false) (hout : s'.pc.isOutside = true) : s.loop.quit_ = true := by
  cases h with
  | leave h hq => exact hq
  | queueHere | quitHere | submit | push | quit | notify | wakeup => cases hin.symm.trans hout
  | _ => cases hout

namespace EventLoopThread

/-- Only the destructor puts `quit_` up, and it is not called before `startLoop` has
returned. -/
structure Disciplined (s : EventLoopThread φ) (t : Tid) (s' : EventLoopThread φ) : Prop where
  step : Step s t s'
  quits : s.sys.loop.quit_ = false → s'.sys.loop.quit_ = true → s.destructor = .quit t
  called : s.destructor = .notCalled → s'.destructor ≠ .notCalled → s.worker.published = true

/-- What every such run keeps. -/
structure Joining (s : EventLoopThread φ) : Prop where
  loop_ : s.loop_ = s.worker.published
  /-- The destructor runs in a thread that is not the worker. -/
  thread : s.destructor.thread ≠ some s.tid
  started : s.destructor ≠ .notCalled → s.worker.published = true ∨ s.worker = .returned
  /-- Before the destructor says so, the loop has no reason to leave. -/
  running : s.destructor.beforeQuit = true →
    s.sys.loop.quit_ = false ∧ s.worker ≠ .unpublish ∧ s.worker ≠ .returned
  joined : s.destructor = .returned → s.worker = .returned

section Step
variable {s s' : EventLoopThread φ} {t : Tid}

theorem Step.tid (h : Step s t s') : s'.tid = s.tid := by
  cases h with
  | construct => rfl
  | enter => rfl
  | callback _ hstep | loop _ _ hstep | other _ _ _ hstep | wakeup _ _ hstep =>
    exact hstep.threadId
  | quit _ _ hquit => exact hquit.step.threadId
  | _ => rfl

theorem joining_started (tid : Tid) (callback_ : Bool) :
    (started tid callback_ : EventLoopThread φ).Joining := by
  refine ⟨rfl, by simp [started, DestructorPc.thread], fun h => absurd rfl h,
    fun _ => ⟨rfl, by simp [started], by simp [started]⟩, fun h => by cases h⟩

/-- Before `startLoop` has returned. -/
theorem joining_notCalled (hloop : s.loop_ = s.worker.published)
    (hdestructor : s.destructor = .notCalled) (hquit : s.sys.loop.quit_ = false)
    (hunpublish : s.worker ≠ .unpublish) (hreturned : s.worker ≠ .returned) : s.Joining := by
  refine ⟨hloop, ?_, fun h => absurd hdestructor h, fun _ => ⟨hquit, hunpublish, hreturned⟩, ?_⟩ <;>
    simp [hdestructor, DestructorPc.thread]

/-- A worker that has not published its loop is not told to quit. -/
theorem Joining.notCalled (hs : s.Joining) (hpublished : s.worker.published = false)
    (hreturned : s.worker ≠ .returned) : s.destructor = .notCalled := by
  by_contra hdestructor
  rcases hs.started hdestructor with h | h
  · cases hpublished.symm.trans h
  · exact hreturned h

/-- Whoever takes the step, unless it is the destructor at its call of `quit()`. -/
theorem Joining.quit_down (hs : s.Joining) (h : Disciplined s t s')
    (hbefore : s.destructor.beforeQuit = true) (hdestructor : s.destructor ≠ .quit t) :
    s'.sys.loop.quit_ = false := by
  by_contra hup
  exact hdestructor (h.quits (hs.running hbefore).1 (Bool.not_eq_false _ ▸ hup))

/-- The new loop is outside of `loop_`, whether the callback comes first or not. -/
theorem Joining.construct (hs : s.Joining) (h : s.worker = .construct) :
    ({ s with sys := LoopSystem.initial s.tid,
              worker := if s.callback_ then .callback else .publish } :
      EventLoopThread φ).Joining := by
  have hdestructor := hs.notCalled (by rw [h]; rfl) (by simp [h])
  have hloop := hs.loop_
  rw [h] at hloop
  cases s.callback_ with
  | false | true => exact joining_notCalled hloop hdestructor rfl (by simp) (by simp)

/-- The loop runs on, since nobody has told it to quit, or it leaves. -/
theorem Joining.loop (hs : s.Joining) {sys' : LoopSystem φ} (h : s.worker = .looping)
    (hin : s.sys.pc.isOutside = false) (hstep : LoopSystem.Step s.sys s.tid sys')
    (hdown : s.destructor.beforeQuit = true → sys'.loop.quit_ = false) :
    ({ s with sys := sys', worker := if sys'.pc.isOutside then .unpublish else .looping } :
      EventLoopThread φ).Joining := by
  have hloop := hs.loop_
  rw [h] at hloop
  have hthread : s.destructor.thread ≠ some sys'.loop.threadId_ := by
    rw [hstep.threadId]
    exact hs.thread
  cases hout : sys'.pc.isOutside with
  | false =>
    refine ⟨hloop, hthread, fun _ => Or.inl rfl,
      fun hbefore => ⟨hdown hbefore, by simp, by simp⟩, fun hd => ?_⟩
    cases h.symm.trans (hs.joined hd)
  | true =>
    have hquit := hstep.quit_of_leaves hin hout
    refine ⟨hloop, hthread, fun _ => Or.inl rfl, fun hbefore => ?_, fun hd => ?_⟩
    · cases hquit.symm.trans (hs.running hbefore).1
    · cases h.symm.trans (hs.joined hd)

/-- The destructor finds the loop. -/
theorem Joining.observe (hs : s.Joining) (h : s.destructor = .observe t) :
    ({ s with destructor := if s.loop_ then .quit t else .returned } :
      EventLoopThread φ).Joining := by
  have hbefore := hs.running (by rw [h]; rfl)
  have hpublished : s.worker.published = true :=
    (hs.started (by simp [h])).resolve_right hbefore.2.2
  have hnext : (if s.loop_ then DestructorPc.quit t else .returned) = .quit t :=
    if_pos (hs.loop_.trans hpublished)
  have hthread := hs.thread
  rw [h] at hthread
  rw [hnext]
  refine ⟨hs.loop_, hthread, fun _ => Or.inl hpublished, fun _ => hbefore, fun hd => ?_⟩
  cases hd

theorem Joining.step (hs : s.Joining) (hdisciplined : Disciplined s t s') : s'.Joining := by
  have htid := hdisciplined.step.tid
  have hdown := hs.quit_down hdisciplined
  obtain ⟨hloop, hthread, hstarted, hrunning, hjoined⟩ := id hs
  cases hdisciplined.step with
  | construct h => exact hs.construct h
  | callback h hstep hout =>
    have hdestructor := hs.notCalled (by rw [h]; rfl) (by simp [h])
    refine joining_notCalled hloop hdestructor (hdown ?_ ?_) (by simp [h]) (by simp [h]) <;>
      simp [hdestructor, DestructorPc.beforeQuit]
  | callbackReturn h | publish h =>
    have hdestructor := hs.notCalled (by rw [h]; rfl) (by simp [h])
    rw [h] at hloop
    refine joining_notCalled ?_ hdestructor (hrunning (by rw [hdestructor]; rfl)).1 ?_ ?_
    · first | exact hloop | rfl
    · simp
    · simp
  | enter h =>
    rw [h] at hloop
    refine ⟨hloop, hthread, fun _ => Or.inl rfl, fun _ => ⟨rfl, by simp, by simp⟩, fun hd => ?_⟩
    cases h.symm.trans (hjoined hd)
  | loop h hin hstep =>
    refine hs.loop h hin hstep fun hbefore => hdown hbefore fun hd => hthread ?_
    rw [hd]
    rfl
  | unpublish h =>
    refine ⟨rfl, hthread, fun _ => Or.inr rfl, fun hbefore => ?_, fun _ => rfl⟩
    exact absurd h (hrunning hbefore).2.1
  | other ht hlive hfree hstep =>
    refine ⟨hloop, htid ▸ hthread, hstarted, fun hbefore => ?_, hjoined⟩
    refine ⟨hdown hbefore fun hd => hfree ?_, (hrunning hbefore).2⟩
    rw [hd]
    rfl
  | destruct ht h hidle =>
    have hpublished := hdisciplined.called h (by simp)
    refine ⟨hloop, fun heq => ht (Option.some.inj heq), fun _ => Or.inl hpublished,
      fun _ => hrunning (by rw [h]; rfl), fun hd => ?_⟩
    cases hd
  | observe h => exact hs.observe h
  | quit ht h _ | wakeup ht h _ =>
    refine ⟨hloop, ?_, fun _ => hstarted (by simp [h]), fun hbefore => ?_, fun hd => ?_⟩
    · rw [htid]
      exact fun heq => ht (Option.some.inj heq)
    · cases hbefore
    · cases hd
  | join h hret =>
    refine ⟨hloop, by simp [DestructorPc.thread], fun _ => Or.inr hret, fun hbefore => ?_,
      fun _ => hret⟩
    cases hbefore

/-- The loop that is told to quit is there. -/
theorem Joining.told (hs : s.Joining) (hquit : s.destructor = .quit t) :
    s.worker = .enter ∨ s.worker = .looping := by
  obtain ⟨-, hunpublish, hreturned⟩ := hs.running (by rw [hquit]; rfl)
  have hpublished := (hs.started (by simp [hquit])).resolve_right hreturned
  cases hw : s.worker with
  | enter => exact Or.inl rfl
  | looping => exact Or.inr rfl
  | unpublish => exact absurd hw hunpublish
  | construct | callback | publish | returned =>
    rw [hw] at hpublished
    cases hpublished

end Step

/-- **The destructor leaves no thread behind**, in every run in which it is not called before
`startLoop` has returned and only it puts `quit_` up, under every interleaving of the worker,
the destructor and the other users of the loop: the loop it tells to quit is still there, in
`loop()` or on the way in, and when it has returned the worker is gone. -/
theorem destructor_joins {tid : Tid} {callback_ : Bool} {as : List Tid} {s : EventLoopThread φ}
    (h : Run Disciplined (started tid callback_) as s) :
    (∀ t, s.destructor = .quit t → s.worker = .enter ∨ s.worker = .looping) ∧
      (s.destructor = .returned → s.worker = .returned) := by
  have hs : s.Joining :=
    h.invariant (joining_started tid callback_) fun _ _ _ hs hstep => hs.step hstep
  exact ⟨fun t hquit => hs.told hquit, hs.joined⟩

/-- Thread 1 destroys an object whose worker is about to poll. -/
theorem destructor_joins_polling : ∃ as, ∃ s : EventLoopThread Unit,
    Run Disciplined (started 0 false) as s ∧ s.destructor = .returned ∧ s.worker = .returned := by
  have hrun := (Run.refl : Run Disciplined (started 0 false : EventLoopThread Unit) [] _)
    |>.tail ⟨.construct rfl, by decide, by decide⟩
    |>.tail ⟨.publish rfl, by decide, by decide⟩
    |>.tail ⟨.enter rfl, by decide, by decide⟩
    |>.tail ⟨.loop rfl rfl (.again rfl rfl), by decide, by decide⟩
    |>.tail ⟨.destruct (t := 1) (by decide) rfl rfl, by decide, by decide⟩
    |>.tail ⟨.observe rfl, by decide, by decide⟩
    |>.tail ⟨.quit (by decide) rfl (.other (by decide) rfl), by decide, by decide⟩
    |>.tail ⟨.wakeup (t := 1) (by decide) rfl (.notify (by decide) rfl) rfl, by decide, by decide⟩
    |>.tail ⟨.loop rfl rfl (.poll rfl [.wakeup] (by decide) (by decide)), by decide, by decide⟩
    |>.tail ⟨.loop rfl rfl (.handleRead rfl), by decide, by decide⟩
    |>.tail ⟨.loop rfl rfl (.beginPending rfl), by decide, by decide⟩
    |>.tail ⟨.loop rfl rfl (.swap rfl), by decide, by decide⟩
    |>.tail ⟨.loop rfl rfl (.endPending rfl), by decide, by decide⟩
    |>.tail ⟨.loop rfl rfl (.leave rfl rfl), by decide, by decide⟩
    |>.tail ⟨.unpublish rfl, by decide, by decide⟩
    |>.tail ⟨.join rfl rfl, by decide, by decide⟩
  exact ⟨_, _, hrun, rfl, (destructor_joins hrun).2 rfl⟩

end EventLoopThread
end Mymuduo
