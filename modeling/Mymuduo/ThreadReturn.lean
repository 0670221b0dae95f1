import Mymuduo.ThreadDrain

/-! # When the destructor of a thread returns

With `quit_` up, the loop's thread always has a step that brings it nearer to the end of `loop()`
(`LoopSystem.exists_step_nearer`): what is left of the channels and of the batch gets shorter,
one batch is still to come at most, and behind it there is no poll.  So a destructor that has
called `quit()` on a loop that was running has a way back from wherever the threads have got to,
and one that has called it too early has none.

The way out of `loop()` is open as soon as `quit()` has stored its flag, and behind it the loop
is destroyed; the `wakeup()` in the second half of `quit()` may come after that.
-/
namespace Mymuduo
open Transition

variable {φ : Type*}

namespace LoopSystem
variable {s s' : LoopSystem φ} {t u : Tid}

/-- A thread moves no other caller. -/
theorem Step.callers_of_ne (h : Step s t s') (hu : u ≠ t) : s'.callers u = s.callers u := by
  cases h with
  | submit | push | quit | notify => exact Function.update_of_ne hu ..
  | _ => rfl

/-- A bound on the steps that the loop's thread has left in `loop()` with `quit_` up, if user
code returns at once and a poll reports no channel but `wakeupChannel_`. -/
def stepsLeft (s : LoopSystem φ) : Nat :=
  match s.pc with
  | .outside => 0
  | .test => 1
  | .poll => 2 * s.loop.pendingFunctors_.length + 7
  | .dispatch active => 2 * active.length + 2 * s.loop.pendingFunctors_.length + 4
  | .callback active => 2 * active.length + 2 * s.loop.pendingFunctors_.length + 5
  | .swap => 2 * s.loop.pendingFunctors_.length + 3
  | .batch rest => 2 * rest.length + 2
  | .task rest => 2 * rest.length + 3

/-- A poll that reports `wakeupChannel_` if it has to, and nothing else. -/
theorem exists_poll (hpc : s.pc = .poll) :
    ∃ s', Step s s.loop.threadId_ s' ∧ s'.stepsLeft < s.stepsLeft := by
  cases hreadable : s.loop.wakeupReadable with
  | false =>
    refine ⟨_, .poll hpc [] List.nodup_nil (by simp [hreadable]), ?_⟩
    simp only [stepsLeft, log, hpc, List.length_nil]
    omega
  | true =>
    refine ⟨_, .poll hpc [.wakeup] (by simp) (by simp [hreadable]), ?_⟩
    simp only [stepsLeft, log, hpc, List.length_singleton]
    omega

/-- **Inside `loop()`, with `quit_` up**, there is a step on the way out. -/
theorem exists_step_nearer (hin : s.pc.isOutside = false) (hq : s.loop.quit_ = true) :
    ∃ s', Step s s.loop.threadId_ s' ∧ s'.stepsLeft < s.stepsLeft := by
  cases hpc : s.pc with
  | outside =>
    rw [hpc] at hin
    cases hin
  | test => exact ⟨_, .leave hpc hq, by simp [stepsLeft, hpc]⟩
  | poll => exact exists_poll hpc
  | dispatch active =>
    cases active with
    | nil => exact ⟨_, .beginPending hpc, by simp [stepsLeft, hpc, EventLoop.setCalling]⟩
    | cons c rest =>
      cases c with
      | wakeup => exact ⟨_, .handleRead hpc, by simp [stepsLeft, log, hpc, EventLoop.handleRead]⟩
      | other fd =>
        refine ⟨_, .callback hpc, ?_⟩
        simp only [stepsLeft, hpc, List.length_cons]
        omega
  | callback active => exact ⟨_, .callbackReturn hpc, by simp [stepsLeft, hpc]⟩
  | swap => exact ⟨_, .swap hpc, by simp [stepsLeft, hpc, EventLoop.swapPending]⟩
  | batch rest =>
    cases rest with
    | nil => exact ⟨_, .endPending hpc, by simp [stepsLeft, hpc]⟩
    | cons q rest =>
      refine ⟨_, .start hpc, ?_⟩
      simp only [stepsLeft, log, hpc, List.length_cons]
      omega
  | task rest => exact ⟨_, .taskReturn hpc, by simp [stepsLeft, hpc]⟩

end LoopSystem

namespace EventLoopThread

/-- The destructor has called `quit()` on a loop that was running. -/
structure Ending (s₀ : LoopSystem φ) (s : EventLoopThread φ) : Prop where
  onLoop : OnLoop s₀ s
  winding : s.Winding (fun l => l.loop.quit_ = true) fun _ => True
  called : s.destructor.beforeQuit = false
  /-- In `quit()`, the destructor is at its `wakeup()` like any other caller. -/
  wakeup : ∀ u, s.destructor = .wakeup u → u ≠ s.tid ∧ s.sys.callers u = .notifying

section Step
variable {s s' : EventLoopThread φ} {s₀ : LoopSystem φ} {t : Tid}

theorem Ending.step (h : Ending s₀ s) (hdisciplined : Disciplined s t s') : Ending s₀ s' := by
  have honLoop := h.onLoop.step hdisciplined
  have htid := hdisciplined.step.tid
  have hwinding := h.winding.step h.onLoop (fun hq hstep hin => hstep.quit_kept hin hq)
    (fun _ _ => trivial) hdisciplined.step
  obtain ⟨-, -, hcalled, hwakeup⟩ := id h
  -- whoever else uses the loop
  have hcallers : ∀ {sys' : LoopSystem φ}, LoopSystem.Step s.sys t sys' →
      s.destructor.thread ≠ some t → ∀ u, s.destructor = .wakeup u →
        u ≠ s.tid ∧ sys'.callers u = .notifying := by
    intro sys' hstep hfree u hu
    have hne : u ≠ t := fun heq => hfree (by rw [hu, heq]; rfl)
    exact ⟨(hwakeup u hu).1, (hstep.callers_of_ne hne).trans (hwakeup u hu).2⟩
  refine ⟨honLoop, hwinding, ?_, ?_⟩
  · cases hdisciplined.step with
    | destruct ht hd | observe hd | quit ht hd => rw [hd] at hcalled; cases hcalled
    | wakeup | join => rfl
    | _ => exact hcalled
  · rw [htid]
    cases hdisciplined.step with
    | construct hw =>
      have hd := h.onLoop.joining.notCalled (by rw [hw]; rfl) (by simp [hw])
      rw [hd] at hcalled
      cases hcalled
    | callback hw hstep | loop hw hin hstep => exact hcallers hstep h.onLoop.joining.thread
    | other ht hlive hfree hstep => exact hcallers hstep hfree
    | destruct ht hd | observe hd | quit ht hd => rw [hd] at hcalled; cases hcalled
    | wakeup | join => exact fun u hu => by cases hu
    | callbackReturn | publish | enter | unpublish => exact hwakeup

/-- A step of the worker, or of the destructor behind its `quit()`. -/
theorem Ending.disciplined (h : Ending s₀ s) (hstep : Step s t s')
    (hquit : s'.sys.loop.quit_ = s.sys.loop.quit_ ∨ s.sys.loop.quit_ = true) :
    Disciplined s t s' where
  step := hstep
  quits := fun hdown hup => by
    rcases hquit with hsame | hq
    · cases hup.symm.trans (hsame.trans hdown)
    · cases hq.symm.trans hdown
  called := fun hd => by
    have hcalled := h.called
    rw [hd] at hcalled
    cases hcalled

/-- The destructor gets to its join. -/
theorem Ending.join (h : Ending s₀ s) (hd : s.destructor = .wakeup t) :
    ∃ s', Run Disciplined s [t] s' ∧ Ending s₀ s' ∧ s'.destructor = .join t := by
  obtain ⟨ht, hnotifying⟩ := h.wakeup t hd
  have hstep := Step.wakeup ht hd (.notify ht hnotifying) (Function.update_self ..)
  have hdisciplined := h.disciplined hstep (Or.inl rfl)
  exact ⟨_, Run.refl.tail hdisciplined, h.step hdisciplined, rfl⟩

/-- A bound on the steps that the worker has left. -/
def stepsLeft (s : EventLoopThread φ) : Nat :=
  match s.worker with
  | .looping => s.sys.stepsLeft + 1
  | .unpublish => 1
  | _ => 0

/-- Until it is gone, the worker can go on, whatever the destructor does. -/
theorem Ending.nearer (h : Ending s₀ s) :
    s.worker = .returned ∨ ∃ as s', Run Disciplined s as s' ∧
      (Ending s₀ s' ∧ s'.destructor = s.destructor) ∧ s'.stepsLeft < s.stepsLeft := by
  rcases h.winding with ⟨hw, hq⟩ | ⟨hw | hw, -⟩
  · right
    have hin := h.onLoop.inside.mpr hw
    obtain ⟨sys', hstep, hlt⟩ := LoopSystem.exists_step_nearer hin hq
    have hdisciplined := h.disciplined (.loop hw hin hstep) (Or.inr hq)
    refine ⟨_, _, Run.refl.tail hdisciplined, ⟨h.step hdisciplined, rfl⟩, ?_⟩
    cases hout : sys'.pc.isOutside with
    | false => simpa [stepsLeft, hw] using hlt
    | true => simpa [stepsLeft, hw] using Nat.zero_lt_of_lt hlt
  · have hdisciplined := h.disciplined (.unpublish hw) (Or.inl rfl)
    exact Or.inr ⟨_, _, Run.refl.tail hdisciplined, ⟨h.step hdisciplined, rfl⟩,
      by simp [stepsLeft, hw]⟩
  · exact Or.inl hw

/-- The worker can go to its end, with the destructor where it is. -/
theorem Ending.gone (h : Ending s₀ s) :
    ∃ as s', Run Disciplined s as s' ∧ (Ending s₀ s' ∧ s'.destructor = s.destructor) ∧
      s'.worker = .returned := by
  refine exists_run_of_measure (fun u => Ending s₀ u ∧ u.destructor = s.destructor)
    (·.worker = .returned) stepsLeft (fun u hu => ?_) ⟨h, rfl⟩
  exact hu.2 ▸ hu.1.nearer

/-- From its join, the destructor can return. -/
theorem Ending.joined (h : Ending s₀ s) (hd : s.destructor = .join t) :
    ∃ as s', Run Disciplined s as s' ∧ s'.destructor = .returned := by
  obtain ⟨as, s', hrun, ⟨hending, hsame⟩, hret⟩ := h.gone
  have hdisciplined := hending.disciplined (.join (hsame.trans hd) hret) (Or.inl rfl)
  exact ⟨_, _, hrun.tail hdisciplined, rfl⟩

/-- **There is a way back**, wherever the destructor is behind its `quit()`. -/
theorem Ending.returns (h : Ending s₀ s) :
    ∃ as s', Run Disciplined s as s' ∧ s'.destructor = .returned := by
  cases hd : s.destructor with
  | notCalled | observe u | quit u =>
    have hcalled := h.called
    rw [hd] at hcalled
    cases hcalled
  | wakeup u =>
    obtain ⟨s', hrun, hending, hjoin⟩ := h.join hd
    obtain ⟨as, s'', hrun', hret⟩ := hending.joined hjoin
    exact ⟨_, s'', hrun.trans hrun', hret⟩
  | join u => exact h.joined hd
  | returned => exact ⟨[], s, .refl, hd⟩

/-- The call of `quit()` that finds the loop running. -/
theorem OnLoop.ending {sys₁ : LoopSystem φ} (h : OnLoop s₀ s) (hd : s.destructor = .quit t)
    (hw : s.worker = .looping) (hquits : LoopSystem.Quits s.sys t sys₁)
    (h₁ : OnLoop s₀ { s with sys := sys₁, destructor := .wakeup t }) :
    Ending s₀ { s with sys := sys₁, destructor := .wakeup t } := by
  have ht : t ≠ s.tid := fun heq => h.joining.thread (by rw [hd, heq]; rfl)
  refine ⟨h₁, Or.inl ⟨hw, hquits.same.1⟩, rfl, fun u hu => ?_⟩
  obtain rfl : t = u := by simpa using hu
  cases hquits with
  | here => exact absurd rfl ht
  | other => exact ⟨ht, Function.update_self ..⟩

end Step

section Quit
variable {tid t : Tid} {callback_ : Bool} {as bs : List Tid} {s s₁ s' : EventLoopThread φ}

/-- Behind its `quit()`, which was in time or is lost. -/
theorem ending_or_lost (h : Run Disciplined (started tid callback_) as s)
    (hquit : s.destructor = .quit t) (hstep : Disciplined s t s₁)
    (hnext : s₁.destructor = .wakeup t) (hrun : Run Disciplined s₁ bs s') :
    s.worker = .looping ∧ Ending (.initial tid) s' ∨ s.worker ≠ .looping ∧ s'.Lost := by
  have hon := (onLoop_started tid callback_).run_disciplined h
  have hon₁ := hon.step hstep
  obtain ⟨sys₁, hquits, rfl⟩ := quits_of_step hstep.step hquit hnext
  rcases hon.joining.told hquit with hw | hw
  · exact Or.inr ⟨by simp [hw], lost_run hw hrun⟩
  · have hending := hon.ending hquit hw hquits hon₁
    exact Or.inl ⟨hw, hrun.invariant hending fun _ _ _ hs hstep => hs.step hstep⟩

/-- **When the destructor returns.**  In every run in which it is not called before `startLoop`
has returned and nobody else tells the loop to quit, and wherever the threads have got to since
it called `quit()`: it can still return exactly when the worker was in `loop()` at that call. -/
theorem destructor_returns_iff (h : Run Disciplined (started tid callback_) as s)
    (hquit : s.destructor = .quit t) (hstep : Disciplined s t s₁)
    (hnext : s₁.destructor = .wakeup t) (hrun : Run Disciplined s₁ bs s') :
    (∃ cs s'', Run Disciplined s' cs s'' ∧ s''.destructor = .returned) ↔
      s.worker = .looping := by
  rcases ending_or_lost h hquit hstep hnext hrun with ⟨hw, hending⟩ | ⟨hw, hlost⟩
  · exact iff_of_true hending.returns hw
  · refine iff_of_false ?_ hw
    rintro ⟨cs, s'', hrest, hret⟩
    exact (hrest.invariant hlost fun _ _ _ hu hstep => hu.step hstep).not_returned hret

/-- Thread 1 destroys an object whose worker has published its loop, but has not entered it. -/
theorem destructor_never_returns : ∃ as, ∃ s s₁ : EventLoopThread Unit,
    Run Disciplined (started 0 false) as s ∧ Disciplined s 1 s₁ ∧
      ∀ bs s', Run Disciplined s₁ bs s' → s'.destructor ≠ .returned := by
  have hrun := (Run.refl : Run Disciplined (started 0 false : EventLoopThread Unit) [] _)
    |>.tail ⟨.construct rfl, by decide, by decide⟩
    |>.tail ⟨.publish rfl, by decide, by decide⟩
    |>.tail ⟨.destruct (t := 1) (by decide) rfl rfl, by decide, by decide⟩
    |>.tail ⟨.observe rfl, by decide, by decide⟩
  obtain ⟨_, rfl, hquit, hstart⟩ := disciplined_quit (t := 1) hrun (by decide) rfl rfl
  refine ⟨_, _, _, hrun, hquit, fun bs s' hrest hret => ?_⟩
  have hlooping := (destructor_returns_iff hrun rfl hquit rfl hstart).mp ⟨bs, s', hrest, hret⟩
  cases hlooping

/-- **When `wakeup()` may find no loop.**  In every such run, wherever the threads have got to
while the destructor is between the two halves of `quit()`: the worker can still destroy the
loop before the destructor writes to its eventfd, exactly when it was in `loop()` at the call. -/
theorem wakeup_without_loop_iff (h : Run Disciplined (started tid callback_) as s)
    (hquit : s.destructor = .quit t) (hstep : Disciplined s t s₁)
    (hnext : s₁.destructor = .wakeup t) (hrun : Run Disciplined s₁ bs s')
    (hwakeup : s'.destructor = .wakeup t) :
    (∃ cs s'', Run Disciplined s' cs s'' ∧ s''.destructor = .wakeup t ∧
        s''.worker.live = false) ↔ s.worker = .looping := by
  rcases ending_or_lost h hquit hstep hnext hrun with ⟨hw, hending⟩ | ⟨hw, hlost⟩
  · obtain ⟨cs, s'', hrest, ⟨-, hsame⟩, hret⟩ := hending.gone
    exact iff_of_true ⟨cs, s'', hrest, hsame.trans hwakeup, by rw [hret]; rfl⟩ hw
  · refine iff_of_false ?_ hw
    rintro ⟨cs, s'', hrest, -, hdead⟩
    have hlost' := hrest.invariant hlost fun _ _ _ hu hstep => hu.step hstep
    rcases hlost'.worker with hw' | ⟨hw', -⟩ <;> rw [hw'] at hdead <;> cases hdead

/-- Thread 1 has stored to `quit_` while the worker polls. -/
theorem wakeup_without_loop : ∃ as bs, ∃ s s₁ s' : EventLoopThread Unit,
    Run Disciplined (started 0 false) as s ∧ Disciplined s 1 s₁ ∧ Run Disciplined s₁ bs s' ∧
      s'.destructor = .wakeup 1 ∧ s'.worker.live = false := by
  have hrun := (Run.refl : Run Disciplined (started 0 false : EventLoopThread Unit) [] _)
    |>.tail ⟨.construct rfl, by decide, by decide⟩
    |>.tail ⟨.publish rfl, by decide, by decide⟩
    |>.tail ⟨.enter rfl, by decide, by decide⟩
    |>.tail ⟨.loop rfl rfl (.again rfl rfl), by decide, by decide⟩
    |>.tail ⟨.destruct (t := 1) (by decide) rfl rfl, by decide, by decide⟩
    |>.tail ⟨.observe rfl, by decide, by decide⟩
  obtain ⟨_, rfl, hquit, hstart⟩ := disciplined_quit (t := 1) hrun (by decide) rfl rfl
  obtain ⟨bs, s', hrest, hwakeup, hdead⟩ :=
    (wakeup_without_loop_iff hrun rfl hquit rfl hstart rfl).mpr rfl
  exact ⟨_, bs, _, _, s', hrun, hquit, hrest, hwakeup, hdead⟩

end Quit
end EventLoopThread
end Mymuduo
