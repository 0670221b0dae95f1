import Mymuduo.TaskLatency
import Mymuduo.ThreadJoin

/-! # What a destroyed thread leaves in the queue

When a server is destroyed, `~TcpServer` queues a `connectDestroyed` on the loop of every
connection, and the threads go next: each loop is told to quit and its worker joined.  Whether
the functors queued by then still run is decided by where the loop stands when `quit()` stores
its flag, as for any other caller; but behind the join nobody is left to run them later.

The loop of an `EventLoopThread` goes through a run of a `LoopSystem` (`OnLoop`), so that what
is known of the loop by itself holds of the loop in its thread.
-/
namespace Mymuduo
open Transition

variable {φ : Type*}

/-- Another thread does not move the loop. -/
theorem LoopSystem.Step.pc_of_ne {s s' : LoopSystem φ} {t : Tid} (h : Step s t s')
    (ht : t ≠ s.loop.threadId_) : s'.pc = s.pc := by
  cases h with
  | submit | push | quit | notify | wakeup => rfl
  | _ => exact absurd rfl ht

/-- Nothing is taken outside of `loop()`. -/
theorem LoopSystem.Step.taken_of_outside {s s' : LoopSystem φ} {t : Tid} (h : Step s t s')
    (hout : s.pc.isOutside = true) : s'.taken = s.taken := by
  rcases h.taken_cases with ⟨htaken, -⟩ | ⟨hpc, -⟩
  · exact htaken
  · rw [hpc] at hout
    cases hout

/-- A call of `quit` stores its flag and moves nothing. -/
theorem LoopSystem.Quits.same {s s' : LoopSystem φ} {t : Tid} (h : Quits s t s') :
    s'.loop.quit_ = true ∧ s'.pc = s.pc ∧ s'.ledger = s.ledger ∧ s'.pushed = s.pushed ∧
      s'.taken = s.taken := by
  cases h with
  | here | other => exact ⟨rfl, rfl, rfl, rfl, rfl⟩

/-- Every functor has been taken or is waiting. -/
theorem LoopSystem.length_pushed {s : LoopSystem φ} (h : s.ledger.all = s.pushed) :
    s.pushed.length = s.taken + s.loop.pendingFunctors_.length := by
  rw [← h]
  simp [Fifo.all, LoopSystem.ledger, taken, Nat.add_assoc]

theorem LoopSystem.pushed_prefix_run {s s' : LoopSystem φ} {as : List Tid}
    (h : Run Step s as s') : s.pushed <+: s'.pushed := by
  induction h with
  | refl => exact List.prefix_refl _
  | tail _ hstep ih => exact ih.trans hstep.pushed_prefix

theorem LoopPc.swapAhead_of_outside {pc : LoopPc φ} (h : pc.isOutside = true) :
    pc.swapAhead = false := by
  cases pc with
  | outside => rfl
  | _ => cases h

namespace EventLoopThread

/-- The loop has gone from `s₀` to where it is, and stands in `loop()` when the worker does. -/
structure OnLoop (s₀ : LoopSystem φ) (s : EventLoopThread φ) : Prop where
  run : ∃ bs, Run LoopSystem.Step s₀ bs s.sys
  inside : s.sys.pc.isOutside = false ↔ s.worker = .looping
  fresh : s.worker = .construct → s.sys = LoopSystem.initial s.tid
  joining : s.Joining

section Step
variable {s s' : EventLoopThread φ} {s₀ : LoopSystem φ} {t : Tid}

theorem OnLoop.outside (h : OnLoop s₀ s) (hw : s.worker ≠ .looping) :
    s.sys.pc.isOutside = true := by
  rw [← Bool.not_eq_false]
  exact fun hin => hw (h.inside.mp hin)

theorem OnLoop.tail (h : OnLoop s₀ s) {sys' : LoopSystem φ}
    (hstep : LoopSystem.Step s.sys t sys') : ∃ bs, Run LoopSystem.Step s₀ bs sys' := by
  obtain ⟨bs, hrun⟩ := h.run
  exact ⟨_, hrun.tail hstep⟩

/-- Another thread takes a step at a loop that exists. -/
theorem OnLoop.other (h : OnLoop s₀ s) {sys' : LoopSystem φ} (pc : DestructorPc)
    (ht : t ≠ s.tid) (hw : s.worker ≠ .construct) (hstep : LoopSystem.Step s.sys t sys')
    (hs : Joining { s with sys := sys', destructor := pc }) :
    OnLoop s₀ { s with sys := sys', destructor := pc } where
  run := h.tail hstep
  inside := by
    rw [hstep.pc_of_ne ht]
    exact h.inside
  fresh := fun hc => absurd hc hw
  joining := hs

/-- **The loop of a thread** goes through a run of its own. -/
theorem OnLoop.step (h : OnLoop s₀ s) (hdisciplined : Disciplined s t s') : OnLoop s₀ s' := by
  have hs := h.joining.step hdisciplined
  -- the destructor has a loop to use
  have hconstructed : s.destructor ≠ .notCalled → s.worker ≠ .construct := by
    intro hcalled hw
    rcases h.joining.started hcalled with hp | hp <;> rw [hw] at hp <;> cases hp
  cases hdisciplined.step with
  | construct hw =>
    refine ⟨h.fresh hw ▸ h.run, ?_, fun hc => ?_, hs⟩
    · cases s.callback_ <;> simp [LoopSystem.initial, LoopPc.isOutside]
    · revert hc
      cases s.callback_ <;> simp
  | callback hw hstep hout =>
    refine ⟨h.tail hstep, ?_, fun hc => ?_, hs⟩
    · simp [hout, hw]
    · cases hw.symm.trans hc
  | callbackReturn hw | publish hw | unpublish hw =>
    exact ⟨h.run, by simp [h.outside (by simp [hw])], by simp, hs⟩
  | enter hw =>
    have hout := h.outside (by simp [hw])
    have hpc : s.sys.pc = .outside := by
      cases hp : s.sys.pc <;> simp_all [LoopPc.isOutside]
    exact ⟨h.tail (.enter hpc), by simp [LoopPc.isOutside], by simp, hs⟩
  | @loop sys' hw hin hstep =>
    refine ⟨h.tail hstep, ?_, fun hc => ?_, hs⟩
    · cases hout : sys'.pc.isOutside <;> simp
    · revert hc
      cases sys'.pc.isOutside <;> simp
  | other ht hlive hfree hstep =>
    exact h.other _ ht (fun hw => by simp [hw, WorkerPc.live] at hlive) hstep hs
  | destruct | observe | join => exact ⟨h.run, h.inside, h.fresh, hs⟩
  | quit ht hd hquit => exact h.other _ ht (hconstructed (by simp [hd])) hquit.step hs
  | wakeup ht hd hstep => exact h.other _ ht (hconstructed (by simp [hd])) hstep hs

theorem onLoop_started (tid : Tid) (callback_ : Bool) :
    OnLoop (LoopSystem.initial tid) (started tid callback_ : EventLoopThread φ) where
  run := ⟨[], .refl⟩
  inside := by simp [started, LoopSystem.initial, LoopPc.isOutside]
  fresh := fun _ => rfl
  joining := joining_started tid callback_

/-- Told to quit too early: the worker will be in `loop()` for good. -/
structure Lost (s : EventLoopThread φ) : Prop where
  waits : ∃ t, s.destructor = .wakeup t ∨ s.destructor = .join t
  worker : s.worker = .enter ∨ s.worker = .looping ∧ s.sys.loop.quit_ = false

/-- Nobody puts `quit_` up again. -/
theorem Lost.quit_down (h : s.Lost) (hdisciplined : Disciplined s t s')
    (hq : s.sys.loop.quit_ = false) : s'.sys.loop.quit_ = false := by
  obtain ⟨u, hu⟩ := h.waits
  by_contra hup
  have hquit := hdisciplined.quits hq (Bool.not_eq_false _ ▸ hup)
  rcases hu with hu | hu <;> cases hu.symm.trans hquit

theorem Lost.step (h : s.Lost) (hdisciplined : Disciplined s t s') : s'.Lost := by
  have hdown := h.quit_down hdisciplined
  obtain ⟨hwaits, hworker⟩ := h
  cases hdisciplined.step with
  | construct hw | callback hw | callbackReturn hw | publish hw | unpublish hw =>
    rcases hworker with hw' | ⟨hw', -⟩ <;> cases hw.symm.trans hw'
  | enter hw => exact ⟨hwaits, Or.inr ⟨rfl, rfl⟩⟩
  | loop hw hin hstep =>
    rcases hworker with hw' | ⟨-, hq⟩
    · cases hw.symm.trans hw'
    · -- it is left with `quit_` up only
      refine ⟨hwaits, Or.inr ⟨if_neg fun hout => ?_, hdown hq⟩⟩
      cases hq.symm.trans (hstep.quit_of_leaves hin hout)
  | other ht hlive hfree hstep => exact ⟨hwaits, hworker.imp_right fun hw => ⟨hw.1, hdown hw.2⟩⟩
  | destruct ht hd | observe hd | quit ht hd =>
    obtain ⟨u, hu | hu⟩ := hwaits <;> cases hd.symm.trans hu
  | wakeup ht hd hstep =>
    exact ⟨⟨_, Or.inr rfl⟩, hworker.imp_right fun hw => ⟨hw.1, hdown hw.2⟩⟩
  | join hd hret =>
    rcases hworker with hw | ⟨hw, -⟩ <;> cases hw.symm.trans hret

/-- While the worker is in `loop()`, `P` holds of the loop; afterwards `Q` of the number of
functors that were taken from the queue. -/
def Winding (P : LoopSystem φ → Prop) (Q : Nat → Prop) (s : EventLoopThread φ) : Prop :=
  (s.worker = .looping ∧ P s.sys) ∨
    ((s.worker = .unpublish ∨ s.worker = .returned) ∧ Q s.sys.taken)

variable {P : LoopSystem φ → Prop} {Q : Nat → Prop}

theorem Winding.step (h : s.Winding P Q) (hon : OnLoop s₀ s)
    (hP : ∀ {l l' : LoopSystem φ} {t}, P l → LoopSystem.Step l t l' → l.pc.isOutside = false → P l')
    (hQ : ∀ {l : LoopSystem φ}, P l → l.pc.isOutside = true → Q l.taken) (hstep : Step s t s') :
    s'.Winding P Q := by
  -- whoever uses the loop
  have huse : ∀ {t} {sys' : LoopSystem φ}, LoopSystem.Step s.sys t sys' →
      (s.worker = .looping ∧ P sys') ∨
        ((s.worker = .unpublish ∨ s.worker = .returned) ∧ Q sys'.taken) := by
    intro t sys' hstep
    rcases h with ⟨hw, hp⟩ | ⟨hw, hq⟩
    · exact Or.inl ⟨hw, hP hp hstep (hon.inside.mpr hw)⟩
    · have hout := hon.outside (by rcases hw with hw | hw <;> simp [hw])
      exact Or.inr ⟨hw, (hstep.taken_of_outside hout).symm ▸ hq⟩
  cases hstep with
  | construct hw | callback hw | callbackReturn hw | publish hw | enter hw =>
    rcases h with ⟨hw', -⟩ | ⟨hw' | hw', -⟩ <;> cases hw.symm.trans hw'
  | @loop sys' hw hin hstep =>
    rcases huse hstep with ⟨-, hp⟩ | ⟨hw' | hw', -⟩
    · cases hout : sys'.pc.isOutside with
      | false => exact Or.inl ⟨by simp, hp⟩
      | true => exact Or.inr ⟨by simp, hQ hp hout⟩
    · cases hw.symm.trans hw'
    · cases hw.symm.trans hw'
  | unpublish hw =>
    rcases h with ⟨hw', -⟩ | ⟨-, hq⟩
    · cases hw.symm.trans hw'
    · exact Or.inr ⟨Or.inr rfl, hq⟩
  | other ht hlive hfree hstep => exact huse hstep
  | destruct | observe | join => exact h
  | quit ht hd hquit => exact huse hquit.step
  | wakeup ht hd hstep => exact huse hstep

/-- The destructor stores to `quit_`. -/
theorem quits_of_step (hstep : Step s t s') (hquit : s.destructor = .quit t)
    (hnext : s'.destructor = .wakeup t) :
    ∃ sys', LoopSystem.Quits s.sys t sys' ∧
      s' = { s with sys := sys', destructor := .wakeup t } := by
  cases hstep with
  | quit ht hd hquits => exact ⟨_, hquits, rfl⟩
  | wakeup ht hd | observe hd | join hd | destruct ht hd => cases hd.symm.trans hquit
  | construct | callback | callbackReturn | publish | enter | loop | unpublish | other =>
    cases hquit.symm.trans hnext

end Step

section Run
variable {s s' : EventLoopThread φ} {s₀ : LoopSystem φ} {bs : List Tid}

theorem OnLoop.restart (h : OnLoop s₀ s) : OnLoop s.sys s :=
  ⟨⟨[], .refl⟩, h.inside, h.fresh, h.joining⟩

theorem OnLoop.run_disciplined (h : OnLoop s₀ s) (hrun : Run Disciplined s bs s') : OnLoop s₀ s' :=
  hrun.invariant h fun _ _ _ hu hstep => hu.step hstep

theorem Winding.run {P : LoopSystem φ → Prop} {Q : Nat → Prop} (h : s.Winding P Q)
    (hon : OnLoop s₀ s)
    (hP : ∀ {l l' : LoopSystem φ} {t}, P l → LoopSystem.Step l t l' → l.pc.isOutside = false → P l')
    (hQ : ∀ {l : LoopSystem φ}, P l → l.pc.isOutside = true → Q l.taken)
    (hrun : Run Disciplined s bs s') : s'.Winding P Q := by
  induction hrun with
  | refl => exact h
  | tail hrun hstep ih => exact ih.step (hon.run_disciplined hrun) hP hQ hstep.step

/-- A `quit()` that has come too early. -/
theorem lost_run {t : Tid} {sys₁ : LoopSystem φ} (hw : s.worker = .enter)
    (hrun : Run Disciplined { s with sys := sys₁, destructor := .wakeup t } bs s') : s'.Lost := by
  have hstart : Lost { s with sys := sys₁, destructor := .wakeup t } :=
    ⟨⟨t, Or.inl rfl⟩, Or.inl hw⟩
  exact hrun.invariant hstart fun _ _ _ hu hstep => hu.step hstep

theorem Lost.not_returned (h : s.Lost) : s.destructor ≠ .returned := by
  obtain ⟨u, hu | hu⟩ := h.waits <;> simp [hu]

/-- When the worker is gone, everything that was taken has been executed. -/
theorem Winding.executed {P : LoopSystem φ → Prop} {Q : Nat → Prop} (h : s.Winding P Q)
    (hon : OnLoop s₀ s) (hret : s.worker = .returned) : Q s.sys.executed.length := by
  rcases h with ⟨hw, -⟩ | ⟨-, hq⟩
  · cases hw.symm.trans hret
  · rwa [LoopSystem.executed_of_outside (hon.outside (by simp [hret]))]

/-- All that has been pushed when the destructor calls `quit()` is executed in the end, exactly
when it was taken or the swap was still to come. -/
theorem drains_iff {tid t : Tid} {sys₁ : LoopSystem φ} (hon : OnLoop (.initial tid) s)
    (hw : s.worker = .looping) (hquits : LoopSystem.Quits s.sys t sys₁)
    (hon₁ : OnLoop (.initial tid) { s with sys := sys₁, destructor := .wakeup t })
    (hrun : Run Disciplined { s with sys := sys₁, destructor := .wakeup t } bs s')
    (hret : s'.worker = .returned) :
    s.sys.pushed.length ≤ s'.sys.executed.length ↔
      s.sys.pc.swapAhead = true ∨ s.sys.loop.pendingFunctors_ = [] := by
  obtain ⟨cs, hloop⟩ := hon.run
  obtain ⟨hq, hpc, hledger, hpushed, htaken⟩ := hquits.same
  have hall := LoopSystem.ledger_all hloop
  have hon' := hon₁.run_disciplined hrun
  cases hahead : s.sys.pc.swapAhead with
  | true =>
    have hdraining : LoopSystem.Draining s.sys.pushed.length sys₁ := by
      refine ⟨hq, by rw [hledger, hpushed, hall], Nat.le_of_eq (by rw [hpushed]), fun hp => ?_⟩
      rw [hpc, hahead] at hp
      cases hp
    have hstart : Winding (LoopSystem.Draining s.sys.pushed.length) (s.sys.pushed.length ≤ ·)
        { s with sys := sys₁, destructor := .wakeup t } := Or.inl ⟨hw, hdraining⟩
    have hend := hstart.run hon₁ LoopSystem.draining_step
      (fun hl hout => hl.taken (LoopPc.swapAhead_of_outside hout)) hrun
    exact iff_of_true (hend.executed hon' hret) (Or.inl rfl)
  | false =>
    have hleaving : LoopSystem.Leaving s.sys.taken sys₁ := ⟨hq, hpc ▸ hahead, htaken⟩
    have hstart : Winding (LoopSystem.Leaving s.sys.taken) (· = s.sys.taken)
        { s with sys := sys₁, destructor := .wakeup t } := Or.inl ⟨hw, hleaving⟩
    have hend := hstart.run hon₁ LoopSystem.leaving_step (fun hl _ => hl.taken) hrun
    rw [hend.executed hon' hret, LoopSystem.length_pushed hall,
      or_iff_right Bool.false_ne_true, ← List.length_eq_zero_iff]
    omega

end Run

/-- **What the destructor leaves in the queue.**  In every run in which it is not called before
`startLoop` has returned and nobody else tells the loop to quit, under every interleaving: when
the destructor has returned, all that had been pushed when it called `quit()` has been executed,
exactly when the swap of the iteration was still to come then, or nothing was waiting. -/
theorem destructor_drains_iff {tid t : Tid} {callback_ : Bool} {as bs : List Tid}
    {s s₁ s' : EventLoopThread φ} (h : Run Disciplined (started tid callback_) as s)
    (hquit : s.destructor = .quit t) (hstep : Disciplined s t s₁)
    (hnext : s₁.destructor = .wakeup t) (hrun : Run Disciplined s₁ bs s')
    (hret : s'.destructor = .returned) :
    s.sys.pushed <+: s'.sys.executed ↔
      s.sys.pc.swapAhead = true ∨ s.sys.loop.pendingFunctors_ = [] := by
  have hon := (onLoop_started tid callback_).run_disciplined h
  have hon₁ := hon.step hstep
  have hon' := hon₁.run_disciplined hrun
  obtain ⟨sys₁, hquits, rfl⟩ := quits_of_step hstep.step hquit hnext
  rcases hon.joining.told hquit with hw | hw
  · -- `quit()` is lost
    exact absurd hret (lost_run hw hrun).not_returned
  · rw [← drains_iff hon hw hquits hon₁ hrun (hon'.joining.joined hret)]
    obtain ⟨cs, hloop⟩ := (hon₁.restart.run_disciplined hrun).run
    obtain ⟨ds, hloop'⟩ := hon'.run
    have hpushed : s.sys.pushed <+: s'.sys.pushed :=
      hquits.same.2.2.2.1 ▸ LoopSystem.pushed_prefix_run hloop
    have hexecuted : s'.sys.executed <+: s'.sys.pushed :=
      LoopSystem.ledger_all hloop' ▸ s'.sys.ledger.done_prefix_all
    exact ⟨fun hp => hp.length_le, List.prefix_of_prefix_length_le hpushed hexecuted⟩

/-- After a run that has brought `t` to the `quit()` of the destructor. -/
theorem disciplined_quit {t : Tid} {as : List Tid} {s s₀ : EventLoopThread φ}
    (_ : Run Disciplined s₀ as s) (ht : t ≠ s.tid) (h : s.destructor = .quit t)
    (hidle : s.sys.callers t = .idle) :
    ∃ s₁ : EventLoopThread φ, s₁ = { s with
      sys := { s.sys with loop := s.sys.loop.setQuit }.setCaller t .notifying,
      destructor := .wakeup t } ∧ Disciplined s t s₁ ∧ Run Disciplined s₁ [] s₁ :=
  ⟨_, rfl, ⟨.quit ht h (.other ht hidle), fun _ _ => h, fun hd => by cases h.symm.trans hd⟩, .refl⟩

/-- Thread 1 queues two functors and destroys the thread: one was queued before the swap of the
iteration, the other behind it. -/
theorem destructor_drains_late : ∃ as bs, ∃ s s₁ s' : EventLoopThread Nat,
    Run Disciplined (started 0 false) as s ∧ Disciplined s 1 s₁ ∧ Run Disciplined s₁ bs s' ∧
      s'.destructor = .returned ∧ s'.sys.executed.map Queued.functor = [10] ∧
      ¬ s.sys.pushed <+: s'.sys.executed := by
  have hrun := (Run.refl : Run Disciplined (started 0 false : EventLoopThread Nat) [] _)
    |>.tail ⟨.construct rfl, by decide, by decide⟩
    |>.tail ⟨.publish rfl, by decide, by decide⟩
    |>.tail ⟨.enter rfl, by decide, by decide⟩
    |>.tail ⟨.loop rfl rfl (.again rfl rfl), by decide, by decide⟩
    |>.tail ⟨.other (t := 1) (by decide) rfl (by decide) (.submit (by decide) rfl 10),
      by decide, by decide⟩
    |>.tail ⟨.other (t := 1) (by decide) rfl (by decide) (.push (by decide) rfl),
      by decide, by decide⟩
    |>.tail ⟨.other (t := 1) (by decide) rfl (by decide) (.notify (by decide) rfl),
      by decide, by decide⟩
    |>.tail ⟨.loop rfl rfl (.poll rfl [.wakeup] (by decide) (by decide)), by decide, by decide⟩
    |>.tail ⟨.loop rfl rfl (.handleRead rfl), by decide, by decide⟩
    |>.tail ⟨.loop rfl rfl (.beginPending rfl), by decide, by decide⟩
    |>.tail ⟨.loop rfl rfl (.swap rfl), by decide, by decide⟩
    |>.tail ⟨.other (t := 1) (by decide) rfl (by decide) (.submit (by decide) rfl 20),
      by decide, by decide⟩
    |>.tail ⟨.other (t := 1) (by decide) rfl (by decide) (.push (by decide) rfl),
      by decide, by decide⟩
    |>.tail ⟨.other (t := 1) (by decide) rfl (by decide) (.notify (by decide) rfl),
      by decide, by decide⟩
    |>.tail ⟨.destruct (t := 1) (by decide) rfl rfl, by decide, by decide⟩
    |>.tail ⟨.observe rfl, by decide, by decide⟩
  obtain ⟨_, rfl, hquit, hstart⟩ := disciplined_quit (t := 1) hrun (by decide) rfl rfl
  have hrest := hstart
    |>.tail ⟨.wakeup (t := 1) (by decide) rfl (.notify (by decide) rfl) rfl, by decide, by decide⟩
    |>.tail ⟨.loop rfl rfl (.start rfl), by decide, by decide⟩
    |>.tail ⟨.loop rfl rfl (.taskReturn rfl), by decide, by decide⟩
    |>.tail ⟨.loop rfl rfl (.endPending rfl), by decide, by decide⟩
    |>.tail ⟨.loop rfl rfl (.leave rfl rfl), by decide, by decide⟩
    |>.tail ⟨.unpublish rfl, by decide, by decide⟩
    |>.tail ⟨.join rfl rfl, by decide, by decide⟩
  refine ⟨_, _, _, _, _, hrun, hquit, hrest, rfl, by decide, fun h => ?_⟩
  have hdrained := (destructor_drains_iff hrun rfl hquit rfl hrest rfl).mp h
  revert hdrained
  decide

end EventLoopThread
end Mymuduo
