import Mymuduo.PendingWakeup
import Mymuduo.TaskQueue

/-! # What `quit` leaves in the queue

A functor whose `queueInLoop` has returned before somebody calls `quit` should run
before `loop()` returns.  The loop looks at `quit_` only between its iterations,
and it leaves without another look at `pendingFunctors_`.

So what counts is where the loop stands when `quit` stores its flag.  If the swap
of the iteration is still to come, everything pushed so far is in the last batch.
If it is past, `pendingFunctors_` is dropped.
-/
namespace Mymuduo
open Transition

variable {φ : Type*}

/-- The loop is in an iteration whose swap is still to come. -/
def LoopPc.swapAhead : LoopPc φ → Bool
  | .poll => true
  | pc => pc.beforeSwap

namespace LoopSystem

/-- `t` calls `quit`; the step is its store to `quit_`. -/
inductive Quits : LoopSystem φ → Tid → LoopSystem φ → Prop where
  | here {s} (h : s.pc.inUserCode = true) :
      Quits s s.loop.threadId_ { s with loop := s.loop.setQuit }
  | other {s} {t} (ht : t ≠ s.loop.threadId_) (h : s.callers t = .idle) :
      Quits s t ({ s with loop := s.loop.setQuit }.setCaller t .notifying)

/-- The step is taken inside `loop()`. -/
def Inside (s : LoopSystem φ) (_ : Tid) : Prop := s.pc.isOutside = false

/-- The call of `queueInLoop` that made push number `k`, counted from `0`, has
returned.  In another thread it returns with its `wakeup`. -/
def Returned (s : LoopSystem φ) (k : Nat) : Prop :=
  ∃ l q r, s.trace = l ++ .pushed q :: r ∧ (l.filterMap LoopEvent.pushed?).length = k ∧
    (q.submitter = s.loop.threadId_ ∨ .wakeup q.submitter ∈ r)

/-- Functors run in the order of their pushes: number `k` has run when more than `k`
have. -/
def Executed (s : LoopSystem φ) (k : Nat) : Prop := k < s.executed.length

/-- The number of functors that have run or are in the batch. -/
def taken (s : LoopSystem φ) : Nat := s.executed.length + s.pc.rest.length

/-- The swap is still to come, or no functor in `pendingFunctors_` is from a call that
has returned. -/
def QuitInTime (s : LoopSystem φ) : Prop :=
  s.pc.swapAhead = true ∨ ∀ k, s.Returned k → k < s.taken

section Step
variable {s s' : LoopSystem φ} {t : Tid}

theorem Quits.step (h : Quits s t s') : Step s t s' := by
  cases h with
  | here h => exact .quitHere h
  | other ht h => exact .quit ht h

theorem Returned.lt {k : Nat} (h : s.Returned k) : k < s.pushed.length := by
  obtain ⟨l, q, r, htr, hk, -⟩ := h
  rw [pushed, htr]
  simp [hk]

/-- `quit_` is cleared only by a `loop()` that is entered. -/
theorem Step.quit_kept_or_enter (h : Step s t s') (hq : s.loop.quit_ = true) :
    s'.loop.quit_ = true ∨
      (t = s.loop.threadId_ ∧ s.pc.isOutside = true ∧ s'.pc.isOutside = false) := by
  cases h with
  | enter h =>
    rw [h]
    exact Or.inr ⟨rfl, rfl, rfl⟩
  | queueHere h f => exact Or.inl ((s.loop.quit_queueInLoop _ _).trans hq)
  | quitHere | quit => exact Or.inl rfl
  | _ => exact Or.inl hq

theorem Step.quit_kept (h : Step s t s') (hin : s.pc.isOutside = false)
    (hq : s.loop.quit_ = true) : s'.loop.quit_ = true := by
  rcases h.quit_kept_or_enter hq with hkept | ⟨-, hout, -⟩
  · exact hkept
  · rw [hin] at hout
    cases hout

/-- After `quit` no further iteration begins. -/
theorem Step.swapAhead (h : Step s t s') (hin : s.pc.isOutside = false)
    (hq : s.loop.quit_ = true) (hpc : s.pc.swapAhead = false) : s'.pc.swapAhead = false := by
  cases h with
  | enter h =>
    rw [h] at hin
    cases hin
  | again h hq' =>
    rw [hq] at hq'
    cases hq'
  | poll h | handleRead h | callback h | callbackReturn h | beginPending h =>
    rw [h] at hpc
    cases hpc
  | leave | swap | start | taskReturn | endPending => rfl
  | queueHere | quitHere | submit | push | quit | notify | wakeup => exact hpc

/-- Only the swap begins a batch. -/
theorem Step.swap_of_batches (h : Step s t s') (hb : s'.batches ≠ s.batches) :
    s.pc = .swap ∧ s'.pc.swapAhead = false := by
  cases h with
  | swap h => exact ⟨h, rfl⟩
  | _ => exact absurd rfl hb

/-- An iteration does not end without its swap. -/
theorem Step.swapAhead_kept (h : Step s t s') (hb : s'.batches = s.batches)
    (hpc : s.pc.swapAhead = true) : s'.pc.swapAhead = true := by
  cases h with
  | swap => exact absurd hb (Nat.succ_ne_self _)
  | again | poll | handleRead | callback | callbackReturn | beginPending => rfl
  | enter h | leave h | start h | taskReturn h | endPending h =>
    rw [h] at hpc
    cases hpc
  | queueHere | quitHere | submit | push | quit | notify | wakeup => exact hpc

/-- Only the swap takes functors from the queue. -/
theorem Step.taken_cases (h : Step s t s') :
    (s'.taken = s.taken ∧ (s.pc.swapAhead = true → s'.pc.swapAhead = true)) ∨
    (s.pc = .swap ∧ s'.pc.swapAhead = false ∧
      s'.taken = s.taken + s.loop.pendingFunctors_.length) := by
  rcases h.queue_cases with ⟨-, he, hr, -, hb⟩ | ⟨f, -, he, hr, -, hb⟩ | ⟨-, he, hr, hr', -, hb⟩ |
    ⟨q, -, he, hr, -, hb⟩
  · exact Or.inl ⟨by simp [taken, executed, he, hr], h.swapAhead_kept hb⟩
  · exact Or.inl ⟨by simp [taken, executed, he, hr], h.swapAhead_kept hb⟩
  · obtain ⟨hpc, hpc'⟩ := h.swap_of_batches (by omega)
    exact Or.inr ⟨hpc, hpc', by simp [taken, executed, he, hr, hr']⟩
  · refine Or.inl ⟨?_, h.swapAhead_kept hb⟩
    simp only [taken, executed, he, hr, List.map_append, List.length_append, List.length_map,
      List.length_cons, List.length_nil]
    omega

/-- Pushes only add up. -/
theorem Step.pushed_le (h : Step s t s') : s.pushed.length ≤ s'.pushed.length := by
  rcases h.queue_cases with ⟨hp, -⟩ | ⟨f, hp, -⟩ | ⟨hp, -⟩ | ⟨q, hp, -⟩ <;> simp [hp]

end Step

/-- After `quit`, with the swap past: the last batch is what it is. -/
structure Leaving (n : Nat) (s : LoopSystem φ) : Prop where
  quit : s.loop.quit_ = true
  past : s.pc.swapAhead = false
  taken : s.taken = n

/-- After `quit`, with `n` functors pushed and the swap still to come: when it is past
they will be in the batch. -/
structure Draining (n : Nat) (s : LoopSystem φ) : Prop where
  quit : s.loop.quit_ = true
  ledger : s.ledger.all = s.pushed
  pushed : n ≤ s.pushed.length
  taken : s.pc.swapAhead = false → n ≤ s.taken

section Run
variable {s s' : LoopSystem φ} {t : Tid} {n : Nat}

theorem leaving_step (hs : Leaving n s) (h : Step s t s') (hin : s.pc.isOutside = false) :
    Leaving n s' := by
  refine ⟨h.quit_kept hin hs.quit, h.swapAhead hin hs.quit hs.past, ?_⟩
  rcases h.taken_cases with ⟨htaken, -⟩ | ⟨hpc, -⟩
  · rw [htaken, hs.taken]
  · have hpast := hs.past
    rw [hpc] at hpast
    cases hpast

theorem draining_step (hs : Draining n s) (h : Step s t s') (hin : s.pc.isOutside = false) :
    Draining n s' := by
  have hledger : s'.ledger.all = s'.pushed := by
    rcases h.ledger_cases with ⟨hp, hl⟩ | ⟨q, hp, hl⟩ | ⟨hp, hl⟩
    · rw [hl, hp, hs.ledger]
    · rw [hl, hp, Fifo.all_push, hs.ledger]
    · rw [hl, hp, Fifo.all_take, hs.ledger]
  refine ⟨h.quit_kept hin hs.quit, hledger, Nat.le_trans hs.pushed h.pushed_le, fun hpc' => ?_⟩
  rcases h.taken_cases with ⟨htaken, hkept⟩ | ⟨hpc, -, htaken⟩
  · rw [htaken]
    refine hs.taken (Bool.eq_false_iff.mpr fun hpc => ?_)
    rw [hkept hpc] at hpc'
    cases hpc'
  · -- the swap takes all that was pushed
    have hlength := congrArg List.length hs.ledger
    have hn := hs.pushed
    simp only [Fifo.all, LoopSystem.ledger, hpc, LoopPc.rest, List.nil_append,
      List.length_append] at hlength
    rw [htaken, taken, hpc]
    simp only [LoopPc.rest, List.length_nil]
    omega

end Run

/-- Where nothing is in a batch, what was taken has run. -/
theorem executed_of_outside {s : LoopSystem φ} (hout : s.pc.isOutside = true) :
    s.executed.length = s.taken := by
  cases hpc : s.pc with
  | outside => simp [taken, hpc, LoopPc.rest]
  | _ =>
    rw [hpc] at hout
    cases hout

/-- **What `quit` leaves in the queue.**  In every run, under every interleaving: when
`quit` is called inside `loop()`, the functors whose `queueInLoop` has returned by
then have all run when `loop()` returns, exactly when the swap of the iteration is
still to come or none of them is in `pendingFunctors_`. -/
theorem quit_drains_iff {tid t : Tid} {as bs : List Tid} {s s₁ s₂ : LoopSystem φ}
    (h : Run Step (initial tid) as s) (hquit : Quits s t s₁)
    (hrun : Run (Meeting Step Inside) s₁ bs s₂) (hout : s₂.pc.isOutside = true) :
    (∀ k, s.Returned k → s₂.Executed k) ↔ s.QuitInTime := by
  have hledger : s₁.ledger.all = s₁.pushed := ledger_all (h.tail hquit.step)
  have hsame : s₁.loop.quit_ = true ∧ s₁.pc = s.pc ∧ s₁.taken = s.taken ∧ s₁.pushed = s.pushed := by
    cases hquit with
    | here | other => exact ⟨rfl, rfl, rfl, rfl⟩
  obtain ⟨hq, hpc, htaken, hpushed⟩ := hsame
  cases hahead : s.pc.swapAhead with
  | true =>
    refine ⟨fun _ => Or.inl hahead, fun _ k hk => ?_⟩
    have hdrain : Draining s.pushed.length s₂ := by
      refine hrun.invariant ⟨hq, hledger, Nat.le_of_eq (by rw [hpushed]), fun hp => ?_⟩
        fun _ _ _ hs hstep => draining_step hs hstep.1 hstep.2
      rw [hpc, hahead] at hp
      cases hp
    have hpast : s₂.pc.swapAhead = false := by
      cases hpc₂ : s₂.pc with
      | outside => rfl
      | _ =>
        rw [hpc₂] at hout
        cases hout
    rw [Executed, executed_of_outside hout]
    exact Nat.lt_of_lt_of_le hk.lt (hdrain.taken hpast)
  | false =>
    have hleave : Leaving s.taken s₂ :=
      hrun.invariant ⟨hq, hpc ▸ hahead, htaken⟩
        fun _ _ _ hs hstep => leaving_step hs hstep.1 hstep.2
    simp only [Executed, executed_of_outside hout, hleave.taken, QuitInTime, hahead,
      Bool.false_eq_true, false_or]

/-- A thread with nothing else to do calls `quit`, after a run and before another. -/
theorem quits_between {tid t : Tid} {as : List Tid} {s : LoopSystem φ}
    (_ : Run Step (initial tid) as s) (ht : t ≠ s.loop.threadId_) (hc : s.callers t = .idle) :
    ∃ s₁, s₁ = { s with loop := s.loop.setQuit }.setCaller t .notifying ∧ Quits s t s₁ ∧
      Run (Meeting Step Inside) s₁ [] s₁ :=
  ⟨_, rfl, .other ht hc, .refl⟩

/-- Thread 1 queues a functor and calls `quit`, both while the loop polls: the functor
runs. -/
theorem quit_while_polling_drains : ∃ as bs, ∃ s s₁ s₂ : LoopSystem Nat,
    Run Step (initial 0) as s ∧ Quits s 1 s₁ ∧ Run (Meeting Step Inside) s₁ bs s₂ ∧
      s.Returned 0 ∧ s₂.pc.isOutside = true ∧ ∀ k, s.Returned k → s₂.Executed k := by
  have hrun := Run.refl
    |>.tail (Step.enter (s := (initial 0 : LoopSystem Nat)) rfl)
    |>.tail (.again rfl rfl)
    |>.tail (.submit (t := 1) (by decide) rfl 10)
    |>.tail (.push (t := 1) (by decide) rfl)
    |>.tail (.notify (t := 1) (by decide) rfl)
  obtain ⟨_, rfl, hquit, hstart⟩ := quits_between (t := 1) hrun (by decide) rfl
  have hdrain := hstart
    |>.meet (.notify (t := 1) (by decide) rfl) rfl
    |>.meet (.poll rfl [.wakeup] (by decide) (by decide)) rfl
    |>.meet (.handleRead rfl) rfl
    |>.meet (.beginPending rfl) rfl
    |>.meet (.swap rfl) rfl
    |>.meet (.start rfl) rfl
    |>.meet (.taskReturn rfl) rfl
    |>.meet (.endPending rfl) rfl
    |>.meet (.leave rfl rfl) rfl
  exact ⟨_, _, _, _, _, hrun, hquit, hdrain, ⟨[_], _, [_], rfl, rfl, Or.inr (by decide)⟩, rfl,
    (quit_drains_iff hrun hquit hdrain rfl).mpr (Or.inl rfl)⟩

/-- Thread 1 queues a functor and calls `quit`, both between the swap and the next
test of `quit_`: `loop()` returns with the functor still in `pendingFunctors_`. -/
theorem quit_after_swap_drops : ∃ as bs, ∃ s s₁ s₂ : LoopSystem Nat,
    Run Step (initial 0) as s ∧ s.pc.isOutside = false ∧ Quits s 1 s₁ ∧
      Run (Meeting Step Inside) s₁ bs s₂ ∧ s₂.pc.isOutside = true ∧
      ¬ ∀ k, s.Returned k → s₂.Executed k := by
  have hrun := Run.refl
    |>.tail (Step.enter (s := (initial 0 : LoopSystem Nat)) rfl)
    |>.tail (.again rfl rfl)
    |>.tail (.poll rfl [] (by decide) (by decide))
    |>.tail (.beginPending rfl)
    |>.tail (.swap rfl)
    |>.tail (.submit (t := 1) (by decide) rfl 10)
    |>.tail (.push (t := 1) (by decide) rfl)
    |>.tail (.notify (t := 1) (by decide) rfl)
  obtain ⟨_, rfl, hquit, hstart⟩ := quits_between (t := 1) hrun (by decide) rfl
  have hleave := hstart
    |>.meet (.notify (t := 1) (by decide) rfl) rfl
    |>.meet (.endPending rfl) rfl
    |>.meet (.leave rfl rfl) rfl
  refine ⟨_, _, _, _, _, hrun, rfl, hquit, hleave, rfl, fun h => ?_⟩
  exact Nat.not_lt_zero 0 (h 0 ⟨[_, _], _, [_], rfl, rfl, Or.inr (by decide)⟩)

end LoopSystem
end Mymuduo
