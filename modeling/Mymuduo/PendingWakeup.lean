import Mymuduo.Wakeup

/-! # No wake-up of a queued functor is lost

When the loop is about to poll, a functor that waits in `pendingFunctors_` must not
find the loop asleep: the eventfd is readable, or a thread that has pushed is about
to write to it.  Functors that the loop's own thread queued outside `loop()` are no
part of this.

A push by another thread is always followed by `wakeup`.  One by the loop's own
thread is followed by it only while `callingPendingFunctors_` is set; otherwise it
comes from a callback of a channel, and the swap of the same iteration takes it.
-/
namespace Mymuduo
open Transition

variable {φ : Type*}

namespace LoopPc

/-- In an iteration, after its poll and before its swap. -/
def beforeSwap : LoopPc φ → Bool
  | .dispatch _ | .callback _ | .swap => true
  | _ => false

/-- In `doPendingFunctor`. -/
def inPending : LoopPc φ → Bool
  | .swap | .batch _ | .task _ => true
  | _ => false

end LoopPc

namespace LoopSystem

/-- `t` has pushed a functor and has not yet called `wakeup` for it. -/
structure BetweenPushAndWakeup (s : LoopSystem φ) (t : Tid) : Prop where
  notifying : s.callers t = .notifying
  pushed : ∃ l q r, s.trace = l ++ .pushed q :: r ∧ q.submitter = t ∧ .wakeup t ∉ r

/-- Somebody sees to it that the loop does not sleep over the functor. -/
def Attended (s : LoopSystem φ) (q : Queued φ) : Prop :=
  s.loop.wakeupReadable = true ∨
    (q.submitter = s.loop.threadId_ ∧ s.pc.beforeSwap = true) ∨
    (q.submitter ≠ s.loop.threadId_ ∧ s.BetweenPushAndWakeup q.submitter)

/-- What every run keeps. -/
structure Signalled (s : LoopSystem φ) : Prop where
  calling : s.loop.callingPendingFunctors_ = s.pc.inPending
  attended : ∀ q ∈ s.loop.pendingFunctors_, q.outside = false → s.Attended q

section Step
variable {s s' : LoopSystem φ} {t : Tid}

/-- `callingPendingFunctors_` tells whether the loop is in `doPendingFunctor`. -/
theorem Step.calling (h : Step s t s') (hs : s.loop.callingPendingFunctors_ = s.pc.inPending) :
    s'.loop.callingPendingFunctors_ = s'.pc.inPending := by
  cases h with
  | queueHere h f => exact (s.loop.calling_queueInLoop _ _).trans hs
  | quitHere | submit | push | quit | notify | wakeup => exact hs
  | beginPending | endPending => rfl
  | enter h | leave h | again h | poll h | handleRead h | callback h | callbackReturn h | swap h
  | start h | taskReturn h =>
    rw [h] at hs
    exact hs

/-- Once past the poll of an iteration, the loop stays before its swap until it
swaps. -/
theorem Step.beforeSwap (h : Step s t s') (hpc : s.pc.beforeSwap = true) :
    s'.pc.beforeSwap = true ∨ s'.loop.pendingFunctors_ = [] := by
  cases h with
  | swap => exact Or.inr rfl
  | handleRead | callback | callbackReturn | beginPending => exact Or.inl rfl
  | enter h | leave h | again h | poll h | start h | taskReturn h | endPending h =>
    rw [h] at hpc
    cases hpc
  | queueHere | quitHere | submit | push | quit | notify | wakeup => exact Or.inl hpc

/-- Only its own `wakeup` brings a thread out of the notification it owes. -/
theorem Step.notifying (h : Step s t s') {u : Tid} (hu : s.callers u = .notifying) :
    s'.callers u = .notifying ∨ s'.loop.wakeupFd_ = s.loop.wakeupFd_ + 1 := by
  have hset : ∀ {s₀ : LoopSystem φ} {pc : CallerPc φ}, s₀.callers = s.callers →
      s.callers t ≠ .notifying → (s₀.setCaller t pc).callers u = .notifying := by
    intro s₀ pc hs₀ ht
    have hne : u ≠ t := by
      rintro rfl
      exact ht hu
    rw [setCaller, hs₀]
    show Function.update s.callers t pc u = _
    rw [Function.update_of_ne hne, hu]
  cases h with
  | notify => exact Or.inr rfl
  | submit ht hidle f => exact Or.inl (hset rfl (by simp [hidle]))
  | quit ht hidle => exact Or.inl (hset rfl (by simp [hidle]))
  | push ht hq => exact Or.inl (hset rfl (by simp [hq]))
  | _ => exact Or.inl hu

/-- The counter of the eventfd does not go down, and goes up with every `wakeup`. -/
theorem Step.counter (h : Step s t s') :
    s.loop.wakeupFd_ < s'.loop.wakeupFd_ ∨ (s'.loop.wakeupFd_ = s.loop.wakeupFd_ ∧
      ∃ es, s'.trace = s.trace ++ es ∧ ∀ u, .wakeup u ∉ es) := by
  rcases h.wake_cases with ⟨es, hes, htr, hfd, -⟩ | ⟨es, -, -, hfd, -⟩ | ⟨htr, hfd, -⟩ | ⟨-, hfd, -⟩
  · exact Or.inr ⟨hfd, es, htr, fun u hu => hes _ hu⟩
  · exact Or.inl (by omega)
  · exact Or.inr ⟨hfd, _, htr, by simp⟩
  · exact Or.inl (by omega)

/-- A functor goes on being attended to until the swap takes it. -/
theorem Attended.step {q : Queued φ} (hq : s.Attended q) (h : Step s t s') :
    s'.Attended q ∨ s'.loop.pendingFunctors_ = [] := by
  have hreadable : s.loop.wakeupReadable = true → s'.loop.wakeupReadable = true := by
    simp only [EventLoop.wakeupReadable, decide_eq_true_eq]
    intro hpos
    rcases h.counter with hlt | ⟨heq, -⟩ <;> omega
  have hraised : s.loop.wakeupFd_ < s'.loop.wakeupFd_ → s'.loop.wakeupReadable = true := by
    simp only [EventLoop.wakeupReadable, decide_eq_true_eq]
    omega
  rcases hq with hr | ⟨hsub, hpc⟩ | ⟨hsub, hn, l, q', r, htr, hq', hr⟩
  · exact Or.inl (Or.inl (hreadable hr))
  · exact (h.beforeSwap hpc).imp_left fun hpc' => Or.inr (Or.inl ⟨by rwa [h.threadId], hpc'⟩)
  · rcases h.counter with hlt | ⟨hfd, es, htr', hes⟩
    · exact Or.inl (Or.inl (hraised hlt))
    · refine Or.inl (Or.inr (Or.inr ⟨by rwa [h.threadId], ?_, l, q', r ++ es, ?_, hq', ?_⟩))
      · exact (h.notifying hn).resolve_right (by omega)
      · rw [htr', htr]
        simp
      · rw [List.mem_append]
        exact fun hw => hw.elim hr (hes _)

end Step

theorem signalled_step {s s' : LoopSystem φ} {t : Tid} (hs : Signalled s) (h : Step s t s') :
    Signalled s' := by
  refine ⟨h.calling hs.calling, ?_⟩
  -- what was pending already
  have hold : ∀ q ∈ s.loop.pendingFunctors_, q.outside = false →
      s'.loop.pendingFunctors_ ≠ [] → s'.Attended q :=
    fun q hq ho hne => ((hs.attended q hq ho).step h).resolve_right hne
  intro q hq ho
  have hne : s'.loop.pendingFunctors_ ≠ [] := List.ne_nil_of_mem hq
  have htid := h.threadId
  cases h with
  | swap => cases hq
  | @push _ f ht hc =>
    rcases List.mem_append.mp hq with hmem | hmem
    · exact hold q hmem ho hne
    · rw [List.mem_singleton.mp hmem]
      refine Or.inr (Or.inr ⟨ht, ?_, s.trace, _, [], rfl, rfl, by simp⟩)
      simp [log, setCaller, note]
  | queueHere h f =>
    have hmem : q ∈ s.loop.pendingFunctors_ ++ [s.note s.loop.threadId_ f] := by
      rw [← EventLoop.pending_queueInLoop]
      exact hq
    rcases List.mem_append.mp hmem with hmem | hmem
    · exact hold q hmem ho hne
    · obtain rfl := List.mem_singleton.mp hmem
      have hcalling := hs.calling
      cases hpc : s.pc with
      | outside => simp [note, hpc, LoopPc.isOutside] at ho
      | callback rest => exact Or.inr (Or.inl ⟨htid.symm, rfl⟩)
      | task rest =>
        -- the flag is set: `queueInLoop` has called `wakeup`
        rw [hpc] at hcalling
        refine Or.inl ?_
        simp [log, EventLoop.queueInLoop, EventLoop.mustWakeup, hcalling, LoopPc.inPending,
          EventLoop.wakeup, EventLoop.enqueue, EventLoop.wakeupReadable]
      | _ =>
        rw [hpc] at h
        cases h
  | _ => exact hold q hq ho hne

theorem signalled_run {tid : Tid} {as : List Tid} {s : LoopSystem φ}
    (h : Run Step (initial tid) as s) : Signalled s :=
  h.invariant ⟨rfl, by simp [initial, EventLoop.new]⟩ fun _ _ _ hs hstep => signalled_step hs hstep

/-- **No lost wake-up.**  In every reachable state, under every interleaving: when the
loop is about to poll and a functor not queued outside `loop()` is pending, the
eventfd is readable or another thread is between its push and its `wakeup`. -/
theorem no_lost_wakeup {tid : Tid} {as : List Tid} {s : LoopSystem φ}
    (h : Run Step (initial tid) as s) (hpoll : s.pc = .poll) {q : Queued φ}
    (hq : q ∈ s.loop.pendingFunctors_) (ho : q.outside = false) :
    0 < s.loop.wakeupFd_ ∨ ∃ t, t ≠ s.loop.threadId_ ∧ s.BetweenPushAndWakeup t := by
  rcases (signalled_run h).attended q hq ho with hr | ⟨-, hpc⟩ | ⟨hne, hb⟩
  · exact Or.inl (by simpa [EventLoop.wakeupReadable] using hr)
  · rw [hpoll] at hpc
    cases hpc
  · exact Or.inr ⟨_, hne, hb⟩

/-- Thread 1 has pushed a functor when the loop is about to poll, and has not yet
called `wakeup`. -/
theorem no_lost_wakeup_pushed : ∃ as, ∃ s : LoopSystem Nat, Run Step (initial 0) as s ∧
    s.pc = .poll ∧ s.loop.wakeupFd_ = 0 ∧ ∃ q ∈ s.loop.pendingFunctors_, q.functor = 10 ∧
      (0 < s.loop.wakeupFd_ ∨ ∃ t, t ≠ s.loop.threadId_ ∧ s.BetweenPushAndWakeup t) := by
  have hrun := Run.refl
    |>.tail (Step.enter (s := (initial 0 : LoopSystem Nat)) rfl)
    |>.tail (.submit (t := 1) (by decide) rfl 10)
    |>.tail (.again rfl rfl)
    |>.tail (.push (t := 1) (by decide) rfl)
  exact ⟨_, _, hrun, rfl, rfl, _, List.mem_singleton.mpr rfl, rfl,
    no_lost_wakeup hrun rfl (List.mem_singleton.mpr rfl) rfl⟩

end LoopSystem
end Mymuduo
