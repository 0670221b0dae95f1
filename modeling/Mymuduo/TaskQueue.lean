import Mymuduo.EventLoop
import Mymuduo.Lib.Fifo

/-! # The functors of a loop run once each, in order

`pendingFunctors_` together with the batch `doPendingFunctor` is going through is
one first-in first-out queue (`LoopSystem.ledger`): a push enters it, the start
of a functor takes its first element out, and the swap, which moves everything
from `pendingFunctors_` to the batch, changes nothing in it.  `Step.queue_cases`
says so step by step.

Two facts need a word more.  That one thread's functors run in its program order
also needs that its pushes are in program order, which holds because a thread is
inside one call of `queueInLoop` at a time (`Submitted`).  That no functor runs in
the batch it was queued in is a matter of batch numbers (`Batched`).
-/
namespace Mymuduo
open Transition

variable {φ : Type*}

namespace LoopEvent

@[simp] def pushed? : LoopEvent φ → Option (Queued φ)
  | .pushed q => some q
  | _ => none

/-- The thread, the batch and the functor of a start. -/
@[simp] def execution? : LoopEvent φ → Option (Tid × Nat × Queued φ)
  | .executed t b q => some (t, b, q)
  | _ => none

@[simp] def submittedBy? (t : Tid) : LoopEvent φ → Option φ
  | .submitted t' f => if t' = t then some f else none
  | _ => none

end LoopEvent

namespace LoopSystem

/-- The functors pushed so far, in the order their pushes took the mutex. -/
def pushed (s : LoopSystem φ) : List (Queued φ) := s.trace.filterMap LoopEvent.pushed?

/-- The starts of functors so far, in order. -/
def executions (s : LoopSystem φ) : List (Tid × Nat × Queued φ) :=
  s.trace.filterMap LoopEvent.execution?

/-- The functors executed so far, in order. -/
def executed (s : LoopSystem φ) : List (Queued φ) := s.executions.map fun e => e.2.2

/-- The functors `t` has submitted so far, in its program order. -/
def submitted (s : LoopSystem φ) (t : Tid) : List φ := s.trace.filterMap (LoopEvent.submittedBy? t)

/-- The part of `qs` that `t` pushed, as `t` submitted it. -/
def functorsOf (t : Tid) (qs : List (Queued φ)) : List φ :=
  (qs.filter fun q => q.submitter == t).map Queued.functor

/-- Every functor runs once, in order, on the loop's thread, and not in the batch
it was queued in. -/
structure TasksInOrder (s : LoopSystem φ) : Prop where
  exactly_once : s.executed ++ s.pc.rest ++ s.loop.pendingFunctors_ = s.pushed
  in_loop_thread : ∀ e ∈ s.executions, e.1 = s.loop.threadId_
  program_order : ∀ t, t ≠ s.loop.threadId_ → functorsOf t s.executed <+: s.submitted t
  not_in_batch : ∀ e ∈ s.executions, e.2.2.during ≠ some e.2.1

/-- The loop's queue as a ledger: what has been started, and what is left of the
batch followed by `pendingFunctors_`. -/
def ledger (s : LoopSystem φ) : Fifo (Queued φ) :=
  ⟨s.executed, s.pc.rest ++ s.loop.pendingFunctors_⟩

/-- **What a step can do to the queue.**  Nothing; a push; the swap; the start of
the batch's next functor. -/
theorem Step.queue_cases {s s' : LoopSystem φ} {t : Tid} (h : Step s t s') :
    (s'.pushed = s.pushed ∧ s'.executions = s.executions ∧ s'.pc.rest = s.pc.rest ∧
      s'.loop.pendingFunctors_ = s.loop.pendingFunctors_ ∧ s'.batches = s.batches) ∨
    (∃ f, s'.pushed = s.pushed ++ [s.note t f] ∧ s'.executions = s.executions ∧
      s'.pc.rest = s.pc.rest ∧
      s'.loop.pendingFunctors_ = s.loop.pendingFunctors_ ++ [s.note t f] ∧
      s'.batches = s.batches) ∨
    (s'.pushed = s.pushed ∧ s'.executions = s.executions ∧ s.pc.rest = [] ∧
      s'.pc.rest = s.loop.pendingFunctors_ ∧ s'.loop.pendingFunctors_ = [] ∧
      s'.batches = s.batches + 1) ∨
    (∃ q, s'.pushed = s.pushed ∧
      s'.executions = s.executions ++ [(s.loop.threadId_, s.batches, q)] ∧
      s.pc.rest = q :: s'.pc.rest ∧
      s'.loop.pendingFunctors_ = s.loop.pendingFunctors_ ∧ s'.batches = s.batches) := by
  cases h with
  | enter h | leave h | again h | callback h | callbackReturn h | beginPending h | taskReturn h
  | endPending h =>
    refine .inl ⟨rfl, rfl, ?_, rfl, rfl⟩
    simp [LoopPc.rest, h]
  | quitHere h | quit ht h => exact .inl ⟨rfl, rfl, rfl, rfl, rfl⟩
  | poll h | handleRead h | submit ht h f | notify ht h | wakeup h =>
    refine .inl ⟨?_, ?_, ?_, rfl, rfl⟩
    · simp [pushed, log, setCaller]
    · simp [executions, log, setCaller]
    · simp [log, LoopPc.rest, setCaller, *]
  | push ht h =>
    refine .inr (.inl ⟨_, ?_, ?_, rfl, rfl, rfl⟩)
    · simp [pushed, log, setCaller]
    · simp [executions, log, setCaller]
  | queueHere h f =>
    refine .inr (.inl ⟨f, ?_, ?_, rfl, ?_, rfl⟩)
    · simp only [pushed, log, List.filterMap_append]
      split <;> rfl
    · simp only [executions, log, List.filterMap_append]
      split <;> simp
    · simp only [log, EventLoop.queueInLoop]
      split <;> rfl
  | swap h =>
    exact .inr (.inr (.inl ⟨rfl, rfl, by simp [LoopPc.rest, h], rfl, rfl, rfl⟩))
  | @start q rest h =>
    refine .inr (.inr (.inr ⟨q, ?_, ?_, ?_, rfl, rfl⟩))
    · simp [pushed, log]
    · simp [executions, log]
    · simp [LoopPc.rest, h, log]

/-- Each step is a push, a take, or neither, on the ledger. -/
theorem Step.ledger_cases {s s' : LoopSystem φ} {t : Tid} (h : Step s t s') :
    (s'.pushed = s.pushed ∧ s'.ledger = s.ledger) ∨
    (∃ q, s'.pushed = s.pushed ++ [q] ∧ s'.ledger = s.ledger.push [q]) ∨
    (s'.pushed = s.pushed ∧ s'.ledger = s.ledger.take 1) := by
  rcases h.queue_cases with ⟨hp, he, hr, hq, -⟩ | ⟨f, hp, he, hr, hq, -⟩ |
    ⟨hp, he, hr, hr', hq, -⟩ | ⟨q, hp, he, hr, hq, -⟩
  · exact .inl ⟨hp, by simp [ledger, executed, he, hr, hq]⟩
  · exact .inr (.inl ⟨_, hp, by simp [ledger, executed, Fifo.push, he, hr, hq]⟩)
  · -- the swap: what waited in the queue waits in the batch
    exact .inl ⟨hp, by simp [ledger, executed, he, hr, hr', hq]⟩
  · exact .inr (.inr ⟨hp, by simp [ledger, executed, Fifo.take, he, hr, hq]⟩)

/-- What ever entered the queue is what was pushed. -/
theorem ledger_all {tid : Tid} {as : List Tid} {s : LoopSystem φ}
    (h : Run Step (initial tid) as s) : s.ledger.all = s.pushed := by
  induction h with
  | refl => exact Fifo.all_empty
  | tail _ hstep ih =>
    rcases hstep.ledger_cases with ⟨hp, hl⟩ | ⟨q, hp, hl⟩ | ⟨hp, hl⟩
    · rw [hl, hp, ih]
    · rw [hl, hp, Fifo.all_push, ih]
    · rw [hl, hp, Fifo.all_take, ih]

/-- Every start so far was on the loop's thread and in a later batch than the one
its functor was queued in; and what still waits will be, too. -/
structure Batched (s : LoopSystem φ) : Prop where
  started : ∀ e ∈ s.executions, e.1 = s.loop.threadId_ ∧ ∀ b, e.2.2.during = some b → b < e.2.1
  rest : ∀ q ∈ s.pc.rest, ∀ b, q.during = some b → b < s.batches
  pending : ∀ q ∈ s.loop.pendingFunctors_, ∀ b, q.during = some b → b ≤ s.batches

theorem note_during_le (s : LoopSystem φ) (t : Tid) (f : φ) {b : Nat}
    (h : (s.note t f).during = some b) : b ≤ s.batches := by
  simp only [note, running] at h
  split at h
  · exact Nat.le_of_eq (Option.some.inj h).symm
  · cases h

theorem batched_step {s s' : LoopSystem φ} {t : Tid} (hs : Batched s) (h : Step s t s') :
    Batched s' := by
  obtain ⟨hstarted, hrest, hpending⟩ := hs
  have htid := h.threadId
  rcases h.queue_cases with ⟨-, he, hr, hq, hb⟩ | ⟨f, -, he, hr, hq, hb⟩ |
    ⟨-, he, -, hr, hq, hb⟩ | ⟨q, -, he, hr, hq, hb⟩
  · exact ⟨by rwa [he, htid], by rwa [hr, hb], by rwa [hq, hb]⟩
  · refine ⟨by rwa [he, htid], by rwa [hr, hb], ?_⟩
    intro q hmem b hd
    rw [hq, List.mem_append, List.mem_singleton] at hmem
    rw [hb]
    rcases hmem with hmem | rfl
    · exact hpending q hmem b hd
    · exact note_during_le s t f hd
  · refine ⟨by rwa [he, htid], ?_, by simp [hq]⟩
    intro q hmem b hd
    rw [hr] at hmem
    rw [hb]
    exact Nat.lt_succ_of_le (hpending q hmem b hd)
  · refine ⟨?_, ?_, by rwa [hq, hb]⟩
    · intro e hmem
      rw [he, List.mem_append, List.mem_singleton] at hmem
      rw [htid]
      rcases hmem with hmem | rfl
      · exact hstarted e hmem
      · exact ⟨rfl, hrest q (by simp [hr])⟩
    · rw [hb]
      exact fun q' hmem => hrest q' (by simp [hr, hmem])

theorem batched_run {tid : Tid} {as : List Tid} {s : LoopSystem φ}
    (h : Run Step (initial tid) as s) : Batched s := by
  refine h.invariant ⟨?_, ?_, ?_⟩ fun _ _ _ hs hstep => batched_step hs hstep
  · simp [initial, executions]
  · simp [initial, LoopPc.rest]
  · simp [initial, EventLoop.new]

/-- What a thread is just about to push. -/
def CallerPc.inHand : CallerPc φ → List φ
  | .queueing f => [f]
  | _ => []

theorem functorsOf_append (t : Tid) (qs rs : List (Queued φ)) :
    functorsOf t (qs ++ rs) = functorsOf t qs ++ functorsOf t rs := by
  simp [functorsOf]

theorem functorsOf_note_self (s : LoopSystem φ) (t : Tid) (f : φ) :
    functorsOf t [s.note t f] = [f] := by
  simp [functorsOf, note]

theorem functorsOf_note_other (s : LoopSystem φ) {t u : Tid} (h : u ≠ t) (f : φ) :
    functorsOf u [s.note t f] = [] := by
  simp [functorsOf, note, h.symm]

/-- What a thread other than the loop's has submitted is what it has pushed,
followed by what it is about to push. -/
def Submitted (s : LoopSystem φ) : Prop :=
  ∀ t, t ≠ s.loop.threadId_ →
    s.submitted t = functorsOf t s.pushed ++ CallerPc.inHand (s.callers t)

theorem submitted_step {s s' : LoopSystem φ} {t : Tid} (hs : Submitted s) (h : Step s t s') :
    Submitted s' := by
  intro u hu
  rw [h.threadId] at hu
  have hsu := hs u hu
  cases h with
  | enter | leave | again | callback | callbackReturn | beginPending | swap | taskReturn
  | endPending | quitHere => exact hsu
  | poll | handleRead | start | wakeup =>
    simpa [submitted, pushed, log, List.filterMap_cons] using hsu
  | queueHere h f =>
    have hsub : s.submitted u = functorsOf u (s.pushed ++ [s.note s.loop.threadId_ f]) ++
        CallerPc.inHand (s.callers u) := by
      rw [functorsOf_append, functorsOf_note_other s hu, List.append_nil, hsu]
    by_cases hw : s.loop.mustWakeup s.loop.threadId_ = true
    · simpa [submitted, pushed, log, hw, List.filterMap_cons] using hsub
    · simpa [submitted, pushed, log, hw, List.filterMap_cons] using hsub
  | submit ht hidle f =>
    by_cases heq : u = t
    · subst heq
      rw [hidle] at hsu
      simpa [submitted, pushed, log, setCaller, List.filterMap_cons, CallerPc.inHand] using hsu
    · simpa [submitted, pushed, log, setCaller, List.filterMap_cons, heq, Ne.symm heq] using hsu
  | @push _ f ht hq =>
    by_cases heq : u = t
    · subst heq
      rw [hq] at hsu
      have hsub : s.submitted u = functorsOf u (s.pushed ++ [s.note u f]) := by
        rw [functorsOf_append, functorsOf_note_self, hsu]
        rfl
      simpa [submitted, pushed, log, setCaller, List.filterMap_cons, CallerPc.inHand] using hsub
    · have hsub : s.submitted u = functorsOf u (s.pushed ++ [s.note t f]) ++
          CallerPc.inHand (s.callers u) := by
        rw [functorsOf_append, functorsOf_note_other s heq, List.append_nil, hsu]
      simpa [submitted, pushed, log, setCaller, List.filterMap_cons, heq] using hsub
  | quit ht hidle =>
    by_cases heq : u = t
    · subst heq
      rw [hidle] at hsu
      simpa [submitted, pushed, setCaller, CallerPc.inHand] using hsu
    · simpa [submitted, pushed, setCaller, heq] using hsu
  | notify ht hn =>
    by_cases heq : u = t
    · subst heq
      rw [hn] at hsu
      simpa [submitted, pushed, log, setCaller, List.filterMap_cons, CallerPc.inHand] using hsu
    · simpa [submitted, pushed, log, setCaller, List.filterMap_cons, heq] using hsu

theorem submitted_run {tid : Tid} {as : List Tid} {s : LoopSystem φ}
    (h : Run Step (initial tid) as s) : Submitted s := by
  refine h.invariant ?_ fun _ _ _ hs hstep => submitted_step hs hstep
  intro t _
  rfl

/-- **Queued functors run exactly once and in order**, in every reachable state,
under every interleaving of any number of threads with the loop. -/
theorem tasks_in_order {tid : Tid} {as : List Tid} {s : LoopSystem φ}
    (h : Run Step (initial tid) as s) : TasksInOrder s := by
  have hall := ledger_all h
  have hbatched := batched_run h
  refine ⟨?_, fun e he => (hbatched.started e he).1, ?_, ?_⟩
  · rw [List.append_assoc]
    exact hall
  · intro t ht
    have hfilter : functorsOf t s.ledger.done <+: functorsOf t s.ledger.all :=
      (s.ledger.filter_done_prefix _).map _
    rw [hall] at hfilter
    rw [submitted_run h t ht]
    exact hfilter.trans (List.prefix_append _ _)
  · intro e he hd
    exact absurd ((hbatched.started e he).2 _ hd) (Nat.lt_irrefl _)

/-- Threads 1 and 2 queue a functor each; the first one to run queues a third,
which waits for the next batch. -/
theorem tasks_in_order_three : ∃ as, ∃ s : LoopSystem Nat,
    Run Step (initial 0) as s ∧ s.executed.map Queued.functor = [10, 20] ∧
      s.loop.pendingFunctors_.map Queued.functor = [30] ∧ TasksInOrder s := by
  have hrun := Run.refl
    |>.tail (Step.enter (s := (initial 0 : LoopSystem Nat)) rfl)
    |>.tail (.submit (t := 1) (by decide) rfl 10)
    |>.tail (.submit (t := 2) (by decide) rfl 20)
    |>.tail (.push (t := 1) (by decide) rfl)
    |>.tail (.again rfl rfl)
    |>.tail (.poll rfl [] (by decide) (by decide))
    |>.tail (.beginPending rfl)
    |>.tail (.push (t := 2) (by decide) rfl)
    |>.tail (.swap rfl)
    |>.tail (.start rfl)
    |>.tail (.queueHere rfl 30)
    |>.tail (.taskReturn rfl)
    |>.tail (.start rfl)
  exact ⟨_, _, hrun, by decide, by decide, tasks_in_order hrun⟩

end LoopSystem
end Mymuduo
