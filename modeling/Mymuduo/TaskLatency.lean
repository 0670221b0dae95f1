import Mymuduo.QuitDrain

/-! # How long a functor waits

That a queued functor runs once and in order says nothing about when.  A poll that returns
after the push begins an iteration whose swap takes the functor, and the batch is gone
through before the next poll: whatever had been pushed before the first of two polls
returned has been executed when the second one returns.

This bounds the wait in iterations, whoever else pushes meanwhile, and also across a
`quit` and the next call of `loop()`.
-/
namespace Mymuduo
open Transition

variable {φ : Type*}

/-- A poll has returned. -/
@[simp] def LoopEvent.isPoll : LoopEvent φ → Bool
  | .polled _ => true
  | _ => false

namespace LoopSystem

/-- The polls that have returned so far. -/
def polls (s : LoopSystem φ) : Nat := s.trace.countP LoopEvent.isPoll

section Step
variable {s s' : LoopSystem φ} {t : Tid}

/-- A poll returns, or none does. -/
theorem Step.polls_cases (h : Step s t s') :
    s'.polls = s.polls ∨
      (s.pc = .poll ∧ s'.pc.beforeSwap = true ∧ s'.polls = s.polls + 1) := by
  cases h with
  | poll h => exact Or.inr ⟨h, rfl, by simp [polls, log]⟩
  | queueHere h f =>
    refine Or.inl ?_
    simp only [polls, log]
    split <;> simp
  | handleRead | start | submit | push | notify | wakeup =>
    exact Or.inl (by simp [polls, log, setCaller])
  | enter | leave | again | callback | callbackReturn | beginPending | swap | taskReturn
  | endPending | quitHere | quit => exact Or.inl rfl

/-- Pushes are added at the end. -/
theorem Step.pushed_prefix (h : Step s t s') : s.pushed <+: s'.pushed := by
  rcases h.queue_cases with ⟨hp, -⟩ | ⟨f, hp, -⟩ | ⟨hp, -⟩ | ⟨q, hp, -⟩
  · exact hp ▸ List.prefix_refl _
  · exact hp ▸ List.prefix_append _ _
  · exact hp ▸ List.prefix_refl _
  · exact hp ▸ List.prefix_refl _

theorem Step.executed_le (h : Step s t s') : s.executed.length ≤ s'.executed.length := by
  rcases h.queue_cases with ⟨-, he, -⟩ | ⟨f, -, he, -⟩ | ⟨-, he, -⟩ | ⟨q, -, he, -⟩ <;>
    simp [executed, he]

theorem Step.taken_le (h : Step s t s') : s.taken ≤ s'.taken := by
  rcases h.taken_cases with ⟨htaken, -⟩ | ⟨-, -, htaken⟩ <;> omega

end Step

/-- The functors `qs` are pushed, and `k` polls had returned.  After the next poll they are
in the iteration's batch, or will be; after the one behind it they have been executed. -/
structure Awaited (qs : List (Queued φ)) (k : Nat) (s : LoopSystem φ) : Prop where
  ledger : s.ledger.all = s.pushed
  pushed : qs <+: s.pushed
  first : k + 1 ≤ s.polls → s.pc.beforeSwap = true ∨ qs.length ≤ s.taken
  second : k + 2 ≤ s.polls → qs.length ≤ s.executed.length

section Run
variable {qs : List (Queued φ)} {k : Nat} {s s' : LoopSystem φ} {t : Tid}

/-- With nothing in `pendingFunctors_`, everything has been taken. -/
theorem Awaited.taken_of_empty (hs : Awaited qs k s) (hempty : s.loop.pendingFunctors_ = []) :
    qs.length ≤ s.taken := by
  have hlength := congrArg List.length hs.ledger
  simp only [Fifo.all, LoopSystem.ledger, hempty, List.append_nil, List.length_append] at hlength
  rw [taken, hlength]
  exact hs.pushed.length_le

theorem awaited_step (hs : Awaited qs k s) (h : Step s t s') : Awaited qs k s' := by
  have hledger : s'.ledger.all = s'.pushed := by
    rcases h.ledger_cases with ⟨hp, hl⟩ | ⟨q, hp, hl⟩ | ⟨hp, hl⟩
    · rw [hl, hp, hs.ledger]
    · rw [hl, hp, Fifo.all_push, hs.ledger]
    · rw [hl, hp, Fifo.all_take, hs.ledger]
  have hpushed := hs.pushed.trans h.pushed_prefix
  rcases h.polls_cases with hpolls | ⟨hpc, hpc', hpolls⟩
  · refine ⟨hledger, hpushed, fun hk => ?_, fun hk => ?_⟩
    · rcases hs.first (hpolls ▸ hk) with hahead | htaken
      · -- still ahead of the swap, or just past it
        rcases h.beforeSwap hahead with hahead' | hempty
        · exact Or.inl hahead'
        · have hbare : Awaited qs s'.polls s' :=
            ⟨hledger, hpushed, fun hn => absurd hn (Nat.not_succ_le_self _), fun hn => by omega⟩
          exact Or.inr (hbare.taken_of_empty hempty)
      · exact Or.inr (Nat.le_trans htaken h.taken_le)
    · exact Nat.le_trans (hs.second (hpolls ▸ hk)) h.executed_le
  · refine ⟨hledger, hpushed, fun _ => Or.inl hpc', fun hk => ?_⟩
    -- a poll is made with the batch gone through
    have htaken : s.taken = s.executed.length := by simp [taken, hpc, LoopPc.rest]
    have hfirst := hs.first (by omega)
    rw [hpc, htaken] at hfirst
    exact Nat.le_trans (hfirst.resolve_left (by simp [LoopPc.beforeSwap])) h.executed_le

/-- **A functor waits for two polls at most.**  In every run, under every interleaving of any
number of threads with the loop: what had been pushed at some moment has been executed once
two more polls have returned. -/
theorem executed_by_second_poll {tid : Tid} {as bs : List Tid}
    (h : Run Step (initial tid) as s) (hrun : Run Step s bs s')
    (hpolls : s.polls + 2 ≤ s'.polls) : s.pushed <+: s'.executed := by
  have hstart : Awaited s.pushed s.polls s :=
    ⟨ledger_all h, List.prefix_refl _, fun hk => absurd hk (Nat.not_succ_le_self _),
      fun hk => by omega⟩
  have hend : Awaited s.pushed s.polls s' :=
    hrun.invariant hstart fun _ _ _ hs hstep => awaited_step hs hstep
  have hexecuted : s'.executed <+: s'.pushed := hend.ledger ▸ s'.ledger.done_prefix_all
  exact List.prefix_of_prefix_length_le hend.pushed hexecuted (hend.second hpolls)

end Run

/-- Thread 1 pushes while the loop runs its batch: its functor runs in the iteration behind
the next poll, and the poll after that finds it executed. -/
theorem executed_by_second_poll_late : ∃ as bs, ∃ s s' : LoopSystem Nat,
    Run Step (initial 0) as s ∧ Run Step s bs s' ∧ s.executed = [] ∧
      s.pushed.map Queued.functor = [10] ∧ s.pushed <+: s'.executed := by
  have hrun := Run.refl
    |>.tail (Step.enter (s := (initial 0 : LoopSystem Nat)) rfl)
    |>.tail (.again rfl rfl)
    |>.tail (.poll rfl [] (by decide) (by decide))
    |>.tail (.beginPending rfl)
    |>.tail (.swap rfl)
    |>.tail (.submit (t := 1) (by decide) rfl 10)
    |>.tail (.push (t := 1) (by decide) rfl)
  have hrest := hrun.stop
    |>.tail (.endPending rfl)
    |>.tail (.again rfl rfl)
    |>.tail (.poll rfl [] (by decide) (by decide))
    |>.tail (.beginPending rfl)
    |>.tail (.swap rfl)
    |>.tail (.start rfl)
    |>.tail (.taskReturn rfl)
    |>.tail (.endPending rfl)
    |>.tail (.again rfl rfl)
    |>.tail (.poll rfl [] (by decide) (by decide))
  exact ⟨_, _, _, _, hrun, hrest, by decide, by decide,
    executed_by_second_poll hrun hrest (by decide)⟩

end LoopSystem
end Mymuduo
