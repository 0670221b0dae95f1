import Mathlib.Data.Bool.Basic
import Mymuduo.TaskLatency

/-! # How long `loop()` goes on after a `quit`

The store to `quit_` is looked at between two iterations only.  A loop that is waiting in
`epoll_wait`, or about to, returns from that one poll and goes through its iteration; any
other loop does not poll again.  Who stored it, from which thread, and what the other
threads do meanwhile makes no difference.
-/
namespace Mymuduo
open Transition

variable {φ : Type*}

/-- The test of `while(!quit_)` is passed, the poll has not returned. -/
def LoopPc.atPoll : LoopPc φ → Bool
  | .poll => true
  | _ => false

namespace LoopSystem
variable {s s' : LoopSystem φ} {t : Tid}

/-- The polls that have returned, and the one the loop is committed to. -/
def pollsDue (s : LoopSystem φ) : Nat := s.polls + s.pc.atPoll.toNat

/-- With `quit_` stored, the loop comes to no other poll. -/
theorem Step.atPoll (h : Step s t s') (hq : s.loop.quit_ = true) (hpc : s'.pc.atPoll = true) :
    s.pc.atPoll = true := by
  cases h with
  | again h hq' => cases hq.symm.trans hq'
  | queueHere | quitHere | submit | push | quit | notify | wakeup => exact hpc
  | enter | leave | poll | handleRead | callback | callbackReturn | beginPending | swap | start
  | taskReturn | endPending => cases hpc

/-- With `quit_` stored, no step commits the loop to another poll. -/
theorem Step.pollsDue_le (h : Step s t s') (hq : s.loop.quit_ = true) :
    s'.pollsDue ≤ s.pollsDue := by
  rcases h.polls_cases with hpolls | ⟨hpc, hpc', hpolls⟩
  · have hle : s'.pc.atPoll.toNat ≤ s.pc.atPoll.toNat := Bool.toNat_le_toNat (h.atPoll hq)
    rw [pollsDue, pollsDue, hpolls]
    exact Nat.add_le_add_left hle _
  · -- the poll it was committed to
    have hpast : s'.pc.atPoll = false := by
      cases hpc'' : s'.pc with
      | poll =>
        rw [hpc''] at hpc'
        cases hpc'
      | _ => rfl
    rw [pollsDue, pollsDue, hpolls, hpast, hpc]
    exact Nat.le_refl _

/-- **A quit is heard.**  Once `quit_` is stored, by whichever thread and wherever the loop
stands, `loop()` returns before any poll it was not already committed to: a run in which such
a poll returns has left `loop()` before, and entered it anew. -/
theorem returns_before_next_poll {bs : List Tid} (hq : s.loop.quit_ = true)
    (hrun : Run Step s bs s') (hpolls : s.pollsDue < s'.polls) :
    ∃ as cs u, bs = as ++ cs ∧ Run Step s as u ∧ Run Step u cs s' ∧ u.pc.isOutside = true ∧
      u.polls ≤ s.pollsDue := by
  have hdue : ∀ u : LoopSystem φ, u.polls ≤ u.pollsDue := fun u => Nat.le_add_right ..
  have hwhole := @Run.invariant_until _ _ _ _ _
    (fun u => u.loop.quit_ = true ∧ u.pollsDue ≤ s.pollsDue) (fun u => u.pc.isOutside = true) _
    hrun ⟨hq, Nat.le_refl _⟩ ?_
  · rcases hwhole with ⟨-, hle⟩ | ⟨as, cs, u, hbs, hbefore, hafter, ⟨-, hle⟩, hout⟩
    · exact absurd (Nat.le_trans (hdue s') hle) (Nat.not_le.mpr hpolls)
    · exact ⟨as, cs, u, hbs, hbefore, hafter, hout, Nat.le_trans (hdue u) hle⟩
  · rintro u a v ⟨hquit, hle⟩ hin hstep
    exact ⟨hstep.quit_kept (Bool.eq_false_iff.mpr hin) hquit,
      Nat.le_trans (hstep.pollsDue_le hquit) hle⟩

/-- Thread 1 quits a loop that is about to poll; the second poll is one of the next `loop()`. -/
theorem returns_before_next_poll_twice : ∃ as bs, ∃ s s' : LoopSystem Nat,
    Run Step (initial 0) as s ∧ Run Step s bs s' ∧ s.pc.atPoll = true ∧ s'.polls = 2 ∧
      ∃ cs ds u, bs = cs ++ ds ∧ Run Step s cs u ∧ Run Step u ds s' ∧ u.pc.isOutside = true ∧
        u.polls ≤ 1 := by
  have hrun := Run.refl
    |>.tail (Step.enter (s := (initial 0 : LoopSystem Nat)) rfl)
    |>.tail (.again rfl rfl)
    |>.tail (.quit (t := 1) (by decide) rfl)
  have hrest := hrun.stop
    |>.tail (.poll rfl [] (by decide) (by decide))
    |>.tail (.beginPending rfl)
    |>.tail (.swap rfl)
    |>.tail (.endPending rfl)
    |>.tail (.leave rfl rfl)
    |>.tail (.enter rfl)
    |>.tail (.again rfl rfl)
    |>.tail (.poll rfl [] (by decide) (by decide))
  exact ⟨_, _, _, _, hrun, hrest, rfl, rfl, returns_before_next_poll rfl hrest (by decide)⟩

end LoopSystem
end Mymuduo
