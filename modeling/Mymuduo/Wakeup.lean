import Mymuduo.EventLoop

/-! # Wake-ups of the loop

Are wake-ups consumed?  Every iteration that finds `wakeupChannel_` active should
be owed to a call of `wakeup` of its own, and a poll made after `handleRead` has
run, with no `wakeup` since, should not find `wakeupFd_` readable.

`EventLoop::handleRead` writes to the eventfd where it should read from it, so the
counter never goes down: once `handleRead` has run, every later poll reports
`wakeupChannel_`.  `WakeupTally` counts along a trace; `Step.wake_cases` says what
a step can do to the counter, to the trace and to what the iteration still has
to handle; from it the two invariants of a run follow, `Restless` of any run and
`Balanced` of the runs in which no poll is stale.
-/
namespace Mymuduo
open Transition

variable {φ : Type*}

/-- What has been counted along a trace. -/
structure WakeupTally where
  /-- The calls of `wakeup`. -/
  wakeups : Nat
  /-- The polls that reported `wakeupChannel_`. -/
  reports : Nat
  /-- `handleRead` has run. -/
  handled : Bool
  /-- The calls of `wakeup` since `handleRead` last ran. -/
  fresh : Nat
deriving DecidableEq, Repr

namespace WakeupTally

def zero : WakeupTally := ⟨0, 0, false, 0⟩

def observe (c : WakeupTally) : LoopEvent φ → WakeupTally
  | .wakeup _ => { c with wakeups := c.wakeups + 1, fresh := c.fresh + 1 }
  | .polled true => { c with reports := c.reports + 1 }
  | .handleRead => { c with handled := true, fresh := 0 }
  | _ => c

/-- `handleRead` has run, and nobody has called `wakeup` since. -/
def Stale (c : WakeupTally) : Prop := c.handled = true ∧ c.fresh = 0

instance (c : WakeupTally) : Decidable c.Stale := inferInstanceAs (Decidable (_ ∧ _))

end WakeupTally

open WakeupTally

/-- Wake-ups are consumed: at no point have more polls reported `wakeupChannel_`
than there were calls of `wakeup`, and a stale poll does not report it. -/
structure WakeupsConsumed (trace : List (LoopEvent φ)) : Prop where
  reports_le : Always observe (fun c => c.reports ≤ c.wakeups) zero trace
  blocks : Along observe (fun c e => c.Stale → e ≠ .polled true) zero trace

/-- No poll is stale: after `handleRead` has run, somebody calls `wakeup` before
every next poll. -/
def PollsWoken (trace : List (LoopEvent φ)) : Prop :=
  Along observe (fun c e => ∀ b, e = .polled b → ¬ c.Stale) zero trace

/-- An event that is none of the three that bear on wake-ups. -/
def LoopEvent.Unrelated : LoopEvent φ → Prop
  | .wakeup _ | .polled _ | .handleRead => False
  | _ => True

theorem observe_unrelated {e : LoopEvent φ} (h : e.Unrelated) (c : WakeupTally) :
    observe c e = c := by
  cases e <;> first | rfl | exact h.elim

/-- Unrelated events leave the tally alone. -/
theorem foldl_observe_unrelated {es : List (LoopEvent φ)} (h : ∀ e ∈ es, e.Unrelated)
    (c : WakeupTally) : es.foldl observe c = c := by
  induction es generalizing c with
  | nil => rfl
  | cons e es ih =>
    rw [List.foldl_cons, observe_unrelated (h e (by simp))]
    exact ih (fun e' he' => h e' (by simp [he'])) c

/-- What asks something of the polls only asks nothing of unrelated events. -/
theorem along_unrelated {Q : WakeupTally → LoopEvent φ → Prop}
    (hQ : ∀ c e, e.Unrelated → Q c e) {es : List (LoopEvent φ)} (h : ∀ e ∈ es, e.Unrelated)
    (c : WakeupTally) : Along observe Q c es := by
  intro l e hl
  exact hQ _ _ (h e (hl.subset (by simp)))

/-- What holds of the tally goes on holding through unrelated events. -/
theorem always_unrelated {P : WakeupTally → Prop} {es : List (LoopEvent φ)}
    (h : ∀ e ∈ es, e.Unrelated) {c : WakeupTally} (hc : P c) : Always observe P c es := by
  intro l hl
  rw [foldl_observe_unrelated (fun e he => h e (hl.subset he))]
  exact hc

namespace LoopPc

/-- The channels of `activeChannels_` not yet gone through. -/
def active : LoopPc φ → List ActiveChannel
  | .dispatch active | .callback active => active
  | _ => []

/-- How often the iteration still has to call `handleRead`. -/
def due (pc : LoopPc φ) : Nat := pc.active.count .wakeup

end LoopPc

namespace LoopSystem

def tally (s : LoopSystem φ) : WakeupTally := s.trace.foldl observe zero

theorem tally_of_trace {s s' : LoopSystem φ} {es : List (LoopEvent φ)}
    (h : s'.trace = s.trace ++ es) : s'.tally = es.foldl observe s.tally := by
  rw [tally, h, List.foldl_append, tally]

/-- **What a step can do to the wake-ups.**  It leaves them alone, or calls
`wakeup`, or polls, or runs `handleRead`. -/
theorem Step.wake_cases {s s' : LoopSystem φ} {t : Tid} (h : Step s t s') :
    (∃ es : List (LoopEvent φ), (∀ e ∈ es, e.Unrelated) ∧ s'.trace = s.trace ++ es ∧
      s'.loop.wakeupFd_ = s.loop.wakeupFd_ ∧ s'.pc.due = s.pc.due) ∨
    (∃ es : List (LoopEvent φ), (∀ e ∈ es, e.Unrelated) ∧
      s'.trace = s.trace ++ es ++ [.wakeup t] ∧
      s'.loop.wakeupFd_ = s.loop.wakeupFd_ + 1 ∧ s'.pc.due = s.pc.due) ∨
    (s'.trace = s.trace ++ [.polled s.loop.wakeupReadable] ∧
      s'.loop.wakeupFd_ = s.loop.wakeupFd_ ∧ s.pc.due = 0 ∧
      s'.pc.due = if s.loop.wakeupReadable then 1 else 0) ∨
    (s'.trace = s.trace ++ [.handleRead] ∧
      s'.loop.wakeupFd_ = s.loop.wakeupFd_ + 1 ∧ s.pc.due = s'.pc.due + 1) := by
  cases h with
  | enter h | again h | leave h | beginPending h | swap h | taskReturn h | endPending h
  | callback h | callbackReturn h =>
    exact .inl ⟨[], by simp, by simp, rfl, by simp [LoopPc.due, LoopPc.active, h]⟩
  | quitHere h => exact .inl ⟨[], by simp, by simp, rfl, rfl⟩
  | quit ht h => exact .inl ⟨[], by simp, by simp [setCaller], rfl, rfl⟩
  | start h =>
    refine .inl ⟨_, by simp [LoopEvent.Unrelated], rfl, rfl, ?_⟩
    simp [log, LoopPc.due, LoopPc.active, h]
  | submit ht h f => exact .inl ⟨_, by simp [LoopEvent.Unrelated], rfl, rfl, rfl⟩
  | push ht h => exact .inl ⟨_, by simp [LoopEvent.Unrelated], rfl, rfl, rfl⟩
  | queueHere h f =>
    by_cases hw : s.loop.mustWakeup s.loop.threadId_ = true
    · refine .inr (.inl ⟨[.pushed (s.note s.loop.threadId_ f)], ?_, ?_, ?_, rfl⟩)
      · simp [LoopEvent.Unrelated]
      · simp [log, hw]
      · simp [log, EventLoop.queueInLoop, hw, EventLoop.wakeup, EventLoop.enqueue]
    · refine .inl ⟨[.pushed (s.note s.loop.threadId_ f)], ?_, ?_, ?_, rfl⟩
      · simp [LoopEvent.Unrelated]
      · simp [log, hw]
      · simp [log, EventLoop.queueInLoop, hw, EventLoop.enqueue]
  | notify ht h => exact .inr (.inl ⟨[], by simp, by simp [log, setCaller], rfl, rfl⟩)
  | wakeup h h' => exact .inr (.inl ⟨[], by simp, by simp [log], rfl, rfl⟩)
  | poll h active hnodup hw =>
    refine .inr (.inr (.inl ⟨rfl, rfl, by simp [LoopPc.due, LoopPc.active, h], ?_⟩))
    -- the poll reports each channel once
    show active.count .wakeup = _
    rw [hnodup.count]
    simp only [hw]
  | handleRead h =>
    exact .inr (.inr (.inr ⟨rfl, rfl, by simp [log, LoopPc.due, LoopPc.active, h]⟩))

/-- The trace only grows. -/
theorem Step.trace_extends {s s' : LoopSystem φ} {t : Tid} (h : Step s t s') :
    ∃ es, s'.trace = s.trace ++ es := by
  rcases h.wake_cases with ⟨es, -, htr, -⟩ | ⟨es, -, htr, -⟩ | ⟨htr, -⟩ | ⟨htr, -⟩
  · exact ⟨es, htr⟩
  · exact ⟨es ++ [.wakeup t], by rw [htr, List.append_assoc]⟩
  · exact ⟨_, htr⟩
  · exact ⟨_, htr⟩

/-- What every run keeps: before `handleRead` has run, the counter is made of
`wakeup`s not yet handled; from then on it is positive, and every poll reports
`wakeupChannel_`. -/
structure Restless (s : LoopSystem φ) : Prop where
  due_le : s.pc.due ≤ 1
  fresh : s.tally.handled = false → s.loop.wakeupFd_ ≤ s.tally.fresh
  readable : s.tally.handled = true → s.loop.wakeupReadable = true
  reported : Along observe (fun c e => c.handled = true → e ≠ .polled false) zero s.trace

theorem restless_step {s s' : LoopSystem φ} {t : Tid} (hs : Restless s) (h : Step s t s') :
    Restless s' := by
  obtain ⟨hdue, hfresh, hreadable, hreported⟩ := hs
  rcases h.wake_cases with ⟨es, hes, htr, hfd, hd⟩ | ⟨es, hes, htr, hfd, hd⟩ |
    ⟨htr, hfd, hd, hd'⟩ | ⟨htr, hfd, hd⟩
  · have htally : s'.tally = s.tally := by
      rw [tally_of_trace htr, foldl_observe_unrelated hes]
    refine ⟨hd ▸ hdue, by rwa [htally, hfd], ?_, ?_⟩
    · rw [htally, EventLoop.wakeupReadable, hfd]
      exact hreadable
    · rw [htr, along_append]
      refine ⟨hreported, along_unrelated ?_ hes _⟩
      rintro c e he - rfl
      exact he
  · have htally : s'.tally = observe s.tally (.wakeup t : LoopEvent φ) := by
      rw [List.append_assoc] at htr
      rw [tally_of_trace htr, List.foldl_append, foldl_observe_unrelated hes]
      rfl
    refine ⟨hd ▸ hdue, ?_, ?_, ?_⟩
    · rw [htally, hfd]
      intro hh
      exact Nat.add_le_add_right (hfresh hh) 1
    · simp [EventLoop.wakeupReadable, hfd]
    · rw [htr, along_append, along_append]
      refine ⟨⟨hreported, along_unrelated ?_ hes _⟩, ?_⟩
      · rintro c e he - rfl
        exact he
      · rw [along_singleton]
        simp
  · have htally : s'.tally = observe s.tally (.polled s.loop.wakeupReadable : LoopEvent φ) :=
      tally_of_trace htr
    have hhandled : s'.tally.handled = s.tally.handled := by
      rw [htally]
      cases s.loop.wakeupReadable <;> rfl
    have hfr : s'.tally.fresh = s.tally.fresh := by
      rw [htally]
      cases s.loop.wakeupReadable <;> rfl
    refine ⟨?_, by rwa [hhandled, hfr, hfd], ?_, ?_⟩
    · rw [hd']
      split <;> simp
    · rw [hhandled, EventLoop.wakeupReadable, hfd]
      exact hreadable
    · rw [htr, along_append, along_singleton]
      refine ⟨hreported, fun hh hp => ?_⟩
      have := hreadable hh
      simp_all
  · have htally : s'.tally = observe s.tally (.handleRead : LoopEvent φ) := tally_of_trace htr
    refine ⟨by omega, ?_, ?_, ?_⟩
    · rw [htally]
      intro hh
      exact absurd hh (by simp [observe])
    · -- the counter has just been increased
      simp [EventLoop.wakeupReadable, hfd]
    · rw [htr, along_append, along_singleton]
      exact ⟨hreported, by simp⟩

theorem restless_run {tid : Tid} {as : List Tid} {s : LoopSystem φ}
    (h : Run Step (initial tid) as s) : Restless s := by
  refine h.invariant ⟨by simp [initial, LoopPc.due, LoopPc.active], ?_, ?_, along_nil⟩
    fun _ _ _ hs hstep => restless_step hs hstep
  · intro _
    exact Nat.le_refl 0
  · intro hh
    simp [tally, initial, zero] at hh

/-- What a run without stale polls keeps: outside an iteration that still has to
handle a report, the reports and the `wakeup`s not yet handled are owed to
different calls of `wakeup`. -/
structure Balanced (s : LoopSystem φ) : Prop where
  reports_le : Always observe (fun c => c.reports ≤ c.wakeups) zero s.trace
  settled : s.pc.due = 0 → s.tally.reports + s.tally.fresh ≤ s.tally.wakeups

theorem balanced_step {s s' : LoopSystem φ} {t : Tid} (hr : Restless s) (hs : Balanced s)
    (h : Step s t s') (hw : PollsWoken s'.trace) : Balanced s' := by
  obtain ⟨hle, hset⟩ := hs
  have hlast : s.tally.reports ≤ s.tally.wakeups := hle.last
  rcases h.wake_cases with ⟨es, hes, htr, hfd, hd⟩ | ⟨es, hes, htr, hfd, hd⟩ |
    ⟨htr, hfd, hd, hd'⟩ | ⟨htr, hfd, hd⟩
  · have htally : s'.tally = s.tally := by
      rw [tally_of_trace htr, foldl_observe_unrelated hes]
    refine ⟨?_, by rwa [htally, hd]⟩
    rw [htr, always_append]
    exact ⟨hle, always_unrelated hes hlast⟩
  · have htally : s'.tally = observe s.tally (.wakeup t : LoopEvent φ) := by
      rw [List.append_assoc] at htr
      rw [tally_of_trace htr, List.foldl_append, foldl_observe_unrelated hes]
      rfl
    refine ⟨?_, ?_⟩
    · rw [htr, always_append, always_append, List.foldl_append, foldl_observe_unrelated hes,
        always_singleton]
      exact ⟨⟨hle, always_unrelated hes hlast⟩, hlast, Nat.le_succ_of_le hlast⟩
    · rw [htally, hd]
      intro h0
      have := hset h0
      simp only [observe]
      omega
  · rw [PollsWoken, htr, along_append, along_singleton] at hw
    have hstale : ¬ s.tally.Stale := hw.2 _ rfl
    have hbal := hset hd
    -- a report is owed to a call of `wakeup` not yet handled
    have hfresh : s.loop.wakeupReadable = true → 1 ≤ s.tally.fresh := by
      intro hwr
      cases hh : s.tally.handled with
      | true => exact Nat.one_le_iff_ne_zero.mpr fun h0 => hstale ⟨hh, h0⟩
      | false =>
        have := hr.fresh hh
        have : 0 < s.loop.wakeupFd_ := by simpa [EventLoop.wakeupReadable] using hwr
        omega
    have htally : s'.tally = observe s.tally (.polled s.loop.wakeupReadable : LoopEvent φ) :=
      tally_of_trace htr
    have hle' : s'.tally.reports ≤ s'.tally.wakeups := by
      rw [htally]
      cases hwr : s.loop.wakeupReadable with
      | false => exact hlast
      | true =>
        have := hfresh hwr
        simp only [observe]
        omega
    refine ⟨?_, ?_⟩
    · rw [htr, always_append, always_singleton]
      exact ⟨hle, hlast, by rwa [htally] at hle'⟩
    · rw [hd', htally]
      cases hwr : s.loop.wakeupReadable with
      | false => exact fun _ => hbal
      | true => simp
  · have htally : s'.tally = observe s.tally (.handleRead : LoopEvent φ) := tally_of_trace htr
    refine ⟨?_, ?_⟩
    · rw [htr, always_append, always_singleton]
      exact ⟨hle, hlast, hlast⟩
    · rw [htally]
      exact fun _ => hlast

/-- A run without stale polls is balanced. -/
theorem balanced_run {tid : Tid} {as : List Tid} {s : LoopSystem φ}
    (h : Run Step (initial tid) as s) (hw : PollsWoken s.trace) : Balanced s := by
  induction h with
  | refl => exact ⟨always_nil.mpr (Nat.le_refl 0), fun _ => Nat.le_refl 0⟩
  | tail hrun hstep ih =>
    obtain ⟨es, htr⟩ := hstep.trace_extends
    have hw' := hw
    rw [PollsWoken, htr, along_append] at hw'
    exact balanced_step (restless_run hrun) (ih hw'.1) hstep hw

/-- **When wake-ups are consumed.**  In every run, under every interleaving, they
are consumed exactly when no poll is made after `handleRead` has run and before
somebody calls `wakeup` again. -/
theorem wakeups_consumed_iff {tid : Tid} {as : List Tid} {s : LoopSystem φ}
    (h : Run Step (initial tid) as s) : WakeupsConsumed s.trace ↔ PollsWoken s.trace := by
  constructor
  · intro hc l e hl b he hstale
    have hblocks : e ≠ .polled true := hc.blocks l e hl hstale
    have hreported : e ≠ .polled false := (restless_run h).reported l e hl hstale.1
    cases b with
    | true => exact hblocks he
    | false => exact hreported he
  · intro hw
    refine ⟨(balanced_run h hw).reports_le, ?_⟩
    intro l e hl hstale he
    exact hw l e hl true he hstale

/-- A run in which the second poll is made after a second call of `wakeup`. -/
theorem woken_loop_consumed : ∃ as, ∃ s : LoopSystem Unit,
    Run Step (initial 0) as s ∧ s.tally.reports = 2 ∧ WakeupsConsumed s.trace := by
  have hrun := Run.refl
    |>.tail (Step.enter (s := (initial 0 : LoopSystem Unit)) rfl)
    |>.tail (.wakeup (t := 1) (by decide) (fun _ => rfl))
    |>.tail (.again rfl rfl)
    |>.tail (.poll rfl [.wakeup] (by decide) (by decide))
    |>.tail (.handleRead rfl)
    |>.tail (.wakeup (t := 1) (by decide) (fun _ => rfl))
    |>.tail (.beginPending rfl)
    |>.tail (.swap rfl)
    |>.tail (.endPending rfl)
    |>.tail (.again rfl rfl)
    |>.tail (.poll rfl [.wakeup] (by decide) (by decide))
  refine ⟨_, _, hrun, by decide, (wakeups_consumed_iff hrun).mpr ?_⟩
  simp [PollsWoken, log, initial, along_cons, along_nil, observe, zero, Stale]

/-- The loop wakes up once for the one call of `wakeup`, and then again for
nobody's. -/
theorem idle_loop_not_consumed : ∃ as, ∃ s : LoopSystem Unit,
    Run Step (initial 0) as s ∧ ¬ WakeupsConsumed s.trace := by
  have hrun := Run.refl
    |>.tail (Step.enter (s := (initial 0 : LoopSystem Unit)) rfl)
    |>.tail (.wakeup (t := 1) (by decide) (fun _ => rfl))
    |>.tail (.again rfl rfl)
    |>.tail (.poll rfl [.wakeup] (by decide) (by decide))
    |>.tail (.handleRead rfl)
    |>.tail (.beginPending rfl)
    |>.tail (.swap rfl)
    |>.tail (.endPending rfl)
    |>.tail (.again rfl rfl)
    |>.tail (.poll rfl [.wakeup] (by decide) (by decide))
  refine ⟨_, _, hrun, fun hc => ?_⟩
  exact absurd hc.reports_le.last (by decide)

end LoopSystem
end Mymuduo
