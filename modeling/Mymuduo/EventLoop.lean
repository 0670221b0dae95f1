import Mathlib.Logic.Function.Basic
import Mymuduo.Lib.Runs

/-! # The event loop

`EventLoop` holds the members of the class that its functions share: the flags,
the counter of the eventfd behind `wakeupFd_`, and the queue `pendingFunctors_`.
The functions are those of `EventLoop.cc`, cut at the points where other threads
can come in between: the critical sections under `mutex_`, the stores to the
atomic flags, and the calls of `wakeup`.

`LoopSystem` puts the loop's thread and any number of other threads around it.
The loop's thread runs `loop()` (`LoopPc` is where it stands), with arbitrary
user code in the callbacks of the active channels and in the functors of the
batch; the other threads submit functors, call `quit` and call `wakeup`.  `Step`
is one atomic step of one of them, labelled with the thread that takes it, so a
run is an arbitrary interleaving.

Everything that happened is on the `trace`.  A functor is queued with two notes
for the statements (who submitted it, and which batch was running then) that no
step ever reads.
-/
namespace Mymuduo

/-- A thread id. -/
abbrev Tid := Nat

structure EventLoop (φ : Type*) where
  threadId_ : Tid
  looping_ : Bool
  quit_ : Bool
  callingPendingFunctors_ : Bool
  /-- The counter of the eventfd. -/
  wakeupFd_ : Nat
  pendingFunctors_ : List φ
deriving DecidableEq, Repr

namespace EventLoop
variable {φ : Type*}

/-- The constructor, run by thread `tid`. -/
def new (tid : Tid) : EventLoop φ := ⟨tid, false, false, false, 0, []⟩

def isInLoopThread (l : EventLoop φ) (t : Tid) : Bool := l.threadId_ == t

/-- Level-triggered epoll reports the eventfd while its counter is positive. -/
def wakeupReadable (l : EventLoop φ) : Bool := 0 < l.wakeupFd_

/-- Writes `1` to the eventfd. -/
def wakeup (l : EventLoop φ) : EventLoop φ := { l with wakeupFd_ := l.wakeupFd_ + 1 }

/-- The read callback of `wakeupChannel_`.  It calls `write`, not `read`: the counter
goes up by one. -/
def handleRead (l : EventLoop φ) : EventLoop φ := { l with wakeupFd_ := l.wakeupFd_ + 1 }

/-- The critical section of `queueInLoop`. -/
def enqueue (l : EventLoop φ) (f : φ) : EventLoop φ :=
  { l with pendingFunctors_ := l.pendingFunctors_ ++ [f] }

/-- Whether `queueInLoop`, called by `t`, goes on to call `wakeup`. -/
def mustWakeup (l : EventLoop φ) (t : Tid) : Bool :=
  !l.isInLoopThread t || l.callingPendingFunctors_

/-- `queueInLoop`, called by `t` with nobody in between. -/
def queueInLoop (l : EventLoop φ) (t : Tid) (f : φ) : EventLoop φ :=
  if l.mustWakeup t then (l.enqueue f).wakeup else l.enqueue f

section QueueInLoop
variable (l : EventLoop φ) (t : Tid) (f : φ)

theorem pending_queueInLoop :
    (l.queueInLoop t f).pendingFunctors_ = l.pendingFunctors_ ++ [f] := by
  unfold queueInLoop
  split <;> rfl

@[simp] theorem threadId_queueInLoop : (l.queueInLoop t f).threadId_ = l.threadId_ := by
  unfold queueInLoop
  split <;> rfl

@[simp] theorem quit_queueInLoop : (l.queueInLoop t f).quit_ = l.quit_ := by
  unfold queueInLoop
  split <;> rfl

@[simp] theorem calling_queueInLoop :
    (l.queueInLoop t f).callingPendingFunctors_ = l.callingPendingFunctors_ := by
  unfold queueInLoop
  split <;> rfl

end QueueInLoop

/-- The store of `quit`. -/
def setQuit (l : EventLoop φ) : EventLoop φ := { l with quit_ := true }

/-- The two stores at the head of `loop`. -/
def enterLoop (l : EventLoop φ) : EventLoop φ := { l with looping_ := true, quit_ := false }

def leaveLoop (l : EventLoop φ) : EventLoop φ := { l with looping_ := false }

def setCalling (l : EventLoop φ) (b : Bool) : EventLoop φ := { l with callingPendingFunctors_ := b }

/-- The critical section of `doPendingFunctor`: the queue is swapped with an empty
vector, and what was in it is the batch. -/
def swapPending (l : EventLoop φ) : EventLoop φ × List φ :=
  ({ l with pendingFunctors_ := [] }, l.pendingFunctors_)

end EventLoop

/-- A channel a poll reports: `wakeupChannel_`, or another one. -/
inductive ActiveChannel where
  | wakeup
  | other (fd : Nat)
deriving DecidableEq, Repr

/-- A functor in the queue, noted with the thread that pushed it and the number of
the batch that was running at that moment, if any.  `outside` notes a push by the
loop's own thread while it was not in `loop()`. -/
structure Queued (φ : Type*) where
  functor : φ
  submitter : Tid
  during : Option Nat
  outside : Bool
deriving DecidableEq, Repr

/-- Where the loop's thread stands. -/
inductive LoopPc (φ : Type*) where
  /-- Not in `loop()`. -/
  | outside
  /-- At the test of `while(!quit_)`. -/
  | test
  /-- About to call `poller_->poll`. -/
  | poll
  /-- Going through `activeChannels_`, of which these are left. -/
  | dispatch (active : List ActiveChannel)
  /-- In a callback of a channel other than `wakeupChannel_`. -/
  | callback (active : List ActiveChannel)
  /-- In `doPendingFunctor`, before the swap. -/
  | swap
  /-- Between two functors of the batch, of which these are left. -/
  | batch (rest : List (Queued φ))
  /-- In a functor of the batch. -/
  | task (rest : List (Queued φ))

/-- Where another thread stands. -/
inductive CallerPc (φ : Type*) where
  | idle
  /-- In `queueInLoop`, before the critical section. -/
  | queueing (f : φ)
  /-- The push, or the store of `quit`, is done; `wakeup` is not. -/
  | notifying

inductive LoopEvent (φ : Type*) where
  /-- `t`, not the loop's thread, submits `f` through `runInLoop` or `queueInLoop`. -/
  | submitted (t : Tid) (f : φ)
  | pushed (q : Queued φ)
  | wakeup (t : Tid)
  /-- A poll returned; `reported` is whether `wakeupChannel_` is active. -/
  | polled (reported : Bool)
  | handleRead
  /-- `t` starts a functor of batch `batch`. -/
  | executed (t : Tid) (batch : Nat) (q : Queued φ)
deriving DecidableEq, Repr

namespace LoopPc
variable {φ : Type*}

/-- The part of the batch not yet started. -/
def rest : LoopPc φ → List (Queued φ)
  | .batch rest | .task rest => rest
  | _ => []

/-- A batch is being run. -/
def inBatch : LoopPc φ → Bool
  | .batch _ | .task _ => true
  | _ => false

/-- User code may be running on the loop's thread: in a callback, in a functor, or
around `loop()`. -/
def inUserCode : LoopPc φ → Bool
  | .callback _ | .task _ | .outside => true
  | _ => false

def isOutside : LoopPc φ → Bool
  | .outside => true
  | _ => false

end LoopPc

structure LoopSystem (φ : Type*) where
  loop : EventLoop (Queued φ)
  pc : LoopPc φ
  callers : Tid → CallerPc φ
  /-- The number of swaps so far; the running batch bears this number. -/
  batches : Nat
  trace : List (LoopEvent φ)

namespace LoopSystem
variable {φ : Type*}

/-- A loop just constructed by thread `tid`. -/
def initial (tid : Tid) : LoopSystem φ := ⟨EventLoop.new tid, .outside, fun _ => .idle, 0, []⟩

/-- The batch that is running. -/
def running (s : LoopSystem φ) : Option Nat := if s.pc.inBatch then some s.batches else none

/-- `f`, noted as pushed by `t` now. -/
def note (s : LoopSystem φ) (t : Tid) (f : φ) : Queued φ :=
  ⟨f, t, s.running, t == s.loop.threadId_ && s.pc.isOutside⟩

/-- The caller `t` moves to `pc`. -/
def setCaller (s : LoopSystem φ) (t : Tid) (pc : CallerPc φ) : LoopSystem φ :=
  { s with callers := Function.update s.callers t pc }

/-- Events are added at the end of the trace. -/
def log (s : LoopSystem φ) (es : List (LoopEvent φ)) : LoopSystem φ :=
  { s with trace := s.trace ++ es }

/-- One step of thread `t`. -/
inductive Step : LoopSystem φ → Tid → LoopSystem φ → Prop where
  | enter {s} (h : s.pc = .outside) :
      Step s s.loop.threadId_ { s with loop := s.loop.enterLoop, pc := .test }
  | leave {s} (h : s.pc = .test) (hq : s.loop.quit_ = true) :
      Step s s.loop.threadId_ { s with loop := s.loop.leaveLoop, pc := .outside }
  | again {s} (h : s.pc = .test) (hq : s.loop.quit_ = false) :
      Step s s.loop.threadId_ { s with pc := .poll }
  /-- The poll returns with each ready channel once; when none is ready, by its
  timeout. -/
  | poll {s} (h : s.pc = .poll) (active : List ActiveChannel) (hnodup : active.Nodup)
      (hw : .wakeup ∈ active ↔ s.loop.wakeupReadable = true) :
      Step s s.loop.threadId_
        ({ s with pc := .dispatch active }.log [.polled s.loop.wakeupReadable])
  | handleRead {s} {rest} (h : s.pc = .dispatch (.wakeup :: rest)) :
      Step s s.loop.threadId_
        ({ s with loop := s.loop.handleRead, pc := .dispatch rest }.log [.handleRead])
  | callback {s} {fd rest} (h : s.pc = .dispatch (.other fd :: rest)) :
      Step s s.loop.threadId_ { s with pc := .callback rest }
  | callbackReturn {s} {rest} (h : s.pc = .callback rest) :
      Step s s.loop.threadId_ { s with pc := .dispatch rest }
  | beginPending {s} (h : s.pc = .dispatch []) :
      Step s s.loop.threadId_ { s with loop := s.loop.setCalling true, pc := .swap }
  | swap {s} (h : s.pc = .swap) :
      Step s s.loop.threadId_
        { s with loop := s.loop.swapPending.1, pc := .batch s.loop.swapPending.2,
                 batches := s.batches + 1 }
  | start {s} {q rest} (h : s.pc = .batch (q :: rest)) :
      Step s s.loop.threadId_
        ({ s with pc := .task rest }.log [.executed s.loop.threadId_ s.batches q])
  | taskReturn {s} {rest} (h : s.pc = .task rest) :
      Step s s.loop.threadId_ { s with pc := .batch rest }
  | endPending {s} (h : s.pc = .batch []) :
      Step s s.loop.threadId_ { s with loop := s.loop.setCalling false, pc := .test }
  /-- User code on the loop's thread calls `queueInLoop`. -/
  | queueHere {s} (h : s.pc.inUserCode = true) (f : φ) :
      Step s s.loop.threadId_
        ({ s with loop := s.loop.queueInLoop s.loop.threadId_ (s.note s.loop.threadId_ f) }.log
          (.pushed (s.note s.loop.threadId_ f) ::
            if s.loop.mustWakeup s.loop.threadId_ then [.wakeup s.loop.threadId_] else []))
  /-- User code on the loop's thread calls `quit`. -/
  | quitHere {s} (h : s.pc.inUserCode = true) :
      Step s s.loop.threadId_ { s with loop := s.loop.setQuit }
  | submit {s} {t} (ht : t ≠ s.loop.threadId_) (h : s.callers t = .idle) (f : φ) :
      Step s t ((s.setCaller t (.queueing f)).log [.submitted t f])
  | push {s} {t f} (ht : t ≠ s.loop.threadId_) (h : s.callers t = .queueing f) :
      Step s t (({ s with loop := s.loop.enqueue (s.note t f) }.setCaller t .notifying).log
        [.pushed (s.note t f)])
  | quit {s} {t} (ht : t ≠ s.loop.threadId_) (h : s.callers t = .idle) :
      Step s t ({ s with loop := s.loop.setQuit }.setCaller t .notifying)
  | notify {s} {t} (ht : t ≠ s.loop.threadId_) (h : s.callers t = .notifying) :
      Step s t (({ s with loop := s.loop.wakeup }.setCaller t .idle).log [.wakeup t])
  /-- Any thread calls `wakeup` directly. -/
  | wakeup {s} {t} (h : t = s.loop.threadId_ → s.pc.inUserCode = true)
      (h' : t ≠ s.loop.threadId_ → s.callers t = .idle) :
      Step s t ({ s with loop := s.loop.wakeup }.log [.wakeup t])

/-- The loop's thread is the same in every state. -/
theorem Step.threadId {s s' : LoopSystem φ} {t : Tid} (h : Step s t s') :
    s'.loop.threadId_ = s.loop.threadId_ := by
  cases h with
  | queueHere h f => exact s.loop.threadId_queueInLoop _ _
  | _ => rfl

end LoopSystem
end Mymuduo
