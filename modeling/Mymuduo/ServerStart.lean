import Mathlib.Algebra.Group.Nat.Defs
import Mymuduo.StartWorker

/-! # Starting a server

`TcpServer::start` may be called by any thread, any number of times.  The call that finds
`started_` at zero starts the pool: for one thread after the other it creates the worker,
waits on a semaphore until the worker has stored its `tid_`, and waits in the monitor of
`EventLoopThread` until the worker has published its loop.  The worker runs the thread-init
callback in between.  Behind the last thread the caller has the acceptor listen, on the
thread of the base loop.

`ServerStart` is all of this at once: the callers, the workers, and the base loop with what is
queued on it.  What a user of the library sees of it is on the `trace`.  `Inv` ties the trace
and the threads to the place of the call that starts them; here it is kept by what that call
does for a thread that is being started, and in `StartOrder` by everything else.

`started_` is an `atomic_int`; runs end before it is back at zero, after `2 ^ 32` calls.
-/
namespace Mymuduo
open Transition

/-- Where the call that got past `started_` stands. -/
inductive StartPc where
  /-- At the head of the loop over the threads, with thread `i` to come. -/
  | create (i : Nat)
  /-- In `Thread::start`, before `sem_wait`. -/
  | semWait (i : Nat)
  /-- In `startLoop`, outside the monitor. -/
  | lock (i : Nat)
  /-- In the monitor, before the test of `loop_`. -/
  | test (i : Nat)
  /-- In `cond_.wait`. -/
  | asleep (i : Nat)
  /-- The pool has no threads, and there is a callback: before and in `cb(baseLoop_)`. -/
  | initBase
  | inBase
  /-- Before `loop_->runInLoop(listen)`. -/
  | listen
  | returned
deriving DecidableEq, Repr

namespace StartPc

/-- The thread that is being started. -/
@[simp] def current : StartPc → Option Nat
  | semWait i | lock i | test i | asleep i => some i
  | _ => none

/-- How many of `n` threads have been started. -/
@[simp] def done (n : Nat) : StartPc → Nat
  | create i | semWait i | lock i | test i | asleep i => i
  | _ => n

theorem done_of_current {pc : StartPc} {i : Nat} (h : pc.current = some i) (n : Nat) :
    pc.done n = i := by
  cases pc <;> simp_all

end StartPc

structure ServerStart where
  /-- The thread of the base loop. -/
  base : Tid
  numThreads_ : Int
  /-- Whether `threadInitCallback_` is set. -/
  threadInitCallback_ : Bool
  started_ : Nat
  threads : Nat → LoopThread
  loops_ : List LoopId
  /-- The thread whose call found `started_` at zero. -/
  starter : Option (Tid × StartPc)
  /-- How often `Acceptor::listen` is queued on the base loop. -/
  pending : Nat
  trace : List StartEvent

/-- Who takes a step. -/
inductive StartActor where
  | caller (t : Tid)
  | worker (i : Nat)
  | base
deriving DecidableEq, Repr

namespace ServerStart

/-- Before the first call. -/
def initial (base : Tid) (numThreads : Int) (cb : Bool) : ServerStart where
  base := base
  numThreads_ := numThreads
  threadInitCallback_ := cb
  started_ := 0
  threads := fun _ => LoopThread.new
  loops_ := []
  starter := none
  pending := 0
  trace := []

section State
variable (s : ServerStart)

/-- The call on thread `t` moves to `pc`. -/
def setStarter (t : Tid) (pc : StartPc) : ServerStart := { s with starter := some (t, pc) }

def setThread (i : Nat) (th : LoopThread) : ServerStart :=
  { s with threads := Function.update s.threads i th }

def setMonitor (i : Nat) (m : Monitor Party Bool) : ServerStart :=
  s.setThread i { s.threads i with monitor := m }

/-- `loops_.push_back(loop)`. -/
def pushLoop (loop : LoopId) : ServerStart := { s with loops_ := s.loops_ ++ [loop] }

def log (es : List StartEvent) : ServerStart := { s with trace := s.trace ++ es }

end State

/-- One step. -/
inductive Step : ServerStart → StartActor → ServerStart → Prop where
  /-- `started_++ == 0`. -/
  | call {s} (t : Tid) (hwrap : s.started_ + 1 < 2 ^ 32) :
      Step s (.caller t)
        { s with
          started_ := s.started_ + 1
          starter := if s.started_ = 0 then some (t, .create 0) else s.starter }
  | create {s} {t : Tid} {i : Nat} (h : s.starter = some (t, .create i))
      (hi : (i : Int) < s.numThreads_) (tid : Tid) :
      Step s (.caller t) ((s.setThread i (.create tid)).setStarter t (.semWait i))
  | semWait {s} {t : Tid} {i : Nat} (h : s.starter = some (t, .semWait i))
      (hsem : 0 < (s.threads i).sem) :
      Step s (.caller t)
        ((s.setThread i { s.threads i with sem := (s.threads i).sem - 1 }).setStarter t (.lock i))
  | lock {s} {t : Tid} {i : Nat} (h : s.starter = some (t, .lock i))
      (hfree : (s.threads i).monitor.holder = none) :
      Step s (.caller t)
        ((s.setMonitor i ((s.threads i).monitor.lock .starter)).setStarter t (.test i))
  | wait {s} {t : Tid} {i : Nat} (h : s.starter = some (t, .test i))
      (hnull : (s.threads i).monitor.data = false) :
      Step s (.caller t)
        ((s.setMonitor i ((s.threads i).monitor.wait .starter)).setStarter t (.asleep i))
  /-- Woken, by a notification or without one. -/
  | wake {s} {t : Tid} {i : Nat} (h : s.starter = some (t, .asleep i)) :
      Step s (.caller t)
        ((s.setMonitor i ((s.threads i).monitor.wake .starter)).setStarter t (.lock i))
  | take {s} {t : Tid} {i : Nat} (h : s.starter = some (t, .test i))
      (hset : (s.threads i).monitor.data = true) :
      Step s (.caller t)
        ((((s.setMonitor i (s.threads i).monitor.unlock).setStarter t (.create (i + 1))).pushLoop
          (.sub i)).log [.started (.sub i)])
  | created {s} {t : Tid} {i : Nat} (h : s.starter = some (t, .create i))
      (hi : ¬ (i : Int) < s.numThreads_) :
      Step s (.caller t)
        (s.setStarter t
          (if s.numThreads_ = 0 ∧ s.threadInitCallback_ = true then .initBase else .listen))
  | initBase {s} {t : Tid} (h : s.starter = some (t, .initBase)) :
      Step s (.caller t) ((s.setStarter t .inBase).log [.initBegin .base])
  | inBase {s} {t : Tid} (h : s.starter = some (t, .inBase)) :
      Step s (.caller t) ((s.setStarter t .listen).log [.initEnd .base])
  | listenHere {s} {t : Tid} (h : s.starter = some (t, .listen)) (ht : t = s.base) :
      Step s (.caller t) ((s.setStarter t .returned).log [.listen])
  | listenQueue {s} {t : Tid} (h : s.starter = some (t, .listen)) (ht : t ≠ s.base) :
      Step s (.caller t) { s.setStarter t .returned with pending := s.pending + 1 }
  /-- The base loop runs the functor. -/
  | base {s} (h : 0 < s.pending) :
      Step s .base ({ s with pending := s.pending - 1 }.log [.listen])
  | worker {s} {i : Nat} {es : List StartEvent} {th : LoopThread}
      (h : (s.threads i).WorkerStep s.threadInitCallback_ i es th) :
      Step s (.worker i) ((s.setThread i th).log es)

/-! ## The order of a start -/

/-- What is seen of the start of thread `i`. -/
def block (cb : Bool) (i : Nat) : List StartEvent :=
  LoopThread.callbackRun cb (.sub i) ++ [.started (.sub i)]

def blocks (cb : Bool) (k : Nat) : List StartEvent := (List.range k).flatMap (block cb)

/-- The callback runs on the base loop when there are no others. -/
def baseRun (numThreads : Int) (cb : Bool) : List StartEvent :=
  if numThreads = 0 then LoopThread.callbackRun cb .base else []

/-- The order in which everything happens. -/
def startOrder (numThreads : Int) (cb : Bool) : List StartEvent :=
  blocks cb numThreads.toNat ++ baseRun numThreads cb ++ [.listen]

section State
variable (s : ServerStart)

/-- Where the start stands; it begins with the loop over the threads. -/
def place : StartPc := (s.starter.map Prod.snd).getD (.create 0)

/-- What is seen between the start of one thread and a place behind it. -/
def tailAt : StartPc → List StartEvent
  | .create _ | .initBase => []
  | .semWait i | .lock i | .test i | .asleep i => (s.threads i).inits s.threadInitCallback_ i
  | .inBase => [.initBegin .base]
  | .listen => baseRun s.numThreads_ s.threadInitCallback_
  | .returned =>
    baseRun s.numThreads_ s.threadInitCallback_ ++ if s.pending = 0 then [.listen] else []

/-- What has been seen since the last thread was started. -/
def tail : List StartEvent := s.tailAt s.place

/-- How many threads have been started. -/
def done : Nat := s.place.done s.numThreads_.toNat

end State

/-- What the place of the start says about thread `j`: it has been started, is being started,
or is still to come. -/
structure ThreadAt (cb : Bool) (n : Nat) (pc : StartPc) (j : Nat) (th : LoopThread) : Prop where
  past : j < pc.done n → th.pc.pastPublish = true
  fresh : pc.done n ≤ j → pc.current ≠ some j → th.pc = .notCreated
  created : pc.current = some j → th.pc ≠ .notCreated
  callback : th.pc = .callback → cb = true
  ok : th.Ok
  holder : th.monitor.holder = some .starter ↔ pc = .test j
  asleep : .starter ∈ th.monitor.sleeping → pc = .asleep j
  semaphore : pc = .semWait j → th.pc.pastPost = true → 0 < th.sem
  /-- `Thread::start` returns once `tid_` is stored. -/
  posted : pc.current = some j → pc ≠ .semWait j → th.pc.pastPost = true

structure Inv (s : ServerStart) : Prop where
  started : s.started_ = 0 ↔ s.starter = none
  done_le : s.done ≤ s.numThreads_.toNat
  current_lt : ∀ i, s.place.current = some i → i < s.numThreads_.toNat
  trace : s.trace = blocks s.threadInitCallback_ s.done ++ s.tail
  loops : s.loops_ = (List.range s.done).map .sub
  pending : 0 < s.pending → s.place = .returned ∧ s.pending = 1
  threads : ∀ j, ThreadAt s.threadInitCallback_ s.numThreads_.toNat s.place j (s.threads j)
  onBase : s.place = .initBase ∨ s.place = .inBase →
    s.numThreads_ = 0 ∧ s.threadInitCallback_ = true

section Invariant
variable {s s' : ServerStart} {t : Tid} {pc : StartPc} {i : Nat} {th : LoopThread}
  {es : List StartEvent}

theorem place_of (h : s.starter = some (t, pc)) : s.place = pc := by
  rw [place, h]
  rfl

theorem tail_of_current (h : s.place.current = some i) :
    s.tail = (s.threads i).inits s.threadInitCallback_ i := by
  unfold tail tailAt
  cases hp : s.place <;> simp_all

theorem threads_setThread_of_ne (th : LoopThread) {j : Nat} (h : j ≠ i) :
    (s.setThread i th).threads j = s.threads j := Function.update_of_ne h ..

/-- A thread the start is not at does not notice where it is. -/
theorem ThreadAt.move {cb : Bool} {n j : Nat} (h : ThreadAt cb n pc j th) (pc' : StartPc)
    (hcur : pc.current ≠ some j) (hcur' : pc'.current ≠ some j)
    (hdone : j < pc'.done n ↔ j < pc.done n) : ThreadAt cb n pc' j th where
  past := fun hj => h.past (hdone.mp hj)
  fresh := fun hj _ => h.fresh (by omega) hcur
  created := fun hp => absurd hp hcur'
  callback := h.callback
  ok := h.ok
  holder := h.holder.trans (iff_of_false (fun hp => hcur (by rw [hp]; rfl))
    fun hp => hcur' (by rw [hp]; rfl))
  asleep := fun hs => absurd (by rw [h.asleep hs]; rfl) hcur
  semaphore := fun hp => absurd (by rw [hp]; rfl) hcur'
  posted := fun hp => absurd hp hcur'

theorem inv_initial (base : Tid) (numThreads : Int) (cb : Bool) :
    (initial base numThreads cb).Inv where
  started := by simp [initial]
  done_le := Nat.zero_le _
  current_lt := by simp [initial, place]
  trace := rfl
  loops := rfl
  pending := by simp [initial]
  threads := fun j =>
    { past := fun h => absurd h (Nat.not_lt_zero j)
      fresh := fun _ _ => rfl
      created := by simp [initial, place]
      callback := by simp [initial, LoopThread.new]
      ok := LoopThread.new_ok
      holder := by simp [initial, place, LoopThread.new, Monitor.new]
      asleep := by simp [initial, LoopThread.new, Monitor.new]
      semaphore := by simp [initial, place]
      posted := by simp [initial, place] }
  onBase := by simp [initial, place]

/-- A call of `start`; all but the first return at once. -/
theorem Inv.call (h : s.Inv) (t : Tid) :
    Inv { s with
      started_ := s.started_ + 1
      starter := if s.started_ = 0 then some (t, .create 0) else s.starter } := by
  have hplace : place { s with
      started_ := s.started_ + 1
      starter := if s.started_ = 0 then some (t, .create 0) else s.starter } = s.place := by
    by_cases h0 : s.started_ = 0
    · simp [place, h0, h.started.mp h0]
    · simp [place, h0]
  have hnone : (if s.started_ = 0 then some (t, .create 0) else s.starter) ≠ none := by
    split
    · simp
    · exact fun hs => absurd (h.started.mpr hs) ‹_›
  obtain ⟨-, hdone, hcurrent, htrace, hloops, hpending, hthreads, hbase⟩ := h
  refine ⟨by simp [hnone], ?_, ?_, ?_, ?_, ?_, ?_, ?_⟩ <;> simpa only [done, tail, hplace]

/-- The caller of `startLoop` moves on within it, for the same thread. -/
theorem Inv.stay (h : s.Inv) {pc' : StartPc} (hcur : s.place.current = some i)
    (hcur' : pc'.current = some i) (hwait : pc' ≠ .semWait i) (hpc : th.pc = (s.threads i).pc)
    (hpost : th.pc.pastPost = true) (hok : th.Ok)
    (hholder : th.monitor.holder = some .starter ↔ pc' = .test i)
    (hasleep : .starter ∈ th.monitor.sleeping → pc' = .asleep i) :
    ((s.setThread i th).setStarter t pc').Inv := by
  have hdone : s.done = i := StartPc.done_of_current hcur _
  have hdone' : ((s.setThread i th).setStarter t pc').done = i :=
    StartPc.done_of_current hcur' _
  have hself : ((s.setThread i th).setStarter t pc').threads i = th := Function.update_self ..
  have hsame : pc'.done s.numThreads_.toNat = s.place.done s.numThreads_.toNat :=
    hdone'.trans hdone.symm
  have hstarter : s.starter ≠ none := fun hs => by simp [place, hs] at hcur
  have hlt := h.current_lt i hcur
  refine ⟨iff_of_false (fun h0 => hstarter (h.started.mp h0)) (Option.some_ne_none _), ?_,
    fun j hj => ?_, ?_, ?_, fun hp => ?_, fun j => ?_, fun hp => ?_⟩
  · rw [hdone']
    exact Nat.le_of_lt hlt
  · obtain rfl : i = j := Option.some.inj (hcur'.symm.trans hj)
    exact hlt
  · have htail : th.inits s.threadInitCallback_ i =
        (s.threads i).inits s.threadInitCallback_ i := by
      rw [LoopThread.inits, LoopThread.inits, hpc]
    rw [hdone', tail_of_current (s := (s.setThread i th).setStarter t pc') hcur', hself]
    exact h.trace.trans (by rw [hdone, tail_of_current hcur, ← htail]; rfl)
  · rw [hdone']
    exact hdone ▸ h.loops
  · rw [(h.pending hp).1] at hcur
    cases hcur
  · by_cases hji : j = i
    · subst hji
      rw [hself]
      exact {
        past := fun hj => absurd (Nat.lt_of_lt_of_eq hj hdone') (Nat.lt_irrefl j)
        fresh := fun _ hne => absurd hcur' hne
        created := fun _ => hpc ▸ (h.threads j).created hcur
        callback := fun hj => (h.threads j).callback (hpc.symm.trans hj)
        ok := hok
        holder := hholder
        asleep := hasleep
        semaphore := fun hp => absurd hp hwait
        posted := fun _ _ => hpost }
    · have hne : ∀ {pc : StartPc}, pc.current = some i → pc.current ≠ some j :=
        fun hpc heq => hji (Option.some.inj (heq.symm.trans hpc))
      have hmoved := (h.threads j).move _ (hne hcur) (hne hcur') (by rw [hsame])
      rwa [← threads_setThread_of_ne th hji] at hmoved
  · rcases (hp : pc' = _ ∨ pc' = _) with rfl | rfl <;> cases hcur'

/-- `sem_wait` in `Thread::start` returns. -/
theorem Inv.semWait (h : s.Inv) (hs : s.starter = some (t, .semWait i))
    (hsem : 0 < (s.threads i).sem) :
    ((s.setThread i { s.threads i with sem := (s.threads i).sem - 1 }).setStarter t
      (.lock i)).Inv := by
  have hplace := place_of hs
  obtain ⟨-, -, -, -, hok, hholder, hasleep, -, -⟩ := h.threads i
  have hpost := hok.posted hsem
  refine h.stay (by rw [hplace]; rfl) rfl (by simp) rfl hpost ?_ ?_ fun hsl => ?_
  · exact ⟨hok.holder, hok.loop_, hok.owed, fun _ => hpost, hok.cached, hok.sleeping, hok.sound⟩
  · exact hholder.trans (by simp [hplace])
  · rw [hasleep hsl] at hplace
    cases hplace

/-- `startLoop` gets into the monitor. -/
theorem Inv.lock (h : s.Inv) (hs : s.starter = some (t, .lock i))
    (hfree : (s.threads i).monitor.holder = none) :
    ((s.setMonitor i ((s.threads i).monitor.lock .starter)).setStarter t (.test i)).Inv := by
  have hplace := place_of hs
  have hcur : s.place.current = some i := by rw [hplace]; rfl
  obtain ⟨-, -, -, -, hok, -, hasleep, -, hposted⟩ := h.threads i
  refine h.stay hcur rfl (by simp) rfl (hposted hcur (by simp [hplace])) ?_ (by simp)
    fun hsl => ?_
  · exact hok.of_starter (.lock hfree) rfl rfl (by simp [hfree]) hok.sleeping
  · rw [hasleep hsl] at hplace
    cases hplace

/-- It finds nothing yet, and goes to sleep. -/
theorem Inv.wait (h : s.Inv) (hs : s.starter = some (t, .test i))
    (hnull : (s.threads i).monitor.data = false) :
    ((s.setMonitor i ((s.threads i).monitor.wait .starter)).setStarter t (.asleep i)).Inv := by
  have hplace := place_of hs
  have hcur : s.place.current = some i := by rw [hplace]; rfl
  obtain ⟨-, -, -, -, hok, hholder, hasleep, -, hposted⟩ := h.threads i
  have hheld := hholder.mpr hplace
  refine h.stay hcur rfl (by simp) rfl (hposted hcur (by simp [hplace])) ?_ (by simp) fun _ => rfl
  refine hok.of_starter (.wait hheld hnull) rfl rfl (by simp [hheld]) (Or.inr ?_)
  rcases hok.sleeping with hnil | hone
  · rw [Monitor.wait, hnil]
    rfl
  · rw [hasleep (by simp [hone])] at hplace
    cases hplace

/-- Woken, it has to get into the monitor again. -/
theorem Inv.wake (h : s.Inv) (hs : s.starter = some (t, .asleep i)) :
    ((s.setMonitor i ((s.threads i).monitor.wake .starter)).setStarter t (.lock i)).Inv := by
  have hplace := place_of hs
  have hcur : s.place.current = some i := by rw [hplace]; rfl
  obtain ⟨-, -, -, -, hok, hholder, -, -, hposted⟩ := h.threads i
  have hnone : (s.threads i).monitor.sleeping.erase .starter = [] := by
    rcases hok.sleeping with hnil | hone
    · rw [hnil]
      rfl
    · rw [hone]
      rfl
  refine h.stay hcur rfl (by simp) rfl (hposted hcur (by simp [hplace])) ?_ ?_ fun hsl => ?_
  · exact hok.of_starter .wake rfl rfl Iff.rfl (Or.inl hnone)
  · exact hholder.trans (by simp [hplace])
  · simp [Monitor.wake, hnone] at hsl

end Invariant
end ServerStart
end Mymuduo
