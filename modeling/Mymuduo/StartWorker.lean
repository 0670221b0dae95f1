import Mymuduo.EventLoop
import Mymuduo.EventLoopThreadPool
import Mymuduo.Lib.Monitor

/-! # The worker of a loop thread

A worker stores its `tid_` and posts the semaphore that `Thread::start` waits on; in
`threadfunc` it constructs its loop, runs the thread-init callback, publishes the loop in the
monitor of `EventLoopThread`, runs it, and takes it back in the monitor once `loop()` has
returned.  `WorkerStep` cuts it where other threads can come in between.

Where a worker stands says everything about its thread (`LoopThread.Ok`), save for what the
caller of `startLoop` does with the monitor.
-/
namespace Mymuduo

/-- Who uses the monitor of an `EventLoopThread`: the worker in `threadfunc`, and the caller
of `startLoop`. -/
inductive Party where
  | worker
  | starter
deriving DecidableEq, Repr

/-- Where a worker stands. -/
inductive ThreadPc where
  | notCreated
  /-- Before `tid_ = CurrentThread::tid()`. -/
  | cacheTid
  /-- Before `sem_post`. -/
  | post
  /-- In `threadfunc`, before the constructor of the loop. -/
  | construct
  /-- In `callback_`. -/
  | callback
  | lock
  /-- In the monitor, before `loop_ = &loop`. -/
  | publish
  | notify
  | unlock
  | looping
  /-- `loop()` has returned. -/
  | relock
  /-- In the monitor, before `loop_ = nullptr`. -/
  | unpublish
  | leave
  | returned
deriving DecidableEq, Repr

namespace ThreadPc

/-- The worker is in the monitor. -/
@[simp] def inMonitor : ThreadPc → Bool
  | publish | notify | unlock | unpublish | leave => true
  | _ => false

/-- `loop_` points to the loop. -/
@[simp] def published : ThreadPc → Bool
  | notify | unlock | looping | relock | unpublish => true
  | _ => false

/-- `loop_ = &loop` has been executed. -/
@[simp] def pastPublish : ThreadPc → Bool
  | notify | unlock | looping | relock | unpublish | leave | returned => true
  | _ => false

/-- The store of `tid_` has been executed. -/
@[simp] def pastCache : ThreadPc → Bool
  | notCreated | cacheTid => false
  | _ => true

/-- The steps a worker still has to take until its loop can be handed over. -/
@[simp] def left : ThreadPc → Nat
  | cacheTid => 8
  | post => 7
  | construct => 6
  | callback => 5
  | lock => 4
  | publish => 3
  | notify => 2
  | unlock => 1
  | _ => 0

/-- `sem_post` has been executed. -/
@[simp] def pastPost : ThreadPc → Bool
  | notCreated | cacheTid | post => false
  | _ => true

/-- The worker has got into the monitor to take its loop back. -/
@[simp] def withdrawn : ThreadPc → Bool
  | unpublish | leave | returned => true
  | _ => false

end ThreadPc

/-- An `EventLoopThread` with its `Thread`, as far as starting goes. -/
structure LoopThread where
  /-- What `gettid` returns in the worker. -/
  tid : Tid
  pc : ThreadPc
  tid_ : Tid
  /-- The semaphore in `Thread::start`. -/
  sem : Nat
  /-- `mutex_` and `cond_`, around `loop_`: whether it points to the loop. -/
  monitor : Monitor Party Bool

/-- What is seen of a start. -/
inductive StartEvent where
  | initBegin (loop : LoopId)
  | initEnd (loop : LoopId)
  /-- `startLoop` has returned the loop, which is in `loops_` now. -/
  | started (loop : LoopId)
  /-- `Acceptor::listen`. -/
  | listen
deriving DecidableEq, Repr

namespace LoopThread

def new : LoopThread := ⟨0, .notCreated, 0, 0, Monitor.new false⟩

/-- The worker is created; the kernel gives it the id `tid`. -/
def create (tid : Tid) : LoopThread := { new with tid := tid, pc := .cacheTid }

/-- One step of worker `i`, in `start`'s lambda and in `threadfunc`; `callback_` is whether
there is one. -/
inductive WorkerStep (callback_ : Bool) (i : Nat) :
    LoopThread → List StartEvent → LoopThread → Prop where
  | cacheTid {th} (h : th.pc = .cacheTid) :
      WorkerStep callback_ i th [] { th with tid_ := th.tid, pc := .post }
  | post {th} (h : th.pc = .post) :
      WorkerStep callback_ i th [] { th with sem := th.sem + 1, pc := .construct }
  | construct {th} (h : th.pc = .construct) :
      WorkerStep callback_ i th (if callback_ then [.initBegin (.sub i)] else [])
        { th with pc := if callback_ then .callback else .lock }
  | callbackReturn {th} (h : th.pc = .callback) :
      WorkerStep callback_ i th [.initEnd (.sub i)] { th with pc := .lock }
  | lock {th} (h : th.pc = .lock) (hfree : th.monitor.holder = none) :
      WorkerStep callback_ i th [] { th with monitor := th.monitor.lock .worker, pc := .publish }
  | publish {th} (h : th.pc = .publish) :
      WorkerStep callback_ i th []
        { th with monitor := th.monitor.write id true, pc := .notify }
  | notifyOne {th} {p : Party} (h : th.pc = .notify) (hp : p ∈ th.monitor.sleeping) :
      WorkerStep callback_ i th [] { th with monitor := th.monitor.notifyOne p, pc := .unlock }
  | notifyNone {th} (h : th.pc = .notify) (hnone : th.monitor.sleeping = []) :
      WorkerStep callback_ i th [] { th with monitor := th.monitor.notifyNone, pc := .unlock }
  | unlock {th} (h : th.pc = .unlock) :
      WorkerStep callback_ i th [] { th with monitor := th.monitor.unlock, pc := .looping }
  /-- Somebody has called `quit()`. -/
  | loopReturn {th} (h : th.pc = .looping) : WorkerStep callback_ i th [] { th with pc := .relock }
  | relock {th} (h : th.pc = .relock) (hfree : th.monitor.holder = none) :
      WorkerStep callback_ i th []
        { th with monitor := th.monitor.lock .worker, pc := .unpublish }
  | unpublish {th} (h : th.pc = .unpublish) :
      WorkerStep callback_ i th []
        { th with monitor := th.monitor.write id false, pc := .leave }
  | leave {th} (h : th.pc = .leave) :
      WorkerStep callback_ i th [] { th with monitor := th.monitor.unlock, pc := .returned }

/-- Where the worker stands says what the rest of the thread looks like. -/
structure Ok (th : LoopThread) : Prop where
  holder : th.monitor.holder = some .worker ↔ th.pc.inMonitor = true
  loop_ : th.monitor.data = th.pc.published
  owed : th.monitor.owed = true → th.pc = .notify
  posted : 0 < th.sem → th.pc.pastPost = true
  cached : th.pc.pastCache = true → th.tid_ = th.tid
  sleeping : th.monitor.sleeping = [] ∨ th.monitor.sleeping = [.starter]
  sound : th.monitor.Sound id

/-- The events of the thread-init callback on a loop. -/
def callbackRun (callback_ : Bool) (loop : LoopId) : List StartEvent :=
  if callback_ then [.initBegin loop, .initEnd loop] else []

/-- Those that worker `i` has behind it. -/
def inits (callback_ : Bool) (i : Nat) (th : LoopThread) : List StartEvent :=
  match th.pc with
  | .notCreated | .cacheTid | .post | .construct => []
  | .callback => [.initBegin (.sub i)]
  | _ => callbackRun callback_ (.sub i)

section Worker
variable {callback_ : Bool} {i : Nat} {th th' : LoopThread} {es : List StartEvent}

theorem new_ok : new.Ok where
  holder := by decide
  loop_ := rfl
  owed := by decide
  posted := by decide
  cached := by decide
  sleeping := Or.inl rfl
  sound := Monitor.new_sound false

theorem create_ok (tid : Tid) : (create tid).Ok where
  holder := by simp [create, new, Monitor.new, ThreadPc.inMonitor]
  loop_ := rfl
  owed := by simp [create, new, Monitor.new]
  posted := by simp [create, new]
  cached := by simp [create, ThreadPc.pastCache]
  sleeping := Or.inl rfl
  sound := Monitor.new_sound false

/-- A worker uses its monitor as monitors are used. -/
theorem WorkerStep.monitor (h : WorkerStep callback_ i th es th') (hok : th.Ok) :
    th'.monitor = th.monitor ∨ Monitor.Step id th.monitor .worker th'.monitor := by
  have hin : th.pc.inMonitor = true → th.monitor.holder = some .worker := hok.holder.mpr
  cases h with
  | cacheTid | post | construct | callbackReturn | loopReturn => exact Or.inl rfl
  | lock h hfree | relock h hfree => exact Or.inr (.lock hfree)
  | publish h | unpublish h => exact Or.inr (.write (hin (by rw [h]; rfl)) _)
  | notifyOne h hp => exact Or.inr (.notifyOne hp)
  | notifyNone h hnone => exact Or.inr (.notifyNone hnone)
  | unlock h | leave h =>
    refine Or.inr (.unlock (hin (by rw [h]; rfl)) ?_)
    rw [← Bool.not_eq_true]
    intro howed
    rw [hok.owed howed] at h
    cases h

theorem WorkerStep.sound (h : WorkerStep callback_ i th es th') (hok : th.Ok) :
    th'.monitor.Sound id := by
  rcases h.monitor hok with heq | hstep
  · rw [heq]
    exact hok.sound
  · exact hok.sound.step hstep

theorem WorkerStep.ok (h : WorkerStep callback_ i th es th') (hok : th.Ok) : th'.Ok := by
  have hsound := h.sound hok
  obtain ⟨hholder, hdata, howed, hposted, hcached, hsleeping, -⟩ := hok
  cases h with
  | cacheTid h =>
    simp only [h] at hholder hdata howed hposted
    exact ⟨by simpa using hholder, hdata, by simpa using howed, by simpa using hposted,
      fun _ => rfl, hsleeping, hsound⟩
  | post h | callbackReturn h | loopReturn h =>
    simp only [h] at hholder hdata howed hcached
    exact ⟨by simpa using hholder, hdata, by simpa using howed, by simp,
      by simpa using hcached, hsleeping, hsound⟩
  | construct h =>
    simp only [h] at hholder hdata howed hposted hcached
    cases callback_ <;>
      exact ⟨by simpa using hholder, hdata, by simpa using howed, by simp,
        by simpa using hcached, hsleeping, hsound⟩
  | lock h | relock h =>
    simp only [h] at hdata howed hcached
    exact ⟨by simp [Monitor.lock], hdata, by simpa using howed, by simp, by simpa using hcached,
      hsleeping, hsound⟩
  | publish h | unpublish h =>
    simp only [h] at hholder howed hcached
    exact ⟨by simpa using hholder, rfl, by simp [Monitor.write], by simp, by simpa using hcached,
      hsleeping, hsound⟩
  | @notifyOne p h hp =>
    simp only [h] at hholder hdata hcached
    have hnone : th.monitor.sleeping.erase p = [] := by
      rcases hsleeping with hnil | hone
      · rw [hnil]
        rfl
      · rw [hone] at hp ⊢
        rw [List.mem_singleton.mp hp]
        rfl
    exact ⟨by simpa using hholder, hdata, by simp [Monitor.notifyOne, hnone], by simp,
      by simpa using hcached, Or.inl hnone, hsound⟩
  | notifyNone h hnone =>
    simp only [h] at hholder hdata hcached
    exact ⟨by simpa using hholder, hdata, by simp [Monitor.notifyNone], by simp,
      by simpa using hcached, hsleeping, hsound⟩
  | unlock h | leave h =>
    simp only [h] at hdata howed hcached
    exact ⟨by simp [Monitor.unlock], hdata, by simpa using howed, by simp, by simpa using hcached,
      hsleeping, hsound⟩

/-- A worker neither lets a caller into the monitor nor puts one out. -/
theorem WorkerStep.starter (h : WorkerStep callback_ i th es th') (hok : th.Ok) :
    (th'.monitor.holder = some .starter ↔ th.monitor.holder = some .starter) ∧
      (.starter ∈ th'.monitor.sleeping → .starter ∈ th.monitor.sleeping) := by
  cases h with
  | cacheTid | post | construct | callbackReturn | loopReturn | publish | notifyNone | unpublish =>
    exact ⟨Iff.rfl, id⟩
  | lock h hfree | relock h hfree => exact ⟨by simp [Monitor.lock, hfree], id⟩
  | notifyOne h hp => exact ⟨Iff.rfl, List.mem_of_mem_erase⟩
  | unlock h | leave h =>
    have hheld := hok.holder.mpr (by rw [h]; rfl)
    exact ⟨by simp [Monitor.unlock, hheld], id⟩

/-- What a worker shows is what it gets behind it. -/
theorem WorkerStep.inits (h : WorkerStep callback_ i th es th') (hcb : th.pc = .callback →
    callback_ = true) : th'.inits callback_ i = th.inits callback_ i ++ es := by
  cases h with
  | construct h =>
    cases callback_ <;> simp [LoopThread.inits, h, callbackRun]
  | callbackReturn h =>
    simp [LoopThread.inits, h, callbackRun, hcb h]
  | cacheTid h | post h | lock h | publish h | notifyOne h | notifyNone h | unlock h | loopReturn h
  | relock h | unpublish h | leave h => simp [LoopThread.inits, h]

/-- Once the loop is published, the callback is behind the worker. -/
theorem WorkerStep.pastPublish (h : WorkerStep callback_ i th es th')
    (hpast : th.pc.pastPublish = true) : th'.pc.pastPublish = true ∧ es = [] := by
  cases h with
  | cacheTid h | post h | construct h | callbackReturn h | lock h | publish h =>
    rw [h] at hpast
    cases hpast
  | notifyOne | notifyNone | unlock | loopReturn | relock | unpublish | leave => exact ⟨rfl, rfl⟩

/-- A use of the monitor by the caller of `startLoop`, who does not touch `loop_`. -/
theorem Ok.of_starter (hok : th.Ok) {m : Monitor Party Bool}
    (hstep : Monitor.Step id th.monitor .starter m) (hdata : m.data = th.monitor.data)
    (howed : m.owed = th.monitor.owed)
    (hholder : m.holder = some .worker ↔ th.monitor.holder = some .worker)
    (hsleeping : m.sleeping = [] ∨ m.sleeping = [.starter]) : Ok { th with monitor := m } where
  holder := hholder.trans hok.holder
  loop_ := hdata.trans hok.loop_
  owed := fun h => hok.owed (howed.symm.trans h)
  posted := hok.posted
  cached := hok.cached
  sleeping := hsleeping
  sound := hok.sound.step hstep

theorem WorkerStep.callback (h : WorkerStep callback_ i th es th')
    (hcb : th.pc = .callback → callback_ = true) : th'.pc = .callback → callback_ = true := by
  cases h with
  | construct => cases callback_ <;> simp
  | _ => simp

/-- The semaphore is up from the post on until the caller has passed it. -/
theorem WorkerStep.semaphore (h : WorkerStep callback_ i th es th')
    (hsem : th.pc.pastPost = true → 0 < th.sem) : th'.pc.pastPost = true → 0 < th'.sem := by
  cases h with
  | cacheTid => simp
  | post => exact fun _ => Nat.succ_pos _
  | _ => simp_all

theorem WorkerStep.pastPost (h : WorkerStep callback_ i th es th')
    (hpost : th.pc.pastPost = true) : th'.pc.pastPost = true := by
  cases h with
  | construct => cases callback_ <;> rfl
  | cacheTid h | post h =>
    rw [h] at hpost
    cases hpost
  | _ => rfl

theorem WorkerStep.withdrawn (h : WorkerStep callback_ i th es th')
    (hpc : th.pc.withdrawn = true) : th'.pc.withdrawn = true := by
  cases h with
  | unpublish | leave => rfl
  | cacheTid h | post h | construct h | callbackReturn h | lock h | publish h | notifyOne h
  | notifyNone h | unlock h | loopReturn h | relock h =>
    rw [h] at hpc
    cases hpc

theorem WorkerStep.created (h : WorkerStep callback_ i th es th') :
    th.pc ≠ .notCreated ∧ th'.pc ≠ .notCreated := by
  cases h <;> simp_all
  split <;> simp

end Worker
end LoopThread

end Mymuduo
