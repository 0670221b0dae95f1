import Mymuduo.EventLoop
import Mymuduo.Lib.PartialInverse

/-! # One loop per thread

A loop takes its `threadId_` from `CurrentThread::tid()`, which caches in the thread-local
`t_cachedTid` what `gettid` returns.  In the thread-local `t_loopInThisThread` every thread has
a pointer to its loop.  The constructor ends the process if the pointer is set, and sets it;
the destructor clears it, in the thread that runs it.

`isInLoopThread` compares two ids.  The kernel gives the id of a thread that has ended to
another one, so this says who is asking only as long as a loop does not outlive its thread.
Both loops of the library are automatic variables, of `main` and of `threadfunc`.
-/
namespace Mymuduo
open Transition PartialInverse

/-- A thread, by what `gettid` returns in it and by its thread-local variables. -/
structure ThreadLocals where
  tid : Tid
  t_cachedTid : Tid
  /-- The address of a loop. -/
  t_loopInThisThread : Option Nat
deriving DecidableEq, Repr

namespace ThreadLocals

/-- A thread that has just been created. -/
def new (tid : Tid) : ThreadLocals := ⟨tid, 0, none⟩

def cacheTid (t : ThreadLocals) : ThreadLocals :=
  if t.t_cachedTid = 0 then { t with t_cachedTid := t.tid } else t

/-- `CurrentThread::tid()`, called by the thread: what it returns, and what it leaves. -/
def currentTid (t : ThreadLocals) : Tid × ThreadLocals :=
  let t' := if t.t_cachedTid = 0 then t.cacheTid else t
  (t'.t_cachedTid, t')

end ThreadLocals

/-- A loop, and the thread that has constructed it. -/
structure OwnedLoop (φ : Type*) where
  thread : Nat
  loop : EventLoop φ
deriving DecidableEq, Repr

/-- The threads of a process and its loops.  A thread has a number of its own, which is not
its id. -/
structure LoopProcess (φ : Type*) where
  threads : Nat → Option ThreadLocals
  /-- By address. -/
  loops : Nat → Option (OwnedLoop φ)
  /-- `runInLoop` has run a functor at once: the thread it was on, and that of the loop. -/
  ran : List (Nat × Nat)
  /-- `LOG_FATAL` has called `exit`. -/
  exited : Bool

/-- What thread `k` does. -/
inductive LoopProcessAction (φ : Type*) where
  /-- It is created, with the id `tid`. -/
  | spawn (tid : Tid)
  /-- It asks for its id. -/
  | currentTid
  /-- It constructs a loop at the address; `opened` is whether `epoll_create1` and `eventfd`
  succeed. -/
  | construct (address : Nat) (opened : Bool)
  | runInLoop (address : Nat) (f : φ)
  /-- It runs the destructor of the loop there. -/
  | destroy (address : Nat)
  | finish
deriving DecidableEq, Repr

namespace LoopProcess
variable {φ : Type*}

/-- The process has one thread. -/
def initial (tid : Tid) : LoopProcess φ where
  threads := Function.update (fun _ => none) 0 (some (ThreadLocals.new tid))
  loops := fun _ => none
  ran := []
  exited := false

section Operations
variable (s : LoopProcess φ) (k : Nat)

def setThread (t : ThreadLocals) : LoopProcess φ :=
  { s with threads := Function.update s.threads k (some t) }

def setLoop (address : Nat) (o : OwnedLoop φ) : LoopProcess φ :=
  { s with loops := Function.update s.loops address (some o) }

/-- `EventLoop::EventLoop`, on thread `k`. -/
def construct (t : ThreadLocals) (address : Nat) (opened : Bool) : LoopProcess φ :=
  let (threadId, t') := t.currentTid
  if opened = false ∨ t'.t_loopInThisThread.isSome then
    { s.setThread k t' with exited := true }
  else
    (s.setThread k { t' with t_loopInThisThread := some address }).setLoop address
      ⟨k, EventLoop.new threadId⟩

/-- `EventLoop::runInLoop`, called on thread `k`. -/
def runInLoop (t : ThreadLocals) (address : Nat) (o : OwnedLoop φ) (f : φ) : LoopProcess φ :=
  let (tid, t') := t.currentTid
  if o.loop.isInLoopThread tid then { s.setThread k t' with ran := s.ran ++ [(k, o.thread)] }
  else (s.setThread k t').setLoop address { o with loop := o.loop.queueInLoop tid f }

/-- `EventLoop::~EventLoop`, on thread `k`. -/
def destroy (t : ThreadLocals) (address : Nat) : LoopProcess φ :=
  { s.setThread k { t with t_loopInThisThread := none } with
    loops := Function.update s.loops address none }

end Operations

/-- One step of thread `k`. -/
inductive Step : LoopProcess φ → Nat × LoopProcessAction φ → LoopProcess φ → Prop where
  /-- The kernel gives it an id that no thread has. -/
  | spawn {s} (k : Nat) (tid : Tid) (hrun : s.exited = false) (hk : s.threads k = none)
      (hpos : 0 < tid) (hfree : ∀ j t, s.threads j = some t → t.tid ≠ tid) :
      Step s (k, .spawn tid) (s.setThread k (.new tid))
  | currentTid {s} (k : Nat) {t : ThreadLocals} (hrun : s.exited = false)
      (hk : s.threads k = some t) : Step s (k, .currentTid) (s.setThread k t.currentTid.2)
  | construct {s} (k address : Nat) (opened : Bool) {t : ThreadLocals} (hrun : s.exited = false)
      (hk : s.threads k = some t) (hfree : s.loops address = none) :
      Step s (k, .construct address opened) (s.construct k t address opened)
  | runInLoop {s} (k address : Nat) (f : φ) {t : ThreadLocals} {o : OwnedLoop φ}
      (hrun : s.exited = false) (hk : s.threads k = some t) (ho : s.loops address = some o) :
      Step s (k, .runInLoop address f) (s.runInLoop k t address o f)
  | destroy {s} (k address : Nat) {t : ThreadLocals} {o : OwnedLoop φ} (hrun : s.exited = false)
      (hk : s.threads k = some t) (ho : s.loops address = some o) :
      Step s (k, .destroy address) (s.destroy k t address)
  | finish {s} (k : Nat) {t : ThreadLocals} (hrun : s.exited = false)
      (hk : s.threads k = some t) :
      Step s (k, .finish) { s with threads := Function.update s.threads k none }

/-- Loops are automatic variables: the thread that has constructed a loop destroys it, before
it ends. -/
structure Automatic (s : LoopProcess φ) (a : Nat × LoopProcessAction φ) (s' : LoopProcess φ) :
    Prop where
  step : Step s a s'
  destroys : ∀ address o, a.2 = .destroy address → s.loops address = some o → o.thread = a.1
  ends : a.2 = .finish → ∀ address o, s.loops address = some o → o.thread ≠ a.1

/-- What the two thread-local variables are for. -/
structure OnePerThread (s : LoopProcess φ) : Prop where
  unique : ∀ a b o o', s.loops a = some o → s.loops b = some o' → o.thread = o'.thread → a = b
  /-- `isInLoopThread` tells whether it is asked by the thread of the loop. -/
  inLoopThread : ∀ a o k t, s.loops a = some o → s.threads k = some t →
    (o.loop.isInLoopThread t.currentTid.1 = true ↔ k = o.thread)
  ran : ∀ x ∈ s.ran, x.1 = x.2
  /-- Another constructor ends the process exactly in a thread that has a loop. -/
  guarded : ∀ k t address, s.threads k = some t →
    ((s.construct k t address true).exited = true ↔
      s.exited = true ∨ ∃ a o, s.loops a = some o ∧ o.thread = k)

end LoopProcess

/-! ## Thread-local variables -/

namespace ThreadLocals

/-- The cache is empty or right. -/
structure Ok (t : ThreadLocals) : Prop where
  pos : 0 < t.tid
  cached : t.t_cachedTid = 0 ∨ t.t_cachedTid = t.tid

variable {t : ThreadLocals}

theorem new_ok {tid : Tid} (h : 0 < tid) : (new tid).Ok := ⟨h, Or.inl rfl⟩

theorem currentTid_spec (h : t.Ok) :
    t.currentTid = (t.tid, { t with t_cachedTid := t.tid }) := by
  rcases h.cached with hzero | htid
  · simp [currentTid, cacheTid, hzero]
  · obtain ⟨tid, t_cachedTid, t_loopInThisThread⟩ := t
    obtain rfl : t_cachedTid = tid := htid
    simp [currentTid, Nat.ne_of_gt h.pos]

end ThreadLocals

/-- The threads that there are at a time. -/
structure ThreadTable (threads : Nat → Option ThreadLocals) : Prop where
  ok : ∀ k t, threads k = some t → t.Ok
  tids : ∀ j k t u, threads j = some t → threads k = some u → t.tid = u.tid → j = k

namespace ThreadTable
variable {threads : Nat → Option ThreadLocals} {k : Nat} {t u : ThreadLocals}

/-- Who has an id after a thread has been entered under a free one, or under its own. -/
theorem set (h : ThreadTable threads) (hu : u.Ok)
    (hid : ∀ j v, threads j = some v → v.tid = u.tid → j = k) :
    ThreadTable (Function.update threads k (some u)) := by
  have hcases : ∀ j v, Function.update threads k (some u) j = some v →
      (j = k ∧ v = u) ∨ (j ≠ k ∧ threads j = some v) := by
    intro j v hv
    by_cases hj : j = k
    · subst hj
      exact Or.inl ⟨rfl, by simpa [eq_comm] using hv⟩
    · exact Or.inr ⟨hj, by simpa [hj] using hv⟩
  refine ⟨fun j v hv => ?_, fun i j v w hv hw htid => ?_⟩
  · rcases hcases j v hv with ⟨-, rfl⟩ | ⟨-, hv⟩
    · exact hu
    · exact h.ok j v hv
  · rcases hcases i v hv with ⟨rfl, rfl⟩ | ⟨-, hv'⟩ <;>
      rcases hcases j w hw with ⟨rfl, rfl⟩ | ⟨-, hw'⟩
    · rfl
    · exact (hid j w hw' htid.symm).symm
    · exact hid i v hv' htid
    · exact h.tids i j v w hv' hw' htid

/-- A thread writes to its variables. -/
theorem write (h : ThreadTable threads) (hk : threads k = some t) (hu : u.Ok)
    (htid : u.tid = t.tid) : ThreadTable (Function.update threads k (some u)) :=
  h.set hu fun j v hv hvu => h.tids j k v t hv hk (hvu.trans htid)

theorem erase (h : ThreadTable threads) : ThreadTable (Function.update threads k none) := by
  have hthere : ∀ j v, Function.update threads k none j = some v → threads j = some v := by
    intro j v hv
    by_cases hj : j = k
    · subst hj
      simp at hv
    · simpa [hj] using hv
  exact ⟨fun j v hv => h.ok j v (hthere j v hv), fun i j v w hv hw =>
    h.tids i j v w (hthere i v hv) (hthere j w hw)⟩

end ThreadTable

namespace LoopProcess
variable {φ : Type*}

/-- The loop a thread points to. -/
def pointerOf (s : LoopProcess φ) (k : Nat) : Option Nat :=
  (s.threads k).bind ThreadLocals.t_loopInThisThread

/-- The thread of a loop. -/
def ownerOf (s : LoopProcess φ) (address : Nat) : Option Nat :=
  (s.loops address).map OwnedLoop.thread

/-- What every run keeps. -/
structure Inv (s : LoopProcess φ) : Prop where
  threads : ThreadTable s.threads
  inverse : Inverse s.pointerOf s.ownerOf
  ids : ∀ a o t, s.loops a = some o → s.threads o.thread = some t → o.loop.threadId_ = t.tid
  ran : ∀ x ∈ s.ran, x.1 = x.2

section Step
variable {s s' : LoopProcess φ} {k address : Nat} {t u : ThreadLocals} {o : OwnedLoop φ}
  {a : Nat × LoopProcessAction φ}

theorem pointerOf_setThread (s : LoopProcess φ) (k : Nat) (u : ThreadLocals) :
    (s.setThread k u).pointerOf = Function.update s.pointerOf k u.t_loopInThisThread := by
  funext j
  by_cases hj : j = k
  · subst hj
    simp [pointerOf, setThread]
  · simp [pointerOf, setThread, hj]

theorem ownerOf_update (s : LoopProcess φ) (address : Nat) (o : Option (OwnedLoop φ)) :
    ownerOf { s with loops := Function.update s.loops address o } =
      Function.update s.ownerOf address (o.map OwnedLoop.thread) := by
  funext b
  by_cases hb : b = address
  · subst hb
    simp [ownerOf]
  · simp [ownerOf, hb]

theorem Inv.pointer_of_owner (h : s.Inv) (ho : s.loops address = some o) :
    ∃ t, s.threads o.thread = some t ∧ t.t_loopInThisThread = some address := by
  have hpointer := (h.inverse o.thread address).mpr (by rw [ownerOf, ho]; rfl)
  exact Option.bind_eq_some_iff.mp hpointer

theorem inv_initial {tid : Tid} (h : 0 < tid) : (initial tid : LoopProcess φ).Inv := by
  have hempty : ThreadTable fun _ => none := ⟨by simp, by simp⟩
  refine ⟨hempty.set (ThreadLocals.new_ok h) (by simp), fun k a => ?_, by simp [initial],
    by simp [initial]⟩
  by_cases hk : k = 0
  · subst hk
    simp [pointerOf, ownerOf, initial, ThreadLocals.new]
  · simp [pointerOf, ownerOf, initial, hk]

/-- A thread writes to its variables, but not to its pointer. -/
theorem Inv.write (h : s.Inv) (hk : s.threads k = some t) (hu : u.Ok) (htid : u.tid = t.tid)
    (hpointer : u.t_loopInThisThread = t.t_loopInThisThread) : (s.setThread k u).Inv := by
  have hsame : (s.setThread k u).pointerOf = s.pointerOf := by
    rw [pointerOf_setThread, Function.update_eq_self_iff, hpointer, pointerOf, hk]
    rfl
  refine ⟨h.threads.write hk hu htid, hsame ▸ h.inverse, fun a o v ho hv => ?_, h.ran⟩
  by_cases hok : o.thread = k
  · have hvu : u = v := by simpa [setThread, hok] using hv
    rw [← hvu, htid]
    exact h.ids a o t ho (hok ▸ hk)
  · exact h.ids a o v ho (by simpa [setThread, hok] using hv)

/-- A thread fills its cache. -/
theorem Inv.currentTid (h : s.Inv) (hk : s.threads k = some t) :
    (s.setThread k t.currentTid.2).Inv := by
  have hok := h.threads.ok k t hk
  rw [ThreadLocals.currentTid_spec hok]
  exact h.write hk ⟨hok.pos, Or.inr rfl⟩ rfl rfl

/-- A new thread has no loop. -/
theorem Inv.spawn (h : s.Inv) {tid : Tid} (hk : s.threads k = none) (hpos : 0 < tid)
    (hfree : ∀ j t, s.threads j = some t → t.tid ≠ tid) : (s.setThread k (.new tid)).Inv := by
  have hsame : (s.setThread k (.new tid)).pointerOf = s.pointerOf := by
    rw [pointerOf_setThread, Function.update_eq_self_iff, pointerOf, hk]
    rfl
  refine ⟨h.threads.set (ThreadLocals.new_ok hpos) fun j v hv htid => absurd htid (hfree j v hv),
    hsame ▸ h.inverse, fun a o v ho hv => ?_, h.ran⟩
  have hne : o.thread ≠ k := fun heq => by
    obtain ⟨t, ht, -⟩ := h.pointer_of_owner ho
    cases hk.symm.trans (heq ▸ ht)
  exact h.ids a o v ho (by simpa [setThread, hne] using hv)

/-- A thread that has no loop constructs one. -/
theorem Inv.setLoop (h : s.Inv) (hk : s.threads k = some t) (hnone : t.t_loopInThisThread = none)
    (hfree : s.loops address = none) {l : EventLoop φ} (hl : l.threadId_ = t.tid) :
    ((s.setThread k { t with t_loopInThisThread := some address }).setLoop address
      ⟨k, l⟩).Inv := by
  have hok := h.threads.ok k t hk
  have hlink : Inverse (Function.update s.pointerOf k (some address))
      (Function.update s.ownerOf address (some k)) := by
    refine h.inverse.link ?_ ?_
    · rw [pointerOf, hk]
      exact hnone
    · rw [ownerOf, hfree]
      rfl
  rw [← pointerOf_setThread s k { t with t_loopInThisThread := some address }] at hlink
  refine ⟨h.threads.write hk ⟨hok.pos, hok.cached⟩ rfl, ?_, fun b o v ho hv => ?_, h.ran⟩
  · exact ownerOf_update _ address (some ⟨k, l⟩) ▸ hlink
  · by_cases hb : b = address
    · obtain rfl : ⟨k, l⟩ = o := by simpa [LoopProcess.setLoop, hb] using ho
      obtain rfl : { t with t_loopInThisThread := some address } = v := by
        simpa [LoopProcess.setLoop, setThread] using hv
      exact hl
    · have ho' : s.loops b = some o := by simpa [LoopProcess.setLoop, setThread, hb] using ho
      by_cases hok : o.thread = k
      · obtain rfl : { t with t_loopInThisThread := some address } = v := by
          simpa [LoopProcess.setLoop, setThread, hok] using hv
        exact h.ids b o t ho' (hok ▸ hk)
      · exact h.ids b o v ho' (by simpa [LoopProcess.setLoop, setThread, hok] using hv)

/-- A loop takes a functor. -/
theorem Inv.update (h : s.Inv) (ho : s.loops address = some o) {l : EventLoop φ}
    (hl : l.threadId_ = o.loop.threadId_) :
    (s.setLoop address { o with loop := l }).Inv := by
  have hsame : ownerOf (s.setLoop address { o with loop := l }) = s.ownerOf := by
    refine (ownerOf_update s address (some _)).trans ?_
    rw [Function.update_eq_self_iff, ownerOf, ho]
    rfl
  refine ⟨h.threads, hsame ▸ h.inverse, fun b p v hp hv => ?_, h.ran⟩
  by_cases hb : b = address
  · obtain rfl : { o with loop := l } = p := by simpa [LoopProcess.setLoop, hb] using hp
    exact hl.trans (h.ids address o v ho hv)
  · exact h.ids b p v (by simpa [LoopProcess.setLoop, hb] using hp) hv

/-- A thread destroys its loop. -/
theorem Inv.destroy (h : s.Inv) (hk : s.threads k = some t) (ho : s.loops address = some o)
    (hown : o.thread = k) : (s.destroy k t address).Inv := by
  have hok := h.threads.ok k t hk
  have hunlink : Inverse (Function.update s.pointerOf k none)
      (Function.update s.ownerOf address none) :=
    h.inverse.unlink ((h.inverse k address).mpr (by rw [ownerOf, ho, ← hown]; rfl))
  rw [← pointerOf_setThread s k { t with t_loopInThisThread := none }] at hunlink
  refine ⟨h.threads.write hk ⟨hok.pos, hok.cached⟩ rfl, ?_, fun b p v hp hv => ?_, h.ran⟩
  · exact ownerOf_update (s.setThread k _) address none ▸ hunlink
  · by_cases hb : b = address
    · simp [LoopProcess.destroy, hb] at hp
    · have hp' : s.loops b = some p := by simpa [LoopProcess.destroy, hb] using hp
      by_cases hpk : p.thread = k
      · obtain rfl : { t with t_loopInThisThread := none } = v := by
          simpa [LoopProcess.destroy, setThread, hpk] using hv
        exact h.ids b p t hp' (hpk ▸ hk)
      · exact h.ids b p v hp' (by simpa [LoopProcess.destroy, setThread, hpk] using hv)

/-- A thread that has no loop any more ends. -/
theorem Inv.finish (h : s.Inv) (hk : s.threads k = some t)
    (hnone : ∀ b p, s.loops b = some p → p.thread ≠ k) :
    Inv { s with threads := Function.update s.threads k none } := by
  have hpointer : s.pointerOf k = none := by
    cases hp : s.pointerOf k with
    | none => rfl
    | some b =>
      have howner := (h.inverse k b).mp hp
      obtain ⟨p, hp', hthread⟩ := Option.map_eq_some_iff.mp howner
      exact absurd hthread (hnone b p hp')
  have hsame : pointerOf { s with threads := Function.update s.threads k none } = s.pointerOf := by
    funext j
    by_cases hj : j = k
    · subst hj
      rw [hpointer]
      simp [pointerOf]
    · simp [pointerOf, hj]
  refine ⟨h.threads.erase, hsame ▸ h.inverse, fun b p v hp hv => ?_, h.ran⟩
  exact h.ids b p v hp (by simpa [hnone b p hp] using hv)

theorem Inv.construct (h : s.Inv) (hk : s.threads k = some t) (hfree : s.loops address = none)
    (opened : Bool) : (s.construct k t address opened).Inv := by
  have hok := h.threads.ok k t hk
  have hcached := h.currentTid hk
  rw [ThreadLocals.currentTid_spec hok] at hcached
  simp only [LoopProcess.construct, ThreadLocals.currentTid_spec hok]
  split
  · exact ⟨hcached.threads, hcached.inverse, hcached.ids, hcached.ran⟩
  · rename_i hopen
    have hnone : t.t_loopInThisThread = none := by
      cases hp : t.t_loopInThisThread with
      | none => rfl
      | some b => exact absurd (Or.inr (by simp [hp])) hopen
    have hself : (s.setThread k ⟨t.tid, t.tid, t.t_loopInThisThread⟩).threads k = some _ :=
      Function.update_self ..
    have hset := hcached.setLoop (l := EventLoop.new t.tid) hself hnone hfree rfl
    have htwice : (s.setThread k ⟨t.tid, t.tid, t.t_loopInThisThread⟩).setThread k
        ⟨t.tid, t.tid, some address⟩ = s.setThread k ⟨t.tid, t.tid, some address⟩ := by
      simp [setThread]
    rwa [htwice] at hset

theorem Inv.runInLoop (h : s.Inv) (hk : s.threads k = some t) (ho : s.loops address = some o)
    (f : φ) : (s.runInLoop k t address o f).Inv := by
  have hok := h.threads.ok k t hk
  have hcached := h.currentTid hk
  rw [ThreadLocals.currentTid_spec hok] at hcached
  simp only [LoopProcess.runInLoop, ThreadLocals.currentTid_spec hok]
  split
  · rename_i hin
    refine ⟨hcached.threads, hcached.inverse, hcached.ids, fun x hx => ?_⟩
    rcases List.mem_append.mp hx with hx | hx
    · exact h.ran x hx
    · -- ids tell the threads apart
      obtain ⟨u, hu, -⟩ := h.pointer_of_owner ho
      have htid : t.tid = u.tid := (eq_of_beq hin).symm.trans (h.ids address o u ho hu)
      rw [List.mem_singleton.mp hx]
      exact h.threads.tids _ _ _ _ hk hu htid
  · exact hcached.update ho (EventLoop.threadId_queueInLoop ..)

theorem Inv.step (h : s.Inv) (hstep : Automatic s a s') : s'.Inv := by
  obtain ⟨hstep, hdestroys, hends⟩ := hstep
  cases hstep with
  | spawn k tid _ hk hpos hfree => exact h.spawn hk hpos hfree
  | currentTid k _ hk => exact h.currentTid hk
  | construct k address opened _ hk hfree => exact h.construct hk hfree opened
  | runInLoop k address f _ hk ho => exact h.runInLoop hk ho f
  | destroy k address _ hk ho => exact h.destroy hk ho (hdestroys _ _ rfl ho)
  | finish k _ hk => exact h.finish hk (hends rfl)

/-- A thread points to a loop exactly if it has one. -/
theorem Inv.pointer_isSome (h : s.Inv) (hk : s.threads k = some t) :
    t.t_loopInThisThread.isSome = true ↔ ∃ b p, s.loops b = some p ∧ p.thread = k := by
  have hpointer : s.pointerOf k = t.t_loopInThisThread := by
    rw [pointerOf, hk]
    rfl
  rw [← hpointer, Option.isSome_iff_exists]
  refine exists_congr fun b => (h.inverse k b).trans ?_
  exact Option.map_eq_some_iff

theorem Inv.onePerThread (h : s.Inv) : s.OnePerThread where
  unique := fun a b o o' ho ho' hthread => by
    have hb := (h.inverse o'.thread b).mpr (by rw [ownerOf, ho']; rfl)
    have ha := (h.inverse o.thread a).mpr (by rw [ownerOf, ho]; rfl)
    exact Option.some.inj (ha.symm.trans (hthread ▸ hb))
  inLoopThread := fun a o k t ho hk => by
    obtain ⟨u, hu, -⟩ := h.pointer_of_owner ho
    rw [ThreadLocals.currentTid_spec (h.threads.ok k t hk), EventLoop.isInLoopThread, beq_iff_eq,
      h.ids a o u ho hu]
    constructor
    · exact fun htid => h.threads.tids _ _ _ _ hk hu htid.symm
    · rintro rfl
      rw [Option.some.inj (hk.symm.trans hu)]
  ran := h.ran
  guarded := fun k t address hk => by
    simp only [LoopProcess.construct, ThreadLocals.currentTid_spec (h.threads.ok k t hk),
      ← h.pointer_isSome hk]
    split <;> rename_i hopen
    · exact iff_of_true rfl (Or.inr (hopen.resolve_left (by simp)))
    · have hnone : ¬ t.t_loopInThisThread.isSome = true := fun hp => hopen (Or.inr hp)
      exact (or_iff_left hnone).symm

end Step

/-- **One loop per thread.**  In every run in which loops are automatic variables, and though
the ids of threads that have ended are given again: no thread has two loops, `isInLoopThread`
is true in the thread of the loop and in no other, `runInLoop` runs a functor at once in that
thread only, and a constructor ends the process over `t_loopInThisThread` exactly in a thread
that has a loop. -/
theorem single_loop_in_thread {tid : Tid} (htid : 0 < tid) {as : List (Nat × LoopProcessAction φ)}
    {s : LoopProcess φ} (h : Run Automatic (initial tid) as s) : s.OnePerThread := by
  have hinv : s.Inv := h.invariant (inv_initial htid) fun _ _ _ hs hstep => hs.step hstep
  exact hinv.onePerThread

/-- Thread 2 has the id that thread 1 had, and its loop is where the loop of thread 1 was. -/
theorem single_loop_in_thread_reused : ∃ as, ∃ s : LoopProcess Unit,
    Run Automatic (initial 7) as s ∧ s.ran = [(1, 1), (2, 2)] ∧ s.OnePerThread := by
  have hrun := (Run.refl : Run Automatic (initial 7 : LoopProcess Unit) [] _)
    |>.tail ⟨.construct 0 0 true rfl rfl rfl, by simp, by simp⟩
    |>.tail ⟨.spawn 1 8 rfl rfl (by decide) (by rintro (_ | _ | j) t h <;> cases h; decide),
      by simp, by simp⟩
    |>.tail ⟨.construct 1 1 true rfl rfl rfl, by simp, by simp⟩
    |>.tail ⟨.runInLoop 0 1 () rfl rfl rfl, by simp, by simp⟩
    |>.tail ⟨.runInLoop 1 1 () rfl rfl rfl, by simp, by simp⟩
    |>.tail ⟨.destroy 1 1 rfl rfl rfl, by rintro _ o h ho; cases h; cases ho; rfl, by simp⟩
    |>.tail ⟨.finish 1 rfl rfl, by simp, by rintro - (_ | _ | a) o ho <;> cases ho; decide⟩
    |>.tail ⟨.spawn 2 8 rfl rfl (by decide) (by rintro (_ | _ | _ | j) t h <;> cases h; decide),
      by simp, by simp⟩
    |>.tail ⟨.construct 2 1 true rfl rfl rfl, by simp, by simp⟩
    |>.tail ⟨.runInLoop 0 1 () rfl rfl rfl, by simp, by simp⟩
    |>.tail ⟨.runInLoop 2 1 () rfl rfl rfl, by simp, by simp⟩
  exact ⟨_, _, hrun, rfl, single_loop_in_thread (by decide) hrun⟩

end LoopProcess
end Mymuduo
