import Mathlib.Data.List.Basic

/-! # The pool of event loops

`EventLoopThreadPool::start` starts one `EventLoopThread` for each of the
`numThreads_` threads and keeps the loops they run in `loops_`;
`getNextLoop` is meant to hand these out in turn, and the base loop when there
are none.  Its guard is inverted: it takes the round-robin branch exactly when
`loops_` is empty.  A pool with threads therefore hands out the base loop for
ever (`calls_withThreads`), and one without indexes an empty vector on its first
call (`getNextLoop_of_no_loops`).
-/
namespace Mymuduo

/-- The event loops of a server: the user's, and those of the pool's threads. -/
inductive LoopId where
  | base
  | sub (i : Nat)
deriving DecidableEq, Repr

structure EventLoopThreadPool where
  baseLoop_ : LoopId
  name_ : String
  started_ : Bool
  numThreads_ : Int
  next_ : Nat
  /-- The names the threads were given. -/
  threads_ : List String
  loops_ : List LoopId
deriving DecidableEq, Repr

namespace EventLoopThreadPool

/-- The constructor. -/
def new (baseLoop : LoopId) (nameArg : String) : EventLoopThreadPool :=
  ⟨baseLoop, nameArg, false, 0, 0, [], []⟩

def setThreadNums (p : EventLoopThreadPool) (numThreads : Int) : EventLoopThreadPool :=
  { p with numThreads_ := numThreads }

/-- The body of the loop in `start`: thread `i` is started and its loop kept. -/
def startThread (p : EventLoopThreadPool) (i : Nat) : EventLoopThreadPool :=
  { p with threads_ := p.threads_ ++ [p.name_ ++ toString i], loops_ := p.loops_ ++ [.sub i] }

/-- `start`, and the loops on which it has the thread-init callback run when it is
set. -/
def start (p : EventLoopThreadPool) (cb : Bool) : EventLoopThreadPool × List LoopId :=
  let p' := (List.range p.numThreads_.toNat).foldl startThread { p with started_ := true }
  (p', if cb then p'.loops_ ++ (if p.numThreads_ = 0 then [p.baseLoop_] else []) else [])

/-- `getNextLoop`; `none` when it indexes `loops_` outside its bounds. -/
def getNextLoop (p : EventLoopThreadPool) : Option (LoopId × EventLoopThreadPool) :=
  if p.loops_.isEmpty then
    match p.loops_[p.next_]? with
    | none => none
    | some loop =>
      let next := p.next_ + 1
      some (loop, { p with next_ := if next ≥ p.loops_.length then 0 else next })
  else
    some (p.baseLoop_, p)

def getAllLoops (p : EventLoopThreadPool) : List LoopId :=
  if p.loops_.isEmpty then [p.baseLoop_] else p.loops_

/-- The loops returned by `k` calls of `getNextLoop`, in order; `none` when one of
them leaves the bounds of `loops_`. -/
def calls : Nat → EventLoopThreadPool → Option (List LoopId)
  | 0, _ => some []
  | k + 1, p =>
    match p.getNextLoop with
    | none => none
    | some (loop, p') => (calls k p').map (loop :: ·)

/-- A pool that was told to use `n` threads, and started; `cb` is whether a
thread-init callback is set. -/
def withThreads (nameArg : String) (cb : Bool) (n : Nat) : EventLoopThreadPool :=
  (((new .base nameArg).setThreadNums n).start cb).1

/-- What round-robin distribution asks of call number `k`, counted from `0`, on a
pool with `n` threads: no call has left the bounds of `loops_`, call `k` returns
`loops_[k % n]`, or `baseLoop_` when there are no threads, and the calls so far
have used every loop of the pool equally often, up to one, and not the base loop. -/
def RoundRobin (nameArg : String) (cb : Bool) (n k : Nat) : Prop :=
  ∃ assigned, (withThreads nameArg cb n).calls (k + 1) = some assigned ∧
    assigned[k]? = (if n = 0 then some .base else (withThreads nameArg cb n).loops_[k % n]?) ∧
    (0 < n → .base ∉ assigned ∧ ∀ i j, i < n → j < n →
      assigned.count (.sub i) ≤ assigned.count (.sub j) + 1)

theorem foldl_startThread (is : List Nat) (p : EventLoopThreadPool) :
    (is.foldl startThread p).loops_ = p.loops_ ++ is.map .sub ∧
      (is.foldl startThread p).baseLoop_ = p.baseLoop_ := by
  induction is generalizing p with
  | nil => simp
  | cons i is ih =>
    rw [List.foldl_cons, (ih _).1, (ih _).2]
    simp [startThread]

/-- A pool with loops hands out the base loop and does not move its cursor. -/
theorem getNextLoop_of_loops {p : EventLoopThreadPool} (h : p.loops_ ≠ []) :
    p.getNextLoop = some (p.baseLoop_, p) := by
  simp [getNextLoop, h]

/-- A pool without loops indexes outside `loops_`. -/
theorem getNextLoop_of_no_loops {p : EventLoopThreadPool} (h : p.loops_ = []) :
    p.getNextLoop = none := by
  simp [getNextLoop, h]

theorem calls_of_loops {p : EventLoopThreadPool} (h : p.loops_ ≠ []) (k : Nat) :
    p.calls k = some (List.replicate k p.baseLoop_) := by
  induction k with
  | zero => rfl
  | succ k ih => simp [calls, getNextLoop_of_loops h, ih, List.replicate_succ]

variable (nameArg : String) (cb : Bool)

theorem withThreads_loops (n : Nat) :
    (withThreads nameArg cb n).loops_ = (List.range n).map .sub := by
  simp [withThreads, start, setThreadNums, new, foldl_startThread]

theorem withThreads_baseLoop (n : Nat) : (withThreads nameArg cb n).baseLoop_ = .base := by
  simp [withThreads, start, setThreadNums, new, foldl_startThread]

/-- Whatever its number of threads, a pool that has some assigns every connection to
the base loop. -/
theorem calls_withThreads {n : Nat} (hn : 0 < n) (k : Nat) :
    (withThreads nameArg cb n).calls k = some (List.replicate k .base) := by
  rw [calls_of_loops, withThreads_baseLoop]
  rw [withThreads_loops]
  simpa using Nat.pos_iff_ne_zero.mp hn

/-- **No call is ever as round-robin wants it**, with threads or without: with
threads call `k` returns the base loop instead of `loops_[k % n]`, without it
leaves the bounds of `loops_`. -/
theorem roundRobin_never (n k : Nat) : ¬ RoundRobin nameArg cb n k := by
  rintro ⟨assigned, hcalls, hcall, -⟩
  rcases Nat.eq_zero_or_pos n with rfl | hn
  · have hloops : (withThreads nameArg cb 0).loops_ = [] := by rw [withThreads_loops]; rfl
    simp [calls, getNextLoop_of_no_loops hloops] at hcalls
  · rw [calls_withThreads nameArg cb hn] at hcalls
    obtain rfl := Option.some.inj hcalls
    rw [if_neg (Nat.pos_iff_ne_zero.mp hn), withThreads_loops] at hcall
    simp [List.getElem?_range (Nat.mod_lt k hn)] at hcall

/-- Three threads, as in the example server: the first connection goes to the base
loop. -/
theorem roundRobin_three_fails : ¬ RoundRobin "pool" false 3 0 := by
  rintro ⟨assigned, hcalls, hfirst, -⟩
  rw [show (withThreads "pool" false 3).calls 1 = some [.base] by decide] at hcalls
  obtain rfl := Option.some.inj hcalls
  exact absurd hfirst (by decide)

end EventLoopThreadPool
end Mymuduo
