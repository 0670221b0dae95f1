import Mymuduo.EventLoopThreadPool
import Mymuduo.ServerWorld

/-! # The loops of a server and their threads

`ThreadedServer` has every loop of a server with its queue, its poller and its thread,
and every connection with the loop it was given to.  Any thread may use any
connection, and which thread ends up running a function on it is not part of the
model: `runInLoop` asks `isInLoopThread`, and either calls or queues, and a loop's
thread runs what its own queue and its own poller give it.

`send` and `shutdown` are cut behind their test of `state_`, and `shutdown` again
behind its store.  What a functor or a handler works on (the bytes a pointer leads to,
the kernel's answers, the value of `state_` that `connectDestroyed` reads) is chosen
freely when it runs, and a reported channel may run any of its handlers any number of
times.  So the runs are more than those of the program.
-/
namespace Mymuduo
open Transition

/-- What can be queued on a loop: a function bound to connection number `conn`. -/
inductive LoopFunctor where
  | connectEstablished (conn : Nat)
  | connectDestroyed (conn : Nat)
  | sendInLoop (conn : Nat)
  | shutdownInLoop (conn : Nat)
  | notification (conn : Nat) (n : Notification)
deriving DecidableEq, Repr

def LoopFunctor.conn : LoopFunctor → Nat
  | .connectEstablished conn | .connectDestroyed conn | .sendInLoop conn | .shutdownInLoop conn
  | .notification conn _ => conn

/-- `op` is an activation of the functor. -/
inductive LoopFunctor.Runs : LoopFunctor → ConnOp → Prop
  | connectEstablished {conn : Nat} : Runs (.connectEstablished conn) .connectEstablished
  | connectDestroyed {conn : Nat} {loaded : StateE} :
      Runs (.connectDestroyed conn) (.connectDestroyed loaded)
  | sendInLoop {conn : Nat} {data : List UInt8} {a : WriteAnswer} :
      Runs (.sendInLoop conn) (.sendInLoop data a)
  | shutdownInLoop {conn : Nat} : Runs (.shutdownInLoop conn) .shutdownInLoop

/-- A call of `send` or `shutdown` on connection number `conn` that found `kConnected`. -/
inductive UserCall where
  | sending (conn : Nat)
  | shutDownChecked (conn : Nat)
  /-- After `setState(kDisconnecting)`. -/
  | shutDownStored (conn : Nat)
deriving DecidableEq, Repr

def UserCall.conn : UserCall → Nat
  | .sending conn | .shutDownChecked conn | .shutDownStored conn => conn

/-- A connection, with its `loop_`. -/
structure LoopConnection where
  loop_ : LoopId
  run : ConnRun

/-- An activation on connection number `conn`, and the thread that ran it. -/
structure Activation where
  thread : Tid
  conn : Nat
  op : ConnOp
deriving DecidableEq, Repr

structure ThreadedServer where
  loops : LoopId → EventLoop LoopFunctor
  /-- What each loop has left of the batch in `doPendingFunctor`. -/
  batch : LoopId → List LoopFunctor
  pollers : LoopId → LoopPoller
  /-- The connections whose channels are in the `activeChannels_` of each loop. -/
  active : LoopId → List Nat
  /-- Every connection accepted so far. -/
  conns : List LoopConnection
  connections_ : List Nat
  /-- `~TcpServer` has begun. -/
  destructing : Bool
  /-- The calls of the user that have not returned, with their threads. -/
  calls : List (Tid × UserCall)
  activations : List Activation

/-- A call of a poller puts in nothing but the channel it is for. -/
theorem LoopPoller.has_call {p : LoopPoller} {x y : FdHolder} {fd : Int} {op : PollerOp}
    (h : (p.call x op).Has fd y) : p.Has fd y ∨ y = x := by
  rcases h with h | ⟨events, h⟩
  · cases op with
    | insert fd' =>
      by_cases hfd : fd = fd'
      · subst hfd
        simp only [call, Function.update_self, Option.some.injEq] at h
        exact Or.inr h.symm
      · simp only [call, Function.update_of_ne hfd] at h
        exact Or.inl (Or.inl h)
    | erase fd' =>
      by_cases hfd : fd = fd'
      · subst hfd
        simp [call] at h
      · simp only [call, Function.update_of_ne hfd] at h
        exact Or.inl (Or.inl h)
    | ctl op fd' events =>
      rw [(call_ctl op events).1] at h
      exact Or.inl (Or.inl h)
  · cases op with
    | insert | erase => exact Or.inl (Or.inr ⟨events, h⟩)
    | ctl op fd' events' =>
      by_cases hfd : fd = fd'
      · subst hfd
        simp only [call] at h
        split at h
        · simp only [Function.update_self, Option.some.injEq, Prod.mk.injEq] at h
          exact Or.inr h.2.symm
        · simp only [Function.update_self, Option.some.injEq, Prod.mk.injEq] at h
          exact Or.inr h.2.symm
        · simp at h
        · exact Or.inl (Or.inr ⟨events, h⟩)
      · rw [(call_other (Ne.symm hfd)).2] at h
        exact Or.inl (Or.inr ⟨events, h⟩)

namespace ThreadedServer

/-- The loops have been constructed, each by its thread; `own` are the fds a loop polls
for itself. -/
def start (tid : LoopId → Tid) (own : LoopId → Int → Bool) : ThreadedServer where
  loops := fun l => EventLoop.new (tid l)
  batch := fun _ => []
  pollers := fun l =>
    { channels_ := fun fd => if own l fd then some .loop else none
      interest := fun fd => if own l fd then some (Channel.kReadEvent, .loop) else none
      erased := [] }
  active := fun _ => []
  conns := []
  connections_ := []
  destructing := false
  calls := []
  activations := []

section State
variable (s : ThreadedServer)

/-- `queueInLoop` on loop `l`, called by thread `t`. -/
def queueInLoop (t : Tid) (l : LoopId) (f : LoopFunctor) : ThreadedServer :=
  { s with loops := Function.update s.loops l ((s.loops l).queueInLoop t f) }

/-- An effect of an activation on connection number `i` of loop `l`, run by thread `t`. -/
def apply (t : Tid) (i : Nat) (l : LoopId) (s : ThreadedServer) : Effect → ThreadedServer
  | .poller op =>
    { s with pollers := Function.update s.pollers l ((s.pollers l).call (.connection i) op) }
  | .queueInLoop n => s.queueInLoop t l (.notification i n)
  -- `removeConnectionInLoop`
  | .closeCallback =>
    { s with connections_ := s.connections_.erase i }.queueInLoop t l (.connectDestroyed i)
  | _ => s

/-- Thread `t` runs an activation on connection number `i`. -/
def perform (t : Tid) (i : Nat) (op : ConnOp) : ThreadedServer :=
  match s.conns[i]? with
  | none => s
  | some c => (c.run.conn.exec op).2.foldl (apply t i c.loop_)
      { s with conns := s.conns.set i { c with run := c.run.exec op }
               activations := s.activations ++ [⟨t, i, op⟩] }

/-- `runInLoop` on loop `l`, called by thread `t`; `op` is the activation of `f` that
runs if it is called. -/
def runInLoop (t : Tid) (l : LoopId) (f : LoopFunctor) (op : ConnOp) : ThreadedServer :=
  if (s.loops l).isInLoopThread t then s.perform t f.conn op else s.queueInLoop t l f

/-- The thread of the base loop. -/
def baseThread : Tid := (s.loops .base).threadId_

/-- The first half of `newConnection`: the connection is made and put into the table. -/
def addConnection (c : LoopConnection) : ThreadedServer :=
  { s with conns := s.conns ++ [c], connections_ := s.connections_ ++ [s.conns.length] }

def endCall (call : Tid × UserCall) : ThreadedServer := { s with calls := s.calls.erase call }

def beginCall (call : Tid × UserCall) : ThreadedServer := { s with calls := s.calls ++ [call] }

def setActive (l : LoopId) (is : List Nat) : ThreadedServer :=
  { s with active := Function.update s.active l is }

def setBatch (l : LoopId) (fs : List LoopFunctor) : ThreadedServer :=
  { s with batch := Function.update s.batch l fs }

/-- The swap of `doPendingFunctor`. -/
def swapPending (l : LoopId) : ThreadedServer :=
  { s with loops := Function.update s.loops l (s.loops l).swapPending.1
           batch := Function.update s.batch l (s.loops l).swapPending.2 }

/-- The functors of loop `l` not yet started, in the order they will be. -/
def tasks (l : LoopId) : List LoopFunctor := s.batch l ++ (s.loops l).pendingFunctors_

/-- The loop connection number `i` was given to. -/
def loopOf (i : Nat) : Option LoopId := s.conns[i]?.map LoopConnection.loop_

end State

/-- One step, labelled with the thread that takes it. -/
inductive Step : ThreadedServer → Tid → ThreadedServer → Prop where
  /-- `getNextLoop` has returned `ioLoop`. -/
  | newConnection {s} (ioLoop : LoopId) (name : String) (sockfd : Int)
      (writeComplete highWaterMark : Bool) (hserving : s.destructing = false) :
      Step s s.baseThread
        ((s.addConnection ⟨ioLoop,
            ⟨TcpConnection.new name sockfd writeComplete highWaterMark, []⟩⟩).runInLoop s.baseThread
          ioLoop (.connectEstablished s.conns.length) .connectEstablished)
  /-- A poll of loop `l` reports the channel of connection number `i`. -/
  | report {s} {l fd events i} (h : (s.pollers l).interest fd = some (events, .connection i)) :
      Step s (s.loops l).threadId_ (s.setActive l (i :: s.active l))
  | callback {s} {l i} {cb : ChannelCallback} {op : ConnOp} (h : i ∈ s.active l)
      (hop : cb.Runs op) :
      Step s (s.loops l).threadId_ (s.perform (s.loops l).threadId_ i op)
  /-- `handleEvent` is over for every channel reported, and the next poll clears
  `activeChannels_`. -/
  | handled {s} (l : LoopId) : Step s (s.loops l).threadId_ (s.setActive l [])
  | swap {s} {l} (h : s.batch l = []) : Step s (s.loops l).threadId_ (s.swapPending l)
  | functor {s} {l f rest op} (h : s.batch l = f :: rest) (hop : f.Runs op) :
      Step s (s.loops l).threadId_ ((s.setBatch l rest).perform (s.loops l).threadId_ f.conn op)
  | notification {s} {l i n rest} (h : s.batch l = .notification i n :: rest) :
      Step s (s.loops l).threadId_ (s.setBatch l rest)
  | sendCheck {s} {i c} (t : Tid) (hc : s.conns[i]? = some c)
      (hst : c.run.conn.state_ = .kConnected) : Step s t (s.beginCall (t, .sending i))
  | send {s} {t i l} (h : (t, .sending i) ∈ s.calls) (hl : s.loopOf i = some l)
      (data : List UInt8) (a : WriteAnswer) :
      Step s t ((s.endCall (t, .sending i)).runInLoop t l (.sendInLoop i) (.sendInLoop data a))
  | shutdownCheck {s} {i c} (t : Tid) (hc : s.conns[i]? = some c)
      (hst : c.run.conn.state_ = .kConnected) : Step s t (s.beginCall (t, .shutDownChecked i))
  | shutdownStore {s} {t i} (h : (t, .shutDownChecked i) ∈ s.calls) :
      Step s t (((s.endCall (t, .shutDownChecked i)).beginCall (t, .shutDownStored i)).perform t i
        .setDisconnecting)
  | shutdownRun {s} {t i l} (h : (t, .shutDownStored i) ∈ s.calls) (hl : s.loopOf i = some l) :
      Step s t ((s.endCall (t, .shutDownStored i)).runInLoop t l (.shutdownInLoop i)
        .shutdownInLoop)
  | destruct {s} (hserving : s.destructing = false) :
      Step s s.baseThread { s with destructing := true }
  /-- `~TcpServer` gets to connection number `i`. -/
  | destroy {s} {i l} (h : s.destructing = true) (hin : i ∈ s.connections_)
      (hl : s.loopOf i = some l) (loaded : StateE) :
      Step s s.baseThread
        ({ s with connections_ := s.connections_.erase i }.runInLoop s.baseThread l
          (.connectDestroyed i) (.connectDestroyed loaded))

/-! ## What an activation changes -/

section Perform
variable (s : ThreadedServer) (t : Tid) (i : Nat) (l l' : LoopId) (op : ConnOp)

theorem tasks_queueInLoop (f : LoopFunctor) :
    (s.queueInLoop t l f).tasks l' = s.tasks l' ++ if l' = l then [f] else [] := by
  by_cases h : l' = l
  · subst h
    simp [tasks, queueInLoop, EventLoop.pending_queueInLoop]
  · simp [tasks, queueInLoop, h]

/-- `queueInLoop` puts in what it is called with, at the end of one queue. -/
theorem mem_tasks_queueInLoop {f g : LoopFunctor} (h : g ∈ (s.queueInLoop t l f).tasks l') :
    g ∈ s.tasks l' ∨ l' = l ∧ g = f := by
  rw [tasks_queueInLoop, List.mem_append] at h
  refine h.imp_right fun h => ?_
  split at h
  · exact ⟨‹l' = l›, List.mem_singleton.mp h⟩
  · cases h

theorem tasks_setBatch {f : LoopFunctor} {rest : List LoopFunctor} (hf : s.batch l = f :: rest) :
    s.tasks l = f :: (s.setBatch l rest).tasks l ∧
      ∀ l', l' ≠ l → (s.setBatch l rest).tasks l' = s.tasks l' := by
  constructor
  · simp [tasks, setBatch, hf]
  · intro l' hl
    simp [tasks, setBatch, hl]

theorem mem_tasks_setBatch {f g : LoopFunctor} {rest : List LoopFunctor}
    (hf : s.batch l = f :: rest) (h : g ∈ (s.setBatch l rest).tasks l') : g ∈ s.tasks l' := by
  obtain ⟨hl, hother⟩ := s.tasks_setBatch l hf
  by_cases hl' : l' = l
  · rw [hl', hl]
    exact List.mem_cons_of_mem f (hl' ▸ h)
  · rwa [hother l' hl'] at h

/-- The swap only moves what waits. -/
theorem tasks_swapPending (h : s.batch l = []) : (s.swapPending l).tasks = s.tasks := by
  funext l'
  by_cases hl : l' = l
  · subst hl
    simp [tasks, swapPending, EventLoop.swapPending, h]
  · simp [tasks, swapPending, hl]

theorem mem_setActive {is : List Nat} (h : i ∈ (s.setActive l is).active l') :
    i ∈ s.active l' ∨ l' = l ∧ i ∈ is := by
  by_cases hl : l' = l
  · subst hl
    simp only [setActive, Function.update_self] at h
    exact Or.inr ⟨rfl, h⟩
  · simp only [setActive, Function.update_of_ne hl] at h
    exact Or.inl h

/-- A new connection leaves the numbers of the others. -/
theorem conns_addConnection (c : LoopConnection) {c' : LoopConnection}
    (h : s.conns[i]? = some c') : (s.addConnection c).conns[i]? = some c' := by
  rw [addConnection, List.getElem?_append_left (List.getElem?_eq_some_iff.mp h).1]
  exact h

@[simp] theorem threadId_queueInLoop (f : LoopFunctor) :
    ((s.queueInLoop t l f).loops l').threadId_ = (s.loops l').threadId_ := by
  by_cases h : l' = l
  · subst h
    simp [queueInLoop]
  · simp [queueInLoop, Function.update_of_ne h]

variable (es : List Effect)

/-- The effects of an activation leave the rest of the server alone. -/
theorem foldl_apply :
    (es.foldl (apply t i l) s).conns = s.conns ∧ (es.foldl (apply t i l) s).batch = s.batch ∧
      (es.foldl (apply t i l) s).active = s.active ∧ (es.foldl (apply t i l) s).calls = s.calls ∧
      (es.foldl (apply t i l) s).activations = s.activations := by
  induction es generalizing s with
  | nil => exact ⟨rfl, rfl, rfl, rfl, rfl⟩
  | cons e es ih =>
    obtain ⟨hconns, hbatch, hactive, hcalls, hactivations⟩ := ih (apply t i l s e)
    rw [List.foldl_cons]
    refine ⟨hconns.trans ?_, hbatch.trans ?_, hactive.trans ?_, hcalls.trans ?_,
      hactivations.trans ?_⟩ <;> cases e <;> rfl

theorem threadId_foldl_apply :
    ((es.foldl (apply t i l) s).loops l').threadId_ = (s.loops l').threadId_ := by
  induction es generalizing s with
  | nil => rfl
  | cons e es ih =>
    rw [List.foldl_cons, ih]
    cases e <;> simp [apply]

/-- An activation queues notifications and its own `connectDestroyed`, on its loop. -/
theorem tasks_foldl_apply : ∃ fs,
    (∀ l', (es.foldl (apply t i l) s).tasks l' = s.tasks l' ++ if l' = l then fs else []) ∧
      ∀ f ∈ fs, (∃ n, f = .notification i n ∧ .queueInLoop n ∈ es) ∨ f = .connectDestroyed i := by
  induction es generalizing s with
  | nil => exact ⟨[], fun l' => by simp, by simp⟩
  | cons e es ih =>
    obtain ⟨fs, htasks, hfs⟩ := ih (apply t i l s e)
    have hold : ∀ f ∈ fs, (∃ n, f = .notification i n ∧ .queueInLoop n ∈ e :: es) ∨
        f = .connectDestroyed i :=
      fun f hf => (hfs f hf).imp_left fun ⟨n, hn, hmem⟩ => ⟨n, hn, List.mem_cons_of_mem e hmem⟩
    -- one functor in front of the others
    have hpush : ∀ (r : ThreadedServer) (f : LoopFunctor), r.tasks = s.tasks →
        apply t i l s e = r.queueInLoop t l f →
        ∀ l', ((e :: es).foldl (apply t i l) s).tasks l' =
          s.tasks l' ++ if l' = l then f :: fs else [] := by
      intro r f hr hf l'
      rw [List.foldl_cons, htasks, hf, tasks_queueInLoop, hr, List.append_assoc]
      split <;> rfl
    cases e with
    | queueInLoop n =>
      refine ⟨_, hpush s (.notification i n) rfl rfl, fun f hf => ?_⟩
      rcases List.mem_cons.mp hf with rfl | hf
      · exact Or.inl ⟨n, rfl, List.mem_cons_self⟩
      · exact hold f hf
    | closeCallback =>
      refine ⟨_, hpush { s with connections_ := s.connections_.erase i } (.connectDestroyed i) rfl
        rfl, fun f hf => ?_⟩
      rcases List.mem_cons.mp hf with rfl | hf
      · exact Or.inr rfl
      · exact hold f hf
    | _ => exact ⟨fs, htasks, hold⟩

/-- What an activation puts into a poller is its own channel, into the one of its
loop. -/
theorem has_foldl_apply {fd : Int} {x : FdHolder}
    (h : ((es.foldl (apply t i l) s).pollers l').Has fd x) :
    (s.pollers l').Has fd x ∨ x = .connection i ∧ l' = l := by
  induction es generalizing s with
  | nil => exact Or.inl h
  | cons e es ih =>
    rcases ih (apply t i l s e) h with h | h
    · cases e with
      | poller op =>
        by_cases hl : l' = l
        · subst hl
          simp only [apply, Function.update_self] at h
          exact (LoopPoller.has_call h).imp_right fun hx => ⟨hx, rfl⟩
        · simp only [apply, Function.update_of_ne hl] at h
          exact Or.inl h
      | _ => exact Or.inl h
    · exact Or.inr h

variable {s i l}

theorem perform_of_some {c : LoopConnection} (hc : s.conns[i]? = some c) : s.perform t i op =
    (c.run.conn.exec op).2.foldl (apply t i c.loop_)
      { s with conns := s.conns.set i { c with run := c.run.exec op }
               activations := s.activations ++ [⟨t, i, op⟩] } := by
  rw [perform, hc]

theorem perform_of_none (hc : s.conns[i]? = none) : s.perform t i op = s := by
  rw [perform, hc]

theorem loopOf_of_some {c : LoopConnection} (hc : s.conns[i]? = some c) :
    s.loopOf i = some c.loop_ := by
  rw [loopOf, hc]
  rfl

variable (s i l)

theorem conns_perform (j : Nat) : (s.perform t i op).conns[j]? =
    s.conns[j]?.map fun c => if j = i then { c with run := c.run.exec op } else c := by
  cases hc : s.conns[i]? with
  | none =>
    rw [perform_of_none t op hc]
    by_cases hj : j = i
    · subst hj
      rw [hc]
      rfl
    · simp [hj]
  | some c =>
    obtain ⟨hconns, -⟩ := foldl_apply
      { s with conns := s.conns.set i { c with run := c.run.exec op }
               activations := s.activations ++ [⟨t, i, op⟩] } t i c.loop_ (c.run.conn.exec op).2
    rw [perform_of_some t op hc, hconns, List.getElem?_set]
    by_cases hj : j = i
    · subst hj
      have hlt := (List.getElem?_eq_some_iff.mp hc).1
      simp only [if_true, hlt, hc, Option.map_some]
    · simp [hj, Ne.symm hj]

@[simp] theorem loopOf_perform (j : Nat) : (s.perform t i op).loopOf j = s.loopOf j := by
  rw [loopOf, loopOf, conns_perform, Option.map_map]
  congr 1
  funext c
  simp only [Function.comp_apply]
  split <;> rfl

@[simp] theorem threadId_perform :
    ((s.perform t i op).loops l).threadId_ = (s.loops l).threadId_ := by
  cases hc : s.conns[i]? with
  | none => rw [perform_of_none t op hc]
  | some c => rw [perform_of_some t op hc, threadId_foldl_apply]

@[simp] theorem active_perform : (s.perform t i op).active = s.active := by
  cases hc : s.conns[i]? with
  | none => rw [perform_of_none t op hc]
  | some c => rw [perform_of_some t op hc, (foldl_apply _ t i c.loop_ _).2.2.1]

@[simp] theorem calls_perform : (s.perform t i op).calls = s.calls := by
  cases hc : s.conns[i]? with
  | none => rw [perform_of_none t op hc]
  | some c => rw [perform_of_some t op hc, (foldl_apply _ t i c.loop_ _).2.2.2.1]

theorem activations_perform : (s.perform t i op).activations =
    s.activations ++ if (s.loopOf i).isSome then [⟨t, i, op⟩] else [] := by
  cases hc : s.conns[i]? with
  | none => simp [perform_of_none t op hc, loopOf, hc]
  | some c =>
    rw [perform_of_some t op hc, (foldl_apply _ t i c.loop_ _).2.2.2.2, loopOf_of_some hc]
    rfl

/-- The functors an activation queues. -/
theorem tasks_perform : ∃ fs,
    (∀ l, (s.perform t i op).tasks l = s.tasks l ++ if s.loopOf i = some l then fs else []) ∧
      ∀ f ∈ fs, f = .connectDestroyed i ∨ ∃ n c, f = .notification i n ∧
        s.conns[i]? = some c ∧ .queueInLoop n ∈ (c.run.conn.exec op).2 := by
  cases hc : s.conns[i]? with
  | none =>
    refine ⟨[], fun l => ?_, by simp⟩
    rw [perform_of_none t op hc]
    simp
  | some c =>
    obtain ⟨fs, htasks, hfs⟩ := tasks_foldl_apply
      { s with conns := s.conns.set i { c with run := c.run.exec op }
               activations := s.activations ++ [⟨t, i, op⟩] } t i c.loop_ (c.run.conn.exec op).2
    refine ⟨fs, fun l => ?_, fun f hf => ?_⟩
    · rw [perform_of_some t op hc, htasks, loopOf_of_some hc]
      simp only [Option.some.injEq, eq_comm]
      rfl
    · rcases hfs f hf with ⟨n, hn, hmem⟩ | hf
      · exact Or.inr ⟨n, c, hn, rfl, hmem⟩
      · exact Or.inl hf

variable {s i l}

theorem has_perform {fd : Int} {x : FdHolder} (h : ((s.perform t i op).pollers l).Has fd x) :
    (s.pollers l).Has fd x ∨ x = .connection i ∧ s.loopOf i = some l := by
  cases hc : s.conns[i]? with
  | none => exact Or.inl (by rwa [perform_of_none t op hc] at h)
  | some c =>
    rw [perform_of_some t op hc] at h
    refine (has_foldl_apply _ t i c.loop_ l _ h).imp_right fun ⟨hx, hl⟩ => ⟨hx, ?_⟩
    rw [loopOf_of_some hc, hl]

/-- A call through `runInLoop` runs at once, on the loop's own thread, or is queued. -/
theorem runInLoop_cases (s : ThreadedServer) (t : Tid) (l : LoopId) (f : LoopFunctor)
    (op : ConnOp) :
    ((s.loops l).threadId_ = t ∧ s.runInLoop t l f op = s.perform t f.conn op) ∨
      ((s.loops l).threadId_ ≠ t ∧ s.runInLoop t l f op = s.queueInLoop t l f) := by
  unfold runInLoop EventLoop.isInLoopThread
  by_cases h : (s.loops l).threadId_ = t
  · exact Or.inl ⟨h, if_pos (beq_iff_eq.mpr h)⟩
  · exact Or.inr ⟨h, if_neg (by simpa using h)⟩

end Perform

end ThreadedServer
end Mymuduo
