import Mymuduo.ConnectionRun
import Mymuduo.EventLoop
import Mymuduo.Lib.Memory

/-! # A connection on its loop

`ConnectionSystem` puts a connection, just accepted, on the loop that serves it
and among the threads that use it.  The loop's thread polls (the kernel may
report any event word on the connection's fd while it has an entry for it), goes
through the callbacks `handleEventWithGuard` chooses, and runs the functors
queued on it; between any two of these its user code may call `send` and
`shutdown`, which run inline.  Any other thread calls `send` and `shutdown`, cut
where the loop's thread can come in between, and may write to, free and allocate
memory as it likes outside its calls.

A `send` from another thread binds `buf.c_str()`, a pointer, into the functor.
The strings of the callers therefore live in a `Memory`, and the functor reads
it when it runs.  The functor also carries a note of what the string held at the
call; no step reads the note.

`closeCallback_` is `TcpServer::removeConnectionInLoop`, whose part here is to
queue `connectDestroyed` on the connection's loop.
-/
namespace Mymuduo
open Transition

/-- What can be queued on the loop of the connection. -/
inductive Functor where
  | connectEstablished
  | connectDestroyed
  /-- `sendInLoop(buf, len)`, with the note of what was there at the call. -/
  | sendInLoop (buf len : Nat) (contents : List UInt8)
  | shutdownInLoop
  | notification (n : Notification)
deriving DecidableEq, Repr

/-- The callbacks of the connection's channel. -/
inductive ChannelCallback where
  | handleRead
  | handleWrite
  | handleClose
deriving DecidableEq, Repr

/-- `op` is an activation of the callback. -/
inductive ChannelCallback.Runs : ChannelCallback → ConnOp → Prop
  | handleRead {a : ReadAnswer} {err : Int} : Runs .handleRead (.handleRead a err)
  | handleWrite {a : WriteAnswer} : Runs .handleWrite (.handleWrite a)
  | handleClose : Runs .handleClose .handleClose

/-- Where the loop's thread stands, as far as this connection goes. -/
inductive ServicePc where
  /-- Neither in the connection's channel nor in `doPendingFunctor`. -/
  | elsewhere
  /-- In `handleEventWithGuard` for the word `revents`; these callbacks are left. -/
  | handling (revents : EventMask) (todo : List ChannelCallback)
  /-- In `doPendingFunctor`; these functors are left. -/
  | batch (rest : List Functor)
  /-- In `connectDestroyed`, which has read `loaded` from `state_`. -/
  | destroying (loaded : StateE) (rest : List Functor)
deriving DecidableEq, Repr

namespace ServicePc

/-- The part of the batch not yet started. -/
def rest : ServicePc → List Functor
  | .batch rest | .destroying _ rest => rest
  | _ => []

/-- User code may run on the loop's thread. -/
def inUserCode : ServicePc → Bool
  | .destroying _ _ => false
  | _ => true

end ServicePc

/-- Where another thread stands. -/
inductive UserPc where
  | idle
  /-- In `send`, which found `kConnected`. -/
  | sending (buf len : Nat) (contents : List UInt8)
  /-- In `shutdown`, which found `kConnected`. -/
  | shutDownChecked
  /-- In `shutdown`, after `setState(kDisconnecting)`. -/
  | shutDownStored
deriving DecidableEq, Repr

/-- What came of a queued `sendInLoop`. -/
structure Delivery where
  conn : TcpConnection
  answer : WriteAnswer
  /-- What the string held at the call of `send`. -/
  contents : List UInt8
  /-- What the functor did, if what its pointer points to was allocated. -/
  outcome : Option Outcome
deriving DecidableEq, Repr

structure ConnectionSystem where
  run : ConnRun
  /-- The kernel's entry for the connection's fd. -/
  entry : Option EventMask
  loop : EventLoop Functor
  pc : ServicePc
  users : Tid → UserPc
  memory : Memory UInt8
  /-- Every functor ever queued. -/
  queued : List Functor
  deliveries : List Delivery

/-- A step, with what the environment chose in it. -/
inductive ServiceAction where
  | poll (revents : EventMask)
  /-- The next callback of the channel runs as `op`. -/
  | callback (op : ConnOp)
  | handled
  | swap
  /-- The next functor of the batch runs (`connectDestroyed`: reads `state_`). -/
  | functor (f : Functor) (a : WriteAnswer)
  | destroy
  | endBatch
  | sendHere
  | shutdownHere
  | sendCheck (t : Tid)
  | sendQueue (t : Tid)
  | shutdownCheck (t : Tid)
  | shutdownStore (t : Tid)
  | shutdownQueue (t : Tid)
  /-- A thread stores to a cell of its own, or frees or allocates it. -/
  | store (p : Nat) (v : Option UInt8)

/-- The functor an effect queues; `closeCallback_` queues `connectDestroyed`. -/
def Effect.queues : Effect → Option Functor
  | .queueInLoop n => some (.notification n)
  | .closeCallback => some .connectDestroyed
  | _ => none

/-- The kernel's entry that the poller calls of a run leave. -/
def ConnRun.entry (r : ConnRun) : Option EventMask :=
  (r.effects.filterMap Effect.pollerOp?).foldl PollerOp.onInterest none

theorem ConnRun.entry_exec (r : ConnRun) (op : ConnOp) : (r.exec op).entry =
    ((r.conn.exec op).2.filterMap Effect.pollerOp?).foldl PollerOp.onInterest r.entry := by
  rw [entry, entry, effects_exec, List.filterMap_append, List.foldl_append]

namespace ConnectionSystem

/-- `newConnection` has run: `connectEstablished` is the first functor queued.  (When
the connection is on the base loop `runInLoop` calls it at once, which is the run
that takes it from the queue first.) -/
def accepted (tid : Tid) (conn : TcpConnection) (memory : Memory UInt8) : ConnectionSystem where
  run := ⟨conn, []⟩
  entry := none
  loop := (EventLoop.new tid).enqueue .connectEstablished
  pc := .elsewhere
  users := fun _ => .idle
  memory := memory
  queued := [.connectEstablished]
  deliveries := []

/-- `queueInLoop` on the connection's loop, called by `t`. -/
def queueInLoop (s : ConnectionSystem) (t : Tid) (f : Functor) : ConnectionSystem :=
  { s with loop := s.loop.queueInLoop t f, queued := s.queued ++ [f] }

/-- An effect, on the poller or on the loop's queue. -/
def apply (s : ConnectionSystem) (e : Effect) : ConnectionSystem :=
  let s' := match e.pollerOp? with
    | some op => { s with entry := op.onInterest s.entry }
    | none => s
  match e.queues with
  | some f => s'.queueInLoop s.loop.threadId_ f
  | none => s'

/-- One activation on the connection, with its effects. -/
def perform (s : ConnectionSystem) (op : ConnOp) : ConnectionSystem :=
  (s.run.conn.exec op).2.foldl apply { s with run := s.run.exec op }

def setUser (s : ConnectionSystem) (t : Tid) (pc : UserPc) : ConnectionSystem :=
  { s with users := Function.update s.users t pc }

def setPc (s : ConnectionSystem) (pc : ServicePc) : ConnectionSystem := { s with pc := pc }

/-- The callbacks the channel invokes for `revents`.  The owner it is tied to is
there: `connections_` or a queued functor holds it. -/
def dispatch (s : ConnectionSystem) (revents : EventMask) : List ChannelCallback :=
  (s.run.conn.channel_.set_events revents).handleEvent true
    (TcpConnection.callbacks .handleRead .handleWrite .handleClose)

/-- The functors queued and not yet started. -/
def queue (s : ConnectionSystem) : List Functor := s.pc.rest ++ s.loop.pendingFunctors_

/-- One step. -/
inductive Step : ConnectionSystem → ServiceAction → ConnectionSystem → Prop where
  | poll {s} (h : s.pc = .elsewhere) (hentry : s.entry.isSome = true) (revents : EventMask) :
      Step s (.poll revents) (s.setPc (.handling revents (s.dispatch revents)))
  | callback {s} {revents cb todo} (h : s.pc = .handling revents (cb :: todo)) (op : ConnOp)
      (hop : cb.Runs op) :
      Step s (.callback op) ((s.perform op).setPc (.handling revents todo))
  | handled {s} {revents} (h : s.pc = .handling revents []) : Step s .handled (s.setPc .elsewhere)
  | swap {s} (h : s.pc = .elsewhere) :
      Step s .swap
        { s with loop := s.loop.swapPending.1, pc := .batch s.loop.swapPending.2 }
  | connectEstablished {s} {rest a} (h : s.pc = .batch (.connectEstablished :: rest)) :
      Step s (.functor .connectEstablished a)
        ((s.perform .connectEstablished).setPc (.batch rest))
  | connectDestroyed {s} {rest a} (h : s.pc = .batch (.connectDestroyed :: rest)) :
      Step s (.functor .connectDestroyed a) (s.setPc (.destroying s.run.conn.state_ rest))
  | destroy {s} {loaded rest} (h : s.pc = .destroying loaded rest) :
      Step s .destroy ((s.perform (.connectDestroyed loaded)).setPc (.batch rest))
  /-- Where the pointer dangles, the functor reads just anything. -/
  | sendInLoop {s} {buf len contents rest}
      (h : s.pc = .batch (.sendInLoop buf len contents :: rest)) (data : List UInt8)
      (a : WriteAnswer) (hdata : ∀ bytes, s.memory.load buf len = some bytes → data = bytes) :
      Step s (.functor (.sendInLoop buf len contents) a)
        { (s.perform (.sendInLoop data a)).setPc (.batch rest) with
          deliveries := s.deliveries ++ [⟨s.run.conn, a, contents,
            (s.memory.load buf len).map fun bytes => s.run.conn.sendInLoop bytes a⟩] }
  | shutdownInLoop {s} {rest a} (h : s.pc = .batch (.shutdownInLoop :: rest)) :
      Step s (.functor .shutdownInLoop a) ((s.perform .shutdownInLoop).setPc (.batch rest))
  | notification {s} {n rest a} (h : s.pc = .batch (.notification n :: rest)) :
      Step s (.functor (.notification n) a) (s.setPc (.batch rest))
  | endBatch {s} (h : s.pc = .batch []) : Step s .endBatch (s.setPc .elsewhere)
  /-- `send` on the loop's thread. -/
  | sendHere {s} (h : s.pc.inUserCode = true) (hst : s.run.conn.state_ = .kConnected)
      (data : List UInt8) (a : WriteAnswer) :
      Step s .sendHere (s.perform (.sendInLoop data a))
  /-- `shutdown` on the loop's thread. -/
  | shutdownHere {s} (h : s.pc.inUserCode = true) (hst : s.run.conn.state_ = .kConnected) :
      Step s .shutdownHere ((s.perform .setDisconnecting).perform .shutdownInLoop)
  | sendCheck {s} {t} (ht : t ≠ s.loop.threadId_) (h : s.users t = .idle)
      (hst : s.run.conn.state_ = .kConnected) (buf len : Nat) (contents : List UInt8)
      (hload : s.memory.load buf len = some contents) :
      Step s (.sendCheck t) (s.setUser t (.sending buf len contents))
  | sendQueue {s} {t buf len contents} (ht : t ≠ s.loop.threadId_)
      (h : s.users t = .sending buf len contents) :
      Step s (.sendQueue t)
        ((s.queueInLoop t (.sendInLoop buf len contents)).setUser t .idle)
  | shutdownCheck {s} {t} (ht : t ≠ s.loop.threadId_) (h : s.users t = .idle)
      (hst : s.run.conn.state_ = .kConnected) :
      Step s (.shutdownCheck t) (s.setUser t .shutDownChecked)
  | shutdownStore {s} {t} (ht : t ≠ s.loop.threadId_) (h : s.users t = .shutDownChecked) :
      Step s (.shutdownStore t) ((s.perform .setDisconnecting).setUser t .shutDownStored)
  | shutdownQueue {s} {t} (ht : t ≠ s.loop.threadId_) (h : s.users t = .shutDownStored) :
      Step s (.shutdownQueue t) ((s.queueInLoop t .shutdownInLoop).setUser t .idle)
  /-- The string passed to a `send` that has not returned is left alone. -/
  | store {s} (p : Nat) (v : Option UInt8)
      (hout : ∀ t buf len contents, s.users t = .sending buf len contents →
        p < buf ∨ buf + len ≤ p) :
      Step s (.store p v) { s with memory := s.memory.store p v }

/-! ## What an activation changes -/

section Perform
variable (s : ConnectionSystem) (op : ConnOp) (es : List Effect)

theorem foldl_apply : es.foldl apply s =
    { s with
      entry := (es.filterMap Effect.pollerOp?).foldl PollerOp.onInterest s.entry
      loop := (es.filterMap Effect.queues).foldl
        (fun l f => l.queueInLoop l.threadId_ f) s.loop
      queued := s.queued ++ es.filterMap Effect.queues } := by
  induction es generalizing s with
  | nil => simp
  | cons e es ih =>
    rw [List.foldl_cons, ih]
    cases e <;> simp [apply, List.filterMap_cons, Effect.pollerOp?, Effect.queues, queueInLoop]

theorem pending_foldl_queueInLoop (l : EventLoop Functor) (fs : List Functor) :
    (fs.foldl (fun l f => l.queueInLoop l.threadId_ f) l).pendingFunctors_ =
      l.pendingFunctors_ ++ fs := by
  induction fs generalizing l with
  | nil => simp
  | cons f fs ih => rw [List.foldl_cons, ih, EventLoop.pending_queueInLoop, List.append_assoc,
      List.singleton_append]

theorem threadId_foldl_queueInLoop (l : EventLoop Functor) (fs : List Functor) :
    (fs.foldl (fun l f => l.queueInLoop l.threadId_ f) l).threadId_ = l.threadId_ := by
  induction fs generalizing l with
  | nil => rfl
  | cons f fs ih => rw [List.foldl_cons, ih, EventLoop.threadId_queueInLoop]

@[simp] theorem threadId_perform : (s.perform op).loop.threadId_ = s.loop.threadId_ := by
  rw [perform, foldl_apply, threadId_foldl_queueInLoop]

@[simp] theorem run_perform : (s.perform op).run = s.run.exec op := by
  rw [perform, foldl_apply]

@[simp] theorem pc_perform : (s.perform op).pc = s.pc := by
  rw [perform, foldl_apply]

@[simp] theorem users_perform : (s.perform op).users = s.users := by
  rw [perform, foldl_apply]

@[simp] theorem memory_perform : (s.perform op).memory = s.memory := by
  rw [perform, foldl_apply]

@[simp] theorem deliveries_perform : (s.perform op).deliveries = s.deliveries := by
  rw [perform, foldl_apply]

theorem entry_perform : (s.perform op).entry =
    ((s.run.conn.exec op).2.filterMap Effect.pollerOp?).foldl PollerOp.onInterest s.entry := by
  rw [perform, foldl_apply]

@[simp] theorem queued_perform :
    (s.perform op).queued = s.queued ++ (s.run.conn.exec op).2.filterMap Effect.queues := by
  rw [perform, foldl_apply]

@[simp] theorem pending_perform : (s.perform op).loop.pendingFunctors_ =
    s.loop.pendingFunctors_ ++ (s.run.conn.exec op).2.filterMap Effect.queues := by
  rw [perform, foldl_apply, pending_foldl_queueInLoop]

/-- A connection queues notifications and its own destruction, nothing else. -/
theorem queues_cases {f : Functor} (h : f ∈ es.filterMap Effect.queues) :
    (∃ n, f = .notification n) ∨ f = .connectDestroyed ∧ .closeCallback ∈ es := by
  obtain ⟨e, he, hf⟩ := List.mem_filterMap.mp h
  cases e <;> simp only [Effect.queues, Option.some.injEq, reduceCtorEq] at hf
  · exact Or.inr ⟨hf.symm, he⟩
  · exact Or.inl ⟨_, hf.symm⟩

end Perform

/-! ## What a step does to the connection and to the queue -/

/-- The loop's thread is the same in every state. -/
theorem Step.threadId {s s' : ConnectionSystem} {a : ServiceAction} (h : Step s a s') :
    s'.loop.threadId_ = s.loop.threadId_ := by
  cases h with
  | callback | connectEstablished | destroy | shutdownInLoop | sendHere | shutdownStore =>
    exact threadId_perform ..
  | sendInLoop h data a => exact s.threadId_perform (.sendInLoop data a)
  | shutdownHere => exact (threadId_perform ..).trans (threadId_perform ..)
  | sendQueue | shutdownQueue => exact s.loop.threadId_queueInLoop _ _
  | _ => rfl

/-- What a step labelled `a` may run on the connection, and where it finds it. -/
inductive Performs (s : ConnectionSystem) : ServiceAction → ConnOp → Prop
  | callback {revents : EventMask} {cb : ChannelCallback} {todo : List ChannelCallback}
      {op : ConnOp} (hpc : s.pc = .handling revents (cb :: todo)) (hop : cb.Runs op) :
      Performs s (.callback op) op
  | connectEstablished {a : WriteAnswer} (h : .connectEstablished ∈ s.queue) :
      Performs s (.functor .connectEstablished a) .connectEstablished
  | destroy {loaded : StateE} {rest : List Functor} (hpc : s.pc = .destroying loaded rest) :
      Performs s .destroy (.connectDestroyed loaded)
  | sendInLoop {buf len : Nat} {contents data : List UInt8} {a : WriteAnswer} :
      Performs s (.functor (.sendInLoop buf len contents) a) (.sendInLoop data a)
  | shutdownInLoop {a : WriteAnswer} (h : .shutdownInLoop ∈ s.queue) :
      Performs s (.functor .shutdownInLoop a) .shutdownInLoop
  | sendHere {data : List UInt8} {a : WriteAnswer} (hst : s.run.conn.state_ = .kConnected) :
      Performs s .sendHere (.sendInLoop data a)
  | shutdownStore {t : Tid} : Performs s (.shutdownStore t) .setDisconnecting

/-- **What a step does to the connection**: nothing, one activation, or (for a
`shutdown` on the loop's thread) two. -/
theorem Step.run_cases {s s' : ConnectionSystem} {a : ServiceAction} (h : Step s a s') :
    s'.run = s.run ∨ (∃ op, s.Performs a op ∧ s'.run = s.run.exec op) ∨
      (a = .shutdownHere ∧ s.run.conn.state_ = .kConnected ∧
        s'.run = (s.run.exec .setDisconnecting).exec .shutdownInLoop) := by
  cases h with
  | poll | handled | swap | connectDestroyed | notification | endBatch | sendCheck | sendQueue
  | shutdownCheck | shutdownQueue | store => exact Or.inl rfl
  | callback h op hop => exact Or.inr (Or.inl ⟨op, .callback h hop, s.run_perform op⟩)
  | connectEstablished h =>
    refine Or.inr (Or.inl ⟨_, .connectEstablished ?_, s.run_perform _⟩)
    simp [queue, h, ServicePc.rest]
  | destroy h => exact Or.inr (Or.inl ⟨_, .destroy h, s.run_perform _⟩)
  | sendInLoop h data a => exact Or.inr (Or.inl ⟨_, .sendInLoop, s.run_perform _⟩)
  | shutdownInLoop h =>
    refine Or.inr (Or.inl ⟨_, .shutdownInLoop ?_, s.run_perform _⟩)
    simp [queue, h, ServicePc.rest]
  | sendHere h hst data a => exact Or.inr (Or.inl ⟨_, .sendHere hst, s.run_perform _⟩)
  | shutdownStore => exact Or.inr (Or.inl ⟨_, .shutdownStore, s.run_perform _⟩)
  | shutdownHere h hst =>
    exact Or.inr (Or.inr ⟨rfl, hst, by rw [run_perform, run_perform]⟩)

section Performs
variable {s : ConnectionSystem} {a : ServiceAction}

theorem Performs.established (h : s.Performs a .connectEstablished) :
    .connectEstablished ∈ s.queue := by
  cases h with
  | callback hpc hop => cases hop
  | connectEstablished h => exact h

theorem Performs.shutdown (h : s.Performs a .shutdownInLoop) : .shutdownInLoop ∈ s.queue := by
  cases h with
  | callback hpc hop => cases hop
  | shutdownInLoop h => exact h

/-- A `sendInLoop` is a functor, or the inline call of a `send` that found
`kConnected`. -/
theorem Performs.send {data : List UInt8} {wa : WriteAnswer}
    (h : s.Performs a (.sendInLoop data wa)) :
    (∃ buf len contents, a = .functor (.sendInLoop buf len contents) wa) ∨
      s.run.conn.state_ = .kConnected := by
  cases h with
  | callback hpc hop => cases hop
  | sendInLoop => exact Or.inl ⟨_, _, _, rfl⟩
  | sendHere hst => exact Or.inr hst

theorem Performs.destroyed {loaded : StateE} (h : s.Performs a (.connectDestroyed loaded)) :
    ∃ rest, s.pc = .destroying loaded rest := by
  cases h with
  | callback hpc hop => cases hop
  | destroy hpc => exact ⟨_, hpc⟩

/-- What runs as a callback of the channel is the next one of the event word. -/
theorem Performs.next {op : ConnOp} {cb : ChannelCallback} (h : s.Performs a op)
    (hcb : cb.Runs op) :
    a = .callback op ∧ ∃ revents todo, s.pc = .handling revents (cb :: todo) := by
  cases h with
  | callback hpc hop =>
    cases hcb <;> cases hop <;> exact ⟨rfl, _, _, hpc⟩
  | _ => cases hcb

end Performs

section Queue
variable {s : ConnectionSystem} {f : Functor}

theorem mem_queue_perform {op : ConnOp} (hf : f ∈ (s.perform op).queue) :
    f ∈ s.queue ∨ (∃ n, f = .notification n) ∨
      f = .connectDestroyed ∧ .closeCallback ∈ (s.perform op).run.effects := by
  rw [queue, pc_perform, pending_perform, ← List.append_assoc, List.mem_append] at hf
  rcases hf with hf | hf
  · exact Or.inl hf
  · refine Or.inr ((queues_cases _ hf).imp_right fun ⟨hf, hmem⟩ => ⟨hf, ?_⟩)
    rw [run_perform, ConnRun.effects_exec]
    exact List.mem_append_right _ hmem

theorem mem_queue_setPc {pc : ServicePc} (hpc : f ∈ pc.rest → f ∈ s.pc.rest)
    (hf : f ∈ (s.setPc pc).queue) : f ∈ s.queue := by
  rcases List.mem_append.mp hf with hf | hf
  · exact List.mem_append_left _ (hpc hf)
  · exact List.mem_append_right _ hf

theorem mem_queue_queueInLoop {t : Tid} {g : Functor} (hf : f ∈ (s.queueInLoop t g).queue) :
    f ∈ s.queue ∨ f = g := by
  rw [queue, queueInLoop, EventLoop.pending_queueInLoop, ← List.append_assoc, List.mem_append,
    List.mem_singleton] at hf
  exact hf

theorem queue_setUser {t : Tid} {pc : UserPc} : (s.setUser t pc).queue = s.queue := rfl

end Queue

/-- **What a step can add to the queue**: what the connection queues itself, and
what a thread in `send` or `shutdown` queues. -/
theorem Step.mem_queue {s s' : ConnectionSystem} {a : ServiceAction} (h : Step s a s')
    {f : Functor} (hf : f ∈ s'.queue) :
    f ∈ s.queue ∨
      ((∃ n, f = .notification n) ∨ f = .connectDestroyed ∧ .closeCallback ∈ s'.run.effects) ∨
      (∃ t buf len contents, f = .sendInLoop buf len contents ∧
        s.users t = .sending buf len contents) ∨
      (∃ t, f = .shutdownInLoop ∧ s.users t = .shutDownStored) := by
  -- a batch that goes on is a part of the batch that was
  have hbatch : ∀ {g : Functor} {rest : List Functor}, s.pc = .batch (g :: rest) →
      f ∈ (ServicePc.batch rest).rest → f ∈ s.pc.rest := by
    intro g rest hpc hf
    rw [hpc]
    exact List.mem_cons_of_mem g hf
  have hperform : ∀ {op : ConnOp} {pc : ServicePc}, (f ∈ pc.rest → f ∈ s.pc.rest) →
      f ∈ ((s.perform op).setPc pc).queue →
      f ∈ s.queue ∨ (∃ n, f = .notification n) ∨
        f = .connectDestroyed ∧ .closeCallback ∈ (s.perform op).run.effects :=
    fun hpc hf => mem_queue_perform (mem_queue_setPc (by rwa [pc_perform]) hf)
  cases h with
  | poll | handled | endBatch => exact Or.inl (mem_queue_setPc (by simp [ServicePc.rest]) hf)
  | swap =>
    rcases List.mem_append.mp hf with hf | hf
    · exact Or.inl (List.mem_append_right _ hf)
    · cases hf
  | connectDestroyed h | notification h => exact Or.inl (mem_queue_setPc (hbatch h) hf)
  | sendCheck | shutdownCheck | store => exact Or.inl hf
  | callback h op hop => exact (hperform (by simp [ServicePc.rest]) hf).imp_right Or.inl
  | connectEstablished h | shutdownInLoop h => exact (hperform (hbatch h) hf).imp_right Or.inl
  | sendInLoop h data a => exact (@hperform (.sendInLoop data a) _ (hbatch h) hf).imp_right Or.inl
  | destroy h => exact (hperform (fun hf => by rwa [h]) hf).imp_right Or.inl
  | sendHere => exact (mem_queue_perform hf).imp_right Or.inl
  | shutdownStore =>
    rw [queue_setUser] at hf
    exact (mem_queue_perform hf).imp_right Or.inl
  | shutdownHere =>
    rcases mem_queue_perform hf with hf | hf
    · rcases mem_queue_perform hf with hf | hf | ⟨rfl, hmem⟩
      · exact Or.inl hf
      · exact Or.inr (Or.inl (Or.inl hf))
      · refine Or.inr (Or.inl (Or.inr ⟨rfl, ?_⟩))
        rw [run_perform, ConnRun.effects_exec]
        exact List.mem_append_left _ hmem
    · exact Or.inr (Or.inl hf)
  | sendQueue ht h =>
    rw [queue_setUser] at hf
    rcases mem_queue_queueInLoop hf with hf | rfl
    · exact Or.inl hf
    · exact Or.inr (Or.inr (Or.inl ⟨_, _, _, _, rfl, h⟩))
  | shutdownQueue ht h =>
    rw [queue_setUser] at hf
    rcases mem_queue_queueInLoop hf with hf | rfl
    · exact Or.inl hf
    · exact Or.inr (Or.inr (Or.inr ⟨_, rfl, h⟩))

/-- Once `connectEstablished` has run it is not queued again. -/
theorem Step.established {s s' : ConnectionSystem} {a : ServiceAction} (h : Step s a s')
    (he : .connectEstablished ∉ s.queue) : .connectEstablished ∉ s'.queue := by
  intro hf
  rcases h.mem_queue hf with hf | (⟨n, hf⟩ | ⟨hf, -⟩) | ⟨t, _, _, _, hf, -⟩ | ⟨t, hf, -⟩
  · exact he hf
  all_goals cases hf

theorem setUser_apply (s : ConnectionSystem) (t u : Tid) (pc : UserPc) :
    (s.setUser t pc).users u = if u = t then pc else s.users u := by
  simp [setUser, Function.update_apply]

/-- `setState(kDisconnecting)` is what brings a thread to the push of `shutdown`. -/
theorem Step.stored {s s' : ConnectionSystem} {a : ServiceAction} (h : Step s a s') {u : Tid}
    (hu : s'.users u = .shutDownStored) :
    s.users u = .shutDownStored ∨ s'.run.conn.state_ = .kDisconnecting := by
  cases h with
  | sendCheck | sendQueue | shutdownCheck | shutdownQueue =>
    rw [setUser_apply] at hu
    split at hu
    · cases hu
    · exact Or.inl hu
  | shutdownStore =>
    refine Or.inr ?_
    show (s.perform .setDisconnecting).run.conn.state_ = _
    rw [run_perform]
    rfl
  | shutdownHere | callback | connectEstablished | destroy | sendInLoop | shutdownInLoop
  | sendHere =>
    simp only [setPc, users_perform] at hu
    exact Or.inl hu
  | _ => exact Or.inl hu

/-- **How the loop's thread gets to the callbacks it has left**: it was there, it ran
the one before them, or the poll has just reported the word. -/
theorem Step.handling_cases {s s' : ConnectionSystem} {a : ServiceAction} (h : Step s a s')
    {revents : EventMask} {todo : List ChannelCallback} (hpc : s'.pc = .handling revents todo) :
    (s.pc = .handling revents todo ∧ ∀ op, a ≠ .callback op) ∨
      (∃ cb op, s.pc = .handling revents (cb :: todo) ∧ a = .callback op ∧ cb.Runs op) ∨
      (a = .poll revents ∧ s.entry.isSome = true ∧ todo = s.dispatch revents) := by
  cases h with
  | poll h hentry revents' =>
    cases hpc
    exact Or.inr (Or.inr ⟨rfl, hentry, rfl⟩)
  | callback h op hop =>
    cases hpc
    exact Or.inr (Or.inl ⟨_, op, h, rfl, hop⟩)
  | handled | swap | connectEstablished | connectDestroyed | destroy | sendInLoop | shutdownInLoop
  | notification | endBatch => cases hpc
  | sendHere | shutdownHere =>
    simp only [pc_perform] at hpc
    exact Or.inl ⟨hpc, by simp⟩
  | shutdownStore =>
    simp only [setUser, pc_perform] at hpc
    exact Or.inl ⟨hpc, by simp⟩
  | _ => exact Or.inl ⟨hpc, by simp⟩

/-- `connectDestroyed` is entered from the queue. -/
theorem Step.destroying_cases {s s' : ConnectionSystem} {a : ServiceAction} (h : Step s a s')
    {loaded : StateE} {rest : List Functor} (hpc : s'.pc = .destroying loaded rest) :
    s.pc = .destroying loaded rest ∨
      (loaded = s.run.conn.state_ ∧ .connectDestroyed ∈ s.queue) := by
  cases h with
  | connectDestroyed h =>
    cases hpc
    exact Or.inr ⟨rfl, by simp [queue, h, ServicePc.rest]⟩
  | poll | callback | handled | swap | connectEstablished | destroy | sendInLoop | shutdownInLoop
  | notification | endBatch => cases hpc
  | sendHere | shutdownHere =>
    simp only [pc_perform] at hpc
    exact Or.inl hpc
  | shutdownStore =>
    simp only [setUser, pc_perform] at hpc
    exact Or.inl hpc
  | _ => exact Or.inl hpc

/-! ## The poller and the queue, read off the log -/

/-- The kernel's entry and the number of times `connectDestroyed` was queued follow
from what the connection did. -/
structure Accounted (s : ConnectionSystem) : Prop where
  entry : s.entry = s.run.entry
  destroyed : s.queued.count .connectDestroyed = s.run.effects.count .closeCallback

theorem count_queues (es : List Effect) :
    (es.filterMap Effect.queues).count .connectDestroyed = es.count .closeCallback := by
  induction es with
  | nil => rfl
  | cons e es ih =>
    cases e <;> simp [List.filterMap_cons, Effect.queues, ih]

theorem entry_perform_run {s : ConnectionSystem} (h : s.entry = s.run.entry) (op : ConnOp) :
    (s.perform op).entry = (s.perform op).run.entry := by
  rw [entry_perform, run_perform, ConnRun.entry_exec, h]

theorem Step.entry {s s' : ConnectionSystem} {a : ServiceAction} (h : Step s a s')
    (hs : s.entry = s.run.entry) : s'.entry = s'.run.entry := by
  cases h with
  | callback h op => exact entry_perform_run hs op
  | sendInLoop h data a => exact entry_perform_run hs (.sendInLoop data a)
  | connectEstablished | destroy | shutdownInLoop | sendHere | shutdownStore =>
    exact entry_perform_run hs _
  | shutdownHere => exact entry_perform_run (entry_perform_run hs _) _
  | _ => exact hs

theorem Accounted.perform {s : ConnectionSystem} (h : Accounted s) (op : ConnOp) :
    Accounted (s.perform op) := by
  refine ⟨entry_perform_run h.entry op, ?_⟩
  rw [queued_perform, run_perform, ConnRun.effects_exec, List.count_append, List.count_append,
    h.destroyed, count_queues]

theorem accounted_step {s s' : ConnectionSystem} {a : ServiceAction} (hs : Accounted s)
    (h : Step s a s') : Accounted s' := by
  refine ⟨h.entry hs.entry, ?_⟩
  cases h with
  | callback h op => exact (hs.perform op).destroyed
  | sendInLoop h data a => exact (hs.perform (.sendInLoop data a)).destroyed
  | connectEstablished | destroy | shutdownInLoop | sendHere | shutdownStore =>
    exact (hs.perform _).destroyed
  | shutdownHere => exact ((hs.perform _).perform _).destroyed
  | sendQueue | shutdownQueue =>
    show (s.queued ++ [_]).count Functor.connectDestroyed = _
    rw [List.count_append, hs.destroyed]
    rfl
  | _ => exact hs.destroyed

theorem accounted_run {tid : Tid} {conn : TcpConnection} {memory : Memory UInt8}
    {as : List ServiceAction} {s : ConnectionSystem}
    (h : Run Step (accepted tid conn memory) as s) : Accounted s :=
  h.invariant ⟨rfl, rfl⟩ fun _ _ _ hs hstep => accounted_step hs hstep

/-! ## Before the connection is established -/

section Established
variable {tid : Tid} {name : String} {fd : Int} {writeComplete highWaterMark : Bool}
  {memory : Memory UInt8} {s s' : ConnectionSystem} {a : ServiceAction}

/-- `connectEstablished` has not run; nothing has happened to the connection. -/
structure Untouched (conn : TcpConnection) (s : ConnectionSystem) : Prop where
  run : s.run = ⟨conn, []⟩
  entry : s.entry = none
  pc : s.pc = .elsewhere ∨ ∃ rest, s.pc = .batch rest
  users : s.users = fun _ => .idle
  queue : s.queue = [.connectEstablished]
  queued : s.queued = [.connectEstablished]

/-- `connectEstablished` has just run. -/
structure Opened (conn : TcpConnection) (s : ConnectionSystem) : Prop where
  run : s.run = (⟨conn, []⟩ : ConnRun).exec .connectEstablished
  entry : s.entry = some Channel.kReadEvent
  pc : s.pc = .batch []
  users : s.users = fun _ => .idle
  queue : s.queue = []
  queued : s.queued = [.connectEstablished]

theorem untouched_accepted (conn : TcpConnection) : Untouched conn (accepted tid conn memory) where
  run := rfl
  entry := rfl
  pc := Or.inl rfl
  users := rfl
  queue := rfl
  queued := rfl

/-- A new connection registers its fd and calls up. -/
theorem new_connectEstablished_effects :
    ((TcpConnection.new name fd writeComplete highWaterMark).exec .connectEstablished).2 =
      [.poller (.insert fd), .poller (.ctl .EPOLL_CTL_ADD fd Channel.kReadEvent),
        .connectionCallback .up] := by
  simp [TcpConnection.exec, TcpConnection.connectEstablished, TcpConnection.onChannel,
    TcpConnection.setState, TcpConnection.new, Channel.new, Channel.tie, Channel.enableReading,
    EPollPoller.updateChannel]

/-- `connectEstablished` has not run; `rest` is what is queued behind it. -/
structure Waiting (rest : List Functor) (s : ConnectionSystem) : Prop where
  state : s.run.conn.state_ ≠ .kConnected
  entry : s.entry = none
  pc : s.pc = .elsewhere ∨ ∃ rest, s.pc = .batch rest
  users : s.users = fun _ => .idle
  queue : s.queue = .connectEstablished :: rest

/-- Until `connectEstablished` runs, only the batch and the memory move. -/
theorem waiting_step {rest : List Functor} (hs : Waiting rest s) (h : Step s a s') :
    (Waiting rest s' ∧ s'.run = s.run ∧ s'.queued = s.queued) ∨
      ∃ rest', rest' ++ s.loop.pendingFunctors_ = rest ∧
        s' = (s.perform .connectEstablished).setPc (.batch rest') := by
  obtain ⟨hst, hentry, hpc, husers, hqueue⟩ := hs
  have hnot : ∀ revents todo, s.pc ≠ .handling revents todo := by
    rintro revents todo h
    rcases hpc with hpc | ⟨rest, hpc⟩ <;> rw [hpc] at h <;> cases h
  -- a functor that starts is `connectEstablished`
  have hfirst : ∀ f rest', s.pc = .batch (f :: rest') →
      f = .connectEstablished ∧ rest' ++ s.loop.pendingFunctors_ = rest := by
    intro f rest' h
    rw [queue, h] at hqueue
    simpa [ServicePc.rest] using hqueue
  cases h with
  | poll h hsome => simp [hentry] at hsome
  | callback h => exact absurd h (hnot _ _)
  | handled h => exact absurd h (hnot _ _)
  | swap h =>
    refine Or.inl ⟨⟨hst, hentry, Or.inr ⟨_, rfl⟩, husers, ?_⟩, rfl, rfl⟩
    rw [queue, h] at hqueue
    simpa [queue, ServicePc.rest, EventLoop.swapPending] using hqueue
  | connectEstablished h => exact Or.inr ⟨_, (hfirst _ _ h).2, rfl⟩
  | connectDestroyed h => cases (hfirst _ _ h).1
  | sendInLoop h => cases (hfirst _ _ h).1
  | shutdownInLoop h => cases (hfirst _ _ h).1
  | notification h => cases (hfirst _ _ h).1
  | destroy h =>
    rcases hpc with hpc | ⟨rest, hpc⟩ <;> rw [hpc] at h <;> cases h
  | endBatch h =>
    refine Or.inl ⟨⟨hst, hentry, Or.inl rfl, husers, ?_⟩, rfl, rfl⟩
    rw [queue, h] at hqueue
    simpa [queue, ServicePc.rest, setPc] using hqueue
  | sendHere h hst' => exact absurd hst' hst
  | shutdownHere h hst' => exact absurd hst' hst
  | sendCheck ht h hst' => exact absurd hst' hst
  | shutdownCheck ht h hst' => exact absurd hst' hst
  | sendQueue ht h => simp [husers] at h
  | shutdownStore ht h => simp [husers] at h
  | shutdownQueue ht h => simp [husers] at h
  | store p v hout => exact Or.inl ⟨⟨hst, hentry, hpc, husers, hqueue⟩, rfl, rfl⟩

theorem Untouched.waiting
    (hs : Untouched (TcpConnection.new name fd writeComplete highWaterMark) s) :
    Waiting [] s := by
  refine ⟨?_, hs.entry, hs.pc, hs.users, hs.queue⟩
  rw [hs.run]
  simp [TcpConnection.new]

theorem untouched_step
    (hs : Untouched (TcpConnection.new name fd writeComplete highWaterMark) s)
    (h : Step s a s') :
    Untouched (TcpConnection.new name fd writeComplete highWaterMark) s' ∨
      Opened (TcpConnection.new name fd writeComplete highWaterMark) s' := by
  have hwaiting := hs.waiting
  obtain ⟨hrun, hentry, -, husers, -, hqueued⟩ := hs
  rcases waiting_step hwaiting h with ⟨hw, hrun', hqueued'⟩ | ⟨rest, hrest, rfl⟩
  · exact Or.inl ⟨hrun'.trans hrun, hw.entry, hw.pc, hw.users, hw.queue, hqueued'.trans hqueued⟩
  · obtain ⟨rfl, hpending⟩ := List.append_eq_nil_iff.mp hrest
    have heffects : (s.run.conn.exec .connectEstablished).2 =
        [.poller (.insert fd), .poller (.ctl .EPOLL_CTL_ADD fd Channel.kReadEvent),
          .connectionCallback .up] := by
      rw [hrun]
      exact new_connectEstablished_effects
    refine Or.inr ⟨?_, ?_, rfl, ?_, ?_, ?_⟩
    · rw [← hrun]
      exact s.run_perform _
    · show (s.perform .connectEstablished).entry = _
      rw [entry_perform, heffects, hentry]
      rfl
    · exact (s.users_perform _).trans husers
    · show [] ++ (s.perform .connectEstablished).loop.pendingFunctors_ = []
      rw [pending_perform, heffects, hpending]
      rfl
    · show (s.perform .connectEstablished).queued = _
      rw [queued_perform, heffects, hqueued]
      rfl

/-- **The induction rule of a connection.**  A run is either still before
`connectEstablished`, or it has what `connectEstablished` gives and every later
step keeps. -/
theorem untouched_or {Q : ConnectionSystem → ServiceAction → Prop} (Inv : ConnectionSystem → Prop)
    {as : List ServiceAction}
    (h : Run (Meeting Step Q)
      (accepted tid (TcpConnection.new name fd writeComplete highWaterMark) memory) as s)
    (hopen : ∀ s, Opened (TcpConnection.new name fd writeComplete highWaterMark) s → Inv s)
    (hstep : ∀ s a s', Inv s → Step s a s' → Q s a → Inv s') :
    Untouched (TcpConnection.new name fd writeComplete highWaterMark) s ∨ Inv s := by
  induction h with
  | refl => exact Or.inl (untouched_accepted _)
  | tail _ hs ih =>
    rcases ih with ih | ih
    · exact (untouched_step ih hs.1).imp_right (hopen _)
    · exact Or.inr (hstep _ _ _ ih hs.1 hs.2)

end Established

end ConnectionSystem
end Mymuduo
