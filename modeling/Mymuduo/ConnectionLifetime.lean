import Mymuduo.ConnectionSystem

/-! # The life of a connection

`LifetimeSystem` puts a `ConnectionSystem` under the server that has accepted the
connection.  Besides the connection and its loop it holds what keeps the connection
alive: the entry of `connections_`, the shared pointers that threads of the user
keep, the ones bound into queued functors, and the ones on the stack of
`handleEvent` and of `~TcpServer`.  They are not counted in the state; `owners`
counts them over the places that hold them.

The thread of the base loop may run `~TcpServer` at any time.  Where the destructor
finds the connection in the table it queues `connectDestroyed` on the connection's
loop, or calls it, if the connection is on the base loop.

A poll and the dispatch of what it reported are two steps here, and so are the part
of `handleClose` before `closeCallback_` and the call of `closeCallback_`: user code
that destroys the server can run in between.  What `closeCallback_` does to the
server is noted with the point `~TcpServer` had reached; no step reads the note.
-/
namespace Mymuduo
open Transition

/-- How far `~TcpServer` is. -/
inductive ServerPc where
  | serving
  /-- In the loop over `connections_`. -/
  | iterating
  /-- In the `connectDestroyed` of this connection, which has read `loaded`. -/
  | destroying (loaded : StateE)
  | ended
deriving DecidableEq, Repr

/-- `~TcpServer` is being run. -/
def ServerPc.inDestructor : ServerPc → Bool
  | .iterating | .destroying _ => true
  | .serving | .ended => false

/-- `~TcpServer` has its local copy of the shared pointer. -/
def ServerPc.holds : ServerPc → Bool
  | .destroying _ => true
  | _ => false

/-- The functor binds a shared pointer; `sendInLoop` and `shutdownInLoop` bind
`this`. -/
def Functor.shared : Functor → Bool
  | .sendInLoop .. | .shutdownInLoop => false
  | _ => true

/-- Where the channel of the connection is being handled. -/
def ServicePc.inHandler : ServicePc → Bool
  | .handling _ _ => true
  | _ => false

/-- The thread that takes the step; any thread may store to the memory. -/
def ServiceAction.thread (tid : Tid) : ServiceAction → Option Tid
  | .sendCheck t | .sendQueue t | .shutdownCheck t | .shutdownStore t | .shutdownQueue t => some t
  | .store .. => none
  | _ => some tid

inductive LifetimeAction where
  /-- A step of the connection on its loop. -/
  | serve (a : ServiceAction)
  /-- A poll reports the channel. -/
  | report (revents : EventMask)
  /-- The loop gets to the channel in `activeChannels_`. -/
  | dispatch
  /-- The next callback closes; the step ends before `closeCallback_`. -/
  | close (op : ConnOp)
  /-- `closeCallback_`, that is `TcpServer::removeConnectionInLoop`. -/
  | closeCallback
  /-- `~TcpServer` begins. -/
  | destruct
  /-- `~TcpServer` queues `connectDestroyed`. -/
  | destroyQueue
  /-- `~TcpServer` calls `connectDestroyed`, which reads `state_`. -/
  | destroyHere
  /-- The rest of that call. -/
  | destroyedHere
  | destructed
  /-- Thread `t` keeps a shared pointer. -/
  | keep (t : Tid)
  /-- Thread `t` gives one up. -/
  | release (t : Tid)

structure LifetimeSystem where
  sys : ConnectionSystem
  /-- The thread of the base loop. -/
  base : Tid
  /-- Whether `connections_` has the connection. -/
  inTable : Bool
  server : ServerPc
  /-- The word reported for the channel, as long as it waits in `activeChannels_`. -/
  active : Option EventMask
  /-- In `handleClose`, before `closeCallback_`. -/
  closing : Bool
  /-- The vector of `doPendingFunctor`, executed functors included. -/
  functors : List Functor
  /-- The threads that keep a shared pointer, once for each. -/
  holders : List Tid
  /-- Where `~TcpServer` was at each call of `removeConnectionInLoop`. -/
  removals : List ServerPc

/-- The part of a closing activation before `closeCallback_`.  (The log of the
connection has the whole activation.) -/
def ConnectionSystem.performClose (s : ConnectionSystem) (op : ConnOp) : ConnectionSystem :=
  ((s.run.conn.exec op).2.filter (· ≠ .closeCallback)).foldl apply { s with run := s.run.exec op }

namespace LifetimeSystem

/-- `newConnection` has run, on the thread of the base loop. -/
def accepted (tid base : Tid) (conn : TcpConnection) (memory : Memory UInt8) :
    LifetimeSystem where
  sys := .accepted tid conn memory
  base := base
  inTable := true
  server := .serving
  active := none
  closing := false
  functors := []
  holders := []
  removals := []

section State
variable (s : LifetimeSystem)

/-- The thread of the connection's loop. -/
def tid : Tid := s.sys.loop.threadId_

/-- The functors that exist: queued, or in the vector of the batch. -/
def tasks : List Functor := s.sys.loop.pendingFunctors_ ++ s.functors

/-- The number of shared pointers to the connection. -/
def owners : Nat :=
  (if s.inTable then 1 else 0) + s.holders.length + s.tasks.countP Functor.shared +
    -- `guard` in `handleEvent`, `conn` in `~TcpServer`
    (if s.sys.pc.inHandler then 1 else 0) + if s.server.holds then 1 else 0

/-- Thread `t` is neither in `~TcpServer` nor in `handleClose`. -/
def Free (t : Tid) : Prop :=
  (t = s.base → s.server.inDestructor = false) ∧ (t = s.tid → s.closing = false)

instance (t : Tid) : Decidable (s.Free t) := inferInstanceAs (Decidable (_ ∧ _))

/-- What a step of the connection needs besides its own conditions.  Polls and closing
callbacks have steps of their own; the functors follow the dispatch; whoever calls
`send` or `shutdown` has a pointer to the connection. -/
def Allows : ServiceAction → Prop
  | .poll _ => False
  | .callback op => ¬ op.Closes
  | .swap => s.active = none
  | .sendCheck t | .shutdownCheck t => t ∈ s.holders
  | .sendHere | .shutdownHere => 0 < s.owners
  | _ => True

/-- The vector of `doPendingFunctor` after a step. -/
def functorsAfter : ServiceAction → List Functor
  | .swap => s.sys.loop.swapPending.2
  | .endBatch => []
  | _ => s.functors

end State

/-- One step. -/
inductive Step : LifetimeSystem → LifetimeAction → LifetimeSystem → Prop where
  | serve {s} {a : ServiceAction} {sys' : ConnectionSystem}
      (hstep : ConnectionSystem.Step s.sys a sys') (hfree : ∀ t ∈ a.thread s.tid, s.Free t)
      (hallows : s.Allows a) :
      Step s (.serve a) { s with sys := sys', functors := s.functorsAfter a }
  | report {s} (hfree : s.Free s.tid) (h : s.sys.pc = .elsewhere) (hactive : s.active = none)
      (hentry : s.sys.entry.isSome = true) (revents : EventMask) :
      Step s (.report revents) { s with active := some revents }
  /-- `tie_.lock()` succeeds. -/
  | dispatch {s} {revents} (hfree : s.Free s.tid) (h : s.sys.pc = .elsewhere)
      (hactive : s.active = some revents) (howner : 0 < s.owners) :
      Step s .dispatch
        { s with sys := s.sys.setPc (.handling revents (s.sys.dispatch revents)), active := none }
  | close {s} {revents cb todo} {op : ConnOp} (hfree : s.Free s.tid)
      (h : s.sys.pc = .handling revents (cb :: todo)) (hop : cb.Runs op) (hclose : op.Closes) :
      Step s (.close op)
        { s with sys := (s.sys.performClose op).setPc (.handling revents todo), closing := true }
  | closeCallback {s} (h : s.closing = true)
      (hfree : s.tid = s.base → s.server.inDestructor = false) :
      Step s .closeCallback
        { s with sys := s.sys.apply .closeCallback, inTable := false, closing := false,
                 removals := s.removals ++ [s.server] }
  /-- On the base loop a connection is established before anything else runs. -/
  | destruct {s} (h : s.server = .serving) (hidle : s.sys.users s.base = .idle)
      (hhere : s.base = s.tid → s.sys.pc.inUserCode = true ∧ .connectEstablished ∉ s.sys.queue) :
      Step s .destruct { s with server := .iterating }
  | destroyQueue {s} (h : s.server = .iterating) (hin : s.inTable = true) (hloop : s.base ≠ s.tid) :
      Step s .destroyQueue
        { s with sys := s.sys.queueInLoop s.base .connectDestroyed, inTable := false }
  | destroyHere {s} (h : s.server = .iterating) (hin : s.inTable = true) (hloop : s.base = s.tid) :
      Step s .destroyHere
        { s with inTable := false, server := .destroying s.sys.run.conn.state_ }
  | destroyedHere {s} {loaded} (h : s.server = .destroying loaded) (hloop : s.base = s.tid) :
      Step s .destroyedHere
        { s with sys := s.sys.perform (.connectDestroyed loaded), server := .iterating }
  | destructed {s} (h : s.server = .iterating) (hout : s.inTable = false) :
      Step s .destructed { s with server := .ended }
  /-- A shared pointer is copied from one that is there. -/
  | keep {s} (t : Tid) (howner : 0 < s.owners) :
      Step s (.keep t) { s with holders := t :: s.holders }
  | release {s} {t} (h : t ∈ s.holders) (hidle : s.sys.users t = .idle) :
      Step s (.release t) { s with holders := s.holders.erase t }

/-! ## The two halves of a closing activation -/

section PerformClose
variable (s : ConnectionSystem) (op : ConnOp)

theorem pollerOps_filter (es : List Effect) :
    (es.filter (· ≠ .closeCallback)).filterMap Effect.pollerOp? =
      es.filterMap Effect.pollerOp? := by
  induction es with
  | nil => rfl
  | cons e es ih => cases e <;> simp_all [List.filterMap_cons, Effect.pollerOp?]

@[simp] theorem run_performClose : (s.performClose op).run = s.run.exec op := by
  rw [ConnectionSystem.performClose, ConnectionSystem.foldl_apply]

@[simp] theorem pc_performClose : (s.performClose op).pc = s.pc := by
  rw [ConnectionSystem.performClose, ConnectionSystem.foldl_apply]

@[simp] theorem users_performClose : (s.performClose op).users = s.users := by
  rw [ConnectionSystem.performClose, ConnectionSystem.foldl_apply]

theorem entry_performClose : (s.performClose op).entry =
    ((s.run.conn.exec op).2.filterMap Effect.pollerOp?).foldl PollerOp.onInterest s.entry := by
  rw [ConnectionSystem.performClose, ConnectionSystem.foldl_apply, pollerOps_filter]

/-- What closes queues nothing before `closeCallback_`. -/
theorem queues_of_closes (c : TcpConnection) (hclose : op.Closes) :
    ((c.exec op).2.filter (· ≠ .closeCallback)).filterMap Effect.queues = [] := by
  obtain ⟨d, -, -, hexec⟩ := c.exec_of_closes hclose
  rw [hexec, TcpConnection.handleClose_effects, List.filter_append]
  refine List.filterMap_eq_nil_iff.mpr fun e he => ?_
  rcases List.mem_append.mp he with he | he
  · obtain ⟨p, -, rfl⟩ := List.mem_map.mp (List.mem_of_mem_filter he)
    rfl
  · rw [List.mem_singleton.mp he]
    rfl

theorem loop_performClose (hclose : op.Closes) : (s.performClose op).loop = s.loop := by
  rw [ConnectionSystem.performClose, ConnectionSystem.foldl_apply,
    queues_of_closes op _ hclose, List.foldl_nil]

end PerformClose

/-! ## What a step does to the connection and to the queue -/

/-- What a step labelled `a` may run on the connection, and where it finds it. -/
inductive Performs (s : LifetimeSystem) : LifetimeAction → ConnOp → Prop
  | serve {a : ServiceAction} {op : ConnOp} (hop : s.sys.Performs a op) (hallows : s.Allows a) :
      Performs s (.serve a) op
  | close {cb : ChannelCallback} {op : ConnOp} (hcb : cb.Runs op) (hclose : op.Closes) :
      Performs s (.close op) op
  | destroyedHere {loaded : StateE} (h : s.server = .destroying loaded) :
      Performs s .destroyedHere (.connectDestroyed loaded)

section Step
variable {s s' : LifetimeSystem} {a : LifetimeAction}

/-- **What a step does to the connection**: nothing, one activation, or (for a
`shutdown` on the loop's thread) two. -/
theorem Step.run_cases (h : Step s a s') :
    s'.sys.run = s.sys.run ∨ (∃ op, s.Performs a op ∧ s'.sys.run = s.sys.run.exec op) ∨
      (a = .serve .shutdownHere ∧ s.sys.run.conn.state_ = .kConnected ∧
        s'.sys.run = (s.sys.run.exec .setDisconnecting).exec .shutdownInLoop) := by
  cases h with
  | serve hstep hfree hallows =>
    rcases hstep.run_cases with hr | ⟨op, hop, hr⟩ | ⟨rfl, hst, hr⟩
    · exact Or.inl hr
    · exact Or.inr (Or.inl ⟨op, .serve hop hallows, hr⟩)
    · exact Or.inr (Or.inr ⟨rfl, hst, hr⟩)
  | close hfree h hop hclose =>
    exact Or.inr (Or.inl ⟨_, .close hop hclose, run_performClose _ _⟩)
  | destroyedHere h => exact Or.inr (Or.inl ⟨_, .destroyedHere h, ConnectionSystem.run_perform _ _⟩)
  | _ => exact Or.inl rfl

theorem Performs.established {op : ConnOp} (h : s.Performs a op)
    (he : .connectEstablished ∉ s.sys.queue) : op ≠ .connectEstablished := by
  rintro rfl
  cases h with
  | serve hop => exact he hop.established
  | close hcb => cases hcb

/-- An established connection does not become connected again. -/
theorem Step.not_connected (h : Step s a s') (he : .connectEstablished ∉ s.sys.queue)
    (hst : s.sys.run.conn.state_ ≠ .kConnected) : s'.sys.run.conn.state_ ≠ .kConnected := by
  rcases h.run_cases with hr | ⟨op, hop, hr⟩ | ⟨-, hst', -⟩
  · rwa [hr]
  · rw [hr]
    intro hc
    rcases s.sys.run.conn.exec_connected hc with h | h
    · exact hop.established he h
    · exact hst h
  · exact absurd hst' hst

/-- The kernel's entry follows from what the connection did. -/
theorem Step.entry (h : Step s a s') (hs : s.sys.entry = s.sys.run.entry) :
    s'.sys.entry = s'.sys.run.entry := by
  have hexec : ∀ op, ((s.sys.run.conn.exec op).2.filterMap Effect.pollerOp?).foldl
      PollerOp.onInterest s.sys.entry = (s.sys.run.exec op).entry := by
    intro op
    rw [hs, ConnRun.entry_exec]
  cases h with
  | serve hstep => exact hstep.entry hs
  | close hfree h hop hclose =>
    show (s.sys.performClose _).entry = (s.sys.performClose _).run.entry
    rw [entry_performClose, run_performClose, hexec]
  | destroyedHere =>
    show (s.sys.perform _).entry = (s.sys.perform _).run.entry
    rw [ConnectionSystem.entry_perform, ConnectionSystem.run_perform, hexec]
  | _ => exact hs

/-- Once `connectEstablished` has run it is not queued again. -/
theorem Step.established (h : Step s a s') (he : .connectEstablished ∉ s.sys.queue) :
    .connectEstablished ∉ s'.sys.queue := by
  cases h with
  | serve hstep => exact hstep.established he
  | dispatch => exact fun hf => he (ConnectionSystem.mem_queue_setPc (by simp [ServicePc.rest]) hf)
  | close hfree h hop hclose =>
    intro hf
    have hf := ConnectionSystem.mem_queue_setPc (s := s.sys.performClose _)
      (by simp [ServicePc.rest]) hf
    rw [ConnectionSystem.queue, pc_performClose, loop_performClose _ _ hclose] at hf
    exact he hf
  | closeCallback | destroyQueue =>
    intro hf
    rcases ConnectionSystem.mem_queue_queueInLoop hf with hf | hf
    · exact he hf
    · cases hf
  | destroyedHere =>
    intro hf
    rcases ConnectionSystem.mem_queue_perform hf with hf | ⟨n, hf⟩ | ⟨hf, -⟩
    · exact he hf
    · cases hf
    · cases hf
  | _ => exact he

end Step

/-! ## Before the connection is established -/

/-- `connectEstablished` has not run; `~TcpServer` may have queued `connectDestroyed`
behind it. -/
structure Fresh (conn : TcpConnection) (s : LifetimeSystem) : Prop where
  run : s.sys.run = ⟨conn, []⟩
  waiting : ConnectionSystem.Waiting (if s.inTable then [] else [.connectDestroyed]) s.sys
  active : s.active = none
  closing : s.closing = false
  holds : s.server.holds = false
  here : s.base = s.tid → s.server = .serving

/-- `connectEstablished` has just run. -/
structure Opened (conn : TcpConnection) (s : LifetimeSystem) : Prop where
  run : s.sys.run = (⟨conn, []⟩ : ConnRun).exec .connectEstablished
  pc : ∃ rest, s.sys.pc = .batch rest
  users : s.sys.users = fun _ => .idle
  queue : s.sys.queue = if s.inTable then [] else [.connectDestroyed]
  active : s.active = none
  closing : s.closing = false
  holds : s.server.holds = false
  here : s.base = s.tid → s.server = .serving

section Fresh
variable {tid base : Tid} {name : String} {fd : Int} {writeComplete highWaterMark : Bool}
  {memory : Memory UInt8} {s s' : LifetimeSystem} {a : LifetimeAction}

theorem fresh_accepted :
    Fresh (TcpConnection.new name fd writeComplete highWaterMark)
      (accepted tid base (TcpConnection.new name fd writeComplete highWaterMark) memory) where
  run := rfl
  waiting :=
    ⟨by simp [accepted, ConnectionSystem.accepted, TcpConnection.new], rfl, Or.inl rfl, rfl, rfl⟩
  active := rfl
  closing := rfl
  holds := rfl
  here := fun _ => rfl

theorem fresh_step
    (hs : Fresh (TcpConnection.new name fd writeComplete highWaterMark) s) (h : Step s a s') :
    Fresh (TcpConnection.new name fd writeComplete highWaterMark) s' ∨
      Opened (TcpConnection.new name fd writeComplete highWaterMark) s' := by
  obtain ⟨hrun, hwaiting, hactive, hclosing, hholds, hhere⟩ := hs
  have hqueue : .connectEstablished ∈ s.sys.queue := by
    rw [hwaiting.queue]
    exact List.mem_cons_self
  cases h with
  | serve hstep =>
    have htid : s.tid = _ := hstep.threadId.symm
    rcases ConnectionSystem.waiting_step hwaiting hstep with ⟨hw, hrun', -⟩ | ⟨rest, hrest, rfl⟩
    · exact Or.inl ⟨hrun'.trans hrun, hw, hactive, hclosing, hholds,
        fun h => hhere (h.trans htid.symm)⟩
    · refine Or.inr ⟨?_, ⟨rest, rfl⟩, (ConnectionSystem.users_perform _ _).trans hwaiting.users, ?_,
        hactive, hclosing, hholds, fun h => hhere (h.trans htid.symm)⟩
      · rw [← hrun]
        exact ConnectionSystem.run_perform _ _
      · show rest ++ (s.sys.perform .connectEstablished).loop.pendingFunctors_ = _
        rw [ConnectionSystem.pending_perform, hrun,
          ConnectionSystem.new_connectEstablished_effects, ← hrest]
        simp [List.filterMap_cons, Effect.queues]
  | report hfree h hactive' hentry =>
    rw [hwaiting.entry] at hentry
    cases hentry
  | dispatch hfree h hactive' =>
    rw [hactive] at hactive'
    cases hactive'
  | close hfree h =>
    rcases hwaiting.pc with hpc | ⟨rest, hpc⟩ <;> rw [hpc] at h <;> cases h
  | closeCallback h =>
    rw [hclosing] at h
    cases h
  | destruct h hidle hhere' =>
    exact Or.inl ⟨hrun, hwaiting, hactive, hclosing, rfl, fun h => absurd hqueue (hhere' h).2⟩
  | destroyQueue h hin hloop =>
    refine Or.inl ⟨hrun, ⟨hwaiting.state, hwaiting.entry, hwaiting.pc, hwaiting.users, ?_⟩, hactive,
      hclosing, hholds, fun h => absurd (h.trans (s.sys.loop.threadId_queueInLoop _ _)) hloop⟩
    have hqueue' := hwaiting.queue
    rw [ConnectionSystem.queue, hin] at hqueue'
    show s.sys.pc.rest ++ (s.sys.loop.queueInLoop _ _).pendingFunctors_ = _
    rw [EventLoop.pending_queueInLoop, ← List.append_assoc, hqueue']
    rfl
  | destroyHere h hin hloop =>
    rw [hhere hloop] at h
    cases h
  | destroyedHere h hloop =>
    rw [hhere hloop] at h
    cases h
  | destructed h hout =>
    refine Or.inl ⟨hrun, hwaiting, hactive, hclosing, rfl, fun hloop => ?_⟩
    rw [hhere hloop] at h
    cases h
  | keep | release => exact Or.inl ⟨hrun, hwaiting, hactive, hclosing, hholds, hhere⟩

/-- **The induction rule of a connection's life.**  A run is either still before
`connectEstablished`, or it has what `connectEstablished` gives and every later
step keeps. -/
theorem fresh_or {Q : LifetimeSystem → LifetimeAction → Prop} (Inv : LifetimeSystem → Prop)
    {as : List LifetimeAction}
    (h : Run (Meeting Step Q)
      (accepted tid base (TcpConnection.new name fd writeComplete highWaterMark) memory) as s)
    (hopen : ∀ s, Opened (TcpConnection.new name fd writeComplete highWaterMark) s → Inv s)
    (hstep : ∀ s a s', Inv s → Step s a s' → Q s a → Inv s') :
    Fresh (TcpConnection.new name fd writeComplete highWaterMark) s ∨ Inv s := by
  induction h with
  | refl => exact Or.inl fresh_accepted
  | tail _ hs ih =>
    rcases ih with ih | ih
    · exact (fresh_step ih hs.1).imp_right (hopen _)
    · exact Or.inr (hstep _ _ _ ih hs.1 hs.2)

end Fresh

end LifetimeSystem
end Mymuduo
