import Mymuduo.ConnectionState
import Mymuduo.QueuedOwners
import Mymuduo.LateRegistration

/-! # The owners of a registered channel

The poller and `activeChannels_` hold the channel of a connection by a raw pointer.
Where the server outlives its connections, and `send` and `shutdown` are called on
the connection's loop only, somebody owns the connection as long as they do: the
table, until `handleClose` has run, and from then on the functor that will take the
channel out, `connectDestroyed`, which the batch keeps until it ends.

`Registered` is the claim of the raw pointers on the connection, `Held` what keeps
the connection for them.  Before `connectEstablished` nothing is registered, and the
table has the connection.
-/
namespace Mymuduo
open Transition

/-- The part of the batch that is not finished. -/
def ServicePc.unfinished : ServicePc → List Functor
  | .batch rest => rest
  | .destroying _ rest => .connectDestroyed :: rest
  | _ => []

namespace ConnectionSystem

/-- `connectDestroyed` is queued or being run. -/
def Doomed (s : ConnectionSystem) : Prop :=
  .connectDestroyed ∈ s.pc.unfinished ++ s.loop.pendingFunctors_

section Step
variable {s s' : ConnectionSystem} {a : ServiceAction}

/-- Only the swap brings functors into the batch. -/
theorem Step.unfinished (h : Step s a s') (ha : a ≠ .swap) {f : Functor}
    (hf : f ∈ s'.pc.unfinished) : f ∈ s.pc.unfinished := by
  cases h with
  | swap => exact absurd rfl ha
  | poll | callback | handled | endBatch => cases hf
  | connectEstablished h | destroy h | sendInLoop h | shutdownInLoop h | notification h =>
    rw [h]
    exact List.mem_cons_of_mem _ hf
  | connectDestroyed h => rwa [h]
  | sendHere | shutdownHere | shutdownStore => simpa [setUser] using hf
  | _ => exact hf

/-- A batch begins with the swap. -/
theorem Step.batch_cases (h : Step s a s') (hpc : s'.pc.inBatch = true) :
    a = .swap ∨ s.pc.inBatch = true := by
  cases h with
  | swap => exact Or.inl rfl
  | poll | callback | handled | endBatch => cases hpc
  | connectEstablished h | connectDestroyed h | destroy h | sendInLoop h | shutdownInLoop h
  | notification h =>
    rw [h]
    exact Or.inr rfl
  | sendHere | shutdownHere | shutdownStore => exact Or.inr (by simpa [setUser] using hpc)
  | _ => exact Or.inr hpc

/-- The loop's thread gets into `handleEvent` by a poll. -/
theorem Step.handler_cases (h : Step s a s') (hpc : s'.pc.inHandler = true) :
    (∃ revents, a = .poll revents) ∨ s.pc.inHandler = true := by
  cases h with
  | poll => exact Or.inl ⟨_, rfl⟩
  | callback h =>
    rw [h]
    exact Or.inr rfl
  | handled | swap | connectEstablished | connectDestroyed | destroy | sendInLoop | shutdownInLoop
  | notification | endBatch => cases hpc
  | sendHere | shutdownHere | shutdownStore => exact Or.inr (by simpa [setUser] using hpc)
  | _ => exact Or.inr hpc

/-- A connection stays doomed until `connectDestroyed` has run. -/
theorem Step.doomed (h : Step s a s') (ha : a ≠ .destroy) (hs : s.Doomed) : s'.Doomed := by
  rcases List.mem_append.mp hs with hs | hs
  · cases h with
    | destroy => exact absurd rfl ha
    | poll h | callback h | handled h | swap h | endBatch h =>
      rw [h] at hs
      cases hs
    | connectDestroyed => exact List.mem_append_left _ List.mem_cons_self
    | connectEstablished h | sendInLoop h | shutdownInLoop h | notification h =>
      rw [h] at hs
      exact List.mem_append_left _ (List.mem_of_ne_of_mem (by simp) hs)
    | sendHere | shutdownHere | shutdownStore =>
      exact List.mem_append_left _ (by simpa [setUser] using hs)
    | _ => exact List.mem_append_left _ hs
  · rcases h.pending_cases with ⟨rfl, -⟩ | ⟨-, fs, hpending, -⟩
    · cases h with
      | swap => exact List.mem_append_left _ hs
    · refine List.mem_append_right _ ?_
      rw [hpending]
      exact List.mem_append_left _ hs

end Step
end ConnectionSystem

namespace LifetimeSystem

/-- The server goes on, and only the loop's thread calls `send` and `shutdown`. -/
def OnLoop : LifetimeAction → Prop
  | .destruct | .serve (.sendCheck _) | .serve (.shutdownCheck _) => False
  | _ => True

/-- A raw pointer may lead to the channel: the poller has it, it waits in
`activeChannels_`, or the loop's thread is in its `handleEvent`. -/
def Registered (s : LifetimeSystem) : Prop :=
  s.sys.run.conn.channel_.index_ ≠ .kNew ∨ s.active.isSome = true ∨ s.sys.pc.inHandler = true

/-- The table has the connection, or `connectDestroyed` is to come. -/
def Held (s : LifetimeSystem) : Prop := s.inTable = true ∨ s.sys.Doomed

/-- What such runs keep from the start. -/
structure Confined (s : LifetimeSystem) : Prop where
  users : ∀ t, s.sys.users t = .idle
  server : s.server = .serving
  shared : ∀ f ∈ s.tasks, f.shared = true
  /-- The vector of the batch keeps what the batch has not finished. -/
  batch : ∀ f ∈ s.sys.pc.unfinished, f ∈ s.functors
  /-- The functors follow the dispatch. -/
  dispatched : s.sys.pc.inBatch = true → s.active = none
  closing : s.closing = true → s.sys.pc.inHandler = true ∧ s.state = .kDisconnected
  connecting : s.state = .kConnecting → s.inTable = true

/-- What they keep from `connectEstablished` on. -/
structure Custody (s : LifetimeSystem) : Prop where
  established : .connectEstablished ∉ s.sys.queue
  table : s.state ≠ .kDisconnected → s.inTable = true
  held : s.Registered → s.Held

section Step
variable {s s' : LifetimeSystem} {a : LifetimeAction}

/-- What keeps a connection owns it. -/
theorem owner_of_held (hs : Confined s) (h : s.Held) : 1 ≤ s.owners := by
  rcases h with h | h
  · rw [owners, h]
    simp only [if_true]
    omega
  · refine owner_of_shared (f := .connectDestroyed) ?_ rfl
    rcases List.mem_append.mp h with h | h
    · exact List.mem_append_right _ (hs.batch _ h)
    · exact List.mem_append_left _ h

/-- The table lets go of a connection in `closeCallback_`, and in `~TcpServer`. -/
theorem Step.inTable (h : Step s a s') :
    s'.inTable = s.inTable ∨ s.closing = true ∨ s.server ≠ .serving := by
  cases h with
  | closeCallback h => exact Or.inr (Or.inl h)
  | destroyQueue h | destroyHere h =>
    refine Or.inr (Or.inr ?_)
    rw [h]
    simp
  | _ => exact Or.inl rfl

/-- **Who acts on the connection** in such runs: the batch, `handleEvent`, or user code on
the loop's thread that has found it connected. -/
theorem Step.acts (hs : Confined s) (h : Step s a s') :
    s'.sys.run = s.sys.run ∨
    (∃ op, s'.sys.run = s.sys.run.exec op ∧
      ((op = .connectEstablished ∧ .connectEstablished ∈ s.sys.queue) ∨
        (a = .serve .destroy ∧ ∃ loaded, op = .connectDestroyed loaded) ∨
        (s.sys.pc.inHandler = true ∧ ∃ cb : ChannelCallback, cb.Runs op))) ∨
    (s.state = .kConnected ∧ 0 < s.owners) := by
  -- no `sendInLoop` or `shutdownInLoop` is in the batch
  have hbatch : ∀ {f : Functor} {rest : List Functor}, s.sys.pc = .batch (f :: rest) →
      f.shared = true := by
    intro f rest hpc
    refine hs.shared f (List.mem_append_right _ (hs.batch f ?_))
    rw [hpc]
    exact List.mem_cons_self
  cases h with
  | serve hstep hfree hallows =>
    cases hstep with
    | callback h op hop =>
      refine Or.inr (Or.inl ⟨op, s.sys.run_perform op, Or.inr (Or.inr ⟨?_, _, hop⟩)⟩)
      rw [h]
      rfl
    | connectEstablished h =>
      refine Or.inr (Or.inl ⟨_, s.sys.run_perform _, Or.inl ⟨rfl, ?_⟩⟩)
      rw [ConnectionSystem.queue, h]
      exact List.mem_cons_self
    | destroy h =>
      exact Or.inr (Or.inl ⟨_, s.sys.run_perform _, Or.inr (Or.inl ⟨rfl, _, rfl⟩)⟩)
    | sendInLoop h => cases hbatch h
    | shutdownInLoop h => cases hbatch h
    | sendHere h hst | shutdownHere h hst => exact Or.inr (Or.inr ⟨hst, hallows⟩)
    | shutdownStore ht h =>
      rw [hs.users] at h
      cases h
    | _ => exact Or.inl rfl
  | close hfree h hop hclose =>
    refine Or.inr (Or.inl ⟨_, run_performClose _ _, Or.inr (Or.inr ⟨?_, _, hop⟩)⟩)
    rw [h]
    rfl
  | destroyedHere h =>
    rw [hs.server] at h
    cases h
  | _ => exact Or.inl rfl

section Serve
variable {sa : ServiceAction} {sys' : ConnectionSystem}

/-- No thread gets into `send` or `shutdown`. -/
theorem idle_serve (hs : Confined s) (hstep : ConnectionSystem.Step s.sys sa sys')
    (ha : OnLoop (.serve sa)) (t : Tid) : sys'.users t = .idle := by
  by_contra ht
  rcases hstep.callers ht with ht | rfl | rfl
  · exact ht (hs.users t)
  · exact ha
  · exact ha

theorem mem_functorsAfter (hswap : sa ≠ .swap) {f : Functor} (hf : f ∈ s.functorsAfter sa) :
    f ∈ s.functors := by
  by_cases hend : sa = .endBatch
  · subst hend
    cases hf
  · rwa [functorsAfter_eq hswap hend] at hf

/-- What is queued owns the connection. -/
theorem shared_serve (hs : Confined s) (hstep : ConnectionSystem.Step s.sys sa sys') :
    ∀ f ∈ tasks { s with sys := sys', functors := s.functorsAfter sa }, f.shared = true := by
  intro f hf
  rcases hstep.pending_cases with ⟨rfl, hloop⟩ | ⟨hswap, fs, hpending, hfs⟩
  · refine hs.shared f (List.mem_append_left _ ?_)
    rw [tasks, hloop] at hf
    exact hf
  · rw [tasks, hpending, List.append_assoc, List.mem_append, List.mem_append] at hf
    rcases hf with hf | hf | hf
    · exact hs.shared f (List.mem_append_left _ hf)
    · rcases hfs with hfs | ⟨t, g, -, ht⟩
      · exact hfs f hf
      · exact absurd (hs.users t) ht
    · exact hs.shared f (List.mem_append_right _ (mem_functorsAfter hswap hf))

theorem batch_serve (hs : Confined s) (hstep : ConnectionSystem.Step s.sys sa sys') :
    ∀ f ∈ sys'.pc.unfinished, f ∈ s.functorsAfter sa := by
  intro f hf
  by_cases hswap : sa = .swap
  · subst hswap
    cases hstep with
    | swap => exact hf
  · by_cases hend : sa = .endBatch
    · subst hend
      cases hstep with
      | endBatch => cases hf
    · rw [functorsAfter_eq hswap hend]
      exact hs.batch f (hstep.unfinished hswap hf)

/-- In `handleClose` the loop's thread does nothing else. -/
theorem closing_serve (hs : Confined s) (hstep : ConnectionSystem.Step s.sys sa sys')
    (hfree : ∀ t ∈ sa.thread s.tid, s.Free t) (hclosing : s.closing = true) :
    sys'.pc.inHandler = true ∧ sys'.run = s.sys.run := by
  have hthread : sa.thread s.tid ≠ some s.tid := by
    intro hthread
    have hopen := (hfree s.tid hthread).2 rfl
    rw [hclosing] at hopen
    cases hopen
  constructor
  · refine hstep.inHandler ?_ (hs.closing hclosing).1
    rintro rfl
    exact hthread rfl
  · cases hstep with
    | shutdownStore ht h =>
      rw [hs.users] at h
      cases h
    | callback | connectEstablished | destroy | sendInLoop | shutdownInLoop | sendHere
    | shutdownHere => exact absurd rfl hthread
    | _ => rfl

end Serve

/-- The part of `handleClose` before `closeCallback_` has stored `kDisconnected`. -/
theorem state_performClose {op : ConnOp} (hclose : op.Closes) :
    (s.sys.performClose op).run.conn.state_ = .kDisconnected := by
  obtain ⟨d, -, -, hexec⟩ := s.sys.run.conn.exec_of_closes hclose
  rw [run_performClose, ConnRun.conn_exec, hexec]
  rfl

theorem connecting_step (hs : Confined s) (h : Step s a s') (hst : s'.state = .kConnecting) :
    s'.inTable = true := by
  have hst' : s.state = .kConnecting := by
    by_contra hne
    exact h.not_connecting hne hst
  rcases h.inTable with hin | hclosing | hserver
  · rw [hin]
    exact hs.connecting hst'
  · rw [(hs.closing hclosing).2] at hst'
    cases hst'
  · exact absurd hs.server hserver

theorem confined_step (hs : Confined s) (h : Step s a s') (ha : OnLoop a) : Confined s' := by
  have hconnecting := connecting_step hs h
  cases h with
  | serve hstep hfree hallows =>
    refine ⟨idle_serve hs hstep ha, hs.server, shared_serve hs hstep, batch_serve hs hstep,
      fun hpc => ?_, fun hclosing => ?_, hconnecting⟩
    · rcases hstep.batch_cases hpc with rfl | hpc
      · exact hallows
      · exact hs.dispatched hpc
    · obtain ⟨hpc, hrun⟩ := closing_serve hs hstep hfree hclosing
      refine ⟨hpc, ?_⟩
      rw [state]
      exact hrun ▸ (hs.closing hclosing).2
  | report hfree h =>
    refine { hs with dispatched := fun hpc => ?_, connecting := hconnecting }
    rw [h] at hpc
    cases hpc
  | dispatch hfree h =>
    refine { hs with batch := ?_, dispatched := ?_, closing := ?_, connecting := hconnecting }
    · simp [ConnectionSystem.setPc, ServicePc.unfinished]
    · exact fun _ => rfl
    · exact fun hclosing => ⟨rfl, (hs.closing hclosing).2⟩
  | close hfree h hop hclose =>
    refine ⟨?_, hs.server, ?_, ?_, ?_, fun _ => ⟨rfl, state_performClose hclose⟩, hconnecting⟩
    · simpa [ConnectionSystem.setPc] using hs.users
    · simpa [tasks, ConnectionSystem.setPc, loop_performClose _ _ hclose] using hs.shared
    · simp [ConnectionSystem.setPc, ServicePc.unfinished]
    · intro hpc
      cases hpc
  | closeCallback h =>
    refine { hs with shared := fun f hf => ?_, closing := ?_, connecting := hconnecting }
    · rcases mem_tasks_destroyed (s := s) hf rfl rfl with hf | hf
      · exact hs.shared f hf
      · exact hf
    · intro hclosing
      cases hclosing
  | destruct => exact ha.elim
  | destroyQueue h | destroyHere h | destroyedHere h | destructed h =>
    rw [hs.server] at h
    cases h
  | keep | release => exact { hs with connecting := hconnecting }

/-- A connection is kept until `connectDestroyed` has run. -/
theorem held_step (hs : Confined s) (h : Step s a s') (ha : a ≠ .serve .destroy) (hheld : s.Held) :
    s'.Held := by
  cases h with
  | serve hstep =>
    refine hheld.imp id fun hdoomed => hstep.doomed ?_ hdoomed
    rintro rfl
    exact ha rfl
  | dispatch hfree h =>
    refine hheld.imp id fun hdoomed => ?_
    rw [ConnectionSystem.Doomed, h] at hdoomed
    exact hdoomed
  | close hfree h hop hclose =>
    refine hheld.imp id fun hdoomed => ?_
    rw [ConnectionSystem.Doomed, h] at hdoomed
    simpa [ConnectionSystem.Doomed, ConnectionSystem.setPc, ServicePc.unfinished,
      loop_performClose _ _ hclose] using hdoomed
  | closeCallback =>
    refine Or.inr (List.mem_append_right _ ?_)
    show _ ∈ (s.sys.loop.queueInLoop _ _).pendingFunctors_
    rw [EventLoop.pending_queueInLoop]
    exact List.mem_append_right _ List.mem_cons_self
  | destroyQueue h | destroyHere h | destroyedHere h =>
    rw [hs.server] at h
    cases h
  | _ => exact hheld

/-- **What a step registers is kept.** -/
theorem registered_step (hs : Confined s) (hc : Custody s) (hentry : s.sys.entry = s.sys.run.entry)
    (htracked : s.sys.run.Tracked) (h : Step s a s') (ha : a ≠ .serve .destroy)
    (hreg : s'.Registered) : s.Held := by
  rcases hreg with hidx | hactive | hpc
  · rcases h.acts hs with hr | ⟨op, -, hop⟩ | ⟨hst, -⟩
    · rw [hr] at hidx
      exact hc.held (Or.inl hidx)
    · rcases hop with ⟨-, hq⟩ | ⟨hdestroy, -⟩ | ⟨hpc, -⟩
      · exact absurd hq hc.established
      · exact absurd hdestroy ha
      · exact hc.held (Or.inr (Or.inr hpc))
    · exact Or.inl (hc.table (by simp [hst]))
  · cases h with
    | report hfree h hnone hsome =>
      -- the kernel has an entry for what it reports
      rw [hentry] at hsome
      exact hc.held (Or.inl (by simp [htracked.coherent.mp hsome]))
    | dispatch => cases hactive
    | _ => exact hc.held (Or.inr (Or.inl hactive))
  · refine hc.held (Or.inr ?_)
    cases h with
    | serve hstep hfree hallows =>
      rcases hstep.handler_cases hpc with ⟨revents, rfl⟩ | hpc
      · exact hallows.elim
      · exact Or.inr hpc
    | dispatch hfree h hactive =>
      rw [hactive]
      exact Or.inl rfl
    | close hfree h =>
      rw [h]
      exact Or.inr rfl
    | destroyedHere h =>
      rw [hs.server] at h
      cases h
    | _ => exact Or.inr hpc

theorem disconnected_step (hs : Confined s) (hc : Custody s) (h : Step s a s')
    (hst : s.state = .kDisconnected) : s'.state = .kDisconnected := by
  rcases h.acts hs with hr | ⟨op, hr, hop⟩ | ⟨hst', -⟩
  · rwa [state, hr]
  · rw [state, hr]
    have hnot : op ≠ .connectEstablished ∧ op ≠ .setDisconnecting := by
      rcases hop with ⟨rfl, hq⟩ | ⟨-, loaded, rfl⟩ | ⟨-, cb, hop⟩
      · exact absurd hq hc.established
      · simp
      · cases hop <;> simp
    rcases s.sys.run.conn.exec_state op with h | ⟨hop, -⟩ | ⟨hop, -⟩ | ⟨-, h⟩
    · exact h.trans hst
    · exact absurd hop hnot.1
    · exact absurd hop hnot.2
    · exact h
  · rw [hst] at hst'
    cases hst'

/-- `connectDestroyed` takes the channel out, whatever it has read. -/
theorem index_connectDestroyed (c : TcpConnection) (loaded : StateE) :
    (c.exec (.connectDestroyed loaded)).1.channel_.index_ = .kNew := by
  rw [TcpConnection.exec, TcpConnection.connectDestroyed]
  split <;> rfl

theorem custody_step (hs : Confined s) (hc : Custody s) (hentry : s.sys.entry = s.sys.run.entry)
    (htracked : s.sys.run.Tracked) (h : Step s a s') : Custody s' := by
  refine ⟨h.established hc.established, fun hst => ?_, fun hreg => ?_⟩
  · have hst' : s.state ≠ .kDisconnected := fun h' => hst (disconnected_step hs hc h h')
    rcases h.inTable with hin | hclosing | hserver
    · rw [hin]
      exact hc.table hst'
    · exact absurd (hs.closing hclosing).2 hst'
    · exact absurd hs.server hserver
  · by_cases ha : a = .serve .destroy
    · subst ha
      cases h with
      | serve hstep =>
        cases hstep with
        | @destroy loaded rest h =>
          have hactive := hs.dispatched (by rw [h]; rfl)
          have hidx := index_connectDestroyed s.sys.run.conn loaded
          rcases hreg with hreg | hreg | hreg
          · simp [ConnectionSystem.setPc, hidx] at hreg
          · simp [hactive] at hreg
          · cases hreg
    · exact held_step hs h ha (registered_step hs hc hentry htracked h ha hreg)

/-- **A connection without owners** is left alone. -/
theorem dead_step (hs : Confined s) (hdead : s.owners = 0) (h : Step s a s') (ha : OnLoop a) :
    s'.owners = 0 ∧ s'.sys.run = s.sys.run := by
  obtain ⟨hin, hholders, hshared, hpc⟩ : s.inTable = false ∧ s.holders = [] ∧
      s.tasks.countP Functor.shared = 0 ∧ s.sys.pc.inHandler = false := by
    rw [owners] at hdead
    refine ⟨?_, List.length_eq_zero_iff.mp (by omega), by omega, ?_⟩
    · by_contra hin
      rw [Bool.not_eq_false] at hin
      simp [hin] at hdead
    · by_contra hpc
      rw [Bool.not_eq_false] at hpc
      simp [hpc] at hdead
  have htasks : s.tasks = [] := by
    refine List.eq_nil_iff_forall_not_mem.mpr fun f hf => ?_
    have := owner_of_shared hf (hs.shared f hf)
    omega
  obtain ⟨hpending, hfunctors⟩ := List.append_eq_nil_iff.mp htasks
  have hunfinished : s.sys.pc.unfinished = [] := by
    refine List.eq_nil_iff_forall_not_mem.mpr fun f hf => ?_
    have hmem := hs.batch f hf
    rw [hfunctors] at hmem
    cases hmem
  cases h with
  | serve hstep hfree hallows =>
    cases hstep with
    | poll => exact hallows.elim
    | callback h | handled h =>
      rw [h] at hpc
      cases hpc
    | connectEstablished h | connectDestroyed h | destroy h | sendInLoop h | shutdownInLoop h
    | notification h =>
      rw [h] at hunfinished
      cases hunfinished
    | sendHere | shutdownHere =>
      have hpos : 0 < s.owners := hallows
      omega
    | sendCheck | shutdownCheck => exact ha.elim
    | sendQueue ht h | shutdownStore ht h | shutdownQueue ht h =>
      rw [hs.users] at h
      cases h
    | swap =>
      refine ⟨?_, rfl⟩
      simp [owners, tasks, functorsAfter, EventLoop.swapPending, hin, hholders, hpending,
        ServicePc.inHandler, hs.server, ServerPc.holds]
    | endBatch =>
      refine ⟨?_, rfl⟩
      simp [owners, tasks, functorsAfter, ConnectionSystem.setPc, hin, hholders, hpending,
        ServicePc.inHandler, hs.server, ServerPc.holds]
    | store => exact ⟨hdead, rfl⟩
  | report => exact ⟨hdead, rfl⟩
  | dispatch hfree h hactive howner | keep t howner => omega
  | close hfree h =>
    rw [h] at hpc
    cases hpc
  | closeCallback h =>
    rw [(hs.closing h).1] at hpc
    cases hpc
  | destruct => exact ha.elim
  | destroyQueue h | destroyHere h | destroyedHere h | destructed h =>
    rw [hs.server] at h
    cases h
  | release h =>
    rw [hholders] at h
    cases h

end Step

/-! ## Runs -/

/-- What every such run keeps. -/
structure Kept (conn : TcpConnection) (s : LifetimeSystem) : Prop where
  confined : Confined s
  entry : s.sys.entry = s.sys.run.entry
  tracked : s.sys.run.Tracked
  phase : Fresh conn s ∨ Custody s

section Runs
variable {tid base : Tid} {name : String} {fd : Int} {writeComplete highWaterMark : Bool}
  {memory : Memory UInt8} {s s' : LifetimeSystem} {a : LifetimeAction}

theorem kept_accepted : Kept (TcpConnection.new name fd writeComplete highWaterMark)
    (accepted tid base (TcpConnection.new name fd writeComplete highWaterMark) memory) := by
  obtain ⟨hentry, htracked⟩ := tracked_run (.refl : Run Step (accepted tid base
    (TcpConnection.new name fd writeComplete highWaterMark) memory) [] _)
  refine ⟨⟨fun _ => rfl, rfl, ?_, ?_, fun _ => rfl, ?_, fun _ => rfl⟩, hentry, htracked,
    Or.inl fresh_accepted⟩
  · simp [tasks, accepted, ConnectionSystem.accepted, EventLoop.enqueue, EventLoop.new,
      Functor.shared]
  · simp [accepted, ConnectionSystem.accepted, ServicePc.unfinished]
  · simp [accepted]

theorem kept_step (hs : Kept (TcpConnection.new name fd writeComplete highWaterMark) s)
    (h : Step s a s') (ha : OnLoop a) :
    Kept (TcpConnection.new name fd writeComplete highWaterMark) s' := by
  obtain ⟨hconfined, hentry, htracked, hphase⟩ := hs
  refine ⟨confined_step hconfined h ha, h.entry hentry, h.tracked htracked, ?_⟩
  rcases hphase with hfresh | hcustody
  · refine (fresh_step hfresh h).imp_right fun hopen => ?_
    have hin : s'.inTable = true := by
      rcases h.inTable with hin | hclosing | hserver
      · rw [hin]
        refine hconfined.connecting ?_
        rw [state, hfresh.run]
        rfl
      · rw [hfresh.closing] at hclosing
        cases hclosing
      · exact absurd hconfined.server hserver
    refine ⟨?_, fun _ => hin, fun _ => Or.inl hin⟩
    rw [hopen.queue, hin]
    simp
  · exact Or.inr (custody_step hconfined hcustody hentry htracked h)

/-- **A registered channel has owners.** -/
theorem owner_of_registered (hs : Kept (TcpConnection.new name fd writeComplete highWaterMark) s)
    (h : s.Registered) : 1 ≤ s.owners := by
  rcases hs.phase with hfresh | hcustody
  · rcases h with h | h | h
    · rw [hfresh.run] at h
      exact absurd rfl h
    · simp [hfresh.active] at h
    · rcases hfresh.waiting.pc with hpc | ⟨rest, hpc⟩ <;> rw [hpc] at h <;> cases h
  · exact owner_of_held hs.confined (hcustody.held h)

/-- The poller has nothing of a connection without owners. -/
theorem unregistered_of_dead (hs : Kept (TcpConnection.new name fd writeComplete highWaterMark) s)
    (hdead : s.owners = 0) :
    s.sys.entry = none ∧ s.sys.run.mapped = false ∧ s.active = none := by
  have hnot : ¬ s.Registered := fun h => absurd (owner_of_registered hs h) (by omega)
  simp only [Registered, not_or, ne_eq, not_not] at hnot
  obtain ⟨hidx, hactive, -⟩ := hnot
  have hcoherent := hs.tracked.coherent
  have hmap := hs.tracked.map
  rw [Channel.Coherent, hidx, ← hs.entry] at hcoherent
  rw [hidx] at hmap
  exact ⟨by simpa using hcoherent, by simpa using hmap, by simpa using hactive⟩

end Runs
end LifetimeSystem
end Mymuduo
