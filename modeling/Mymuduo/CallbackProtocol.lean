import Mymuduo.ConnectionSystem

/-! # The callback protocol

The user of a connection should see `up`, then messages, then `down`, each of the
two notices at most once; and the teardown (`closeCallback_`, and the
`connectDestroyed` it queues) should happen at most once.

After `connectEstablished` a connection is `Open` until `handleClose` runs, and
`Shut` from then on.  `handleClose` does not look at the state it finds, so a
second activation would report `down` again.  It is wired to the error callback as
well (where `handleError` belongs), and `handleEventWithGuard` goes on after it: an
event word with `EPOLLERR` and a hang-up closes twice, one with `EPOLLERR` and
`EPOLLIN` closes and then reads.  And a `shutdown` of another thread that stores
`kDisconnecting` late makes a queued `sendInLoop` believe the connection still
open: it may put the channel back into the poller.
-/
namespace Mymuduo
open Transition

/-- What the user of a connection is told. -/
inductive UserCallback where
  | up
  | message
  | down
deriving DecidableEq, Repr

def Effect.userCallback? : Effect → Option UserCallback
  | .connectionCallback .up => some .up
  | .connectionCallback .down => some .down
  | .messageCallback => some .message
  | _ => none

/-- The user callbacks of a run, in order. -/
def ConnRun.callbacks (r : ConnRun) : List UserCallback :=
  r.effects.filterMap Effect.userCallback?

theorem ConnRun.callbacks_exec (r : ConnRun) (op : ConnOp) :
    (r.exec op).callbacks = r.callbacks ++ (r.conn.exec op).2.filterMap Effect.userCallback? := by
  rw [callbacks, effects_exec, List.filterMap_append, callbacks]

/-- An effect that tells the user nothing and closes nothing. -/
def Effect.Quiet (e : Effect) : Prop := e.userCallback? = none ∧ e ≠ .closeCallback

theorem Effect.Silent.quiet {e : Effect} (h : e.Silent) : e.Quiet := by
  cases e <;> first | exact h.elim | exact ⟨rfl, by simp⟩

/-- An activation that tells the user nothing. -/
theorem ConnRun.callbacks_quiet {r : ConnRun} {op : ConnOp}
    (h : ∀ e ∈ (r.conn.exec op).2, e.Quiet) : (r.exec op).callbacks = r.callbacks := by
  rw [callbacks_exec, List.filterMap_eq_nil_iff.mpr fun e he => (h e he).1, List.append_nil]

theorem ConnRun.count_close_quiet {r : ConnRun} {op : ConnOp}
    (h : ∀ e ∈ (r.conn.exec op).2, e.Quiet) :
    (r.exec op).effects.count .closeCallback = r.effects.count .closeCallback := by
  have hnew : (r.conn.exec op).2.count .closeCallback = 0 :=
    List.count_eq_zero.mpr fun he => (h _ he).2 rfl
  rw [effects_exec, List.count_append, hnew, Nat.add_zero]

namespace ConnRun

/-- Established, and `handleClose` has not run. -/
structure Open (r : ConnRun) : Prop where
  callbacks : ∃ n, r.callbacks = .up :: List.replicate n .message
  close : .closeCallback ∉ r.effects
  index : r.conn.channel_.index_ = .kAdded
  coherent : r.conn.channel_.Coherent r.entry

/-- `handleClose` has run, once, and the poller has forgotten the fd. -/
structure Shut (r : ConnRun) : Prop where
  callbacks : ∃ n, r.callbacks = .up :: List.replicate n .message ++ [.down]
  close : r.effects.count .closeCallback = 1
  index : r.conn.channel_.index_ ≠ .kAdded
  entry : r.entry = none
  writing : r.conn.channel_.isWriting = false
  state : r.conn.state_ ≠ .kConnected

variable {r : ConnRun} {op : ConnOp}

/-- The index of the channel goes on telling what the kernel has. -/
theorem coherent_exec (h : r.conn.channel_.Coherent r.entry) (op : ConnOp) :
    (r.exec op).conn.channel_.Coherent (r.exec op).entry := by
  rw [entry_exec]
  exact h.of_calls (r.conn.exec_calls op)

/-- An activation that says nothing and leaves the channel added keeps a connection
open. -/
theorem Open.of_quiet (h : r.Open) (hq : ∀ e ∈ (r.conn.exec op).2, e.Quiet)
    (hindex : (r.conn.exec op).1.channel_.index_ = .kAdded) : (r.exec op).Open := by
  refine ⟨by rw [callbacks_quiet hq]; exact h.callbacks, ?_, hindex, coherent_exec h.coherent op⟩
  rw [effects_exec, List.mem_append, not_or]
  exact ⟨h.close, fun he => (hq _ he).2 rfl⟩

/-- An activation that says nothing and leaves the poller alone keeps a connection
shut. -/
theorem Shut.of_quiet (h : r.Shut) (hq : ∀ e ∈ (r.conn.exec op).2, e.Quiet)
    (hch : (r.conn.exec op).1.channel_ = r.conn.channel_)
    (hp : (r.conn.exec op).2.filterMap Effect.pollerOp? = [])
    (hst : (r.conn.exec op).1.state_ ≠ .kConnected) : (r.exec op).Shut := by
  refine ⟨by rw [callbacks_quiet hq]; exact h.callbacks, ?_, ?_, ?_, ?_, hst⟩
  · rw [count_close_quiet hq]
    exact h.close
  · rw [conn_exec, hch]
    exact h.index
  · rw [entry_exec, hp]
    exact h.entry
  · rw [conn_exec, hch]
    exact h.writing

/-- **What closes shuts an open connection.** -/
theorem Open.shut (h : r.Open) (hclose : op.Closes) : (r.exec op).Shut := by
  obtain ⟨c, hc, -, hexec⟩ := r.conn.exec_of_closes hclose
  obtain ⟨n, hn⟩ := h.callbacks
  have hquiet :
      (c.channel_.disableAll.2.map Effect.poller).filterMap Effect.userCallback? = [] := by
    refine List.filterMap_eq_nil_iff.mpr fun e he => ?_
    obtain ⟨p, -, rfl⟩ := List.mem_map.mp he
    rfl
  have heffects : (r.conn.exec op).2 =
      c.channel_.disableAll.2.map Effect.poller ++ [.connectionCallback .down, .closeCallback] := by
    rw [hexec, TcpConnection.handleClose_effects]
  have hchannel : (r.conn.exec op).1.channel_ = c.channel_.disableAll.1 := by
    rw [hexec]
    rfl
  have hindex : c.channel_.disableAll.1.index_ = .kDeleted :=
    Channel.index_disableAll_of_added (by rw [hc]; exact h.index)
  refine ⟨⟨n, ?_⟩, ?_, ?_, ?_, ?_, ?_⟩
  · rw [callbacks_exec, hn, heffects, List.filterMap_append, hquiet]
    rfl
  · rw [effects_exec, List.count_append, List.count_eq_zero.mpr h.close, heffects,
      List.count_append, List.count_eq_zero.mpr (by simp)]
    rfl
  · rw [conn_exec, hchannel, hindex]
    simp
  · -- the index is `kDeleted`, so the poller's entry is gone
    have hcoherent := coherent_exec h.coherent op
    rw [Channel.Coherent, conn_exec, hchannel, hindex] at hcoherent
    simpa using hcoherent
  · rw [conn_exec, hchannel, Channel.isWriting_disableAll]
  · rw [conn_exec, hexec]
    simp [TcpConnection.handleClose, TcpConnection.onChannel, TcpConnection.setState]

/-- **One activation on an open connection** leaves it open, or it is a callback
that shuts it. -/
theorem Open.exec (h : r.Open) (op : ConnOp) (hest : op ≠ .connectEstablished)
    (hdes : ∀ loaded, op ≠ .connectDestroyed loaded) :
    (r.exec op).Open ∨ ((∃ cb : ChannelCallback, cb.Runs op) ∧ (r.exec op).Shut) := by
  cases op with
  | connectEstablished => exact absurd rfl hest
  | connectDestroyed loaded => exact absurd rfl (hdes loaded)
  | sendInLoop data a =>
    refine Or.inl (h.of_quiet (fun e he => (r.conn.sendInLoop_silent data a he).quiet) ?_)
    rcases r.conn.sendInLoop_channel data a with ⟨hch, -⟩ | ⟨-, hch, -⟩ <;>
      rw [TcpConnection.exec, hch]
    · exact h.index
    · -- writing mode is entered: the channel stays with the poller
      exact Channel.index_enableWriting_of_added h.index
  | shutdownInLoop =>
    refine Or.inl (h.of_quiet ?_ ?_)
    · intro e he
      rw [r.conn.shutdownInLoop_effects he]
      exact ⟨rfl, by simp⟩
    · rw [TcpConnection.exec, TcpConnection.shutdownInLoop_conn]
      exact h.index
  | setDisconnecting => exact Or.inl (h.of_quiet (by simp) h.index)
  | handleWrite a =>
    refine Or.inl (h.of_quiet (fun e he => (r.conn.handleWrite_effects a he).1.quiet) ?_)
    rw [TcpConnection.exec, r.conn.handleWrite_spec a]
    exact h.index
  | handleClose => exact Or.inr ⟨⟨_, .handleClose⟩, h.shut trivial⟩
  | handleRead a err =>
    rcases r.conn.handleRead_cases a err with hr | ⟨rfl, -⟩ | ⟨text, text', hr⟩
    · -- a message
      refine Or.inl ⟨?_, ?_, ?_, coherent_exec h.coherent _⟩
      · obtain ⟨n, hn⟩ := h.callbacks
        refine ⟨n + 1, ?_⟩
        rw [callbacks_exec, hn, TcpConnection.exec, hr, List.replicate_succ']
        rfl
      · rw [effects_exec, TcpConnection.exec, hr]
        simpa using h.close
      · rw [conn_exec, TcpConnection.exec, hr]
        exact h.index
    · exact Or.inr ⟨⟨_, .handleRead⟩, h.shut trivial⟩
    · refine Or.inl (h.of_quiet ?_ ?_) <;> rw [TcpConnection.exec, hr]
      · intro e he
        simp only [List.mem_cons, List.not_mem_nil, or_false] at he
        rcases he with rfl | rfl <;> exact ⟨rfl, by simp⟩
      · exact h.index

/-- **One activation on a connection that is shut** changes nothing the user sees,
unless it closes, reads or sends once more. -/
theorem Shut.exec (h : r.Shut) (op : ConnOp) (hest : op ≠ .connectEstablished)
    (hdes : ∀ loaded, op = .connectDestroyed loaded → loaded ≠ .kConnected)
    (hclose : op ≠ .handleClose) (hread : ∀ a err, op = .handleRead a err → ∃ e, a = .fail e)
    (hsend : ∀ data a, op = .sendInLoop data a → r.conn.state_ = .kDisconnected) :
    (r.exec op).Shut := by
  cases op with
  | connectEstablished => exact absurd rfl hest
  | handleClose => exact absurd rfl hclose
  | connectDestroyed loaded =>
    have hloaded := hdes loaded rfl
    have hexec : r.conn.exec (.connectDestroyed loaded) = r.conn.onChannel Channel.remove := by
      rw [TcpConnection.exec, TcpConnection.connectDestroyed, if_neg hloaded]
    have hops : r.conn.channel_.remove.2 = [.erase r.conn.channel_.fd_] := by
      rw [Channel.remove, EPollPoller.removeChannel, if_neg h.index]
    have hq : ∀ e ∈ (r.conn.exec (.connectDestroyed loaded)).2, e.Quiet := by
      intro e he
      rw [hexec] at he
      obtain ⟨p, rfl⟩ := TcpConnection.onChannel_effects _ _ he
      exact ⟨rfl, by simp⟩
    refine ⟨by rw [callbacks_quiet hq]; exact h.callbacks, ?_, ?_, ?_, ?_, ?_⟩
    · rw [count_close_quiet hq]
      exact h.close
    · rw [conn_exec, hexec]
      simp [TcpConnection.onChannel, Channel.index_remove]
    · rw [entry_exec, hexec, h.entry, TcpConnection.onChannel, TcpConnection.pollerOps_map, hops]
      rfl
    · rw [conn_exec, hexec]
      exact h.writing
    · rw [conn_exec, hexec]
      exact h.state
  | sendInLoop data a =>
    have hexec : r.conn.exec (.sendInLoop data a) =
        (r.conn, [.logError "disconnected, give up writing!"]) := by
      rw [TcpConnection.exec, TcpConnection.sendInLoop, if_pos (hsend data a rfl)]
    refine h.of_quiet ?_ ?_ ?_ ?_ <;> rw [hexec]
    · simp [Effect.Quiet, Effect.userCallback?]
    · rfl
    · exact h.state
  | shutdownInLoop =>
    refine h.of_quiet ?_ ?_ ?_ ?_
    · intro e he
      rw [r.conn.shutdownInLoop_effects he]
      exact ⟨rfl, by simp⟩
    · rw [TcpConnection.exec, TcpConnection.shutdownInLoop_conn]
    · refine List.filterMap_eq_nil_iff.mpr fun e he => ?_
      rw [r.conn.shutdownInLoop_effects he]
      rfl
    · rw [TcpConnection.exec, TcpConnection.shutdownInLoop_conn]
      exact h.state
  | setDisconnecting => exact h.of_quiet (by simp) rfl rfl (by simp [TcpConnection.setState])
  | handleWrite a =>
    refine h.of_quiet ?_ ?_ (r.conn.handleWrite_pollerOps a) ?_
    · exact fun e he => (r.conn.handleWrite_effects a he).1.quiet
    · rw [TcpConnection.exec, r.conn.handleWrite_spec a]
    · rw [TcpConnection.exec, r.conn.handleWrite_spec a]
      exact h.state
  | handleRead a err =>
    obtain ⟨e, rfl⟩ := hread a err rfl
    refine h.of_quiet ?_ rfl rfl h.state
    intro e' he
    simp only [TcpConnection.exec, TcpConnection.handleRead, Buffer.readFd,
      TcpConnection.handleError, List.mem_cons, List.not_mem_nil, or_false] at he
    rcases he with rfl | rfl <;> exact ⟨rfl, by simp⟩

end ConnRun

namespace ConnectionSystem

/-- The callbacks are a prefix of up, messages, down, and the teardown is at most
once. -/
structure ProtocolKept (s : ConnectionSystem) : Prop where
  callbacks : ∃ n, s.run.callbacks <+: .up :: List.replicate n .message ++ [.down]
  close_once : s.run.effects.count .closeCallback ≤ 1
  destroy_once : s.queued.count .connectDestroyed ≤ 1

/-- The event word leads to at most one `handleClose`, to no read behind it that
succeeds, and no queued `sendInLoop` runs behind it without finding
`kDisconnected`. -/
def ClosesOnce (s : ConnectionSystem) : ServiceAction → Prop
  | .poll revents => ¬ (revents.has EPOLLERR ∧ revents.has EPOLLHUP ∧ ¬ revents.has EPOLLIN)
  | .callback (.handleRead a _) => ∀ revents todo, s.pc = .handling revents todo →
      revents.has EPOLLERR = true → ∃ e, a = .fail e
  | .functor (.sendInLoop ..) _ =>
    .closeCallback ∈ s.run.effects → s.run.conn.state_ = .kDisconnected
  | _ => True

/-- A callback that may stand behind another one of the same event word. -/
def Subdued (revents : EventMask) (cb : ChannelCallback) : Prop :=
  cb ≠ .handleClose ∧ (cb = .handleRead → revents.has EPOLLERR = true)

/-- Behind the first callback there is no `handleClose`, and a `handleRead` only
behind the one of `EPOLLERR` — provided the word does not name both close
callbacks. -/
theorem dispatch_subdued (s : ConnectionSystem) {revents : EventMask}
    (h : ¬ (revents.has EPOLLERR ∧ revents.has EPOLLHUP ∧ ¬ revents.has EPOLLIN)) :
    ∀ cb ∈ (s.dispatch revents).tail, Subdued revents cb := by
  have hguard : s.dispatch revents = (s.run.conn.channel_.set_events revents).handleEventWithGuard
      (TcpConnection.callbacks .handleRead .handleWrite .handleClose) := by
    rw [dispatch, Channel.handleEvent]
    split <;> rfl
  rw [hguard, Channel.handleEventWithGuard, Channel.has_logicalOr]
  simp only [Channel.set_events, TcpConnection.callbacks]
  -- the sixteen combinations of the four bits that are tested
  by_cases hhup : revents.has EPOLLHUP = true <;> by_cases herr : revents.has EPOLLERR = true <;>
    by_cases hin : revents.has EPOLLIN = true <;> by_cases hout : revents.has EPOLLOUT = true <;>
    simp_all [Subdued]

/-- An open connection on its loop. -/
structure OpenService (s : ConnectionSystem) : Prop where
  run : s.run.Open
  destroyed : .connectDestroyed ∉ s.queue
  todo : ∀ revents todo, s.pc = .handling revents todo → ∀ cb ∈ todo.tail, Subdued revents cb
  destroying : ∀ loaded rest, s.pc ≠ .destroying loaded rest

/-- A connection that is shut, on its loop. -/
structure ShutService (s : ConnectionSystem) : Prop where
  run : s.run.Shut
  todo : ∀ revents todo, s.pc = .handling revents todo → ∀ cb ∈ todo, Subdued revents cb
  destroying : ∀ loaded rest, s.pc = .destroying loaded rest → loaded ≠ .kConnected

theorem openService_step {s s' : ConnectionSystem} {a : ServiceAction} (hs : OpenService s)
    (he : .connectEstablished ∉ s.queue) (h : Step s a s') (hQ : ClosesOnce s a) :
    OpenService s' ∨ ShutService s' := by
  obtain ⟨hrun, hdestroyed, htodo, hdestroying⟩ := hs
  have hnotDestroying : ∀ loaded rest, s'.pc ≠ .destroying loaded rest := by
    intro loaded rest hpc
    rcases h.destroying_cases hpc with hpc | ⟨-, hmem⟩
    · exact hdestroying _ _ hpc
    · exact hdestroyed hmem
  -- as long as the connection stays open
  have hopen : s'.run.Open → OpenService s' := by
    intro hrun'
    refine ⟨hrun', ?_, ?_, hnotDestroying⟩
    · intro hf
      rcases h.mem_queue hf with hf | (⟨n, hf⟩ | ⟨-, hf⟩) | ⟨t, _, _, _, hf, -⟩ | ⟨t, hf, -⟩
      · exact hdestroyed hf
      · cases hf
      · exact hrun'.close hf
      · cases hf
      · cases hf
    · intro revents todo hpc cb hcb
      rcases h.handling_cases hpc with ⟨hpc, -⟩ | ⟨cb', op, hpc, -, -⟩ | ⟨rfl, -, rfl⟩
      · exact htodo _ _ hpc cb hcb
      · exact htodo _ _ hpc cb (List.mem_of_mem_tail hcb)
      · exact dispatch_subdued s hQ cb hcb
  rcases h.run_cases with hr | ⟨op, hop, hr⟩ | ⟨-, -, hr⟩
  · exact Or.inl (hopen (hr ▸ hrun))
  · have hest : op ≠ .connectEstablished := by
      rintro rfl
      exact he hop.established
    have hdes : ∀ loaded, op ≠ .connectDestroyed loaded := by
      rintro loaded rfl
      obtain ⟨rest, hpc⟩ := hop.destroyed
      exact hdestroying _ _ hpc
    rcases hrun.exec op hest hdes with hrun' | ⟨⟨cb, hcb⟩, hrun'⟩
    · exact Or.inl (hopen (hr ▸ hrun'))
    · refine Or.inr ⟨hr ▸ hrun', ?_, fun loaded rest hpc => absurd hpc (hnotDestroying _ _)⟩
      -- it was a callback that shut the connection
      obtain ⟨rfl, -⟩ := hop.next hcb
      intro revents todo hpc cb' hcb'
      rcases h.handling_cases hpc with ⟨-, hne⟩ | ⟨cb'', op', hpc, -, -⟩ | ⟨h, -⟩
      · exact absurd rfl (hne op)
      · exact htodo _ _ hpc cb' hcb'
      · cases h
  · refine Or.inl (hopen ?_)
    rw [hr]
    rcases hrun.exec .setDisconnecting (by simp) (by simp) with hrun' | ⟨⟨cb, hcb⟩, -⟩
    · rcases hrun'.exec .shutdownInLoop (by simp) (by simp) with hrun'' | ⟨⟨cb, hcb⟩, -⟩
      · exact hrun''
      · cases hcb
    · cases hcb

theorem shutService_step {s s' : ConnectionSystem} {a : ServiceAction} (hs : ShutService s)
    (he : .connectEstablished ∉ s.queue) (hentry : s.entry = s.run.entry) (h : Step s a s')
    (hQ : ClosesOnce s a) : ShutService s' := by
  obtain ⟨hrun, htodo, hdestroying⟩ := hs
  refine ⟨?_, ?_, ?_⟩
  · rcases h.run_cases with hr | ⟨op, hop, hr⟩ | ⟨-, hst, -⟩
    · exact hr ▸ hrun
    · rw [hr]
      refine hrun.exec op ?_ ?_ ?_ ?_ ?_
      · rintro rfl
        exact he hop.established
      · rintro loaded rfl
        obtain ⟨rest, hpc⟩ := hop.destroyed
        exact hdestroying _ _ hpc
      · rintro rfl
        obtain ⟨-, revents, todo, hpc⟩ := hop.next .handleClose
        exact (htodo _ _ hpc .handleClose (by simp)).1 rfl
      · rintro ra err rfl
        obtain ⟨rfl, revents, todo, hpc⟩ := hop.next .handleRead
        exact hQ _ _ hpc ((htodo _ _ hpc .handleRead (by simp)).2 rfl)
      · rintro data wa rfl
        rcases hop.send with ⟨buf, len, contents, rfl⟩ | hst
        · exact hQ (List.count_pos_iff.mp (by rw [hrun.close]; exact Nat.one_pos))
        · exact absurd hst hrun.state
    · exact absurd hst hrun.state
  · intro revents todo hpc cb hcb
    rcases h.handling_cases hpc with ⟨hpc, -⟩ | ⟨cb', op, hpc, -, -⟩ | ⟨rfl, hsome, rfl⟩
    · exact htodo _ _ hpc cb hcb
    · exact htodo _ _ hpc cb (List.mem_cons_of_mem _ hcb)
    · -- the kernel has no entry for the fd any more
      rw [hentry, hrun.entry] at hsome
      cases hsome
  · intro loaded rest hpc
    rcases h.destroying_cases hpc with hpc | ⟨rfl, -⟩
    · exact hdestroying _ _ hpc
    · exact hrun.state

/-- A connection after `connectEstablished`, on its loop. -/
structure Serving (s : ConnectionSystem) : Prop where
  established : .connectEstablished ∉ s.queue
  accounted : Accounted s
  phase : OpenService s ∨ ShutService s

theorem serving_step {s s' : ConnectionSystem} {a : ServiceAction} (hs : Serving s)
    (h : Step s a s') (hQ : ClosesOnce s a) : Serving s' := by
  obtain ⟨he, hacc, hphase⟩ := hs
  refine ⟨h.established he, accounted_step hacc h, ?_⟩
  rcases hphase with hs | hs
  · exact openService_step hs he h hQ
  · exact Or.inr (shutService_step hs he hacc.entry h hQ)

variable (tid : Tid) (name : String) (fd : Int) (writeComplete highWaterMark : Bool)
  (memory : Memory UInt8)

theorem serving_opened {s : ConnectionSystem}
    (h : Opened (TcpConnection.new name fd writeComplete highWaterMark) s) : Serving s := by
  have heffects : s.run.effects = [.poller (.insert fd),
      .poller (.ctl .EPOLL_CTL_ADD fd Channel.kReadEvent), .connectionCallback .up] := by
    rw [h.run, ConnRun.effects_exec, new_connectEstablished_effects]
    rfl
  have hentry : s.run.entry = some Channel.kReadEvent := by
    rw [ConnRun.entry, heffects]
    rfl
  have hindex : s.run.conn.channel_.index_ = .kAdded := by
    rw [h.run]
    rfl
  have hopen : s.run.Open := by
    refine ⟨⟨0, ?_⟩, by simp [heffects], hindex, by simp [Channel.Coherent, hentry, hindex]⟩
    rw [ConnRun.callbacks, heffects]
    rfl
  refine ⟨by simp [h.queue], ⟨by rw [h.entry, hentry], ?_⟩, Or.inl ⟨hopen, ?_, ?_, ?_⟩⟩
  · rw [h.queued, heffects]
    rfl
  · simp [h.queue]
  · simp [h.pc]
  · simp [h.pc]

/-- **The callback protocol**, in every run, under every interleaving, in which each
event word closes at most once and no late `sendInLoop` comes behind it. -/
theorem callback_protocol_kept {as : List ServiceAction} {s : ConnectionSystem}
    (h : Run (Meeting Step ClosesOnce)
      (accepted tid (TcpConnection.new name fd writeComplete highWaterMark) memory) as s) :
    ProtocolKept s := by
  have hdestroyed := (accounted_run h.of_meeting).destroyed
  have hcases := untouched_or Serving h
    (fun s => serving_opened name fd writeComplete highWaterMark)
    fun _ _ _ hs hstep hQ => serving_step hs hstep hQ
  rcases hcases with hu | hs
  · have heffects : s.run.effects = [] := by
      rw [hu.run]
      rfl
    refine ⟨⟨0, ?_⟩, ?_, ?_⟩
    · simp [ConnRun.callbacks, heffects]
    · simp [heffects]
    · simp [hdestroyed, heffects]
  · rcases hs.phase with ⟨hrun, -⟩ | ⟨hrun, -⟩
    · obtain ⟨n, hn⟩ := hrun.callbacks
      have hcount : s.run.effects.count .closeCallback = 0 := List.count_eq_zero.mpr hrun.close
      exact ⟨⟨n, hn ▸ List.prefix_append _ _⟩, by omega, by omega⟩
    · obtain ⟨n, hn⟩ := hrun.callbacks
      have hcount := hrun.close
      exact ⟨⟨n, hn ▸ List.prefix_refl _⟩, by omega, by omega⟩

/-- A message, a hang-up, and the destruction. -/
theorem message_then_hangup : ∃ as, ∃ s : ConnectionSystem,
    Run (Meeting Step ClosesOnce)
        (accepted 0 (TcpConnection.new "conn" 5 false false) fun _ => none) as s ∧
      s.run.callbacks = [.up, .message, .down] ∧ ProtocolKept s := by
  have hstart : Run (Meeting Step ClosesOnce)
      (accepted 0 (TcpConnection.new "conn" 5 false false) fun _ => none) [] _ := .refl
  have hrun := hstart
    |>.meet (.swap rfl) trivial
    |>.meet (.connectEstablished (a := .accept 0) rfl) trivial
    |>.meet (.endBatch rfl) trivial
    |>.meet (.poll rfl rfl EPOLLIN) (fun h => absurd h.1 (by decide))
    |>.meet (.callback rfl (.handleRead (.data [104]) 0) .handleRead) (by
      rintro revents todo h
      cases h
      exact fun h => absurd h (by decide))
    |>.meet (.handled rfl) trivial
    |>.meet (.poll rfl (by decide +kernel) EPOLLHUP) (fun h => absurd h.1 (by decide))
    |>.meet (@Step.callback _ EPOLLHUP .handleClose [] (by decide +kernel) _ .handleClose) trivial
    |>.meet (.handled rfl) trivial
    |>.meet (.swap rfl) trivial
    |>.meet (@Step.connectDestroyed _ [] (.accept 0) (by decide +kernel)) trivial
    |>.meet (.destroy rfl) trivial
  exact ⟨_, _, hrun, by decide +kernel, callback_protocol_kept 0 "conn" 5 false false _ hrun⟩

/-- A hang-up together with an error reports `down` twice. -/
theorem hangup_with_error_closes_twice : ∃ as, ∃ s : ConnectionSystem,
    Run Step (accepted 0 (TcpConnection.new "conn" 5 false false) fun _ => none) as s ∧
      s.run.callbacks = [.up, .down, .down] ∧ ¬ ProtocolKept s := by
  have hstart : Run Step
      (accepted 0 (TcpConnection.new "conn" 5 false false) fun _ => none) [] _ := .refl
  have hrun := hstart
    |>.tail (.swap rfl)
    |>.tail (.connectEstablished (a := .accept 0) rfl)
    |>.tail (.endBatch rfl)
    |>.tail (.poll rfl rfl (EPOLLHUP ||| EPOLLERR))
    |>.tail (.callback rfl .handleClose .handleClose)
    |>.tail (.callback rfl .handleClose .handleClose)
  exact ⟨_, _, hrun, by decide, fun h => absurd h.close_once (by decide)⟩

end ConnectionSystem
end Mymuduo
