import Mymuduo.LoopThreads

/-! # One loop per thread

`Channel`, `Buffer` and `EPollPoller` have no locks: all they have is that the channel
and the buffers of a connection are only ever used by the thread of its loop.  The
functions of a connection get to run by one of four routes: called from a handler of its
channel, taken from a queue, called by `runInLoop` at once, or called by `send`, which
asks `isInLoopThread` itself.  `Routed` is what keeps the first two on the right
thread: a connection is in no other queue, poller or `activeChannels_` than those of
its own loop.

`setState(kDisconnecting)` in `shutdown` runs on any thread; it touches `state_` only,
which is atomic.
-/
namespace Mymuduo
open Transition

namespace ThreadedServer

/-- Whatever a loop has of a connection, it has of one of its own. -/
structure Routed (s : ThreadedServer) : Prop where
  queued : ∀ l, ∀ f ∈ s.tasks l, s.loopOf f.conn = some l
  registered : ∀ l fd i, (s.pollers l).Has fd (.connection i) → s.loopOf i = some l
  active : ∀ l, ∀ i ∈ s.active l, s.loopOf i = some l

/-- The step from `s` to `s'` reads or writes `channel_`, `inputBuffer_` or `outputBuffer_`
of connection number `i`: it runs one of the functions that do, or one of the members
has changed, or the channel has got into a poller, or it is reported and handled. -/
inductive Touches (s s' : ThreadedServer) (i : Nat) : Prop where
  | runs {x : Activation} (hnew : x ∈ s'.activations.drop s.activations.length)
      (hconn : x.conn = i) (hop : x.op ≠ .setDisconnecting)
  | writes {c c' : LoopConnection} (hc : s.conns[i]? = some c) (hc' : s'.conns[i]? = some c')
      (hne : c'.run.conn.channel_ ≠ c.run.conn.channel_ ∨
        c'.run.conn.inputBuffer_ ≠ c.run.conn.inputBuffer_ ∨
        c'.run.conn.outputBuffer_ ≠ c.run.conn.outputBuffer_)
  | registers {l : LoopId} {fd : Int} (hold : ¬ (s.pollers l).Has fd (.connection i))
      (hnew : (s'.pollers l).Has fd (.connection i))
  /-- `fillActiveChannels` stores the `revents_` of the channel. -/
  | reports {l : LoopId} (hnew : s'.active l = i :: s.active l)
  /-- `handleEvent` has read `tied_` and `revents_` of the reported channel, whatever it called. -/
  | handles {l : LoopId} (hold : i ∈ s.active l) (hnew : i ∉ s'.active l)

/-- Thread `t` is the thread of the loop of connection number `i`. -/
def OwnThread (s : ThreadedServer) (t : Tid) (i : Nat) : Prop :=
  ∃ l, s.loopOf i = some l ∧ t = (s.loops l).threadId_

/-- From `s` to `r` connections, pollers, reports and log stay; a new connection may join. -/
structure Quiet (s r : ThreadedServer) : Prop where
  conns : r.conns = s.conns ∨ ∃ c, r.conns = s.conns ++ [c]
  pollers : r.pollers = s.pollers
  active : r.active = s.active
  activations : r.activations = s.activations

variable {s s' r : ThreadedServer} {t : Tid} {i : Nat} {l : LoopId} {op : ConnOp}

/-! ## The invariant -/

theorem loopOf_addConnection (c : LoopConnection) (h : s.loopOf i = some l) :
    (s.addConnection c).loopOf i = some l := by
  obtain ⟨c', hc', rfl⟩ := Option.map_eq_some_iff.mp h
  exact loopOf_of_some (conns_addConnection s i c hc')

theorem loopOf_addConnection_self (s : ThreadedServer) (c : LoopConnection) :
    (s.addConnection c).loopOf s.conns.length = some c.loop_ := by
  simp [loopOf, addConnection]

theorem Routed.addConnection (h : Routed s) (c : LoopConnection) : Routed (s.addConnection c) where
  queued l f hf := loopOf_addConnection c (h.queued l f hf)
  registered l fd i hi := loopOf_addConnection c (h.registered l fd i hi)
  active l i hi := loopOf_addConnection c (h.active l i hi)

theorem Routed.perform (h : Routed s) (t : Tid) (i : Nat) (op : ConnOp) :
    Routed (s.perform t i op) := by
  refine ⟨fun l f hf => ?_, fun l fd j hj => ?_, fun l j hj => ?_⟩ <;> rw [loopOf_perform]
  · obtain ⟨fs, htasks, hfs⟩ := s.tasks_perform t i op
    rw [htasks, List.mem_append] at hf
    rcases hf with hf | hf
    · exact h.queued l f hf
    · split at hf
      · rename_i hl
        rcases hfs f hf with rfl | ⟨n, c, rfl, -⟩ <;> exact hl
      · cases hf
  · rcases has_perform t op hj with hj | ⟨hj, hl⟩
    · exact h.registered l fd j hj
    · cases hj
      exact hl
  · rw [active_perform] at hj
    exact h.active l j hj

theorem Routed.queueInLoop (h : Routed s) (t : Tid) {f : LoopFunctor}
    (hf : s.loopOf f.conn = some l) : Routed (s.queueInLoop t l f) := by
  refine ⟨fun l' g hg => ?_, h.registered, h.active⟩
  rcases mem_tasks_queueInLoop s t l l' hg with hg | ⟨rfl, rfl⟩
  · exact h.queued l' g hg
  · exact hf

theorem Routed.runInLoop (h : Routed s) (t : Tid) {f : LoopFunctor} (op : ConnOp)
    (hf : s.loopOf f.conn = some l) : Routed (s.runInLoop t l f op) := by
  rcases s.runInLoop_cases t l f op with ⟨-, hrun⟩ | ⟨-, hrun⟩ <;> rw [hrun]
  · exact h.perform t f.conn op
  · exact h.queueInLoop t hf

theorem Routed.setBatch (h : Routed s) {f : LoopFunctor} {rest : List LoopFunctor}
    (hf : s.batch l = f :: rest) : Routed (s.setBatch l rest) :=
  ⟨fun l' g hg => h.queued l' g (mem_tasks_setBatch s l l' hf hg), h.registered, h.active⟩

theorem routed_start (tid : LoopId → Tid) (own : LoopId → Int → Bool) :
    Routed (start tid own) := by
  refine ⟨by simp [start, tasks, EventLoop.new], fun l fd i h => ?_, by simp [start]⟩
  rcases h with h | ⟨events, h⟩ <;> simp [start] at h

theorem routed_step (hs : Routed s) (h : Step s t s') : Routed s' := by
  cases h with
  | newConnection ioLoop name sockfd writeComplete highWaterMark =>
    exact (hs.addConnection _).runInLoop _ _ (s.loopOf_addConnection_self _)
  | @report l fd events i h =>
    refine ⟨hs.queued, hs.registered, fun l' j hj => ?_⟩
    rcases mem_setActive s j l l' hj with hj | ⟨rfl, hj⟩
    · exact hs.active _ _ hj
    · rcases List.mem_cons.mp hj with rfl | hj
      · exact hs.registered _ _ _ (Or.inr ⟨_, h⟩)
      · exact hs.active _ _ hj
  | callback h hop => exact hs.perform ..
  | handled l =>
    refine ⟨hs.queued, hs.registered, fun l' j hj => ?_⟩
    rcases mem_setActive s j l l' hj with hj | ⟨-, hj⟩
    · exact hs.active _ _ hj
    · cases hj
  | @swap l h =>
    refine ⟨fun l' f hf => hs.queued l' f ?_, hs.registered, hs.active⟩
    rwa [s.tasks_swapPending l h] at hf
  | functor h hop => exact (hs.setBatch h).perform ..
  | notification h => exact hs.setBatch h
  | sendCheck | shutdownCheck | destruct => exact ⟨hs.queued, hs.registered, hs.active⟩
  | @send t i l h hl data a =>
    have hend : Routed (s.endCall (t, .sending i)) := ⟨hs.queued, hs.registered, hs.active⟩
    exact hend.runInLoop t (.sendInLoop data a) hl
  | @shutdownStore t i h =>
    have hend : Routed ((s.endCall (t, .shutDownChecked i)).beginCall (t, .shutDownStored i)) :=
      ⟨hs.queued, hs.registered, hs.active⟩
    exact hend.perform ..
  | @shutdownRun t i l h hl =>
    have hend : Routed (s.endCall (t, .shutDownStored i)) := ⟨hs.queued, hs.registered, hs.active⟩
    exact hend.runInLoop t .shutdownInLoop hl
  | @destroy i l h hin hl loaded =>
    have herase : Routed { s with connections_ := s.connections_.erase i } :=
      ⟨hs.queued, hs.registered, hs.active⟩
    exact herase.runInLoop _ (.connectDestroyed loaded) hl

theorem routed_run {tid : LoopId → Tid} {own : LoopId → Int → Bool} {ts : List Tid}
    (h : Run Step (start tid own) ts s) : Routed s :=
  h.invariant (routed_start tid own) fun _ _ _ hs hstep => routed_step hs hstep

/-! ## Who runs what -/

/-- **The routes.**  A step fills or clears the `activeChannels_` of its thread's loop, or it
runs at most one activation, on the thread of the connection's loop or else the store of
`shutdown`. -/
theorem Step.routes (hs : Routed s) (h : Step s t s') :
    (∃ l is, s' = s.setActive l is ∧ t = (s.loops l).threadId_) ∨ ∃ r, Quiet s r ∧
      (s' = r ∨ ∃ i op, s' = r.perform t i op ∧ (op ≠ .setDisconnecting → r.OwnThread t i)) := by
  have hrefl : Quiet s s := ⟨Or.inl rfl, rfl, rfl, rfl⟩
  -- what goes through `runInLoop` runs on the loop's thread, or later
  have hrun : ∀ {r : ThreadedServer} {l : LoopId} {f : LoopFunctor} {op : ConnOp}, Quiet s r →
      r.loopOf f.conn = some l → s' = r.runInLoop t l f op → ∃ r, Quiet s r ∧
        (s' = r ∨ ∃ i op, s' = r.perform t i op ∧ (op ≠ .setDisconnecting → r.OwnThread t i)) := by
    intro r l f op hquiet hl hs'
    rcases r.runInLoop_cases t l f op with ⟨ht, hrun⟩ | ⟨-, hrun⟩ <;> rw [hrun] at hs'
    · exact ⟨r, hquiet, Or.inr ⟨f.conn, op, hs', fun _ => ⟨l, hl, ht.symm⟩⟩⟩
    · refine ⟨s', ?_, Or.inl rfl⟩
      rw [hs']
      exact ⟨hquiet.conns, hquiet.pollers, hquiet.active, hquiet.activations⟩
  cases h with
  | report | handled => exact Or.inl ⟨_, _, rfl, rfl⟩
  | newConnection =>
    refine Or.inr (hrun ?_ ?_ rfl)
    · exact ⟨Or.inr ⟨_, rfl⟩, rfl, rfl, rfl⟩
    · exact s.loopOf_addConnection_self _
  | swap | notification | sendCheck | shutdownCheck | destruct =>
    refine Or.inr ⟨_, ?_, Or.inl rfl⟩
    exact ⟨Or.inl rfl, rfl, rfl, rfl⟩
  | callback h hop =>
    exact Or.inr ⟨s, hrefl, Or.inr ⟨_, _, rfl, fun _ => ⟨_, hs.active _ _ h, rfl⟩⟩⟩
  | functor h hop =>
    refine Or.inr ⟨_, ?_, Or.inr ⟨_, _, rfl, fun _ => ⟨_, ?_, rfl⟩⟩⟩
    · exact ⟨Or.inl rfl, rfl, rfl, rfl⟩
    · exact hs.queued _ _ (by simp [tasks, h])
  | shutdownStore h =>
    refine Or.inr ⟨_, ?_, Or.inr ⟨_, _, rfl, fun hop => absurd rfl hop⟩⟩
    exact ⟨Or.inl rfl, rfl, rfl, rfl⟩
  | send h hl | shutdownRun h hl | destroy h hin hl =>
    refine Or.inr (hrun ?_ ?_ rfl)
    · exact ⟨Or.inl rfl, rfl, rfl, rfl⟩
    · exact hl

theorem Quiet.conns_eq (h : Quiet s r) {c : LoopConnection} (hc : s.conns[i]? = some c) :
    r.conns[i]? = some c := by
  rcases h.conns with hconns | ⟨c', hconns⟩ <;> rw [hconns]
  · exact hc
  · exact conns_addConnection s i c' hc

/-- Where connections, pollers and log stay, it is an `activeChannels_` that was filled or
cleared. -/
theorem Touches.listed (h : Touches s r i)
    (hconns : ∀ c, s.conns[i]? = some c → r.conns[i]? = some c) (hpollers : r.pollers = s.pollers)
    (hactivations : r.activations = s.activations) :
    ∃ l, r.active l ≠ s.active l ∧ (i ∈ s.active l ∨ i ∈ r.active l) := by
  rcases h with ⟨hnew, -, -⟩ | ⟨hc, hc', hne⟩ | ⟨hold, hnew⟩ | @⟨l, hnew⟩ | @⟨l, hold, hnew⟩
  · rw [hactivations, List.drop_length] at hnew
    cases hnew
  · obtain rfl := Option.some.inj (hc'.symm.trans (hconns _ hc))
    simp at hne
  · rw [hpollers] at hnew
    exact absurd hnew hold
  · refine ⟨l, ?_, Or.inr ?_⟩ <;> rw [hnew]
    · exact List.cons_ne_self _ _
    · exact List.mem_cons_self
  · exact ⟨l, fun heq => hnew (heq ▸ hold), Or.inl hold⟩

theorem Quiet.not_touches (h : Quiet s r) : ¬ Touches s r i := by
  intro htouch
  obtain ⟨l, hne, -⟩ := htouch.listed (fun _ => h.conns_eq) h.pollers h.activations
  exact hne (congrFun h.active l)

/-- What filling and clearing `activeChannels_` touches is a channel that was reported, or is
now. -/
theorem touches_setActive {is : List Nat} (h : Touches s (s.setActive l is) i) :
    i ∈ s.active l ∨ i ∈ (s.setActive l is).active l := by
  obtain ⟨l', hne, hmem⟩ := h.listed (fun _ hc => hc) rfl rfl
  have hl : l' = l := by
    by_contra hl
    exact hne (Function.update_of_ne hl ..)
  exact hl ▸ hmem

/-- The store of `shutdown` works on `state_` alone. -/
theorem pollers_setDisconnecting (s : ThreadedServer) (t : Tid) (i : Nat) :
    (s.perform t i .setDisconnecting).pollers = s.pollers := by
  cases hc : s.conns[i]? with
  | none => rw [perform_of_none t _ hc]
  | some c =>
    rw [perform_of_some t _ hc, TcpConnection.exec_setDisconnecting]
    rfl

/-- What a step touches is the connection of its activation. -/
theorem Quiet.touches_perform {j : Nat} (h : Quiet s r)
    (htouch : Touches s (r.perform t i op) j) : j = i ∧ op ≠ .setDisconnecting := by
  rcases htouch with ⟨hnew, hconn, hop⟩ | ⟨hc, hc', hne⟩ | ⟨hold, hnew⟩ | hnew | ⟨hold, hnew⟩
  · rw [activations_perform, h.activations, List.drop_left] at hnew
    split at hnew
    · obtain rfl := List.mem_singleton.mp hnew
      exact ⟨hconn.symm, hop⟩
    · cases hnew
  · rw [conns_perform, h.conns_eq hc, Option.map_some, Option.some.injEq] at hc'
    by_cases hj : j = i
    · refine ⟨hj, ?_⟩
      rintro rfl
      rw [if_pos hj] at hc'
      subst hc'
      simp [TcpConnection.setState] at hne
    · rw [if_neg hj] at hc'
      subst hc'
      simp at hne
  · rw [← h.pollers] at hold
    rcases has_perform t op hnew with hj | ⟨hj, -⟩
    · exact absurd hj hold
    · cases hj
      refine ⟨rfl, ?_⟩
      rintro rfl
      rw [pollers_setDisconnecting] at hnew
      exact hold hnew
  · rw [active_perform, h.active] at hnew
    exact (List.cons_ne_self _ _ hnew.symm).elim
  · rw [active_perform, h.active] at hnew
    exact absurd hold hnew

/-- **One loop per thread.**  In every run, whatever touches the channel or the buffers of
a connection is a step of the thread of its loop, and a channel is in no poller but its
loop's. -/
theorem one_loop_per_thread (tid : LoopId → Tid) (own : LoopId → Int → Bool) {ts : List Tid}
    (h : Run Step (start tid own) ts s) (hstep : Step s t s') (htouch : Touches s s' i) :
    s'.OwnThread t i ∧
      ∀ l fd, (s'.pollers l).Has fd (.connection i) → s'.loopOf i = some l := by
  have hs := routed_run h
  have hs' := routed_step hs hstep
  refine ⟨?_, fun l fd => hs'.registered l fd i⟩
  obtain ⟨l, is, rfl, ht⟩ | ⟨r, hquiet, rfl | ⟨j, op, rfl, hown⟩⟩ := hstep.routes hs
  · refine ⟨l, ?_, ht⟩
    exact (touches_setActive htouch).elim (hs.active l i) (hs'.active l i)
  · exact absurd htouch hquiet.not_touches
  · obtain ⟨rfl, hop⟩ := hquiet.touches_perform htouch
    obtain ⟨l, hl, ht⟩ := hown hop
    exact ⟨l, by rwa [loopOf_perform], by rwa [threadId_perform]⟩

/-- A connection is given to the loop of thread 1, which takes `connectEstablished` from its
queue. -/
theorem one_loop_per_thread_established :
    let tid : LoopId → Tid := fun l => match l with | .base => 0 | .sub n => n + 1
    ∃ ts, ∃ s s' : ThreadedServer, Run Step (start tid fun _ _ => false) ts s ∧ Step s 1 s' ∧
      (s'.pollers (.sub 0)).Has 5 (.connection 0) ∧ s'.OwnThread 1 0 ∧
      ∀ l fd, (s'.pollers l).Has fd (.connection 0) → s'.loopOf 0 = some l := by
  intro tid
  have hstart : Run Step (start tid fun _ _ => false) [] _ := .refl
  have hrun := hstart
    |>.tail (.newConnection (.sub 0) "conn" 5 false false rfl)
    |>.tail (.swap (l := .sub 0) rfl)
  refine ⟨_, _, _, hrun, .functor (l := .sub 0) rfl .connectEstablished, Or.inl (by decide), ?_⟩
  refine one_loop_per_thread tid _ hrun (.functor (l := .sub 0) rfl .connectEstablished) ?_
  exact .runs (x := ⟨1, 0, .connectEstablished⟩) (by decide) rfl (by decide)

end ThreadedServer
end Mymuduo
