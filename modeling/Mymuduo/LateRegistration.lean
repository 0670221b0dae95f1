import Mymuduo.ConnectionLifetime

/-! # No registration after `connectDestroyed`

After `connectDestroyed` the channel of a connection should stay out of `channels_`
and out of the epoll set.  `connectDestroyed` removes the channel whatever `state_`
is, but stores `kDisconnected` only where it finds `kConnected`.  So a `sendInLoop`
that is still queued may find `kDisconnecting`, write, and enter writing mode for
what is left; a channel that was removed is added for that.  The same goes for a
`handleClose` that comes after a `connectDestroyed` called by `~TcpServer` in the
middle of a dispatch: its `disableAll` adds the channel with an empty mask.
-/
namespace Mymuduo
open Transition

namespace ConnRun

/-- Whether `channels_` has the connection's channel: what the poller calls of a run
leave. -/
def mapped (r : ConnRun) : Bool :=
  (r.effects.filterMap Effect.pollerOp?).foldl PollerOp.onMap false

/-- `connectDestroyed` has run. -/
def Destroyed (r : ConnRun) : Prop := ∃ loaded, .connectDestroyed loaded ∈ r.ops

instance (r : ConnRun) : Decidable r.Destroyed :=
  decidable_of_iff (r.ops.any fun op => op matches .connectDestroyed _) <| by
    rw [List.any_eq_true]
    constructor
    · rintro ⟨op, hmem, hop⟩
      cases op with
      | connectDestroyed loaded => exact ⟨loaded, hmem⟩
      | _ => cases hop
    · rintro ⟨loaded, hmem⟩
      exact ⟨_, hmem, rfl⟩

/-- The index of the channel tells what the poller has. -/
def Tracked (r : ConnRun) : Prop := r.conn.channel_.Tracked r.entry r.mapped

variable {r : ConnRun} {op : ConnOp}

theorem mapped_exec (r : ConnRun) (op : ConnOp) : (r.exec op).mapped =
    ((r.conn.exec op).2.filterMap Effect.pollerOp?).foldl PollerOp.onMap r.mapped := by
  rw [mapped, mapped, effects_exec, List.filterMap_append, List.foldl_append]

theorem tracked_exec (h : r.Tracked) (op : ConnOp) : (r.exec op).Tracked := by
  rw [Tracked, entry_exec, mapped_exec]
  exact h.of_calls (r.conn.exec_calls op)

theorem destroyed_exec_iff : (r.exec op).Destroyed ↔
    r.Destroyed ∨ ∃ loaded, op = .connectDestroyed loaded := by
  simp [Destroyed, exists_or, eq_comm]

/-- What a destroyed connection keeps: it is not connected, and the poller does not
know its channel. -/
structure Gone (r : ConnRun) : Prop where
  state : r.conn.state_ ≠ .kConnected
  index : r.conn.channel_.index_ = .kNew

/-- **One activation after `connectDestroyed`**: the channel stays removed unless the
activation closes, or enters writing mode. -/
theorem gone_exec (hgone : r.Destroyed → r.Gone) (hest : op ≠ .connectEstablished)
    (hloaded : ∀ loaded, op = .connectDestroyed loaded → loaded ≠ .kConnected →
      r.conn.state_ ≠ .kConnected)
    (hclose : op.Closes → ¬ r.Destroyed)
    (hsend : ∀ data a, op = .sendInLoop data a → r.Destroyed → ¬ r.conn.StartsWriting data a) :
    (r.exec op).Destroyed → (r.exec op).Gone := by
  intro hdes
  by_cases hop : ∃ loaded, op = .connectDestroyed loaded
  · obtain ⟨loaded, rfl⟩ := hop
    by_cases h : loaded = .kConnected
    · constructor <;> rw [conn_exec, TcpConnection.exec, TcpConnection.connectDestroyed, if_pos h]
      · simp [TcpConnection.setState]
      · rfl
    · constructor <;> rw [conn_exec, TcpConnection.exec, TcpConnection.connectDestroyed, if_neg h]
      · exact hloaded loaded rfl h
      · rfl
  · have hdes' : r.Destroyed := (destroyed_exec_iff.mp hdes).resolve_right hop
    obtain ⟨hst, hidx⟩ := hgone hdes'
    constructor
    · intro hc
      rcases r.conn.exec_connected hc with h | h
      · exact hest h
      · exact hst h
    · rcases r.conn.exec_channel op with ⟨hch, -⟩ | h | h | h | ⟨data, a, rfl, h⟩
      · rw [conn_exec, hch, hidx]
      · exact absurd h hest
      · exact absurd h hop
      · exact absurd hdes' (hclose h)
      · exact absurd h (hsend data a rfl hdes')

end ConnRun

/-- The functor reads what is behind its pointer, as far as that is allocated. -/
theorem ConnectionSystem.Step.send_run {s s' : ConnectionSystem} {buf len : Nat}
    {contents : List UInt8} {a : WriteAnswer}
    (h : Step s (.functor (.sendInLoop buf len contents) a) s') :
    ∃ data, (∀ bytes, s.memory.load buf len = some bytes → data = bytes) ∧
      s'.run = s.run.exec (.sendInLoop data a) := by
  cases h with
  | sendInLoop h data a hdata => exact ⟨data, hdata, s.run_perform (.sendInLoop data a)⟩

namespace LifetimeSystem

/-- After `connectDestroyed` no callback closes the connection, and no queued
`sendInLoop` has something to wait for. -/
def NothingLate (s : LifetimeSystem) : LifetimeAction → Prop
  | .serve (.functor (.sendInLoop buf len _) a) => s.sys.run.Destroyed →
      ∀ data, (∀ bytes, s.sys.memory.load buf len = some bytes → data = bytes) →
        ¬ s.sys.run.conn.StartsWriting data a
  | .close _ => ¬ s.sys.run.Destroyed
  | _ => True

/-- What is kept from `connectEstablished` on. -/
structure Leaving (s : LifetimeSystem) : Prop where
  established : .connectEstablished ∉ s.sys.queue
  gone : s.sys.run.Destroyed → s.sys.run.Gone
  /-- A `connectDestroyed` that leaves `state_` alone has found it not connected. -/
  loaded : ∀ loaded rest, s.sys.pc = .destroying loaded rest → loaded ≠ .kConnected →
    s.sys.run.conn.state_ ≠ .kConnected
  loadedHere : ∀ loaded, s.server = .destroying loaded → loaded ≠ .kConnected →
    s.sys.run.conn.state_ ≠ .kConnected

section Step
variable {s s' : LifetimeSystem} {a : LifetimeAction}

/-- `connectDestroyed` reads `state_` in this step, or has read it before. -/
theorem Step.loaded_cases (h : Step s a s') :
    (∀ loaded rest, s'.sys.pc = .destroying loaded rest →
      s.sys.pc = .destroying loaded rest ∨ loaded = s.sys.run.conn.state_) ∧
    (∀ loaded, s'.server = .destroying loaded →
      s.server = .destroying loaded ∨ loaded = s.sys.run.conn.state_) := by
  constructor
  · intro loaded rest hpc
    cases h with
    | serve hstep => exact (hstep.destroying_cases hpc).imp_right And.left
    | dispatch | close => cases hpc
    | destroyedHere =>
      rw [← ConnectionSystem.pc_perform]
      exact Or.inl hpc
    | _ => exact Or.inl hpc
  · intro loaded hserver
    cases h with
    | destroyHere =>
      cases hserver
      exact Or.inr rfl
    | destruct | destroyedHere | destructed => cases hserver
    | _ => exact Or.inl hserver

/-- What a step runs is harmless to a connection that is gone. -/
theorem Performs.gone {op : ConnOp} (hs : Leaving s) (hQ : NothingLate s a)
    (h : s.Performs a op) (hr : s'.sys.run = s.sys.run.exec op) (hstep : Step s a s') :
    s'.sys.run.Destroyed → s'.sys.run.Gone := by
  rw [hr]
  refine ConnRun.gone_exec hs.gone (h.established hs.established) ?_ ?_ ?_
  · rintro loaded rfl hne
    cases h with
    | serve hop =>
      obtain ⟨rest, hpc⟩ := hop.destroyed
      exact hs.loaded loaded rest hpc hne
    | close hcb => cases hcb
    | destroyedHere h => exact hs.loadedHere loaded h hne
  · intro hclose
    cases h with
    | serve hop hallows =>
      cases hop with
      | callback => exact absurd hclose hallows
      | _ => exact hclose.elim
    | close => exact hQ
    | destroyedHere => exact hclose.elim
  · rintro data wa rfl hdes
    cases h with
    | serve hop =>
      rcases hop.send with ⟨buf, len, contents, rfl⟩ | hst
      · cases hstep with
        | serve hstep =>
          obtain ⟨data', hdata, hr'⟩ := hstep.send_run
          have hop : ConnOp.sendInLoop data wa = .sendInLoop data' wa := by
            have hlog := congrArg ConnRun.ops (hr.symm.trans hr')
            simpa using hlog
          cases hop
          exact hQ hdes data hdata
      · exact absurd hst (hs.gone hdes).state
    | close hcb => cases hcb

theorem leaving_step (hs : Leaving s) (h : Step s a s') (hQ : NothingLate s a) : Leaving s' := by
  have hnot := h.not_connected hs.established
  refine ⟨h.established hs.established, ?_, fun loaded rest hpc hne => hnot ?_,
    fun loaded hserver hne => hnot ?_⟩
  · rcases h.run_cases with hr | ⟨op, hop, hr⟩ | ⟨rfl, hst, hr⟩
    · rw [hr]
      exact hs.gone
    · exact hop.gone hs hQ hr h
    · -- `shutdown` on the loop's thread has found `kConnected`
      intro hdes
      rw [hr, ConnRun.destroyed_exec_iff, ConnRun.destroyed_exec_iff] at hdes
      simp only [reduceCtorEq, exists_false, or_false] at hdes
      exact absurd hst (hs.gone hdes).state
  · rcases h.loaded_cases.1 loaded rest hpc with hpc | rfl
    · exact hs.loaded loaded rest hpc hne
    · exact hne
  · rcases h.loaded_cases.2 loaded hserver with hserver | rfl
    · exact hs.loadedHere loaded hserver hne
    · exact hne

/-- The index of the channel goes on telling what the poller has. -/
theorem Step.tracked (h : Step s a s') (hs : s.sys.run.Tracked) : s'.sys.run.Tracked := by
  rcases h.run_cases with hr | ⟨op, -, hr⟩ | ⟨-, -, hr⟩ <;> rw [hr]
  · exact hs
  · exact ConnRun.tracked_exec hs op
  · exact ConnRun.tracked_exec (ConnRun.tracked_exec hs _) _

end Step

variable {tid base : Tid} {name : String} {fd : Int} {writeComplete highWaterMark : Bool}
  {memory : Memory UInt8}

theorem leaving_opened {s : LifetimeSystem}
    (h : Opened (TcpConnection.new name fd writeComplete highWaterMark) s) : Leaving s := by
  refine ⟨?_, ?_, ?_, ?_⟩
  · rw [h.queue]
    split <;> simp
  · rintro ⟨loaded, hmem⟩
    rw [h.run, ConnRun.ops_exec] at hmem
    simp [ConnRun.ops] at hmem
  · intro loaded rest hpc
    obtain ⟨rest', hpc'⟩ := h.pc
    rw [hpc'] at hpc
    cases hpc
  · intro loaded hserver
    have hholds := h.holds
    rw [hserver] at hholds
    cases hholds

/-- What the poller has follows from what the connection did. -/
theorem tracked_run {as : List LifetimeAction} {s : LifetimeSystem}
    (h : Run Step
      (accepted tid base (TcpConnection.new name fd writeComplete highWaterMark) memory) as s) :
    s.sys.entry = s.sys.run.entry ∧ s.sys.run.Tracked := by
  have hstart : ConnRun.Tracked ⟨TcpConnection.new name fd writeComplete highWaterMark, []⟩ := by
    constructor
    · simp [Channel.Coherent, ConnRun.entry, ConnRun.effects, TcpConnection.new, Channel.new]
    · simp [ConnRun.mapped, ConnRun.effects, TcpConnection.new, Channel.new]
  induction h with
  | refl => exact ⟨rfl, hstart⟩
  | tail _ hstep ih => exact ⟨hstep.entry ih.1, hstep.tracked ih.2⟩

/-- **No registration after `connectDestroyed`**, in every run, under every
interleaving, in which after it no callback closes the connection and no queued
`sendInLoop` has something to wait for. -/
theorem unregistered_after_destroyed {as : List LifetimeAction} {s : LifetimeSystem}
    (h : Run (Meeting Step NothingLate)
      (accepted tid base (TcpConnection.new name fd writeComplete highWaterMark) memory) as s)
    (hdes : s.sys.run.Destroyed) : s.sys.run.mapped = false ∧ s.sys.entry = none := by
  obtain ⟨hentry, htracked⟩ := tracked_run h.of_meeting
  have hcases := fresh_or Leaving h (fun s => leaving_opened)
    fun _ _ _ hs hstep hQ => leaving_step hs hstep hQ
  rcases hcases with hs | hs
  · rw [hs.run] at hdes
    obtain ⟨loaded, hmem⟩ := hdes
    cases hmem
  · have hidx := (hs.gone hdes).index
    have hmap := htracked.map
    have hcoherent := htracked.coherent
    rw [Channel.Coherent] at hcoherent
    rw [hentry]
    constructor
    · simpa [hidx] using hmap
    · simpa [hidx] using hcoherent

/-- Thread 1 is in `send` when the peer hangs up; its `sendInLoop` runs behind
`connectDestroyed` and finds `kDisconnected`. -/
theorem late_send_refused : ∃ as, ∃ s : LifetimeSystem,
    Run (Meeting Step NothingLate)
        (accepted 0 3 (TcpConnection.new "conn" 5 false false) fun _ => some 104) as s ∧
      s.sys.run.Destroyed ∧ s.sys.run.mapped = false ∧ s.sys.entry = none := by
  have hstart : Run (Meeting Step NothingLate)
      (accepted 0 3 (TcpConnection.new "conn" 5 false false) fun _ => some 104) [] _ := .refl
  have hrun := hstart
    |>.meet (.serve (.swap rfl) (by decide) rfl) trivial
    |>.meet (.serve (.connectEstablished (a := .accept 0) rfl) (by decide) trivial) trivial
    |>.meet (.keep 1 (by decide)) trivial
    |>.meet (.serve (.endBatch rfl) (by decide) trivial) trivial
    |>.meet (.serve (.sendCheck (t := 1) (by decide) rfl rfl 7 1 [104] rfl) (by decide)
      List.mem_cons_self) trivial
    |>.meet (.report (by decide) rfl rfl rfl EPOLLHUP) trivial
    |>.meet (.dispatch (by decide) rfl rfl (by decide)) trivial
    |>.meet (.close (by decide) rfl .handleClose trivial) (by decide : ¬ ConnRun.Destroyed _)
    |>.meet (.closeCallback rfl (by decide)) trivial
    |>.meet (.serve (.handled rfl) (by decide) trivial) trivial
    |>.meet (.serve (.swap rfl) (by decide) rfl) trivial
    |>.meet (.serve (.connectDestroyed (a := .accept 0) rfl) (by decide) trivial) trivial
    |>.meet (.serve (.destroy rfl) (by decide) trivial) trivial
    |>.meet (.serve (.sendQueue (t := 1) (by decide) rfl) (by decide) trivial) trivial
    |>.meet (.serve (.endBatch rfl) (by decide) trivial) trivial
    |>.meet (.serve (.swap rfl) (by decide) rfl) trivial
    |>.meet (.serve (.sendInLoop rfl [104] (.fail .EWOULDBLOCK .EWOULDBLOCK)
      (by intro bytes h; cases h; rfl)) (by decide) trivial) (fun _ _ _ h => h.1 rfl)
  exact ⟨_, _, hrun, by decide, unregistered_after_destroyed hrun (by decide)⟩

/-- Thread 1 is in `send`, and thread 2 has stored `kDisconnecting` in `shutdown`, when
`~TcpServer` queues `connectDestroyed`; the `sendInLoop` thread 1 queues behind it
finds the socket full, and adds the channel again. -/
theorem late_send_registers : ∃ as, ∃ s : LifetimeSystem,
    Run Step (accepted 0 3 (TcpConnection.new "conn" 5 false false) fun _ => some 104) as s ∧
      s.sys.run.Destroyed ∧ s.sys.run.mapped = true ∧
      s.sys.entry = some (Channel.kReadEvent ||| Channel.kWriteEvent) := by
  have hstart : Run Step
      (accepted 0 3 (TcpConnection.new "conn" 5 false false) fun _ => some 104) [] _ := .refl
  have hrun := hstart
    |>.tail (.serve (.swap rfl) (by decide) rfl)
    |>.tail (.serve (.connectEstablished (a := .accept 0) rfl) (by decide) trivial)
    |>.tail (.keep 1 (by decide))
    |>.tail (.keep 2 (by decide))
    |>.tail (.serve (.endBatch rfl) (by decide) trivial)
    |>.tail (.serve (.sendCheck (t := 1) (by decide) rfl rfl 7 1 [104] rfl) (by decide)
      (List.mem_cons_of_mem _ List.mem_cons_self))
    |>.tail (.serve (.shutdownCheck (t := 2) (by decide) rfl rfl) (by decide) List.mem_cons_self)
    |>.tail (.serve (.shutdownStore (t := 2) (by decide) rfl) (by decide) trivial)
    |>.tail (.destruct rfl rfl (fun h => absurd h (by decide)))
    |>.tail (.destroyQueue rfl rfl (by decide))
    |>.tail (.serve (.sendQueue (t := 1) (by decide) rfl) (by decide) trivial)
    |>.tail (.serve (.swap rfl) (by decide) rfl)
    |>.tail (.serve (.connectDestroyed (a := .accept 0) rfl) (by decide) trivial)
    |>.tail (.serve (.destroy rfl) (by decide) trivial)
    |>.tail (.serve (.sendInLoop rfl [104] (.fail .EWOULDBLOCK .EWOULDBLOCK)
      (by intro bytes h; cases h; rfl)) (by decide) trivial)
  exact ⟨_, _, hrun, by decide, by decide, by decide⟩

end LifetimeSystem
end Mymuduo
