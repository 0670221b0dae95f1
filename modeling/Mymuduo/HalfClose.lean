import Mymuduo.ConnectionSystem

/-! # No write after the half-close

Once `SHUT_WR` has been issued, no step should call `write(2)` on the fd.  The
half-close is issued only out of writing mode, and `handleWrite` writes only in
it, so the only way to write afterwards is a `sendInLoop`.  One called on the
loop's thread is preceded by a test for `kConnected`, which a connection that has
been shut down never is again.  One queued by another thread was preceded by that
test, too, but at the time of the call; `sendInLoop` itself only refuses to write
when it finds `kDisconnected`, although its comment says that after `shutdown` no
more is sent.
-/
namespace Mymuduo
open Transition

/-- No `write(2)` comes after `SHUT_WR` in the effects of a run. -/
def NoWriteAfterShutdown (es : List Effect) : Prop :=
  es.Pairwise fun e e' => e = .shutdownWrite → ∀ n bs, e' ≠ .write n bs

/-- What the half-close settles on a connection, once it is issued. -/
structure HalfClosed (r : ConnRun) : Prop where
  no_write : NoWriteAfterShutdown r.effects
  not_writing : .shutdownWrite ∈ r.effects → r.conn.channel_.isWriting = false
  not_connected : .shutdownWrite ∈ r.effects → r.conn.state_ ≠ .kConnected

theorem noWrite_exec (c : TcpConnection) (op : ConnOp) :
    NoWriteAfterShutdown (c.exec op).2 := by
  refine List.pairwise_of_forall_mem_list fun e he e' he' => ?_
  rintro rfl n bs rfl
  rcases c.exec_writeSide he trivial with ⟨-, rfl, hw⟩ | ⟨⟨n, bs, h⟩, -⟩
  · rcases c.exec_writeSide he' trivial with ⟨h, -⟩ | ⟨-, ⟨⟨data, a, h⟩, -⟩ | h⟩
    · cases h
    · cases h
    · rw [hw] at h
      cases h
  · cases h

/-- **One activation after the half-close**: harmless unless it is a `sendInLoop`
that is not refused. -/
theorem HalfClosed.exec {r : ConnRun} (h : HalfClosed r) (op : ConnOp)
    (hest : op = .connectEstablished → .shutdownWrite ∉ r.effects)
    (hsend : (∃ data a, op = .sendInLoop data a) → .shutdownWrite ∈ r.effects →
      r.conn.state_ = .kDisconnected)
    (hshut : op = .shutdownInLoop → r.conn.state_ ≠ .kConnected) : HalfClosed (r.exec op) := by
  obtain ⟨hno, hwriting, hconnected⟩ := h
  have hold : .shutdownWrite ∈ r.effects → (r.conn.exec op).1.channel_.isWriting = false ∧
      (r.conn.exec op).1.state_ ≠ .kConnected := by
    intro hs
    constructor
    · by_contra hw
      rcases r.conn.exec_isWriting (by simpa using hw) with ⟨hop, hst⟩ | hw
      · exact hst (hsend hop hs)
      · rw [hwriting hs] at hw
        cases hw
    · intro hst
      rcases r.conn.exec_connected hst with hop | hst
      · exact hest hop hs
      · exact hconnected hs hst
  have hnew : .shutdownWrite ∈ (r.conn.exec op).2 → (r.conn.exec op).1.channel_.isWriting = false ∧
      (r.conn.exec op).1.state_ ≠ .kConnected := by
    intro hs
    rcases r.conn.exec_writeSide hs trivial with ⟨-, rfl, hw⟩ | ⟨⟨n, bs, h⟩, -⟩
    · rw [TcpConnection.exec, TcpConnection.shutdownInLoop_conn]
      exact ⟨hw, hshut rfl⟩
    · cases h
  have hboth : .shutdownWrite ∈ (r.exec op).effects →
      (r.conn.exec op).1.channel_.isWriting = false ∧
        (r.conn.exec op).1.state_ ≠ .kConnected := by
    intro hs
    rw [ConnRun.effects_exec, List.mem_append] at hs
    exact hs.elim hold hnew
  refine ⟨?_, fun hs => (hboth hs).1, fun hs => (hboth hs).2⟩
  rw [NoWriteAfterShutdown, ConnRun.effects_exec, List.pairwise_append]
  refine ⟨hno, noWrite_exec _ _, ?_⟩
  rintro e he e' he' rfl n bs rfl
  rcases r.conn.exec_writeSide he' trivial with ⟨h, -⟩ | ⟨-, ⟨hop, hst⟩ | hw⟩
  · cases h
  · exact hst (hsend hop he)
  · rw [hwriting he] at hw
    cases hw

namespace ConnectionSystem

/-- A queued `sendInLoop` that runs after the half-close finds `kDisconnected`. -/
def LateSendsRefused (s : ConnectionSystem) : ServiceAction → Prop
  | .functor (.sendInLoop ..) _ =>
    .shutdownWrite ∈ s.run.effects → s.run.conn.state_ = .kDisconnected
  | _ => True

/-- The half-close together with what leads to it: a `shutdownInLoop` in the queue,
or about to be queued, finds the connection no longer connected. -/
structure Ending (s : ConnectionSystem) : Prop where
  established : .connectEstablished ∉ s.queue
  halfClosed : HalfClosed s.run
  queued : .shutdownInLoop ∈ s.queue → s.run.conn.state_ ≠ .kConnected
  stored : ∀ t, s.users t = .shutDownStored → s.run.conn.state_ ≠ .kConnected

/-- An established connection does not become connected again. -/
theorem Step.not_connected {s s' : ConnectionSystem} {a : ServiceAction} (h : Step s a s')
    (he : .connectEstablished ∉ s.queue) (hst : s.run.conn.state_ ≠ .kConnected) :
    s'.run.conn.state_ ≠ .kConnected := by
  rcases h.run_cases with hr | ⟨op, hop, hr⟩ | ⟨-, -, hr⟩ <;> rw [hr]
  · exact hst
  · intro hc
    rcases s.run.conn.exec_connected hc with rfl | hc
    · exact he hop.established
    · exact hst hc
  · rw [ConnRun.conn_exec, TcpConnection.exec, TcpConnection.shutdownInLoop_conn]
    simp [ConnRun.exec, TcpConnection.setState]

theorem ending_step {s s' : ConnectionSystem} {a : ServiceAction} (hs : Ending s)
    (h : Step s a s') (hQ : LateSendsRefused s a) : Ending s' := by
  obtain ⟨he, hhalf, hqueued, hstored⟩ := hs
  have hnot : s.run.conn.state_ ≠ .kConnected → s'.run.conn.state_ ≠ .kConnected :=
    h.not_connected he
  refine ⟨h.established he, ?_, ?_, ?_⟩
  · rcases h.run_cases with hr | ⟨op, hop, hr⟩ | ⟨-, -, hr⟩ <;> rw [hr]
    · exact hhalf
    · refine hhalf.exec op ?_ ?_ ?_
      · rintro rfl
        exact absurd hop.established he
      · rintro ⟨data, wa, rfl⟩ hs
        rcases hop.send with ⟨buf, len, contents, rfl⟩ | hst
        · exact hQ hs
        · exact absurd hst (hhalf.not_connected hs)
      · rintro rfl
        exact hqueued hop.shutdown
    · refine (hhalf.exec .setDisconnecting ?_ ?_ ?_).exec .shutdownInLoop ?_ ?_ ?_ <;>
        simp [TcpConnection.setState]
  · intro hf
    rcases h.mem_queue hf with hf | (⟨n, hf⟩ | ⟨hf, -⟩) | ⟨t, _, _, _, hf, -⟩ | ⟨t, -, ht⟩
    · exact hnot (hqueued hf)
    · cases hf
    · cases hf
    · cases hf
    · exact hnot (hstored t ht)
  · intro t ht
    rcases h.stored ht with ht | ht
    · exact hnot (hstored t ht)
    · rw [ht]
      simp

variable (tid : Tid) (name : String) (fd : Int) (writeComplete highWaterMark : Bool)
  (memory : Memory UInt8)

/-- **No write after the half-close**, in every run, under every interleaving, in
which no queued `sendInLoop` slips in behind the half-close. -/
theorem no_write_after_half_close {as : List ServiceAction} {s : ConnectionSystem}
    (h : Run (Meeting Step LateSendsRefused)
      (accepted tid (TcpConnection.new name fd writeComplete highWaterMark) memory) as s) :
    NoWriteAfterShutdown s.run.effects := by
  have hcases := untouched_or Ending h ?_ fun _ _ _ hs hstep hQ => ending_step hs hstep hQ
  · rcases hcases with hu | hs
    · rw [hu.run]
      exact List.Pairwise.nil
    · exact hs.halfClosed.no_write
  · intro s hs
    have heffects : .shutdownWrite ∉ s.run.effects := by
      rw [hs.run, ConnRun.effects_exec, new_connectEstablished_effects]
      simp [ConnRun.effects]
    refine ⟨by simp [hs.queue], ⟨?_, ?_, ?_⟩, by simp [hs.queue], by simp [hs.users]⟩
    · rw [hs.run, ConnRun.effects_exec]
      exact noWrite_exec _ _
    · exact fun h => absurd h heffects
    · exact fun h => absurd h heffects

/-- Thread 1 sends before the loop's thread shuts the connection down: the message
goes out before the half-close. -/
theorem send_before_half_close : ∃ as, ∃ s : ConnectionSystem,
    Run (Meeting Step LateSendsRefused)
        (accepted 0 (TcpConnection.new "conn" 5 false false) fun _ => some 104) as s ∧
      .shutdownWrite ∈ s.run.effects ∧ s.run.accepted = [104] ∧
      NoWriteAfterShutdown s.run.effects := by
  have hstart : Run (Meeting Step LateSendsRefused)
      (accepted 0 (TcpConnection.new "conn" 5 false false) fun _ => some 104) [] _ := .refl
  have hrun := hstart
    |>.meet (.swap rfl) trivial
    |>.meet (.connectEstablished (a := .accept 0) rfl) trivial
    |>.meet (.sendCheck (t := 1) (by decide) rfl rfl 7 1 [104] rfl) trivial
    |>.meet (.sendQueue (t := 1) (by decide) rfl) trivial
    |>.meet (.endBatch rfl) trivial
    |>.meet (.swap rfl) trivial
    |>.meet (.sendInLoop rfl [104] (.accept 1) (by intro bytes h; cases h; rfl))
      (fun h => absurd h (by decide))
    |>.meet (.shutdownHere rfl rfl) trivial
  exact ⟨_, _, hrun, by decide, by decide,
    no_write_after_half_close 0 "conn" 5 false false _ hrun⟩

/-- Thread 1 passes the test of `send`; the loop's thread shuts the connection
down; the functor thread 1 queues then writes behind the half-close. -/
theorem send_behind_half_close : ∃ as, ∃ s : ConnectionSystem,
    Run Step (accepted 0 (TcpConnection.new "conn" 5 false false) fun _ => some 104) as s ∧
      ¬ NoWriteAfterShutdown s.run.effects := by
  have hstart : Run Step
      (accepted 0 (TcpConnection.new "conn" 5 false false) fun _ => some 104) [] _ := .refl
  have hrun := hstart
    |>.tail (.swap rfl)
    |>.tail (.connectEstablished (a := .accept 0) rfl)
    |>.tail (.sendCheck (t := 1) (by decide) rfl rfl 7 1 [104] rfl)
    |>.tail (.shutdownHere rfl rfl)
    |>.tail (.sendQueue (t := 1) (by decide) rfl)
    |>.tail (.endBatch rfl)
    |>.tail (.swap rfl)
    |>.tail (.sendInLoop rfl [104] (.accept 1) (by intro bytes h; cases h; rfl))
  refine ⟨_, _, hrun, ?_⟩
  rw [NoWriteAfterShutdown, List.pairwise_iff_getElem]
  intro h
  exact h 3 4 (by decide) (by decide) (by decide) (by decide) 1 [104] (by decide)

end ConnectionSystem

/-! ## What the half-close finds

`shutdownInLoop` asks `isWriting()` and not the buffer.  That is enough: as long as the
connection is open, bytes that wait are bytes somebody has entered writing mode for, and
nothing but closing leaves it again.
-/

namespace ConnRun
variable (r : ConnRun)

/-- While the connection is open, it is in writing mode whenever bytes wait. -/
def WaitingMeansWriting : Prop :=
  ¬ r.Closed → r.conn.outputBuffer_.readable ≠ [] → r.conn.channel_.isWriting = true

theorem WaitingMeansWriting.exec {r : ConnRun} (h : r.WaitingMeansWriting) (op : ConnOp) :
    (r.exec op).WaitingMeansWriting := by
  intro hopen hwaits
  have hold := h fun hc => hopen (r.closed_mono op hc)
  cases op with
  | sendInLoop data a =>
    rw [conn_exec, TcpConnection.exec] at hwaits ⊢
    obtain ⟨rest, hread, ⟨rfl, hw⟩ | ⟨-, hw⟩⟩ := r.conn.sendInLoop_readable data a
    · rw [hread, List.append_nil] at hwaits
      rw [hw]
      exact hold hwaits
    · exact hw
  | handleWrite a =>
    have hread := r.conn.handleWrite_readable a
    rw [conn_exec, TcpConnection.exec] at hwaits ⊢
    rw [r.conn.handleWrite_spec a]
    refine hold fun hnil => hwaits ?_
    rw [hread, hnil]
    simp
  | _ =>
    obtain ⟨-, hbuffer, hw⟩ := r.exec_other _ (by simp) (by simp) hopen
    rw [conn_exec, hbuffer] at hwaits
    rw [conn_exec, hw]
    exact hold hwaits

/-- **What the half-close finds**: an empty buffer. -/
theorem WaitingMeansWriting.shutdownWrite {r : ConnRun} (h : r.WaitingMeansWriting)
    (hopen : ¬ r.Closed) {op : ConnOp} (hs : .shutdownWrite ∈ (r.conn.exec op).2) :
    r.conn.outputBuffer_.readable = [] := by
  rcases r.conn.exec_writeSide hs trivial with ⟨-, -, hw⟩ | ⟨⟨n, bs, he⟩, -⟩
  · by_contra hwaits
    rw [h hopen hwaits] at hw
    cases hw
  · cases he

end ConnRun

namespace ConnectionSystem
variable {tid : Tid} {name : String} {fd : Int} {writeComplete highWaterMark : Bool}
  {memory : Memory UInt8} {as : List ServiceAction} {s s' : ConnectionSystem} {a : ServiceAction}

theorem waitingMeansWriting_run (h : Run Step
    (accepted tid (TcpConnection.new name fd writeComplete highWaterMark) memory) as s) :
    s.run.WaitingMeansWriting := by
  refine @Run.invariant _ _ _ _ _ (fun s => s.run.WaitingMeansWriting) _ h ?_
    fun s a s' hs hstep => ?_
  · exact fun _ hwaits => absurd SoundBuffer.readable_new hwaits
  · rcases hstep.run_cases with hr | ⟨op, -, hr⟩ | ⟨-, -, hr⟩ <;> rw [hr]
    · exact hs
    · exact hs.exec op
    · exact (hs.exec _).exec _

/-- **Half-close never cuts off buffered data.**  In every run, a step that issues `SHUT_WR`
on an open connection finds nothing in `outputBuffer_`. -/
theorem half_close_finds_empty (h : Run Step
      (accepted tid (TcpConnection.new name fd writeComplete highWaterMark) memory) as s)
    (hstep : Step s a s') (hissues : s.run.effects.count .shutdownWrite <
      s'.run.effects.count .shutdownWrite) (hopen : ¬ s.run.Closed) :
    s.run.conn.outputBuffer_.readable = [] := by
  have hs := waitingMeansWriting_run h
  rcases hstep.run_cases with hr | ⟨op, -, hr⟩ | ⟨-, -, hr⟩ <;> rw [hr] at hissues
  · exact absurd hissues (Nat.lt_irrefl _)
  · rw [ConnRun.effects_exec, List.count_append] at hissues
    have hpos : 0 < (s.run.conn.exec op).2.count .shutdownWrite := by omega
    exact hs.shutdownWrite hopen (List.count_pos_iff.mp hpos)
  · -- the store comes first, and leaves the buffer alone
    have hopen' : ¬ (s.run.exec .setDisconnecting).Closed := by
      rw [ConnRun.closed_exec]
      simpa using hopen
    rw [ConnRun.effects_exec, List.count_append, ConnRun.effects_exec, List.count_append,
      TcpConnection.exec_setDisconnecting, List.count_nil] at hissues
    have hpos : 0 < ((s.run.exec .setDisconnecting).conn.exec .shutdownInLoop).2.count
        .shutdownWrite := by omega
    exact (hs.exec .setDisconnecting).shutdownWrite hopen' (List.count_pos_iff.mp hpos)

/-- A send that the kernel takes whole, and then a shutdown, both on the loop's thread. -/
theorem half_close_finds_empty_at_once : ∃ as a, ∃ s s' : ConnectionSystem,
    Run Step (accepted 0 (TcpConnection.new "conn" 5 false false) fun _ => some 104) as s ∧
      Step s a s' ∧ .write 2 [104, 105] ∈ s.run.effects ∧ .shutdownWrite ∈ s'.run.effects ∧
        s.run.conn.outputBuffer_.readable = [] := by
  have hstart : Run Step
      (accepted 0 (TcpConnection.new "conn" 5 false false) fun _ => some 104) [] _ := .refl
  have hrun := hstart
    |>.tail (.swap rfl)
    |>.tail (.connectEstablished (a := .accept 0) rfl)
    |>.tail (.sendHere rfl rfl [104, 105] (.accept 2))
  refine ⟨_, .shutdownHere, _, _, hrun, .shutdownHere rfl rfl, by decide, by decide, ?_⟩
  refine half_close_finds_empty hrun (.shutdownHere rfl rfl) (by decide) ?_
  rw [run_perform, ConnRun.closed_sendInLoop]
  rintro (hc | ⟨l, hc⟩)
  · exact absurd hc (by decide)
  · have hop : ConnOp.connectDestroyed l = .connectEstablished := List.mem_singleton.mp hc
    cases hop

end ConnectionSystem
end Mymuduo
