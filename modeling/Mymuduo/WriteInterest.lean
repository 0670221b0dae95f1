import Mymuduo.ConnectionRun

/-! # Write interest and the half-close

`isWriting()` is meant to say that `outputBuffer_` has bytes to flush: the loop
polls for writability while it holds, `shutdownInLoop` defers the half-close on
it, and `handleWrite` completes the deferred half-close when it drains the
buffer.  `sendInLoop` sets it whenever it buffers anything.  Nothing clears it:
`handleWrite` never calls `disableWriting`, although `Channel` has it.

So the equivalence holds exactly until a flush drains the buffer
(`interest_matches_iff_no_drain`), and a deferred half-close is never issued:
`handleWrite` runs its body in writing mode only, where `shutdownInLoop` does
nothing (`handleWrite_no_shutdownWrite`).  A shutdown is completed exactly when
no drain comes between the first buffered byte and the half-close
(`shutdown_completes_iff`).
-/
namespace Mymuduo
namespace ConnRun
open Transition

/-! ## `isWriting()` and `readableBytes()` -/

/-- While the connection is open, its channel is in writing mode exactly when
`outputBuffer_` has readable bytes. -/
def InterestMatches (r : ConnRun) : Prop :=
  ¬ r.Closed → (r.conn.channel_.isWriting = true ↔ 0 < r.conn.outputBuffer_.readableBytes)

/-- `handleWrite` in writing mode does not drain `outputBuffer_`: the kernel takes
nothing, or fewer bytes than are readable. -/
def NoDrain (r : ConnRun) : ConnOp → Prop
  | .handleWrite a => r.Closed ∨ (r.conn.channel_.isWriting = true →
      r.conn.flushed a = 0 ∨ r.conn.flushed a < r.conn.outputBuffer_.readableBytes)
  | _ => True

variable (r : ConnRun)

/-- What is readable after a flush in writing mode. -/
theorem readableBytes_handleWrite (a : WriteAnswer) (hw : r.conn.channel_.isWriting = true) :
    (r.exec (.handleWrite a)).conn.outputBuffer_.readableBytes =
      r.conn.outputBuffer_.readableBytes - r.conn.flushed a := by
  have hr := r.conn.handleWrite_readable a
  rw [hw, if_pos rfl] at hr
  rw [SoundBuffer.readableBytes_eq, SoundBuffer.readableBytes_eq, conn_exec, TcpConnection.exec,
    hr, List.length_drop]

/-- `handleWrite` never leaves writing mode. -/
theorem isWriting_handleWrite (a : WriteAnswer) :
    (r.exec (.handleWrite a)).conn.channel_.isWriting = r.conn.channel_.isWriting := by
  rw [conn_exec, TcpConnection.exec, r.conn.handleWrite_spec a]

/-- Outside writing mode `handleWrite` changes nothing. -/
theorem conn_handleWrite_of_not_writing (a : WriteAnswer)
    (hw : r.conn.channel_.isWriting = false) : (r.exec (.handleWrite a)).conn = r.conn := by
  rcases r.conn.handleWrite_cases a with ⟨-, text, h⟩ | ⟨hw', -⟩ | ⟨hw', -⟩
  · rw [conn_exec, TcpConnection.exec, h]
  all_goals rw [hw] at hw'; cases hw'

/-- **One step.**  The equivalence survives an operation exactly when it does not
drain the buffer. -/
theorem interest_exec_iff {op : ConnOp} (hr : r.InterestMatches) :
    (r.exec op).InterestMatches ↔ r.NoDrain op := by
  unfold InterestMatches at hr ⊢
  by_cases hopen : (r.exec op).Closed
  · refine iff_of_true (fun h => absurd hopen h) ?_
    cases op with
    | handleWrite a => exact Or.inl ((r.closed_handleWrite a).mp hopen)
    | _ => trivial
  have hopen' : ¬ r.Closed := fun h => hopen (r.closed_mono op h)
  have hold := hr hopen'
  simp only [hopen, not_false_eq_true, forall_const]
  cases op with
  | sendInLoop data a =>
    refine iff_of_true ?_ trivial
    rw [SoundBuffer.readableBytes_eq] at hold
    rw [SoundBuffer.readableBytes_eq, conn_exec, TcpConnection.exec]
    obtain ⟨rest, hread, ⟨hrest, hw⟩ | ⟨hrest, hw⟩⟩ := r.conn.sendInLoop_readable data a
    · rw [hread, hw, hrest, List.append_nil]
      exact hold
    · rw [hread, hw, List.length_append]
      have := List.length_pos_iff.mpr hrest
      exact iff_of_true rfl (by omega)
  | handleWrite a =>
    simp only [NoDrain, hopen', false_or]
    cases hw : r.conn.channel_.isWriting with
    | false =>
      rw [r.conn_handleWrite_of_not_writing a hw]
      exact iff_of_true hold (by simp)
    | true =>
      have hpos := hold.mp hw
      rw [r.readableBytes_handleWrite a hw, r.isWriting_handleWrite a, hw]
      simp only [true_iff, forall_const]
      omega
  | _ =>
    obtain ⟨-, h2, h3⟩ := r.exec_other _ (by simp) (by simp) hopen
    rw [conn_exec, h2, h3]
    exact iff_of_true hold trivial

variable (name : String) (fd : Int) (writeComplete highWaterMark : Bool)

theorem interestMatches_established :
    (established name fd writeComplete highWaterMark).InterestMatches := by
  intro _
  obtain ⟨-, -, h3, h4, -⟩ := established_spec name fd writeComplete highWaterMark
  rw [h3, h4]
  exact iff_of_false (by simp) (by decide)

/-- **Write interest matches pending output** in every state of a run exactly when
no flush of the run drains `outputBuffer_`. -/
theorem interest_matches_iff_no_drain (ops : List ConnOp) :
    Always exec InterestMatches (established name fd writeComplete highWaterMark) ops ↔
      Along exec NoDrain (established name fd writeComplete highWaterMark) ops :=
  always_iff_along (fun _ => True) (fun _ => True) trivial
    (interestMatches_established name fd writeComplete highWaterMark)
    (fun _ _ _ _ => trivial) (fun t _ _ _ => t.interest_exec_iff) ops (fun _ _ => trivial)

/-- One byte that had to wait is flushed, and the channel stays in writing mode
over an empty buffer. -/
theorem interest_matches_fails :
    ¬ InterestMatches ([.sendInLoop [104] (.accept 0), .handleWrite (.accept 1)].foldl exec
      (established "conn" 5 false false)) := by
  intro h
  have hopen : ¬ (([.sendInLoop [104] (.accept 0), .handleWrite (.accept 1)] :
      List ConnOp).foldl exec (established "conn" 5 false false)).Closed := by
    rw [List.foldl_cons, List.foldl_cons, List.foldl_nil, closed_handleWrite, closed_sendInLoop]
    rintro (hc | ⟨l, hc⟩)
    · exact absurd hc (by decide)
    · simp [established, ops, exec] at hc
  exact absurd (h hopen) (by decide +kernel)

/-! ## The half-close -/

/-- Once `shutdownInLoop` has run and nothing is left to send, `SHUT_WR` has been
issued. -/
def ShutdownComplete (r : ConnRun) : Prop :=
  .shutdownInLoop ∈ r.ops → r.conn.outputBuffer_.readableBytes = 0 →
    .shutdownWrite ∈ r.effects

/-- The half-close is not stranded by this step: `shutdownInLoop` does not find the
channel in writing mode over a buffer already drained, and once it has run a
flush does not drain the buffer. -/
def NotStranded (r : ConnRun) : ConnOp → Prop
  | .shutdownInLoop => .shutdownWrite ∈ r.effects ∨ r.conn.channel_.isWriting = false ∨
      0 < r.conn.outputBuffer_.readableBytes
  | .handleWrite a => .shutdownWrite ∈ r.effects ∨ .shutdownInLoop ∉ r.ops ∨
      r.conn.channel_.isWriting = false ∨ r.conn.flushed a = 0 ∨
      r.conn.flushed a < r.conn.outputBuffer_.readableBytes
  | _ => True

/-- **`handleWrite` never half-closes**: it acts in writing mode only, and there
`shutdownInLoop` does nothing. -/
theorem handleWrite_no_shutdownWrite (a : WriteAnswer) :
    .shutdownWrite ∉ (r.conn.handleWrite a).2 :=
  fun h => (r.conn.handleWrite_effects a h).1

/-- **One step.**  A shutdown that is on its way stays so exactly when the step does
not strand it. -/
theorem complete_exec_iff {op : ConnOp} (hr : r.ShutdownComplete) :
    (r.exec op).ShutdownComplete ↔ r.NotStranded op := by
  unfold ShutdownComplete at hr ⊢
  rw [ops_exec, effects_exec, conn_exec]
  by_cases hshut : Effect.shutdownWrite ∈ r.effects
  · refine iff_of_true (fun _ _ => List.mem_append_left _ hshut) ?_
    cases op <;> first | trivial | exact Or.inl hshut
  simp only [List.mem_append, List.mem_singleton, hshut, false_or]
  cases op with
  | sendInLoop data a =>
    refine iff_of_true (fun hran hempty => absurd (hr (hran.resolve_right (by simp)) ?_) hshut)
      trivial
    obtain ⟨rest, hread, -⟩ := r.conn.sendInLoop_readable data a
    rw [SoundBuffer.readableBytes_eq, TcpConnection.exec, hread, List.length_append] at hempty
    rw [SoundBuffer.readableBytes_eq]
    omega
  | handleWrite a =>
    simp only [NotStranded, hshut, false_or, TcpConnection.exec, r.handleWrite_no_shutdownWrite a,
      reduceCtorEq, or_false, imp_false]
    rw [Classical.or_iff_not_imp_left, not_not]
    refine imp_congr_right fun hran => ?_
    have hpos : 0 < r.conn.outputBuffer_.readableBytes :=
      Nat.pos_of_ne_zero fun h0 => hshut (hr hran h0)
    cases hw : r.conn.channel_.isWriting with
    | false =>
      have hsame := r.conn_handleWrite_of_not_writing a hw
      rw [conn_exec, TcpConnection.exec] at hsame
      rw [hsame]
      exact iff_of_true (by omega) (Or.inl rfl)
    | true =>
      have hdrop := r.readableBytes_handleWrite a hw
      rw [conn_exec, TcpConnection.exec] at hdrop
      rw [hdrop]
      simp only [reduceCtorEq, false_or]
      omega
  | shutdownInLoop =>
    simp only [NotStranded, hshut, false_or, TcpConnection.exec, or_true, forall_const,
      TcpConnection.shutdownInLoop_conn]
    unfold TcpConnection.shutdownInLoop
    cases r.conn.channel_.isWriting <;> simp [Nat.pos_iff_ne_zero]
  | _ =>
    rw [r.conn.other_outputBuffer (by simp) (by simp)]
    exact iff_of_true
      (fun hran hempty => absurd (hr (hran.resolve_right (by simp)) hempty) hshut) trivial

theorem open_established : ¬ (established name fd writeComplete highWaterMark).Closed := by
  rintro (hc | ⟨l, hc⟩)
  · simp [established, effects, exec, TcpConnection.exec, TcpConnection.connectEstablished,
      TcpConnection.onChannel] at hc
  · simp [established, ops, exec] at hc

theorem shutdownComplete_established :
    (established name fd writeComplete highWaterMark).ShutdownComplete := by
  intro hran
  simp [established, ops, exec] at hran

/-- **Graceful shutdown completes** in every state of a run, whatever else happens in it,
exactly when none of its steps strands the half-close. -/
theorem shutdown_completes_iff (ops : List ConnOp) :
    Always exec ShutdownComplete (established name fd writeComplete highWaterMark) ops ↔
      Along exec NotStranded (established name fd writeComplete highWaterMark) ops :=
  always_iff_along (fun _ => True) (fun _ => True) trivial
    (shutdownComplete_established name fd writeComplete highWaterMark)
    (fun _ _ _ _ => trivial) (fun t _ _ _ => t.complete_exec_iff) ops (fun _ _ => trivial)

/-- A message that goes out in one write leaves the half-close to `shutdownInLoop`. -/
theorem shutdown_completes_after_direct_write :
    Always exec ShutdownComplete (established "conn" 5 false false)
      [.sendInLoop [104] (.accept 1), .setDisconnecting, .shutdownInLoop] := by
  refine (shutdown_completes_iff "conn" 5 false false _).mpr ?_
  refine (along_concat [_, _] _).mpr ⟨(along_concat [_] _).mpr
    ⟨(along_concat [] _).mpr ⟨along_nil, trivial⟩, trivial⟩, ?_⟩
  exact Or.inr (Or.inl (by decide +kernel))

/-- A byte that had to wait, a shutdown, and the flush that drains the buffer: the
write side stays open. -/
theorem shutdown_completes_fails :
    ¬ ShutdownComplete ([.sendInLoop [104] (.accept 0), .setDisconnecting, .shutdownInLoop,
      .handleWrite (.accept 1)].foldl exec (established "conn" 5 false false)) := by
  intro h
  exact absurd (h (by decide) (by decide +kernel)) (by decide +kernel)

end ConnRun
end Mymuduo
