import Mymuduo.ConnectionRun
import Mymuduo.Lib.Fifo

/-! # The outbound stream

A connection sends the concatenation of the messages passed to `sendInLoop`, in
the order the calls execute.  Bytes leave on two paths: the direct write of
`sendInLoop`, and `handleWrite`, which drains `outputBuffer_`.  Seen from outside
the connection is a byte queue: its ledger (`ConnRun.ledger`) is what the kernel
has taken, followed by the readable bytes of `outputBuffer_`; sending pushes the
message and takes what the direct write took, flushing only takes.

That is what the code does as long as `handleWrite` takes no more than the
readable bytes.  But the region `Buffer::writeFd` offers starts at `peek()` and
has `writableBytes()` cells, not `readableBytes()`: a kernel that accepts more
than is readable is given cells behind `writerIndex_` (stale bytes of earlier
messages, or the vector's zeros), and `intact_exec_iff` shows that the stream is
then broken for good.

Where the kernel does more than accept or block, there is one other way to break it:
`sendInLoop` gives a message up over `EPIPE` or `ECONNRESET`, and closes nothing.
-/
namespace Mymuduo
namespace ConnRun
open Transition

/-- The connection as a byte queue. -/
def ledger (r : ConnRun) : Fifo UInt8 := ⟨r.accepted, r.conn.outputBuffer_.readable⟩

/-- While the connection is open, what the kernel has taken and what still waits
are together exactly the messages sent. -/
def StreamIntact (r : ConnRun) : Prop :=
  ¬ r.Closed → r.accepted ++ r.conn.outputBuffer_.readable = r.messages

/-- `handleWrite` in writing mode hands over no more than the readable bytes: the
kernel, offered `writableBytes()` bytes, accepts at most `readableBytes()`. -/
def FlushWithinReadable (r : ConnRun) : ConnOp → Prop
  | .handleWrite a => r.Closed ∨ (r.conn.channel_.isWriting = true →
      r.conn.flushed a ≤ r.conn.outputBuffer_.readableBytes)
  | _ => True

/-- The message of a `sendInLoop` is not given up: there is none, or the write is not tried, or
it does not fail with an error over which `sendInLoop` drops what it was called with. -/
def MessageKept (r : ConnRun) : ConnOp → Prop
  | .sendInLoop data a => r.Closed ∨ data = [] ∨ (r.conn.Idle → ¬ a.GivesUp)
  | _ => True

variable (r : ConnRun)

theorem messageKept_of_graceful {op : ConnOp} (h : op.Graceful) : r.MessageKept op := by
  cases op with
  | sendInLoop data a => exact Or.inr (Or.inr fun _ => WriteAnswer.Graceful.not_givesUp h)
  | _ => trivial

theorem streamIntact_iff : r.StreamIntact ↔ (¬ r.Closed → r.ledger.all = r.messages) := Iff.rfl

/-- A split of a queue's contents is a take. -/
theorem ledger_eq_take {q : Fifo UInt8} {xs ys : List UInt8} (h : xs ++ ys = q.waiting) :
    (⟨q.done ++ xs, ys⟩ : Fifo UInt8) = q.take xs.length := by
  simp [Fifo.take, ← h]

/-- **Sending is a push followed by a take.** -/
theorem ledger_sendInLoop (data : List UInt8) {a : WriteAnswer}
    (hst : r.conn.state_ ≠ .kDisconnected) (hf : (r.conn.directWrite data a).2.1 = false) :
    ∃ n, (r.exec (.sendInLoop data a)).ledger = (r.ledger.push data).take n := by
  refine ⟨(acceptedBytes (r.conn.sendInLoop data a).2).length, ?_⟩
  rw [← ledger_eq_take (r.conn.sendInLoop_stream_of_no_fault data a hst hf), ledger, accepted_exec]
  rfl

/-- A message that is given up goes nowhere. -/
theorem ledger_sendInLoop_of_fault (data : List UInt8) {a : WriteAnswer}
    (hst : r.conn.state_ ≠ .kDisconnected) (hf : (r.conn.directWrite data a).2.1 = true) :
    (r.exec (.sendInLoop data a)).ledger = r.ledger := by
  have hnone : acceptedBytes (r.conn.sendInLoop data a).2 = [] := by
    rw [r.conn.acceptedBytes_sendInLoop data a hst]
    cases a with
    | accept k => cases (r.conn.directWrite_accept_fault data k).symm.trans hf
    | fail e logged => rw [(r.conn.directWrite_fail data e logged).1, List.take_zero]
  rw [ledger, accepted_exec, conn_exec, TcpConnection.exec, hnone, List.append_nil,
    r.conn.sendInLoop_of_fault data a hf]
  rfl

/-- **A message arrives** in the ledger, unless it is given up. -/
theorem sendInLoop_arrives_iff (data : List UInt8) {a : WriteAnswer}
    (hst : r.conn.state_ ≠ .kDisconnected) :
    (r.exec (.sendInLoop data a)).ledger.all = r.ledger.all ++ data ↔
      data = [] ∨ (r.conn.Idle → ¬ a.GivesUp) := by
  rw [← not_and, ← r.conn.directWrite_fault_iff data a, Bool.not_eq_true]
  cases hf : (r.conn.directWrite data a).2.1 with
  | false =>
    obtain ⟨n, hn⟩ := r.ledger_sendInLoop data hst hf
    simp [hn]
  | true => simp [r.ledger_sendInLoop_of_fault data hst hf]

/-- The bytes `handleWrite` gives the kernel are the first cells of the region
offered. -/
theorem accepted_handleWrite (a : WriteAnswer) :
    acceptedBytes (r.conn.handleWrite a).2 = if r.conn.channel_.isWriting then
      (r.conn.outputBuffer_.peek r.conn.outputBuffer_.writableBytes).take (r.conn.flushed a)
    else [] := by
  rcases r.conn.handleWrite_cases a with ⟨hw, text, h⟩ | ⟨hw, h0, h⟩ | ⟨hw, -, h⟩ <;> rw [h, hw]
  · rfl
  · simp [h0, acceptedBytes]
  · have hrest : acceptedBytes (r.conn.afterWrite (r.conn.flushed a)).2 = [] := by
      refine acceptedBytes_eq_nil fun n bs hmem => ?_
      rcases TcpConnection.afterWrite_effects _ hmem with ⟨m, hm⟩ | ⟨hm, -⟩ <;> cases hm
    simp [hrest]

/-- **Flushing is a take**, within the readable bytes. -/
theorem ledger_handleWrite {a : WriteAnswer} (hw : r.conn.channel_.isWriting = true)
    (hq : r.conn.flushed a ≤ r.conn.outputBuffer_.readableBytes) :
    (r.exec (.handleWrite a)).ledger = r.ledger.take (r.conn.flushed a) := by
  have hr := r.conn.handleWrite_readable a
  have ha := r.accepted_handleWrite a
  rw [hw, if_pos rfl] at hr ha
  rw [Buffer.take_peek r.conn.outputBuffer_.inv (r.conn.flushed_le a) hq] at ha
  rw [ledger, accepted_exec, conn_exec, TcpConnection.exec, ha, hr]
  rfl

/-- Past the readable bytes, more has left the connection than was ever sent. -/
theorem length_ledger_handleWrite {a : WriteAnswer} (hw : r.conn.channel_.isWriting = true)
    (hq : r.conn.outputBuffer_.readableBytes < r.conn.flushed a) :
    r.ledger.all.length < (r.exec (.handleWrite a)).ledger.all.length := by
  have ha := r.accepted_handleWrite a
  rw [hw, if_pos rfl] at ha
  have hlen : (acceptedBytes (r.conn.handleWrite a).2).length = r.conn.flushed a := by
    rw [ha, List.length_take, Buffer.length_peek_writableBytes r.conn.outputBuffer_.inv]
    exact Nat.min_eq_left (r.conn.flushed_le a)
  rw [SoundBuffer.readableBytes_eq] at hq
  simp only [Fifo.all, ledger, accepted_exec, TcpConnection.exec, List.length_append, hlen]
  omega

/-- **One step.**  From an intact stream, an operation leaves an intact stream exactly when
it is no flush past the readable bytes and gives no message up. -/
theorem intact_exec_iff {op : ConnOp} (hlive : r.Live) (hr : r.StreamIntact) :
    (r.exec op).StreamIntact ↔ r.FlushWithinReadable op ∧ r.MessageKept op := by
  rw [streamIntact_iff] at hr ⊢
  by_cases hopen : (r.exec op).Closed
  · refine iff_of_true (fun h => absurd hopen h) ?_
    cases op with
    | sendInLoop data a => exact ⟨trivial, Or.inl ((r.closed_sendInLoop data a).mp hopen)⟩
    | handleWrite a => exact ⟨Or.inl ((r.closed_handleWrite a).mp hopen), trivial⟩
    | _ => exact ⟨trivial, trivial⟩
  have hopen' : ¬ r.Closed := fun h => hopen (r.closed_mono op h)
  have hall := hr hopen'
  simp only [hopen, not_false_eq_true, forall_const, messages_exec, ← hall]
  cases op with
  | sendInLoop data a =>
    simp only [FlushWithinReadable, MessageKept, hopen', false_or, true_and, ConnOp.message]
    exact r.sendInLoop_arrives_iff data (hlive hopen')
  | handleWrite a =>
    simp only [FlushWithinReadable, MessageKept, hopen', false_or, and_true, ConnOp.message,
      List.append_nil]
    cases hw : r.conn.channel_.isWriting with
    | false =>
      have ha := r.accepted_handleWrite a
      have hread := r.conn.handleWrite_readable a
      rw [hw, if_neg (by simp)] at ha hread
      simp [ledger, TcpConnection.exec, ha, hread]
    | true =>
      simp only [forall_const]
      constructor
      · intro heq
        refine Nat.le_of_not_lt fun hlt => ?_
        have hlen := r.length_ledger_handleWrite hw hlt
        rw [heq] at hlen
        exact Nat.lt_irrefl _ hlen
      · intro hq
        rw [r.ledger_handleWrite hw hq, Fifo.all_take]
  | _ =>
    obtain ⟨h1, h2, -⟩ := r.exec_other _ (by simp) (by simp) hopen
    simp only [ledger, accepted_exec, conn_exec, h1, h2, ConnOp.message, List.append_nil,
      FlushWithinReadable, MessageKept, and_true]

variable (name : String) (fd : Int) (writeComplete highWaterMark : Bool)

theorem streamIntact_established :
    (established name fd writeComplete highWaterMark).StreamIntact := by
  intro _
  obtain ⟨h1, h2, h3, -⟩ := established_spec name fd writeComplete highWaterMark
  rw [h1, h2, h3]
  exact SoundBuffer.readable_new

/-- **Outbound stream integrity.**  In a run of a connection over a kernel whose
writes are partial or would block, the stream is intact in every state exactly
when every flush stays within the readable bytes. -/
theorem stream_intact_iff_flush_within_readable (ops : List ConnOp)
    (hops : ∀ op ∈ ops, op.Graceful) :
    Always exec StreamIntact (established name fd writeComplete highWaterMark) ops ↔
      Along exec FlushWithinReadable (established name fd writeComplete highWaterMark) ops :=
  always_iff_along Live ConnOp.Graceful
    (live_established name fd writeComplete highWaterMark)
    (streamIntact_established name fd writeComplete highWaterMark)
    (fun t op _ => t.live_exec op)
    (fun t _ hop hlive hintact =>
      (t.intact_exec_iff hlive hintact).trans (and_iff_left (t.messageKept_of_graceful hop)))
    ops hops

/-- A message that had to wait and is flushed to its last byte arrives intact. -/
theorem stream_intact_after_exact_flush :
    Always exec StreamIntact (established "conn" 5 false false)
      [.sendInLoop [104, 105] (.fail .EWOULDBLOCK .EWOULDBLOCK), .handleWrite (.accept 2)] := by
  refine (stream_intact_iff_flush_within_readable "conn" 5 false false _ ?_).mpr ?_
  · simp [ConnOp.Graceful, WriteAnswer.Graceful]
  · refine (along_concat [_] _).mpr ⟨(along_concat [] _).mpr ⟨along_nil, trivial⟩, ?_⟩
    exact Or.inr fun _ => by decide +kernel

/-- Two bytes that had to wait, and a kernel that then accepts everything it is
offered: three bytes leave, the third one never sent. -/
theorem stream_intact_fails :
    ¬ StreamIntact ([.sendInLoop [104, 105] (.fail .EWOULDBLOCK .EWOULDBLOCK),
      .handleWrite (.accept 3)].foldl exec (established "conn" 5 false false)) := by
  intro h
  have hopen : ¬ (([.sendInLoop [104, 105] (.fail .EWOULDBLOCK .EWOULDBLOCK),
      .handleWrite (.accept 3)] : List ConnOp).foldl exec
        (established "conn" 5 false false)).Closed := by
    rw [List.foldl_cons, List.foldl_cons, List.foldl_nil, closed_handleWrite, closed_sendInLoop]
    rintro (hc | ⟨l, hc⟩)
    · exact absurd hc (by decide)
    · simp [established, ops, exec] at hc
  have hlen := congrArg List.length (h hopen)
  exact absurd hlen (by decide +kernel)

end ConnRun
end Mymuduo
