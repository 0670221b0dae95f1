import Mymuduo.Notifications
import Mymuduo.WriteInterest

/-! # Progress of a flush

`handleWrite` offers the kernel `writableBytes()` cells, however many are readable.  A flush
therefore makes progress exactly if the buffer has cells left behind its readable bytes: a
buffer filled to its last cell is offered as a write of nothing, and the write-ready events
that the loop goes on reporting leave it as it is.

A buffer gets there by an append.  `makeSpace` grows the vector to what the append needs and
no further, so every append that grows it fills it; and so does one that takes exactly the
room behind, or exactly all the room there is.
-/
namespace Mymuduo
open Transition

namespace Buffer

/-- An append of `len` bytes leaves cells behind: there is more room than that behind the
readable bytes, or too little there and more than that in all. -/
def LeavesRoom (b : Buffer) (len : Nat) : Prop :=
  len < b.writableBytes ∨
    b.writableBytes < len ∧ len + kCheapPrepend < b.writableBytes + b.prependableBytes

variable {b : Buffer} {len : Nat}

theorem writableBytes_retrieve (h : b.Inv) : b.writableBytes ≤ (b.retrieve len).writableBytes := by
  have hcheap := Nat.le_trans h.cheap_le h.reader_le
  unfold retrieve
  split
  · exact Nat.le_refl _
  · exact Nat.sub_le_sub_left hcheap _

theorem writableBytes_makeSpace (h : b.Inv) (hlen : b.writableBytes < len) :
    (b.makeSpace len).writableBytes =
      if b.writableBytes + b.prependableBytes < len + kCheapPrepend then len
      else b.writableBytes + b.prependableBytes - kCheapPrepend := by
  have hfit := slide_fits h
  obtain ⟨h1, h2, h3⟩ := h
  unfold makeSpace
  split
  · rw [writableBytes, Region.length_resize, Nat.add_sub_cancel_left]
  · rename_i hroom
    simp only [writableBytes, prependableBytes] at hlen hroom ⊢
    rw [Region.length_overwrite hfit, readableBytes]
    omega

/-- **What an append leaves behind the readable bytes.** -/
theorem leavesRoom_iff (h : b.Inv) (data : List UInt8) :
    0 < (b.append data).writableBytes ↔ b.LeavesRoom data.length := by
  obtain ⟨hinv, -, hroom⟩ := ensureWriteableBytes_spec h data.length
  have hstore : (b.append data).writableBytes =
      (b.ensureWriteableBytes data.length).writableBytes - data.length := by
    have hle := hinv.writer_le
    rw [writableBytes] at hroom
    rw [append, store, writableBytes, Region.length_overwrite (by omega), writableBytes,
      Nat.sub_add_eq]
  rw [hstore, LeavesRoom, ensureWriteableBytes]
  split
  · rename_i hlt
    rw [writableBytes_makeSpace h hlt]
    split <;> omega
  · omega

end Buffer

/-- The kernel takes at least one byte of a write that offers any. -/
def WriteAnswer.Takes : WriteAnswer → Prop
  | .accept k => 0 < k
  | .fail .. => False

namespace TcpConnection

/-- The connection after these write-ready events. -/
def flush (c : TcpConnection) (as : List WriteAnswer) : TcpConnection :=
  as.foldl (fun d a => (d.exec (.handleWrite a)).1) c

/-- Every flush of readable bytes leaves fewer, and as many write-ready events as there are
readable bytes leave none. -/
def MakesProgress (c : TcpConnection) : Prop :=
  c.channel_.isWriting = true → 0 < c.outputBuffer_.readableBytes →
    (∀ a : WriteAnswer, a.Takes → (c.exec (.handleWrite a)).1.outputBuffer_.readableBytes <
      c.outputBuffer_.readableBytes) ∧
    ∀ as : List WriteAnswer, (∀ a ∈ as, a.Takes) → as.length = c.outputBuffer_.readableBytes →
      (c.flush as).outputBuffer_.readableBytes = 0

/-- A buffer with something to flush has cells behind its readable bytes. -/
def HasRoom (c : TcpConnection) : Prop :=
  c.channel_.isWriting = true → 0 < c.outputBuffer_.readableBytes →
    0 < c.outputBuffer_.writableBytes

variable {c : TcpConnection} {a : WriteAnswer}

theorem flushed_pos (ha : a.Takes) : 0 < c.flushed a ↔ 0 < c.outputBuffer_.writableBytes := by
  cases a with
  | accept k =>
    have hk : 0 < k := ha
    rw [flushed]
    omega
  | fail e logged => exact ha.elim

theorem readableBytes_flush (hw : c.channel_.isWriting = true) :
    (c.exec (.handleWrite a)).1.outputBuffer_.readableBytes =
      c.outputBuffer_.readableBytes - c.flushed a :=
  ConnRun.readableBytes_handleWrite ⟨c, []⟩ a hw

/-- A flush never takes room away. -/
theorem writableBytes_handleWrite : c.outputBuffer_.writableBytes ≤
    (c.exec (.handleWrite a)).1.outputBuffer_.writableBytes := by
  rw [exec_handleWrite]
  rcases c.handleWrite_cases a with ⟨-, text, h⟩ | ⟨-, -, h⟩ | ⟨-, -, h⟩
  · exact Nat.le_of_eq (by rw [h])
  · exact Nat.le_of_eq (by rw [h])
  · rw [h, afterWrite_spec]
    exact Buffer.writableBytes_retrieve c.outputBuffer_.inv

/-- Without room a flush leaves everything as it is. -/
theorem handleWrite_of_no_room (h0 : c.outputBuffer_.writableBytes = 0) :
    (c.exec (.handleWrite a)).1 = c := by
  have hle := c.flushed_le a
  rw [exec_handleWrite]
  rcases c.handleWrite_cases a with ⟨-, text, h⟩ | ⟨-, -, h⟩ | ⟨-, hpos, -⟩
  · rw [h]
  · rw [h]
  · omega

/-- **With room every event takes a byte**, as long as there are any. -/
theorem readableBytes_flush_le (hw : c.channel_.isWriting = true)
    (hroom : 0 < c.outputBuffer_.writableBytes) (as : List WriteAnswer) (has : ∀ a ∈ as, a.Takes) :
    (c.flush as).outputBuffer_.readableBytes ≤ c.outputBuffer_.readableBytes - as.length := by
  induction as generalizing c with
  | nil => exact Nat.le_refl _
  | cons a as ih =>
    have htakes := (flushed_pos (c := c) (has a List.mem_cons_self)).mpr hroom
    have hw' : (c.exec (.handleWrite a)).1.channel_.isWriting = true :=
      (ConnRun.isWriting_handleWrite ⟨c, []⟩ a).trans hw
    have hrest := ih hw' (Nat.lt_of_lt_of_le hroom writableBytes_handleWrite) fun a' ha' =>
      has a' (List.mem_cons_of_mem a ha')
    rw [readableBytes_flush hw] at hrest
    rw [flush, List.foldl_cons, List.length_cons]
    exact Nat.le_trans hrest (by omega)

/-- **A flush makes progress exactly if there is room behind the readable bytes.** -/
theorem makesProgress_iff : c.MakesProgress ↔ c.HasRoom := by
  refine forall_congr' fun hw => forall_congr' fun hread => ?_
  constructor
  · intro h
    by_contra hroom
    have h0 : c.outputBuffer_.writableBytes = 0 := by omega
    have hone := h.1 (.accept 1) Nat.one_pos
    rw [handleWrite_of_no_room h0] at hone
    exact Nat.lt_irrefl _ hone
  · intro hroom
    refine ⟨fun a ha => ?_, fun as has hlen => ?_⟩
    · have hpos := (flushed_pos (c := c) ha).mpr hroom
      rw [readableBytes_flush hw]
      omega
    · have hle := readableBytes_flush_le hw hroom as has
      omega

/-- What has to wait leaves room behind it, or takes the last cell. -/
theorem hasRoom_bufferRest {rest : List UInt8} (hrest : rest ≠ []) :
    (c.bufferRest rest).1.HasRoom ↔ c.outputBuffer_.LeavesRoom rest.length := by
  have hread : 0 < (c.bufferRest rest).1.outputBuffer_.readableBytes := by
    have hpos := List.length_pos_iff.mpr hrest
    rw [c.bufferRest_readableBytes]
    omega
  rw [← Buffer.leavesRoom_iff c.outputBuffer_.inv rest, HasRoom, c.bufferRest_outputBuffer]
  rw [c.bufferRest_outputBuffer] at hread
  exact ⟨fun h => h (c.bufferRest_isWriting rest) hread, fun h _ _ => h⟩

end TcpConnection

namespace ConnRun

/-- What `sendInLoop` buffers leaves cells behind it. -/
def LeavesRoom (r : ConnRun) : ConnOp → Prop
  | .sendInLoop data a => r.conn.state_ ≠ .kDisconnected →
      (r.conn.directWrite data a).2.1 = false → (r.conn.directWrite data a).1 < data.length →
      r.conn.outputBuffer_.LeavesRoom (data.length - (r.conn.directWrite data a).1)
  | _ => True

variable (r : ConnRun) {op : ConnOp}

/-- **One step.**  Only an append takes the last cell. -/
theorem hasRoom_exec_iff (hr : r.conn.HasRoom) : (r.exec op).conn.HasRoom ↔ r.LeavesRoom op := by
  rw [conn_exec]
  cases op with
  | sendInLoop data a =>
    rw [TcpConnection.exec]
    rcases r.conn.sendInLoop_cases data a with ⟨hst, h⟩ | ⟨hst, hdone, h⟩ |
      ⟨hst, hfault, hlt, h⟩ <;> rw [h]
    · exact iff_of_true hr fun hst' => absurd hst hst'
    · refine iff_of_true hr fun _ hfault hlt => ?_
      rcases hdone with hdone | hdone
      · rw [hfault] at hdone
        cases hdone
      · exact absurd hlt (Nat.not_lt.mpr hdone)
    · have hrest : data.drop (r.conn.directWrite data a).1 ≠ [] := by
        rw [ne_eq, List.drop_eq_nil_iff]
        omega
      rw [TcpConnection.hasRoom_bufferRest hrest, List.length_drop]
      exact ⟨fun h _ _ _ => h, fun h => h hst hfault hlt⟩
  | handleWrite a =>
    refine iff_of_true (fun hw hread => ?_) trivial
    have hw' := (r.isWriting_handleWrite a).symm.trans hw
    have hle := r.conn.handleWrite_readableBytes_le a
    exact Nat.lt_of_lt_of_le (hr hw' (Nat.lt_of_lt_of_le hread hle))
      TcpConnection.writableBytes_handleWrite
  | _ =>
    refine iff_of_true (fun hw hread => ?_) trivial
    rw [r.conn.other_outputBuffer (by simp) (by simp)] at hread ⊢
    rcases r.conn.exec_isWriting hw with ⟨⟨data, a, hop⟩, -⟩ | hw'
    · cases hop
    · exact hr hw' hread

variable (name : String) (fd : Int) (writeComplete highWaterMark : Bool)

/-- **`handleWrite` makes progress** in every state of a run exactly if every `sendInLoop`
of the run that buffers something leaves cells behind it. -/
theorem flush_progress_iff (ops : List ConnOp) :
    Always exec (fun r => r.conn.MakesProgress)
        (established name fd writeComplete highWaterMark) ops ↔
      Along exec LeavesRoom (established name fd writeComplete highWaterMark) ops := by
  have hstart : (established name fd writeComplete highWaterMark).conn.HasRoom := by
    intro hw
    rw [(established_spec name fd writeComplete highWaterMark).2.2.2.1] at hw
    cases hw
  have hiff : Always exec (fun r => r.conn.HasRoom)
      (established name fd writeComplete highWaterMark) ops ↔
      Along exec LeavesRoom (established name fd writeComplete highWaterMark) ops :=
    @always_iff_along _ _ exec (fun r => r.conn.HasRoom) _ _ (fun _ => True) (fun _ => True)
      trivial hstart (fun _ _ _ _ => trivial) (fun t _ _ _ ht => t.hasRoom_exec_iff ht) ops
      fun _ _ => trivial
  rw [← hiff]
  exact forall_congr' fun l => forall_congr' fun _ => TcpConnection.makesProgress_iff

/-- A message of which a byte is taken and 1024 are not fills the buffer to its last cell:
the next flush, over a kernel that would take a byte, takes none. -/
theorem flush_stuck :
    ¬ Always exec (fun r => r.conn.MakesProgress) (established "conn" 5 false false)
      [.sendInLoop (List.replicate 1025 104) (.accept 1)] := by
  intro h
  have hflush := (h.last (by decide +kernel) (by decide +kernel)).1 (.accept 1) Nat.one_pos
  exact absurd hflush (by decide +kernel)

end ConnRun
end Mymuduo
