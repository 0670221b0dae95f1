import Mymuduo.Notifications
import Mymuduo.OutboundStream

/-! # Write-complete notifications

`writeCompleteCallback_` is queued by `sendInLoop`, when the kernel takes a whole message
at once, and by `handleWrite`, when a flush leaves `outputBuffer_` empty.  Each should be
the step that hands over the last byte still unsent.  `sendInLoop` tests exactly that.
`handleWrite` tests it after the flush, and not that there was anything to flush: the
channel stays in writing mode over an empty buffer, the next write-ready event offers the
kernel `writableBytes()` stale cells, and what it takes of them is reported as a flush
again.
-/
namespace Mymuduo
open Transition

/-- No message is empty. -/
def ConnOp.Nonempty : ConnOp → Prop
  | .sendInLoop data _ => data ≠ []
  | _ => True

namespace TcpConnection
variable (c : TcpConnection) (op : ConnOp) (data : List UInt8) (a : WriteAnswer)

/-- The bytes not yet sent when the activation begins, its own message among them. -/
def unsent : List UInt8 := c.outputBuffer_.readable ++ op.message

/-- The activation hands the last byte still unsent to the kernel. -/
def HandsLast : Prop := c.unsent op ≠ [] ∧ c.unsent op <+: acceptedBytes (c.exec op).2

instance : Decidable (c.HandsLast op) := inferInstanceAs (Decidable (_ ∧ _))

/-- The direct write takes something only if nothing waits. -/
theorem directWrite_pos (h : 0 < (c.directWrite data a).1) :
    c.channel_.isWriting = false ∧ c.outputBuffer_.readableBytes = 0 ∧
      ∃ k, a = .accept k ∧ (c.directWrite data a).1 = min k data.length := by
  unfold directWrite at h ⊢
  split at h
  · rename_i hempty
    rw [if_pos hempty]
    simp only [Bool.and_eq_true, Bool.not_eq_true', beq_iff_eq] at hempty
    cases a with
    | accept k => exact ⟨hempty.1, hempty.2, k, rfl, List.length_take⟩
    | fail e logged =>
      simp only [write] at h
      split at h <;> cases h
  · cases h

theorem handsOver_iff (hst : c.state_ ≠ .kDisconnected) (hdata : data ≠ []) :
    c.HandsOver data a ↔ data.length ≤ (c.directWrite data a).1 := by
  have hpos := List.length_pos_iff.mpr hdata
  constructor
  · exact HandsOver.le
  · intro hle
    obtain ⟨hw, hr, k, hk, hn⟩ := c.directWrite_pos data a (Nat.lt_of_lt_of_le hpos hle)
    exact ⟨hst, hw, hr, k, hk, by omega⟩

/-- `sendInLoop` hands over the last unsent byte where it buffers nothing. -/
theorem handsLast_sendInLoop (hdata : data ≠ []) :
    c.HandsLast (.sendInLoop data a) ↔ c.HandsOver data a := by
  have hne : c.unsent (.sendInLoop data a) ≠ [] := by simp [unsent, ConnOp.message, hdata]
  rw [HandsLast, and_iff_right hne, exec_sendInLoop]
  by_cases hst : c.state_ = .kDisconnected
  · refine iff_of_false (fun hpre => hne ?_) fun hover => hover.1 hst
    simpa [sendInLoop, hst, acceptedBytes] using hpre
  · rw [acceptedBytes_sendInLoop _ _ _ hst, handsOver_iff _ _ _ hst hdata]
    constructor
    · intro hpre
      have hlen := hpre.length_le
      rw [unsent, ConnOp.message, List.length_append, List.length_take] at hlen
      omega
    · intro hle
      have hread := (c.directWrite_spec data a).2.2
        (Nat.lt_of_lt_of_le (List.length_pos_iff.mpr hdata) hle)
      have hunsent : c.unsent (.sendInLoop data a) = data := by
        rw [unsent, ConnOp.message, hread, List.nil_append]
      exact ⟨[], by rw [List.append_nil, hunsent, List.take_of_length_le hle]⟩

/-- `handleWrite` hands over the last unsent byte where it drains a buffer that is not
empty. -/
theorem handsLast_handleWrite : c.HandsLast (.handleWrite a) ↔
    c.Drains a ∧ 0 < c.outputBuffer_.readableBytes := by
  have haccepted : acceptedBytes (c.exec (.handleWrite a)).2 = if c.channel_.isWriting then
      (c.outputBuffer_.peek c.outputBuffer_.writableBytes).take (c.flushed a) else [] :=
    ConnRun.accepted_handleWrite ⟨c, []⟩ a
  have hunsent : c.unsent (.handleWrite a) = c.outputBuffer_.readable := List.append_nil _
  rw [HandsLast, hunsent, haccepted, ← List.length_pos_iff, ← SoundBuffer.readableBytes_eq]
  cases hw : c.channel_.isWriting with
  | false =>
    refine iff_of_false (fun h => ?_) fun h => by simp [Drains, hw] at h
    have hnil := h.2.length_le
    rw [if_neg Bool.false_ne_true, List.length_nil, ← SoundBuffer.readableBytes_eq] at hnil
    omega
  | true =>
    rw [if_pos rfl, and_comm]
    refine and_congr_left fun hpos => ?_
    constructor
    · intro hpre
      have hlen := hpre.length_le
      rw [List.length_take, ← SoundBuffer.readableBytes_eq] at hlen
      exact ⟨hw, by omega, by omega⟩
    · rintro ⟨-, -, hle⟩
      have htake := Buffer.take_peek c.outputBuffer_.inv (Nat.le_trans hle (c.flushed_le a))
        (Nat.le_refl _)
      rw [SoundBuffer.readableBytes_eq, List.take_length, ← SoundBuffer.readableBytes_eq] at htake
      rw [← htake]
      exact List.take_prefix_take_left hle

theorem handsLast_other (hs : ∀ data a, op ≠ .sendInLoop data a) (hw : ∀ a, op ≠ .handleWrite a) :
    ¬ c.HandsLast op := by
  rintro ⟨hne, hpre⟩
  rw [acceptedBytes_eq_nil fun n bs he => (c.other_effects hs hw he).2 n bs rfl] at hpre
  exact hne (List.prefix_nil.mp hpre)

end TcpConnection

namespace ConnRun

/-- The step queues a write-complete notification. -/
def ReportsWrite (r : ConnRun) (op : ConnOp) : Prop :=
  ∃ n ∈ r.conn.notifications op, n.isWriteComplete

/-- The step queues a write-complete notification, one, exactly if it hands over the last
unsent byte. -/
def WriteReported (r : ConnRun) (op : ConnOp) : Prop :=
  (r.conn.notifications op).filter Notification.isWriteComplete =
    if r.conn.HandsLast op then [.writeComplete true] else []

/-- A flush that hands the kernel anything has something to flush. -/
def FlushesWaiting (r : ConnRun) : ConnOp → Prop
  | .handleWrite a => r.conn.channel_.isWriting = true → 0 < r.conn.flushed a →
      0 < r.conn.outputBuffer_.readableBytes
  | _ => True

/-- The write-complete notifications of a run and its messages: nothing unsent remains
where one is queued, and there is a message before the first and between any two. -/
structure OncePerFlush (start : ConnRun) (ops : List ConnOp) : Prop where
  nothing_left : ∀ l op, l ++ [op] <+: ops → (l.foldl exec start).ReportsWrite op →
    ((l ++ [op]).foldl exec start).conn.outputBuffer_.readable = []
  first : ∀ l op, l ++ [op] <+: ops → (l.foldl exec start).ReportsWrite op →
    ∃ m ∈ l ++ [op], m.message ≠ []
  between : ∀ l op mid op', l ++ op :: mid ++ [op'] <+: ops →
    (l.foldl exec start).ReportsWrite op → ((l ++ op :: mid).foldl exec start).ReportsWrite op' →
    ∃ m ∈ mid ++ [op'], m.message ≠ []

variable {r : ConnRun} {op : ConnOp} {ops : List ConnOp}

/-- The two places that queue it. -/
theorem ReportsWrite.cases (h : r.ReportsWrite op) :
    (∃ data a, op = .sendInLoop data a ∧ r.conn.HandsOver data a) ∨
      ∃ a, op = .handleWrite a ∧ r.conn.Drains a := by
  obtain ⟨n, hn, hwrite⟩ := h
  cases op with
  | sendInLoop data a =>
    rw [TcpConnection.sendInLoop_notifications, List.mem_append] at hn
    refine Or.inl ⟨data, a, rfl, ?_⟩
    rcases hn with hn | hn <;> split at hn
    · exact (‹_ ∧ _› : _ ∧ _).1
    · cases hn
    · rw [List.mem_singleton.mp hn] at hwrite
      cases hwrite
    · cases hn
  | handleWrite a =>
    rw [TcpConnection.handleWrite_notifications] at hn
    split at hn
    · exact Or.inr ⟨a, rfl, ‹_›⟩
    · cases hn
  | _ =>
    rw [r.conn.other_notifications _ (by simp) (by simp)] at hn
    cases hn

/-- **One step.**  It reports as it should exactly if no flush of an empty buffer hands the
kernel anything. -/
theorem writeReported_iff (hset : r.conn.writeCompleteCallback_ = true) (hop : op.Nonempty) :
    r.WriteReported op ↔ r.FlushesWaiting op := by
  unfold WriteReported
  cases op with
  | sendInLoop data a =>
    refine iff_of_true ?_ trivial
    rw [TcpConnection.sendInLoop_notifications, List.filter_append]
    simp only [hset, and_true, r.conn.handsLast_sendInLoop data a hop]
    split <;> split <;> rfl
  | handleWrite a =>
    simp only [TcpConnection.handleWrite_notifications, hset, FlushesWaiting,
      TcpConnection.handsLast_handleWrite]
    by_cases hdrains : r.conn.Drains a
    · obtain ⟨hw, hpos, -⟩ := id hdrains
      simp only [hdrains, hw, hpos, if_true, true_and, forall_const]
      by_cases hread : 0 < r.conn.outputBuffer_.readableBytes <;>
        simp [hread, Notification.isWriteComplete]
    · refine iff_of_true (by simp [hdrains]) fun hw hpos => ?_
      by_contra hempty
      exact hdrains ⟨hw, hpos, by omega⟩
  | _ =>
    refine iff_of_true ?_ trivial
    rw [r.conn.other_notifications _ (by simp) (by simp),
      if_neg (r.conn.handsLast_other _ (by simp) (by simp))]
    rfl

/-- Where one is queued, nothing unsent remains. -/
theorem ReportsWrite.nothing_left (h : r.ReportsWrite op) :
    (r.exec op).conn.outputBuffer_.readable = [] := by
  rcases h.cases with ⟨data, a, rfl, hover⟩ | ⟨a, rfl, hdrains⟩
  · have hread : r.conn.outputBuffer_.readable = [] := by
      rw [← List.length_eq_zero_iff, ← SoundBuffer.readableBytes_eq]
      exact hover.2.2.1
    rcases r.conn.sendInLoop_cases data a with ⟨h, -⟩ | ⟨-, -, h⟩ | ⟨-, -, hlt, -⟩
    · exact absurd h hover.1
    · rw [conn_exec, TcpConnection.exec, h]
      exact hread
    · exact absurd hlt (Nat.not_lt.mpr hover.le)
  · have hread := r.conn.handleWrite_readable a
    rw [hdrains.1, if_pos rfl, List.drop_of_length_le
      (by rw [← SoundBuffer.readableBytes_eq]; exact hdrains.2.2)] at hread
    exact hread

/-- Without a message nothing comes to be unsent. -/
theorem readable_foldl (h : r.conn.outputBuffer_.readable = [])
    (hops : ∀ op ∈ ops, op.Nonempty ∧ op.message = []) :
    (ops.foldl exec r).conn.outputBuffer_.readable = [] := by
  induction ops generalizing r with
  | nil => exact h
  | cons op ops ih =>
    refine ih ?_ fun op' hop' => hops op' (List.mem_cons_of_mem op hop')
    obtain ⟨hne, hmessage⟩ := hops op List.mem_cons_self
    cases op with
    | sendInLoop data a => exact absurd hmessage hne
    | handleWrite a =>
      have hread := r.conn.handleWrite_readable a
      rw [h, List.drop_nil, ite_self] at hread
      exact hread
    | _ =>
      rw [conn_exec, r.conn.other_outputBuffer (by simp) (by simp)]
      exact h

/-- **A report needs a message.**  From an empty buffer on, a step that reports comes with
or after a message. -/
theorem ReportsWrite.message {l : List ConnOp} (h : r.conn.outputBuffer_.readable = [])
    (hops : ∀ m ∈ l ++ [op], m.Nonempty) (hflush : (l.foldl exec r).FlushesWaiting op)
    (hreports : (l.foldl exec r).ReportsWrite op) : ∃ m ∈ l ++ [op], m.message ≠ [] := by
  by_contra hnone
  have hsilent : ∀ m ∈ l ++ [op], m.message = [] := fun m hm => by
    by_contra hne
    exact hnone ⟨m, hm, hne⟩
  have hread := readable_foldl h fun m hm =>
    ⟨hops m (List.mem_append_left _ hm), hsilent m (List.mem_append_left _ hm)⟩
  rcases hreports.cases with ⟨data, a, rfl, -⟩ | ⟨a, rfl, hdrains⟩
  · exact hops (.sendInLoop data a) (by simp) (hsilent (.sendInLoop data a) (by simp))
  · have hpos := hflush hdrains.1 hdrains.2.1
    rw [SoundBuffer.readableBytes_eq, hread] at hpos
    exact Nat.lt_irrefl 0 hpos

variable (name : String) (fd : Int) (highWaterMark : Bool)

theorem oncePerFlush (hops : ∀ op ∈ ops, op.Nonempty)
    (h : Along exec FlushesWaiting (established name fd true highWaterMark) ops) :
    OncePerFlush (established name fd true highWaterMark) ops where
  nothing_left l op hl hreports := by
    rw [List.foldl_append]
    exact hreports.nothing_left
  first l op hl hreports := by
    refine ReportsWrite.message ?_ (fun m hm => hops m (hl.subset hm)) (h l op hl) hreports
    rw [(established_spec name fd true highWaterMark).2.2.1]
    exact SoundBuffer.readable_new
  between l op mid op' hl hreports hreports' := by
    have hsplit : l ++ op :: mid = (l ++ [op]) ++ mid := by simp
    rw [hsplit, List.foldl_append] at hreports'
    refine ReportsWrite.message ?_ (fun m hm => hops m (hl.subset ?_)) ?_ hreports'
    · rw [List.foldl_append]
      exact hreports.nothing_left
    · rw [hsplit, List.append_assoc]
      exact List.mem_append_right _ hm
    · rw [← List.foldl_append, ← hsplit]
      exact h _ op' hl

/-- **Write-complete is reported once per flush**, in every run with non-empty messages,
exactly if every flush that hands the kernel anything has something to flush. -/
theorem write_complete_once_iff (ops : List ConnOp) (hops : ∀ op ∈ ops, op.Nonempty) :
    (Along exec WriteReported (established name fd true highWaterMark) ops ∧
        OncePerFlush (established name fd true highWaterMark) ops) ↔
      Along exec FlushesWaiting (established name fd true highWaterMark) ops := by
  have hset : ∀ (t : ConnRun) (op : ConnOp), op.Nonempty →
      t.conn.writeCompleteCallback_ = true → t.FlushesWaiting op →
        (t.exec op).conn.writeCompleteCallback_ = true := by
    intro t op _ ht _
    rw [conn_exec, (t.conn.exec_settings op).2.1]
    exact ht
  have hiff : Along exec WriteReported (established name fd true highWaterMark) ops ↔
      Along exec FlushesWaiting (established name fd true highWaterMark) ops :=
    along_congr (fun t => t.conn.writeCompleteCallback_ = true) ConnOp.Nonempty rfl hset
      (fun t op hop ht => writeReported_iff ht hop) ops hops
  rw [hiff]
  exact and_iff_left_of_imp (oncePerFlush name fd highWaterMark hops)

/-- A message that had to wait and is flushed is reported. -/
theorem write_complete_after_flush :
    OncePerFlush (established "conn" 5 true false)
      [.sendInLoop [104] (.accept 0), .handleWrite (.accept 1)] := by
  refine ((write_complete_once_iff "conn" 5 false _ ?_).mpr ?_).2
  · simp [ConnOp.Nonempty]
  · refine (along_cons _ _).mpr ⟨trivial, (along_singleton _).mpr fun _ _ => ?_⟩
    decide +kernel

/-- One byte that had to wait, and two write-ready events: the second finds nothing unsent
and is reported as a flush. -/
theorem write_complete_twice :
    ¬ Along exec WriteReported (established "conn" 5 true false)
      [.sendInLoop [104] (.accept 0), .handleWrite (.accept 1), .handleWrite (.accept 1)] := by
  intro h
  have hlast := h [.sendInLoop [104] (.accept 0), .handleWrite (.accept 1)]
    (.handleWrite (.accept 1)) (List.prefix_refl _)
  exact absurd hlast (by unfold WriteReported; decide +kernel)

end ConnRun
end Mymuduo
