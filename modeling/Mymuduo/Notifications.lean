import Mymuduo.ConnectionRun

/-! # The notifications a connection queues

A connection puts user callbacks on its loop's queue in three places: `sendInLoop` when a
direct write takes a whole message, `handleWrite` when a flush leaves nothing readable, and
`sendInLoop` again when what it buffers takes `outputBuffer_` over the high-water mark.
`sendInLoop_notifications` and `handleWrite_notifications` say exactly when, and
`other_notifications` that nothing else queues any.

The mark is tested before the append, on `oldLen` and `remaining`.  That is the test of a
crossing (`notifications_highWaterMark`), so over a whole run the callback is queued exactly
where the buffer gets from below the mark to the mark or over it.
-/
namespace Mymuduo
open Transition

def Effect.notification? : Effect → Option Notification
  | .queueInLoop n => some n
  | _ => none

namespace Notification

/-- Calling the functor does not raise `bad_function_call`. -/
def callable : Notification → Bool
  | .writeComplete callable | .highWaterMark callable _ => callable

def isWriteComplete : Notification → Bool
  | .writeComplete _ => true
  | .highWaterMark .. => false

def isHighWaterMark : Notification → Bool
  | .writeComplete _ => false
  | .highWaterMark .. => true

end Notification

namespace TcpConnection
variable (c : TcpConnection) (op : ConnOp) (data : List UInt8) (a : WriteAnswer)

/-- What an activation puts on the queue of the connection's loop. -/
def notifications : List Notification := (c.exec op).2.filterMap Effect.notification?

/-- `sendInLoop` hands the whole message to the kernel, without buffering any of it. -/
def HandsOver : Prop :=
  c.state_ ≠ .kDisconnected ∧ c.channel_.isWriting = false ∧
    c.outputBuffer_.readableBytes = 0 ∧ ∃ k, a = .accept k ∧ data.length ≤ k

/-- `handleWrite` hands everything that is readable to the kernel, if anything is. -/
def Drains : Prop :=
  c.channel_.isWriting = true ∧ 0 < c.flushed a ∧ c.outputBuffer_.readableBytes ≤ c.flushed a

/-- The activation takes `outputBuffer_` from below the mark to the mark or over it. -/
def CrossesMark : Prop :=
  c.outputBuffer_.readableBytes < c.highWaterMark_ ∧
    c.highWaterMark_ ≤ (c.exec op).1.outputBuffer_.readableBytes

instance : Decidable (c.HandsOver data a) :=
  match a with
  | .accept k => decidable_of_iff
      (c.state_ ≠ .kDisconnected ∧ c.channel_.isWriting = false ∧
        c.outputBuffer_.readableBytes = 0 ∧ data.length ≤ k)
      (by simp [HandsOver])
  | .fail .. => isFalse (by simp [HandsOver])

instance : Decidable (c.Drains a) := inferInstanceAs (Decidable (_ ∧ _ ∧ _))

instance : Decidable (c.CrossesMark op) := inferInstanceAs (Decidable (_ ∧ _))

variable {c op data a}

theorem mem_notifications {n : Notification} :
    n ∈ c.notifications op ↔ .queueInLoop n ∈ (c.exec op).2 := by
  simp only [notifications, List.mem_filterMap]
  constructor
  · rintro ⟨e, he, hn⟩
    cases e with
    | queueInLoop m => exact Option.some.inj hn ▸ he
    | _ => cases hn
  · exact fun h => ⟨_, h, rfl⟩

/-- What is handed over is handed over by the direct write. -/
theorem HandsOver.le (h : c.HandsOver data a) : data.length ≤ (c.directWrite data a).1 := by
  obtain ⟨-, hw, hr, k, rfl, hk⟩ := h
  simp [directWrite, hw, hr, write, hk]

variable (c op data a)

theorem directWrite_notifications (hst : c.state_ ≠ .kDisconnected) :
    (c.directWrite data a).2.2.filterMap Effect.notification? =
      if c.HandsOver data a ∧ c.writeCompleteCallback_ then [.writeComplete true] else [] := by
  unfold directWrite
  split
  · rename_i hempty
    simp only [Bool.and_eq_true, Bool.not_eq_true', beq_iff_eq] at hempty
    cases a with
    | fail e logged =>
      have hnot : ¬ c.HandsOver data (.fail e logged) := by simp [HandsOver]
      simp only [write]
      split <;> simp [hnot, Effect.notification?]
    | accept k =>
      have hiff : c.HandsOver data (.accept k) ↔ data.length - (data.take k).length = 0 := by
        rw [HandsOver, List.length_take]
        constructor
        · rintro ⟨-, -, -, k', hk, hle⟩
          obtain rfl := WriteAnswer.accept.inj hk
          omega
        · exact fun h => ⟨hst, hempty.1, hempty.2, k, rfl, by omega⟩
      simp only [write, hiff]
      split <;> rfl
  · rename_i hnot
    have hnot' : ¬ c.HandsOver data a := fun h => hnot (by simp [h.2.1, h.2.2.1])
    simp [hnot']

theorem bufferRest_outputBuffer (rest : List UInt8) :
    (c.bufferRest rest).1.outputBuffer_ = c.outputBuffer_.append rest := by
  unfold bufferRest
  simp only
  split <;> rfl

theorem bufferRest_readableBytes (rest : List UInt8) :
    (c.bufferRest rest).1.outputBuffer_.readableBytes =
      c.outputBuffer_.readableBytes + rest.length := by
  rw [SoundBuffer.readableBytes_eq, SoundBuffer.readableBytes_eq, bufferRest_readable,
    List.length_append]

theorem bufferRest_notifications (rest : List UInt8) :
    (c.bufferRest rest).2.filterMap Effect.notification? =
      if c.outputBuffer_.readableBytes < c.highWaterMark_ ∧
          c.highWaterMark_ ≤ (c.bufferRest rest).1.outputBuffer_.readableBytes ∧
          c.highWaterMarkCallback_ then
        [.highWaterMark true (c.bufferRest rest).1.outputBuffer_.readableBytes] else [] := by
  have hpoller : ∀ (p : Prop) [Decidable p] (d : TcpConnection), (if p then (d, [])
      else d.onChannel Channel.enableWriting).2.filterMap Effect.notification? = [] := by
    intro p _ d
    split
    · rfl
    · refine List.filterMap_eq_nil_iff.mpr fun e he => ?_
      obtain ⟨op, rfl⟩ := onChannel_effects _ _ he
      rfl
  rw [bufferRest_readableBytes]
  unfold bufferRest
  simp only [List.filterMap_append, hpoller, List.append_nil, ge_iff_le, and_left_comm]
  split <;> rfl

/-- **What `sendInLoop` queues**: the write-complete callback, where the kernel takes the
whole message at once, and the high-water-mark callback, where it buffers over the mark. -/
theorem sendInLoop_notifications : c.notifications (.sendInLoop data a) =
    (if c.HandsOver data a ∧ c.writeCompleteCallback_ then [.writeComplete true] else []) ++
      if c.CrossesMark (.sendInLoop data a) ∧ c.highWaterMarkCallback_ then
        [.highWaterMark true (c.exec (.sendInLoop data a)).1.outputBuffer_.readableBytes]
      else [] := by
  have hsame : ¬ (c.outputBuffer_.readableBytes < c.highWaterMark_ ∧
      c.highWaterMark_ ≤ c.outputBuffer_.readableBytes) := by
    omega
  have hcross : c.CrossesMark (.sendInLoop data a) ↔
      c.outputBuffer_.readableBytes < c.highWaterMark_ ∧
        c.highWaterMark_ ≤ (c.sendInLoop data a).1.outputBuffer_.readableBytes := Iff.rfl
  simp only [notifications, hcross, exec_sendInLoop]
  rcases c.sendInLoop_cases data a with ⟨hst, h⟩ | ⟨hst, hdone, h⟩ | ⟨hst, hfault, hlt, h⟩
  · have hnot : ¬ c.HandsOver data a := fun hover => hover.1 hst
    rw [h]
    simp only [hnot, hsame, false_and, if_false, List.append_nil]
    rfl
  · rw [h]
    simp only [directWrite_notifications _ _ _ hst, hsame, false_and, if_false, List.append_nil]
  · have hnot : ¬ c.HandsOver data a := fun hover => Nat.not_lt.mpr hover.le hlt
    rw [h, List.filterMap_append, directWrite_notifications _ _ _ hst, bufferRest_notifications]
    simp only [hnot, false_and, if_false, and_assoc]

theorem afterWrite_notifications (n : Nat) :
    (c.afterWrite n).2.filterMap Effect.notification? =
      if c.outputBuffer_.readableBytes ≤ n then [.writeComplete c.writeCompleteCallback_]
      else [] := by
  have hhalf : ∀ (p : Prop) [Decidable p] (d : TcpConnection),
      (if p then d.shutdownInLoop else (d, [])).2.filterMap Effect.notification? = [] := by
    intro p _ d
    unfold shutdownInLoop
    split <;> (try split) <;> rfl
  have hread : (c.outputBuffer_.retrieve n).readableBytes = 0 ↔
      c.outputBuffer_.readableBytes ≤ n := by
    rw [SoundBuffer.readableBytes_eq, SoundBuffer.readable_retrieve, List.length_drop,
      ← SoundBuffer.readableBytes_eq, Nat.sub_eq_zero_iff_le]
  unfold afterWrite
  simp only [List.filterMap_append, hhalf, hread, List.append_nil]
  split <;> rfl

/-- **What `handleWrite` queues**: the write-complete callback, set or not, where the write
takes something and leaves nothing readable. -/
theorem handleWrite_notifications : c.notifications (.handleWrite a) =
    if c.Drains a then [.writeComplete c.writeCompleteCallback_] else [] := by
  simp only [notifications, Drains, exec_handleWrite]
  rcases c.handleWrite_cases a with ⟨hw, text, h⟩ | ⟨hw, h0, h⟩ | ⟨hw, hpos, h⟩ <;> rw [h]
  · simp [hw, Effect.notification?]
  · simp [h0, Effect.notification?]
  · change (c.afterWrite (c.flushed a)).2.filterMap _ = _
    rw [afterWrite_notifications]
    simp only [hw, hpos, true_and]

theorem other_notifications (hs : ∀ data a, op ≠ .sendInLoop data a)
    (hw : ∀ a, op ≠ .handleWrite a) : c.notifications op = [] := by
  refine List.eq_nil_iff_forall_not_mem.mpr fun n hn => ?_
  exact (c.other_effects hs hw (mem_notifications.mp hn)).1 n rfl

/-- The members that only the setters of the user change. -/
theorem exec_settings : (c.exec op).1.highWaterMark_ = c.highWaterMark_ ∧
    (c.exec op).1.writeCompleteCallback_ = c.writeCompleteCallback_ ∧
    (c.exec op).1.highWaterMarkCallback_ = c.highWaterMarkCallback_ := by
  cases op with
  | connectEstablished | setDisconnecting | handleClose => exact ⟨rfl, rfl, rfl⟩
  | connectDestroyed loaded =>
    rw [exec, connectDestroyed]
    split <;> exact ⟨rfl, rfl, rfl⟩
  | shutdownInLoop =>
    rw [exec, shutdownInLoop_conn]
    exact ⟨rfl, rfl, rfl⟩
  | handleRead b err =>
    rcases c.handleRead_cases b err with h | ⟨-, h⟩ | ⟨text, text', h⟩ <;>
      (rw [exec, h]; exact ⟨rfl, rfl, rfl⟩)
  | handleWrite a =>
    rw [exec, c.handleWrite_spec a]
    exact ⟨rfl, rfl, rfl⟩
  | sendInLoop data a =>
    rw [exec]
    rcases c.sendInLoop_cases data a with ⟨-, h⟩ | ⟨-, -, h⟩ | ⟨-, -, -, h⟩ <;> rw [h]
    · exact ⟨rfl, rfl, rfl⟩
    · exact ⟨rfl, rfl, rfl⟩
    · unfold bufferRest
      simp only
      split <;> exact ⟨rfl, rfl, rfl⟩

theorem handleWrite_readableBytes_le :
    (c.exec (.handleWrite a)).1.outputBuffer_.readableBytes ≤ c.outputBuffer_.readableBytes := by
  rw [SoundBuffer.readableBytes_eq, SoundBuffer.readableBytes_eq, exec_handleWrite,
    handleWrite_readable]
  split
  · rw [List.length_drop]
    exact Nat.sub_le _ _
  · exact Nat.le_refl _

/-- **The high-water mark, one activation.**  The test of `sendInLoop` before the append is
the test of a crossing, and no other activation takes the buffer upwards. -/
theorem notifications_highWaterMark (hset : c.highWaterMarkCallback_ = true) :
    (c.notifications op).filter Notification.isHighWaterMark =
      if c.CrossesMark op then [.highWaterMark true (c.exec op).1.outputBuffer_.readableBytes]
      else [] := by
  by_cases hs : ∃ data a, op = .sendInLoop data a
  · obtain ⟨data, a, rfl⟩ := hs
    rw [sendInLoop_notifications, List.filter_append]
    simp only [hset, and_true]
    by_cases hdone : c.HandsOver data a ∧ c.writeCompleteCallback_ = true <;>
      by_cases hmark : c.CrossesMark (.sendInLoop data a) <;>
        simp [hdone, hmark, Notification.isHighWaterMark]
  · have hle : (c.exec op).1.outputBuffer_.readableBytes ≤ c.outputBuffer_.readableBytes := by
      by_cases hw : ∃ a, op = .handleWrite a
      · obtain ⟨a, rfl⟩ := hw
        exact c.handleWrite_readableBytes_le a
      · exact Nat.le_of_eq (by
          rw [other_outputBuffer c (fun data a h => hs ⟨data, a, h⟩) fun a h => hw ⟨a, h⟩])
    have hnot : ¬ c.CrossesMark op := by
      unfold CrossesMark
      omega
    rw [if_neg hnot]
    by_cases hw : ∃ a, op = .handleWrite a
    · obtain ⟨a, rfl⟩ := hw
      rw [handleWrite_notifications]
      split <;> rfl
    · rw [other_notifications c op (fun data a h => hs ⟨data, a, h⟩) fun a h => hw ⟨a, h⟩]
      rfl

end TcpConnection

namespace ConnRun

/-- The step queues the high-water-mark callback exactly if it crosses the mark, once and
with the number of bytes then readable. -/
def CrossingReported (r : ConnRun) (op : ConnOp) : Prop :=
  (r.conn.notifications op).filter Notification.isHighWaterMark =
    if r.conn.CrossesMark op then
      [.highWaterMark true (r.exec op).conn.outputBuffer_.readableBytes] else []

/-- The step queues the high-water-mark callback. -/
def FiresMark (r : ConnRun) (op : ConnOp) : Prop :=
  ∃ n ∈ r.conn.notifications op, n.isHighWaterMark

/-- Fewer bytes are readable than the mark. -/
def BelowMark (r : ConnRun) : Prop :=
  r.conn.outputBuffer_.readableBytes < r.conn.highWaterMark_

variable (r : ConnRun) (op : ConnOp)

theorem crossingReported (hset : r.conn.highWaterMarkCallback_ = true) : r.CrossingReported op :=
  r.conn.notifications_highWaterMark op hset

/-- What fires was below the mark, and is not afterwards. -/
theorem FiresMark.crosses {r : ConnRun} {op : ConnOp} (h : r.FiresMark op)
    (hset : r.conn.highWaterMarkCallback_ = true) : r.BelowMark ∧ ¬ (r.exec op).BelowMark := by
  obtain ⟨n, hn, hmark⟩ := h
  have hin := List.mem_filter.mpr ⟨hn, hmark⟩
  rw [r.conn.notifications_highWaterMark op hset] at hin
  split at hin
  · rename_i hcross
    refine ⟨hcross.1, ?_⟩
    rw [BelowMark, conn_exec, (r.conn.exec_settings op).1]
    exact Nat.not_lt.mpr hcross.2
  · cases hin

theorem highWaterMarkCallback_foldl (ops : List ConnOp) :
    (ops.foldl exec r).conn.highWaterMarkCallback_ = r.conn.highWaterMarkCallback_ := by
  induction ops generalizing r with
  | nil => rfl
  | cons op ops ih => rw [List.foldl_cons, ih, conn_exec, (r.conn.exec_settings op).2.2]

/-- **The high-water mark fires exactly on upward crossings.**  In every run of a connection
with the callback set, whatever its mark: each step queues the callback if and only if it
takes `outputBuffer_` from below the mark to the mark or over it, with the number of bytes
then readable; between two firings the buffer has been below the mark. -/
theorem high_water_mark_exact (c : TcpConnection) (hset : c.highWaterMarkCallback_ = true)
    (ops : List ConnOp) :
    Along exec CrossingReported ⟨c, []⟩ ops ∧
      ∀ before op mid op', before ++ op :: mid ++ [op'] <+: ops →
        (before.foldl exec ⟨c, []⟩).FiresMark op →
        ((before ++ op :: mid).foldl exec ⟨c, []⟩).FiresMark op' →
        ¬ ((before ++ [op]).foldl exec ⟨c, []⟩).BelowMark ∧
          ∃ l, l <+: mid ∧ ((before ++ op :: l).foldl exec ⟨c, []⟩).BelowMark := by
  have hkept : ∀ l : List ConnOp,
      (l.foldl exec ⟨c, []⟩).conn.highWaterMarkCallback_ = true := fun l => by
    rw [highWaterMarkCallback_foldl]
    exact hset
  constructor
  · exact fun l op _ => crossingReported _ op (hkept l)
  · rintro before op mid op' - hfires hfires'
    refine ⟨?_, mid, List.prefix_refl mid, (hfires'.crosses (hkept _)).1⟩
    rw [List.foldl_append]
    exact (hfires.crosses (hkept _)).2

/-- A mark of three bytes is crossed by four that have to wait, not by a fifth, and again
once three of them have been flushed. -/
theorem high_water_mark_twice :
    let c := { TcpConnection.new "conn" 5 false true with highWaterMark_ := 3 }
    let ops : List ConnOp := [.connectEstablished, .sendInLoop [1, 2, 3, 4] (.accept 0),
      .sendInLoop [5] (.accept 1), .handleWrite (.accept 3), .sendInLoop [6, 7] (.accept 2)]
    (ops.foldl exec ⟨c, []⟩).effects.filterMap Effect.notification? =
        [.highWaterMark true 4, .highWaterMark true 4] ∧
      Along exec CrossingReported ⟨c, []⟩ ops := by
  intro c ops
  exact ⟨by decide +kernel, (high_water_mark_exact c rfl ops).1⟩

end ConnRun
end Mymuduo
