import Mymuduo.Activation
import Mymuduo.Lib.Runs

/-! # Runs of one connection

A `ConnRun` is a connection together with the log of the activations run on it,
each with its effects.  What happened (the bytes the kernel took, the messages
passed to `sendInLoop`, whether the half-close was issued) is read off the log.
Any list of operations is a run: nothing is assumed about their order, so every
schedule of a loop, and of the threads that use the connection, is one of them.
-/
namespace Mymuduo

/-- The message of a `sendInLoop`. -/
def ConnOp.message : ConnOp → List UInt8
  | .sendInLoop data _ => data
  | _ => []

/-- Its write, if it makes one, is partial or would block, and nothing worse. -/
def ConnOp.Graceful : ConnOp → Prop
  | .sendInLoop _ a => a.Graceful
  | .handleWrite a => a.Graceful
  | _ => True

structure ConnRun where
  conn : TcpConnection
  log : List (ConnOp × List Effect)

namespace ConnRun

/-- One activation, logged with its effects. -/
def exec (r : ConnRun) (op : ConnOp) : ConnRun :=
  ⟨(r.conn.exec op).1, r.log ++ [(op, (r.conn.exec op).2)]⟩

/-- A connection that has just been established. -/
def established (name : String) (fd : Int) (writeComplete highWaterMark : Bool) : ConnRun :=
  exec ⟨TcpConnection.new name fd writeComplete highWaterMark, []⟩ .connectEstablished

/-- The activations so far. -/
def ops (r : ConnRun) : List ConnOp := r.log.map Prod.fst

/-- All effects so far, in order. -/
def effects (r : ConnRun) : List Effect := r.log.flatMap Prod.snd

/-- The bytes the kernel has taken on the connection's fd. -/
def accepted (r : ConnRun) : List UInt8 := acceptedBytes r.effects

/-- The messages of the `sendInLoop` calls executed so far, end to end. -/
def messages (r : ConnRun) : List UInt8 := r.ops.flatMap ConnOp.message

/-- `handleClose` or `connectDestroyed` has run. -/
def Closed (r : ConnRun) : Prop :=
  .closeCallback ∈ r.effects ∨ ∃ loaded, .connectDestroyed loaded ∈ r.ops

variable (r : ConnRun) (op : ConnOp)

@[simp] theorem conn_exec : (r.exec op).conn = (r.conn.exec op).1 := rfl

@[simp] theorem ops_exec : (r.exec op).ops = r.ops ++ [op] := by
  simp [ops, exec]

@[simp] theorem effects_exec : (r.exec op).effects = r.effects ++ (r.conn.exec op).2 := by
  simp [effects, exec]

@[simp] theorem accepted_exec :
    (r.exec op).accepted = r.accepted ++ acceptedBytes (r.conn.exec op).2 := by
  simp [accepted]

@[simp] theorem messages_exec : (r.exec op).messages = r.messages ++ op.message := by
  simp [messages]

theorem closed_exec : (r.exec op).Closed ↔ r.Closed ∨
    .closeCallback ∈ (r.conn.exec op).2 ∨ ∃ loaded, op = .connectDestroyed loaded := by
  simp only [Closed, effects_exec, ops_exec, List.mem_append, List.mem_singleton, exists_or]
  constructor
  · rintro ((h | h) | (h | ⟨l, h⟩))
    · exact Or.inl (Or.inl h)
    · exact Or.inr (Or.inl h)
    · exact Or.inl (Or.inr h)
    · exact Or.inr (Or.inr ⟨l, h.symm⟩)
  · rintro ((h | h) | (h | ⟨l, h⟩))
    · exact Or.inl (Or.inl h)
    · exact Or.inr (Or.inl h)
    · exact Or.inl (Or.inr h)
    · exact Or.inr (Or.inr ⟨l, h.symm⟩)

theorem closed_mono (h : r.Closed) : (r.exec op).Closed :=
  (r.closed_exec op).mpr (Or.inl h)

theorem closed_handleClose : (r.exec .handleClose).Closed :=
  (r.closed_exec _).mpr (Or.inr (Or.inl (by simp [TcpConnection.exec, TcpConnection.handleClose])))

theorem closed_connectDestroyed (loaded : StateE) : (r.exec (.connectDestroyed loaded)).Closed :=
  (r.closed_exec _).mpr (Or.inr (Or.inr ⟨loaded, rfl⟩))

/-- **Only `sendInLoop` and `handleWrite` touch the outbound side** of a
connection that stays open. -/
theorem exec_other (hs : ∀ data a, op ≠ .sendInLoop data a) (hw : ∀ a, op ≠ .handleWrite a)
    (hopen : ¬ (r.exec op).Closed) :
    acceptedBytes (r.conn.exec op).2 = [] ∧
      (r.conn.exec op).1.outputBuffer_ = r.conn.outputBuffer_ ∧
      (r.conn.exec op).1.channel_.isWriting = r.conn.channel_.isWriting := by
  refine ⟨acceptedBytes_eq_nil fun n bs he => (r.conn.other_effects hs hw he).2 n bs rfl,
    r.conn.other_outputBuffer hs hw, ?_⟩
  cases op with
  | connectEstablished => exact r.conn.connectEstablished_isWriting
  | connectDestroyed loaded => exact absurd (r.closed_connectDestroyed loaded) hopen
  | sendInLoop data a => exact absurd rfl (hs data a)
  | shutdownInLoop => rw [TcpConnection.exec, TcpConnection.shutdownInLoop_conn]
  | setDisconnecting => rfl
  | handleRead a err =>
    rcases r.conn.handleRead_cases a err with h | ⟨-, h⟩ | ⟨text, text', h⟩
    · rw [TcpConnection.exec, h]
    · refine absurd ((r.closed_exec _).mpr (Or.inr (Or.inl ?_))) hopen
      simp [TcpConnection.exec, h, TcpConnection.handleClose]
    · rw [TcpConnection.exec, h]
  | handleWrite a => exact absurd rfl (hw a)
  | handleClose => exact absurd r.closed_handleClose hopen

/-- Sending and flushing do not close a connection. -/
theorem closed_exec_of_silent (h : ∀ e ∈ (r.conn.exec op).2, e.Silent)
    (hop : ∀ loaded, op ≠ .connectDestroyed loaded) : (r.exec op).Closed ↔ r.Closed := by
  rw [closed_exec]
  constructor
  · rintro (h' | h' | ⟨loaded, rfl⟩)
    · exact h'
    · exact (h _ h').elim
    · exact absurd rfl (hop loaded)
  · exact Or.inl

theorem closed_sendInLoop (data : List UInt8) (a : WriteAnswer) :
    (r.exec (.sendInLoop data a)).Closed ↔ r.Closed :=
  r.closed_exec_of_silent _ (fun _ he => r.conn.sendInLoop_silent data a he) (by simp)

theorem closed_handleWrite (a : WriteAnswer) : (r.exec (.handleWrite a)).Closed ↔ r.Closed :=
  r.closed_exec_of_silent _ (fun _ he => (r.conn.handleWrite_effects a he).1) (by simp)

/-- `state_` is `kDisconnected` only once the connection is closed. -/
def Live (r : ConnRun) : Prop := ¬ r.Closed → r.conn.state_ ≠ .kDisconnected

theorem live_exec (hlive : r.Live) : (r.exec op).Live := by
  intro hopen
  have hold := hlive fun h => hopen (r.closed_mono op h)
  cases op with
  | connectEstablished => simp [TcpConnection.exec, TcpConnection.connectEstablished,
      TcpConnection.setState]
  | connectDestroyed loaded => exact absurd (r.closed_connectDestroyed loaded) hopen
  | sendInLoop data a => simpa [TcpConnection.exec] using hold
  | shutdownInLoop => simpa [TcpConnection.exec, TcpConnection.shutdownInLoop_conn] using hold
  | setDisconnecting => simp [TcpConnection.setState]
  | handleRead a err =>
    rcases r.conn.handleRead_cases a err with h | ⟨-, h⟩ | ⟨text, text', h⟩
    · simpa [TcpConnection.exec, h] using hold
    · refine absurd ((r.closed_exec _).mpr (Or.inr (Or.inl ?_))) hopen
      simp [TcpConnection.exec, h, TcpConnection.handleClose]
    · simpa [TcpConnection.exec, h] using hold
  | handleWrite a =>
    rw [conn_exec, TcpConnection.exec, r.conn.handleWrite_spec a]
    exact hold
  | handleClose => exact absurd r.closed_handleClose hopen

variable (name : String) (fd : Int) (writeComplete highWaterMark : Bool)

theorem live_established : (established name fd writeComplete highWaterMark).Live :=
  live_exec _ _ fun _ => by simp [TcpConnection.new]

/-- A new connection is open, has sent nothing and has nothing to send. -/
theorem established_spec :
    (established name fd writeComplete highWaterMark).accepted = [] ∧
      (established name fd writeComplete highWaterMark).messages = [] ∧
      (established name fd writeComplete highWaterMark).conn.outputBuffer_ = SoundBuffer.new ∧
      (established name fd writeComplete highWaterMark).conn.channel_.isWriting = false ∧
      (established name fd writeComplete highWaterMark).conn.state_ = .kConnected :=
  ⟨rfl, rfl, rfl, (TcpConnection.connectEstablished_isWriting _).trans
    (by decide : EventMask.has 0 Channel.kWriteEvent = false), rfl⟩

end ConnRun
end Mymuduo
