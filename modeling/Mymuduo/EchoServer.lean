import Mymuduo.BufferQueue
import Mymuduo.SendOutcome
import Mymuduo.WriteInterest

/-! # The echo server

The message callback of `example/testserver.cc` takes everything out of the input buffer,
sends it back and calls `shutdown()`.  A connection therefore answers once: `shutdown` moves
it out of `kConnected`, and `send` is refused from then on.

Whether the peer ever sees the end of the stream depends on the first message alone.  If the
direct write of the reply leaves nothing to wait for, the half-close is issued there and
then.  Otherwise `handleWrite` would have to issue it, which it does not, as the channel
stays in writing mode.
-/
namespace Mymuduo

namespace SoundBuffer

/-- `retrieveAllAsString`: the string, and the buffer it leaves. -/
def retrieveAllAsString (b : SoundBuffer) : List UInt8 × SoundBuffer :=
  (b.toBuffer.retrieveAllAsString.1, b.retrieve b.readableBytes)

theorem retrieveAllAsString_fst (b : SoundBuffer) : b.retrieveAllAsString.1 = b.readable := by
  have hpeek := Buffer.peek_of_le b.inv (Nat.le_refl b.readableBytes)
  rwa [List.take_of_length_le (Nat.le_of_eq b.readableBytes_eq.symm)] at hpeek

theorem readable_readFd (b : SoundBuffer) (incoming : List UInt8) :
    (b.readFd (.data incoming)).readable = b.readable ++ incoming.take b.readCapacity :=
  (Buffer.readFd_spec b.inv (.data incoming)).2

/-- A read offers some room, whatever the buffer. -/
theorem take_readCapacity_ne (b : SoundBuffer) {incoming : List UInt8} (h : incoming ≠ []) :
    incoming.take b.readCapacity ≠ [] := by
  have hcap : 0 < b.readCapacity := by
    unfold Buffer.readCapacity Buffer.extrabufSize
    split <;> omega
  rw [Ne, List.take_eq_nil_iff]
  rintro (hzero | hnil)
  · omega
  · exact h hnil

end SoundBuffer

/-- What happens to a connection of the echo server; all of it on its loop. -/
inductive EchoAction where
  /-- `handleRead`; `w` is the kernel's answer to the direct write of the reply. -/
  | readable (a : ReadAnswer) (err : Int) (w : WriteAnswer)
  /-- `handleWrite`. -/
  | writable (w : WriteAnswer)
  /-- `handleClose`. -/
  | hangup
  /-- `connectDestroyed`. -/
  | destroyed
deriving DecidableEq, Repr

namespace ConnRun

/-- `TcpConnection::send`, on the connection's loop. -/
def send (r : ConnRun) (buf : List UInt8) (w : WriteAnswer) : ConnRun :=
  if r.conn.state_ = .kConnected then r.exec (.sendInLoop buf w) else r

/-- `TcpConnection::shutdown`, on the connection's loop. -/
def shutdown (r : ConnRun) : ConnRun :=
  if r.conn.state_ = .kConnected then (r.exec .setDisconnecting).exec .shutdownInLoop else r

/-- `EchoServer::onMessage`. -/
def onMessage (r : ConnRun) (w : WriteAnswer) : ConnRun :=
  let (msg, buf) := r.conn.inputBuffer_.retrieveAllAsString
  (send { r with conn := { r.conn with inputBuffer_ := buf } } msg w).shutdown

def react (r : ConnRun) : EchoAction → ConnRun
  | .readable a err w =>
    let r' := r.exec (.handleRead a err)
    if .messageCallback ∈ (r.conn.exec (.handleRead a err)).2 then r'.onMessage w else r'
  | .writable w => r.exec (.handleWrite w)
  | .hangup => r.exec .handleClose
  | .destroyed => r.exec (.connectDestroyed r.conn.state_)

/-- How often the half-close has been issued. -/
def halfCloses (r : ConnRun) : Nat := r.effects.count .shutdownWrite

end ConnRun

/-! ## What is to be expected -/

/-- The first message the connection is given while it is connected, and the answer to the
direct write of its reply. -/
def firstMessage : List EchoAction → Option (List UInt8 × WriteAnswer)
  | .readable (.data incoming) _ w :: _ =>
    if incoming = [] then none else some (incoming.take SoundBuffer.new.readCapacity, w)
  | .hangup :: _ | .destroyed :: _ => none
  | _ :: rest => firstMessage rest
  | [] => none

/-- The direct write leaves nothing to wait for: the kernel takes the whole message, or it is
given up over an error. -/
def HandedOver (msg : List UInt8) : WriteAnswer → Prop
  | .accept k => msg.length ≤ k
  | .fail e logged => e ≠ .EWOULDBLOCK ∧ logged.Fatal

instance (msg : List UInt8) : (w : WriteAnswer) → Decidable (HandedOver msg w)
  | .accept _ => inferInstanceAs (Decidable (_ ≤ _))
  | .fail _ _ => inferInstanceAs (Decidable (_ ∧ _))

/-- What the direct write takes. -/
def directReply (msg : List UInt8) : WriteAnswer → List UInt8
  | .accept k => msg.take k
  | .fail .. => []

/-- What has become of the connection. -/
def ConnRun.Echoed (r : ConnRun) : Option (List UInt8 × WriteAnswer) → Prop
  | none => r.halfCloses = 0 ∧ r.accepted = []
  | some (msg, w) =>
    if HandedOver msg w then r.halfCloses = 1 ∧ r.accepted = directReply msg w
    else r.halfCloses = 0 ∧ directReply msg w <+: r.accepted

/-! ## Reading -/

namespace TcpConnection
variable (c : TcpConnection)

/-- A read that finds something is a message. -/
theorem handleRead_data {incoming : List UInt8} (h : incoming ≠ []) (err : Int) :
    c.handleRead (.data incoming) err =
      ({ c with inputBuffer_ := c.inputBuffer_.readFd (.data incoming) }, [.messageCallback]) := by
  have hn : (c.inputBuffer_.toBuffer.readFd (.data incoming)).1 =
      .ok (incoming.take c.inputBuffer_.readCapacity).length := by
    simp only [Buffer.readFd]
    split <;> rfl
  have hpos := List.length_pos_iff.mpr (c.inputBuffer_.take_readCapacity_ne h)
  simp only [handleRead, hn, if_pos hpos]

/-- An error leaves the connection as it is. -/
theorem handleRead_fail (e : Errno) (err : Int) : (c.handleRead (.fail e) err).1 = c ∧
    ∀ x ∈ (c.handleRead (.fail e) err).2, ∃ text, x = .logError text := by
  refine ⟨rfl, fun x hx => ?_⟩
  have hx' : x ∈ [Effect.logError _, .logError _] := hx
  simp only [List.mem_cons, List.not_mem_nil, or_false] at hx'
  rcases hx' with rfl | rfl <;> exact ⟨_, rfl⟩

/-- On an idle connection, what the direct write takes and whether it leaves anything. -/
theorem directWrite_idle (h : c.Idle) {msg : List UInt8} (hmsg : msg ≠ []) (w : WriteAnswer) :
    acceptedBytes (c.directWrite msg w).2.2 = directReply msg w ∧
      ((c.directWrite msg w).2.1 = true ∨ msg.length ≤ (c.directWrite msg w).1 ↔
        HandedOver msg w) := by
  rw [(c.directWrite_spec msg w).1]
  cases w with
  | accept k =>
    have hn : (c.directWrite msg (.accept k)).1 = min k msg.length := by
      rw [directWrite, if_pos (by simpa [Idle] using h)]
      exact List.length_take
    rw [hn, ← List.take_eq_take_min, directWrite_accept_fault]
    refine ⟨rfl, ?_⟩
    simp only [HandedOver, Bool.false_eq_true, false_or]
    omega
  | fail e logged =>
    obtain ⟨hn, hfault⟩ := c.directWrite_fail msg e logged
    have hlength := List.length_pos_iff.mpr hmsg
    rw [hn, hfault, and_iff_right h]
    exact ⟨rfl, or_iff_left (Nat.not_le.mpr hlength)⟩

end TcpConnection

namespace ConnRun

/-- An activation of the loop other than those that establish, send or half-close. -/
structure Passive (op : ConnOp) : Prop where
  establish : op ≠ .connectEstablished
  send : ∀ data a, op ≠ .sendInLoop data a
  shutdown : op ≠ .shutdownInLoop

section Step
variable {r : ConnRun} {op : ConnOp}

theorem halfCloses_exec (r : ConnRun) (op : ConnOp) :
    (r.exec op).halfCloses = r.halfCloses + (r.conn.exec op).2.count .shutdownWrite := by
  rw [halfCloses, effects_exec, List.count_append, halfCloses]

theorem Passive.halfCloses (h : Passive op) : (r.exec op).halfCloses = r.halfCloses := by
  rw [halfCloses_exec, List.count_eq_zero_of_not_mem, Nat.add_zero]
  intro hmem
  rcases r.conn.exec_writeSide hmem trivial with ⟨-, hop, -⟩ | ⟨⟨n, bs, heq⟩, -⟩
  · exact h.shutdown hop
  · cases heq

theorem Passive.state (h : Passive op) (hst : r.conn.state_ ≠ .kConnected) :
    (r.exec op).conn.state_ ≠ .kConnected := fun hconnected =>
  (r.conn.exec_connected hconnected).elim h.establish hst

/-- Out of writing mode nothing is written any more. -/
theorem Passive.quiet (h : Passive op) (hw : r.conn.channel_.isWriting = false) :
    (r.exec op).conn.channel_.isWriting = false ∧ (r.exec op).accepted = r.accepted := by
  constructor
  · rw [← Bool.not_eq_true]
    intro hwriting
    rcases r.conn.exec_isWriting hwriting with ⟨⟨data, a, hop⟩, -⟩ | hbefore
    · exact h.send data a hop
    · rw [hw] at hbefore
      cases hbefore
  · rw [accepted_exec, acceptedBytes_eq_nil, List.append_nil]
    intro n bs hmem
    rcases r.conn.exec_writeSide hmem trivial with ⟨heq, -⟩ | ⟨-, ⟨⟨data, a, hop⟩, -⟩ | hbefore⟩
    · cases heq
    · exact h.send data a hop
    · rw [hw] at hbefore
      cases hbefore

end Step

/-- A connection that has answered, or cannot any more: it is left alone. -/
structure Settled (n : Nat) (bs : List UInt8) (r : ConnRun) : Prop where
  state : r.conn.state_ ≠ .kConnected
  writing : r.conn.channel_.isWriting = false
  halfCloses : r.halfCloses = n
  accepted : r.accepted = bs

/-- A connection that has answered in part: it may write on, but does not half-close. -/
structure Draining (bs : List UInt8) (r : ConnRun) : Prop where
  state : r.conn.state_ ≠ .kConnected
  halfCloses : r.halfCloses = 0
  accepted : bs <+: r.accepted

/-- A connection that has not been given a message yet. -/
structure Fresh (r : ConnRun) : Prop where
  state : r.conn.state_ = .kConnected
  idle : r.conn.Idle
  input : r.conn.inputBuffer_ = SoundBuffer.new
  halfCloses : r.halfCloses = 0
  accepted : r.accepted = []

section React
variable {r : ConnRun} {n : Nat} {bs : List UInt8}

/-- Where it is no longer connected, a message changes only the input buffer. -/
theorem onMessage_of_not_connected (h : r.conn.state_ ≠ .kConnected) (w : WriteAnswer) :
    r.onMessage w = { r with
      conn := { r.conn with inputBuffer_ := r.conn.inputBuffer_.retrieveAllAsString.2 } } := by
  simp only [onMessage, send, shutdown, if_neg h]

/-- What a connection that is no longer connected reacts with is one activation. -/
theorem react_of_not_connected (h : r.conn.state_ ≠ .kConnected) (a : EchoAction) :
    ∃ op, Passive op ∧ (r.react a).conn.state_ = (r.exec op).conn.state_ ∧
      (r.react a).conn.channel_ = (r.exec op).conn.channel_ ∧
      (r.react a).log = (r.exec op).log := by
  cases a with
  | readable a err w =>
    have hpassive : Passive (.handleRead a err) := ⟨by simp, by simp, by simp⟩
    refine ⟨_, hpassive, ?_⟩
    simp only [react]
    split
    · rw [onMessage_of_not_connected (hpassive.state h)]
      exact ⟨rfl, rfl, rfl⟩
    · exact ⟨rfl, rfl, rfl⟩
  | writable w => exact ⟨_, ⟨by simp, by simp, by simp⟩, rfl, rfl, rfl⟩
  | hangup => exact ⟨.handleClose, ⟨by simp, by simp, by simp⟩, rfl, rfl, rfl⟩
  | destroyed => exact ⟨.connectDestroyed _, ⟨by simp, by simp, by simp⟩, rfl, rfl, rfl⟩

theorem halfCloses_of_log {r r' : ConnRun} (h : r'.log = r.log) : r'.halfCloses = r.halfCloses := by
  rw [halfCloses, effects, h]
  rfl

theorem accepted_of_log {r r' : ConnRun} (h : r'.log = r.log) : r'.accepted = r.accepted := by
  rw [accepted, effects, h]
  rfl

theorem Settled.react (h : Settled n bs r) (a : EchoAction) : Settled n bs (r.react a) := by
  obtain ⟨op, hpassive, hst, hch, hlog⟩ := react_of_not_connected h.state a
  obtain ⟨hquiet, haccepted⟩ := hpassive.quiet h.writing
  refine ⟨hst ▸ hpassive.state h.state, hch ▸ hquiet, ?_, ?_⟩
  · rw [halfCloses_of_log hlog, hpassive.halfCloses, h.halfCloses]
  · rw [accepted_of_log hlog, haccepted, h.accepted]

theorem Draining.react (h : Draining bs r) (a : EchoAction) : Draining bs (r.react a) := by
  obtain ⟨op, hpassive, hst, -, hlog⟩ := react_of_not_connected h.state a
  refine ⟨hst ▸ hpassive.state h.state, ?_, ?_⟩
  · rw [halfCloses_of_log hlog, hpassive.halfCloses, h.halfCloses]
  · rw [accepted_of_log hlog, accepted_exec]
    exact h.accepted.trans (List.prefix_append _ _)

theorem Settled.run (h : Settled n bs r) (as : List EchoAction) :
    Settled n bs (as.foldl ConnRun.react r) := by
  induction as generalizing r with
  | nil => exact h
  | cons a as ih => exact ih (h.react a)

theorem Draining.run (h : Draining bs r) (as : List EchoAction) :
    Draining bs (as.foldl ConnRun.react r) := by
  induction as generalizing r with
  | nil => exact h
  | cons a as ih => exact ih (h.react a)

/-- Closed before a message has come. -/
theorem Fresh.closed (h : Fresh r) (op : ConnOp) (hpassive : Passive op)
    (hst : (r.exec op).conn.state_ ≠ .kConnected) : Settled 0 [] (r.exec op) := by
  obtain ⟨hquiet, haccepted⟩ := hpassive.quiet h.idle.1
  exact ⟨hst, hquiet, hpassive.halfCloses.trans h.halfCloses, haccepted.trans h.accepted⟩

/-- Nothing to read, or nothing to write. -/
theorem Fresh.kept (h : Fresh r) {op : ConnOp} (hpassive : Passive op)
    (hconn : (r.conn.exec op).1 = r.conn) : Fresh (r.exec op) := by
  obtain ⟨-, haccepted⟩ := hpassive.quiet h.idle.1
  refine ⟨?_, ?_, ?_, hpassive.halfCloses.trans h.halfCloses, haccepted.trans h.accepted⟩
  · rw [conn_exec, hconn, h.state]
  · rw [conn_exec, hconn]
    exact h.idle
  · rw [conn_exec, hconn, h.input]

/-- The half-close that follows a reply, in writing mode or out of it. -/
theorem shutdown_spec (hst : r.conn.state_ = .kConnected) :
    r.shutdown.conn = { r.conn with state_ := .kDisconnecting } ∧
      r.shutdown.accepted = r.accepted ∧
      r.shutdown.halfCloses = r.halfCloses + if r.conn.channel_.isWriting then 0 else 1 := by
  have hshutdown : r.shutdown = (r.exec .setDisconnecting).exec .shutdownInLoop := if_pos hst
  have hconn : (r.exec .setDisconnecting).conn = { r.conn with state_ := .kDisconnecting } := rfl
  have hnone : (r.exec .setDisconnecting).accepted = r.accepted := by
    rw [accepted_exec]
    exact List.append_nil _
  rw [hshutdown]
  refine ⟨by rw [conn_exec, TcpConnection.exec, TcpConnection.shutdownInLoop_conn, hconn], ?_, ?_⟩
  · rw [accepted_exec, hnone, acceptedBytes_eq_nil, List.append_nil]
    intro n bs hmem
    cases TcpConnection.shutdownInLoop_effects _ hmem
  · rw [halfCloses_exec, halfCloses_exec, hconn]
    simp only [TcpConnection.exec, TcpConnection.shutdownInLoop]
    cases r.conn.channel_.isWriting <;> rfl

/-- **The reply to the first message.** -/
theorem reply_spec (hst : r.conn.state_ = .kConnected) (hidle : r.conn.Idle)
    (hhalf : r.halfCloses = 0) (hnone : r.accepted = []) {msg : List UInt8} (hmsg : msg ≠ [])
    (w : WriteAnswer) :
    if HandedOver msg w then Settled 1 (directReply msg w) (r.send msg w).shutdown
    else Draining (directReply msg w) (r.send msg w).shutdown := by
  have hsend : r.send msg w = r.exec (.sendInLoop msg w) := if_pos hst
  have hst' : (r.exec (.sendInLoop msg w)).conn.state_ = .kConnected :=
    (r.conn.sendInLoop_state msg w).trans hst
  have hopen : r.conn.state_ ≠ .kDisconnected := by simp [hst]
  obtain ⟨hbytes, hhanded⟩ := r.conn.directWrite_idle hidle hmsg w
  have haccepted : (r.exec (.sendInLoop msg w)).accepted = directReply msg w := by
    rw [accepted_exec, hnone, TcpConnection.exec_sendInLoop,
      TcpConnection.acceptedBytes_sendInLoop _ _ _ hopen, List.nil_append, ← hbytes]
    exact (r.conn.directWrite_spec msg w).1.symm
  have hhalf' : (r.exec (.sendInLoop msg w)).halfCloses = 0 := by
    rw [halfCloses_exec, hhalf, List.count_eq_zero_of_not_mem]
    exact fun hmem => TcpConnection.sendInLoop_silent _ _ _ hmem
  obtain ⟨hconn, haccepted', hhalf''⟩ := shutdown_spec hst'
  rw [haccepted] at haccepted'
  rw [hhalf', Nat.zero_add] at hhalf''
  have hstate : (r.exec (.sendInLoop msg w)).shutdown.conn.state_ ≠ .kConnected := by
    rw [hconn]
    simp
  rw [hsend]
  split
  · rename_i hdone
    -- nothing is left: the channel is out of writing mode, as before
    have hwriting : (r.exec (.sendInLoop msg w)).conn.channel_.isWriting = false := by
      rcases r.conn.sendInLoop_cases msg w with ⟨h, -⟩ | ⟨-, -, h⟩ | ⟨-, hf, hlt, -⟩
      · exact absurd h hopen
      · rw [conn_exec, TcpConnection.exec_sendInLoop, h]
        exact hidle.1
      · rcases hhanded.mpr hdone with hfault | hle
        · rw [hf] at hfault
          cases hfault
        · exact absurd hlt (Nat.not_lt.mpr hle)
    rw [hwriting] at hhalf''
    exact ⟨hstate, by rw [hconn]; exact hwriting, hhalf'', haccepted'⟩
  · rename_i hleft
    have hwriting : (r.exec (.sendInLoop msg w)).conn.channel_.isWriting = true := by
      rcases r.conn.sendInLoop_cases msg w with ⟨h, -⟩ | ⟨-, hdone, -⟩ | ⟨-, -, -, h⟩
      · exact absurd h hopen
      · exact absurd (hhanded.mp hdone) hleft
      · rw [conn_exec, TcpConnection.exec_sendInLoop, h]
        exact TcpConnection.bufferRest_isWriting _ _
    rw [hwriting] at hhalf''
    exact ⟨hstate, hhalf'', haccepted' ▸ List.prefix_refl _⟩

/-- The message callback of a fresh connection, for what has just been read. -/
theorem Fresh.message (h : Fresh r) {incoming : List UInt8} (hne : incoming ≠ []) (err : Int)
    (w : WriteAnswer) :
    if HandedOver (incoming.take SoundBuffer.new.readCapacity) w then
      Settled 1 (directReply (incoming.take SoundBuffer.new.readCapacity) w)
        (r.react (.readable (.data incoming) err w))
    else
      Draining (directReply (incoming.take SoundBuffer.new.readCapacity) w)
        (r.react (.readable (.data incoming) err w)) := by
  have hread := r.conn.handleRead_data hne err
  have hpassive : Passive (.handleRead (.data incoming) err) := ⟨by simp, by simp, by simp⟩
  have hexec : r.conn.exec (.handleRead (.data incoming) err) = _ := hread
  have hmem : .messageCallback ∈ (r.conn.exec (.handleRead (.data incoming) err)).2 := by
    rw [hexec]
    exact List.mem_singleton_self _
  have hmsg : (r.conn.inputBuffer_.readFd (.data incoming)).retrieveAllAsString.1 =
      incoming.take SoundBuffer.new.readCapacity := by
    rw [SoundBuffer.retrieveAllAsString_fst, h.input]
    rw [SoundBuffer.readable_readFd, SoundBuffer.readable_new, List.nil_append]
  have hne' := SoundBuffer.new.take_readCapacity_ne hne
  obtain ⟨-, haccepted⟩ := hpassive.quiet h.idle.1
  have hreact : r.react (.readable (.data incoming) err w) =
      (r.exec (.handleRead (.data incoming) err)).onMessage w := if_pos hmem
  have hconn : (r.exec (.handleRead (.data incoming) err)).conn =
      { r.conn with inputBuffer_ := r.conn.inputBuffer_.readFd (.data incoming) } :=
    congrArg Prod.fst hexec
  rw [hreact]
  simp only [onMessage, hconn, hmsg]
  refine reply_spec ?_ ?_ ?_ ?_ hne' w
  · exact h.state
  · exact h.idle
  · exact hpassive.halfCloses.trans h.halfCloses
  · exact haccepted.trans h.accepted

/-- An error, or the end of the stream. -/
theorem react_readable_silent {a : ReadAnswer} {err : Int} (w : WriteAnswer)
    (h : .messageCallback ∉ (r.conn.exec (.handleRead a err)).2) :
    r.react (.readable a err w) = r.exec (.handleRead a err) := by
  simp only [ConnRun.react, if_neg h]

/-- **What a fresh connection can meet**: something that leaves it fresh, something that
closes it, or its first message. -/
theorem Fresh.react (h : Fresh r) (a : EchoAction) :
    (Fresh (r.react a) ∧ ∀ as, firstMessage (a :: as) = firstMessage as) ∨
      (Settled 0 [] (r.react a) ∧ ∀ as, firstMessage (a :: as) = none) ∨
      ∃ msg w, (∀ as, firstMessage (a :: as) = some (msg, w)) ∧
        if HandedOver msg w then Settled 1 (directReply msg w) (r.react a)
        else Draining (directReply msg w) (r.react a) := by
  cases a with
  | writable w =>
    have hsame := r.conn_handleWrite_of_not_writing w h.idle.1
    exact Or.inl ⟨h.kept ⟨by simp, by simp, by simp⟩ hsame, fun _ => rfl⟩
  | hangup =>
    refine Or.inr (Or.inl ⟨h.closed .handleClose ⟨by simp, by simp, by simp⟩ ?_, fun _ => rfl⟩)
    simp [TcpConnection.exec, TcpConnection.handleClose, TcpConnection.setState]
  | destroyed =>
    refine Or.inr (Or.inl ⟨h.closed (.connectDestroyed r.conn.state_)
      ⟨by simp, by simp, by simp⟩ ?_, fun _ => rfl⟩)
    rw [conn_exec, h.state]
    simp [TcpConnection.exec, TcpConnection.connectDestroyed, TcpConnection.setState]
  | readable a err w =>
    cases a with
    | fail e =>
      obtain ⟨hconn, htexts⟩ := r.conn.handleRead_fail e err
      have hsilent : .messageCallback ∉ (r.conn.exec (.handleRead (.fail e) err)).2 := by
        intro hmem
        obtain ⟨text, htext⟩ := htexts _ hmem
        cases htext
      rw [react_readable_silent w hsilent]
      exact Or.inl ⟨h.kept ⟨by simp, by simp, by simp⟩ hconn, fun _ => rfl⟩
    | data incoming =>
      by_cases hnil : incoming = []
      · subst hnil
        have hsilent : .messageCallback ∉ (r.conn.exec (.handleRead (.data []) err)).2 := by
          simp [TcpConnection.exec, r.conn.handleRead_eof, TcpConnection.handleClose,
            TcpConnection.onChannel]
        rw [react_readable_silent w hsilent]
        refine Or.inr (Or.inl ⟨h.closed (.handleRead (.data []) err)
          ⟨by simp, by simp, by simp⟩ ?_, fun _ => rfl⟩)
        simp [TcpConnection.exec, r.conn.handleRead_eof, TcpConnection.handleClose,
          TcpConnection.setState]
      · exact Or.inr (Or.inr ⟨_, _, fun _ => if_neg hnil, h.message hnil err w⟩)

end React

/-- **An echo server answers once.**  Whatever happens to a connection in whatever order, it
half-closes at most once, and does so exactly when the direct write of its first reply leaves
nothing to wait for; what it has written by then is what that write took, and if that was the
end of it, it never writes again. -/
theorem echoes_once (name : String) (fd : Int) (writeComplete highWaterMark : Bool)
    (as : List EchoAction) :
    (as.foldl react (established name fd writeComplete highWaterMark)).Echoed
      (firstMessage as) := by
  have hfresh : Fresh (established name fd writeComplete highWaterMark) := by
    obtain ⟨haccepted, -, hbuffer, hwriting, hst⟩ :=
      established_spec name fd writeComplete highWaterMark
    refine ⟨hst, ⟨hwriting, ?_⟩, rfl, rfl, haccepted⟩
    rw [hbuffer]
    rfl
  generalize established name fd writeComplete highWaterMark = r at hfresh
  induction as generalizing r with
  | nil => exact ⟨hfresh.halfCloses, hfresh.accepted⟩
  | cons a as ih =>
    rw [List.foldl_cons]
    rcases hfresh.react a with ⟨hkept, hfirst⟩ | ⟨hclosed, hfirst⟩ | ⟨msg, w, hfirst, hreplied⟩
    · rw [hfirst]
      exact ih _ hkept
    · have hsettled := hclosed.run as
      rw [hfirst]
      exact ⟨hsettled.halfCloses, hsettled.accepted⟩
    · rw [hfirst, Echoed]
      split at hreplied
      · rename_i hdone
        have hsettled := hreplied.run as
        rw [if_pos hdone]
        exact ⟨hsettled.halfCloses, hsettled.accepted⟩
      · rename_i hleft
        have hdraining := hreplied.run as
        rw [if_neg hleft]
        exact ⟨hdraining.halfCloses, hdraining.accepted⟩

end ConnRun
end Mymuduo
