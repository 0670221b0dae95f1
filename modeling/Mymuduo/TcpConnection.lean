import Mymuduo.Buffer
import Mymuduo.Channel

/-! # A TCP connection

The members of `TcpConnection` and the functions its loop runs on them.  Each
function returns the connection as it leaves it and the list of its effects, in
program order: calls of `write(2)` on the connection's fd, the half-close, the
poller operations of its channel, the callbacks it invokes, the notifications it
queues on its loop, and the errors it logs.  Whatever owns the connection (a
loop, a server) interprets the effects.

`ConnOp` names one activation of such a function with all its inputs and `exec`
runs it.  State changes another thread makes to the connection are limited to
`setState(kDisconnecting)` in `shutdown`, which is an operation of its own.
-/
namespace Mymuduo

/-- `TcpConnection::StateE`. -/
inductive StateE where
  | kDisconnected
  | kConnecting
  | kConnected
  | kDisconnecting
deriving DecidableEq, Repr

/-- Which of its call sites invokes `connectionCallback_`: `connectEstablished`,
or one of `handleClose` and `connectDestroyed`. -/
inductive Notice where
  | up
  | down
deriving DecidableEq, Repr

/-- User callbacks a connection queues on its loop.  `callable` is whether the
`std::function` bound is non-empty. -/
inductive Notification where
  | writeComplete (callable : Bool)
  | highWaterMark (callable : Bool) (len : Nat)
deriving DecidableEq, Repr

/-- What a function of the connection does besides changing members. -/
inductive Effect where
  /-- `write(2)` on the connection's fd with `count` bytes, of which `accepted` are
  taken (none when the call fails). -/
  | write (count : Nat) (accepted : List UInt8)
  /-- `shutdown(sockfd, SHUT_WR)`. -/
  | shutdownWrite
  | poller (op : PollerOp)
  | connectionCallback (notice : Notice)
  | messageCallback
  | closeCallback
  | queueInLoop (n : Notification)
  | logError (text : String)
deriving DecidableEq, Repr

structure TcpConnection where
  name_ : String
  state_ : StateE
  channel_ : Channel
  inputBuffer_ : SoundBuffer
  outputBuffer_ : SoundBuffer
  highWaterMark_ : Nat
  /-- Whether `writeCompleteCallback_` is non-empty. -/
  writeCompleteCallback_ : Bool
  /-- Whether `highWaterMarkCallback_` is non-empty. -/
  highWaterMarkCallback_ : Bool
deriving DecidableEq, Repr

/-- The connection a function leaves, and its effects. -/
abbrev Outcome := TcpConnection × List Effect

namespace TcpConnection

/-- The constructor, and the optional callbacks set right after it. -/
def new (name : String) (sockfd : Int) (writeComplete highWaterMark : Bool) : TcpConnection where
  name_ := name
  state_ := .kConnecting
  channel_ := Channel.new sockfd
  inputBuffer_ := SoundBuffer.new
  outputBuffer_ := SoundBuffer.new
  highWaterMark_ := 64 * 1024 * 1024
  writeCompleteCallback_ := writeComplete
  highWaterMarkCallback_ := highWaterMark

def connected (c : TcpConnection) : Bool := c.state_ = .kConnected

def setState (c : TcpConnection) (s : StateE) : TcpConnection := { c with state_ := s }

/-- A setter of the channel, with the poller operations it causes. -/
def onChannel (c : TcpConnection) (f : Channel → Channel × List PollerOp) : Outcome :=
  ({ c with channel_ := (f c.channel_).1 }, (f c.channel_).2.map .poller)

def connectEstablished (c : TcpConnection) : Outcome :=
  let r := (c.setState .kConnected).onChannel fun ch => ch.tie.enableReading
  (r.1, r.2 ++ [.connectionCallback .up])

/-- `connectDestroyed`; `loaded` is the value its test of `state_` read. -/
def connectDestroyed (c : TcpConnection) (loaded : StateE) : Outcome :=
  if loaded = .kConnected then
    let r := (c.setState .kDisconnected).onChannel Channel.disableAll
    let r' := r.1.onChannel Channel.remove
    (r'.1, r.2 ++ .connectionCallback .down :: r'.2)
  else
    c.onChannel Channel.remove

def handleClose (c : TcpConnection) : Outcome :=
  let r := (c.setState .kDisconnected).onChannel Channel.disableAll
  (r.1, r.2 ++ [.connectionCallback .down, .closeCallback])

/-- `handleError`; `err` is what `getsockopt(SO_ERROR)` or its `errno` gave. -/
def handleError (c : TcpConnection) (err : Int) : Outcome :=
  (c, [.logError ("TcpConnection::handleError name:" ++ c.name_ ++ " - SO_ERROR:" ++ toString err
    ++ " \n")])

def handleRead (c : TcpConnection) (a : ReadAnswer) (err : Int) : Outcome :=
  let c' := { c with inputBuffer_ := c.inputBuffer_.readFd a }
  match (c.inputBuffer_.toBuffer.readFd a).1 with
  | .ok n => if 0 < n then (c', [.messageCallback]) else c'.handleClose
  | .error _ =>
    let r := c'.handleError err
    (r.1, .logError "TcpConnection::handleRead" :: r.2)

def shutdownInLoop (c : TcpConnection) : Outcome :=
  if c.channel_.isWriting then (c, []) else (c, [.shutdownWrite])

/-- The part of `handleWrite` after a write that took `n > 0` bytes. -/
def afterWrite (c : TcpConnection) (n : Nat) : Outcome :=
  let c' := { c with outputBuffer_ := c.outputBuffer_.retrieve n }
  -- the callback is bound here without a test that it is set
  let done := if c'.outputBuffer_.readableBytes = 0 then
    [.queueInLoop (.writeComplete c'.writeCompleteCallback_)] else []
  let half := if c'.state_ = .kDisconnecting then c'.shutdownInLoop else (c', [])
  (half.1, done ++ half.2)

def handleWrite (c : TcpConnection) (a : WriteAnswer) : Outcome :=
  if c.channel_.isWriting then
    match c.outputBuffer_.writeFd a with
    | .ok accepted =>
      let call := .write c.outputBuffer_.writableBytes accepted
      if 0 < accepted.length then
        let r := c.afterWrite accepted.length
        (r.1, call :: r.2)
      else
        (c, [call, .logError "TcpConnection::handlewrite"])
    | .error _ =>
      (c, [.write c.outputBuffer_.writableBytes [], .logError "TcpConnection::handlewrite"])
  else
    (c, [.logError ("TcpConnection fd=" ++ toString c.channel_.fd_ ++
      " is down, no more writing \n")])

/-- The first half of `sendInLoop`: `nwrote` (`0` after a failure), `faultError`
and the effects of the direct write, which is attempted only when nothing is
waiting. -/
def directWrite (c : TcpConnection) (data : List UInt8) (a : WriteAnswer) :
    Nat × Bool × List Effect :=
  if !c.channel_.isWriting && c.outputBuffer_.readableBytes == 0 then
    match write data a with
    | .ok accepted =>
      let done := if data.length - accepted.length = 0 ∧ c.writeCompleteCallback_ then
        [.queueInLoop (.writeComplete true)] else []
      (accepted.length, false, .write data.length accepted :: done)
    | .error e =>
      if e ≠ .EWOULDBLOCK then
        -- `errno` is read again here, after the logging call
        (0, a.logged = some .EPIPE || a.logged = some .ECONNRESET,
          [.write data.length [], .logError "TcpConnection::sendInLoop"])
      else
        (0, false, [.write data.length []])
  else
    (0, false, [])

/-- The second half of `sendInLoop`: what is left of the message goes behind the
bytes already waiting. -/
def bufferRest (c : TcpConnection) (rest : List UInt8) : Outcome :=
  let oldLen := c.outputBuffer_.readableBytes
  let mark := if oldLen + rest.length ≥ c.highWaterMark_ ∧ oldLen < c.highWaterMark_
      ∧ c.highWaterMarkCallback_ then
    [.queueInLoop (.highWaterMark true (oldLen + rest.length))] else []
  let c' := { c with outputBuffer_ := c.outputBuffer_.append rest }
  let r := if c'.channel_.isWriting then (c', []) else c'.onChannel Channel.enableWriting
  (r.1, mark ++ r.2)

def sendInLoop (c : TcpConnection) (data : List UInt8) (a : WriteAnswer) : Outcome :=
  if c.state_ = .kDisconnected then
    (c, [.logError "disconnected, give up writing!"])
  else
    let (nwrote, faultError, effects) := c.directWrite data a
    if !faultError && 0 < data.length - nwrote then
      let r := c.bufferRest (data.drop nwrote)
      (r.1, effects ++ r.2)
    else
      (c, effects)

/-- The callbacks the constructor gives the channel: the close and the error
callback are both `handleClose`. -/
def callbacks {ω : Type*} (read write close : ω) : Channel.Callbacks ω where
  readCallback_ := some read
  writeCallback_ := some write
  closeCallback_ := some close
  errorCallback_ := some close

end TcpConnection

/-- One activation of a function on the connection, with its inputs. -/
inductive ConnOp where
  | connectEstablished
  | connectDestroyed (loaded : StateE)
  | sendInLoop (data : List UInt8) (a : WriteAnswer)
  | shutdownInLoop
  /-- The store in `shutdown`, by whatever thread called it. -/
  | setDisconnecting
  | handleRead (a : ReadAnswer) (err : Int)
  | handleWrite (a : WriteAnswer)
  | handleClose
deriving DecidableEq, Repr

/-- Running one activation. -/
def TcpConnection.exec (c : TcpConnection) : ConnOp → Outcome
  | .connectEstablished => c.connectEstablished
  | .connectDestroyed loaded => c.connectDestroyed loaded
  | .sendInLoop data a => c.sendInLoop data a
  | .shutdownInLoop => c.shutdownInLoop
  | .setDisconnecting => (c.setState .kDisconnecting, [])
  | .handleRead a err => c.handleRead a err
  | .handleWrite a => c.handleWrite a
  | .handleClose => c.handleClose

/-! ## What the functions do -/

/-- The bytes the kernel took in a list of effects. -/
def acceptedBytes (es : List Effect) : List UInt8 :=
  es.flatMap fun
    | .write _ accepted => accepted
    | _ => []

/-- An effect that neither calls back nor closes the write side. -/
def Effect.Silent : Effect → Prop
  | .write .. | .poller _ | .queueInLoop _ | .logError _ => True
  | _ => False

@[simp] theorem acceptedBytes_nil : acceptedBytes [] = [] := rfl

@[simp] theorem acceptedBytes_append (es fs : List Effect) :
    acceptedBytes (es ++ fs) = acceptedBytes es ++ acceptedBytes fs := by
  simp [acceptedBytes]

@[simp] theorem acceptedBytes_cons_write (n : Nat) (bs : List UInt8) (es : List Effect) :
    acceptedBytes (.write n bs :: es) = bs ++ acceptedBytes es := by
  simp [acceptedBytes]

theorem acceptedBytes_eq_nil {es : List Effect} (h : ∀ n bs, .write n bs ∉ es) :
    acceptedBytes es = [] := by
  refine List.flatMap_eq_nil_iff.mpr fun e he => ?_
  cases e with
  | write n bs => exact absurd he (h n bs)
  | _ => rfl

namespace TcpConnection
variable (c : TcpConnection) (data : List UInt8) (a : WriteAnswer)

@[simp] theorem onChannel_outputBuffer (f : Channel → Channel × List PollerOp) :
    (c.onChannel f).1.outputBuffer_ = c.outputBuffer_ := rfl

@[simp] theorem onChannel_state (f : Channel → Channel × List PollerOp) :
    (c.onChannel f).1.state_ = c.state_ := rfl

theorem onChannel_effects (f : Channel → Channel × List PollerOp) {e : Effect}
    (h : e ∈ (c.onChannel f).2) : ∃ op, e = .poller op := by
  obtain ⟨op, -, rfl⟩ := List.mem_map.mp h
  exact ⟨op, rfl⟩

/-! ### `sendInLoop` -/

theorem bufferRest_state : (c.bufferRest data).1.state_ = c.state_ := by
  unfold bufferRest
  simp only
  split <;> rfl

theorem bufferRest_readable :
    (c.bufferRest data).1.outputBuffer_.readable = c.outputBuffer_.readable ++ data := by
  unfold bufferRest
  simp only
  split <;> simp

/-- Whatever is left of a message leaves the channel in writing mode. -/
theorem bufferRest_isWriting : (c.bufferRest data).1.channel_.isWriting = true := by
  unfold bufferRest
  simp only
  split
  · assumption
  · simp [onChannel]

theorem bufferRest_effects {e : Effect} (h : e ∈ (c.bufferRest data).2) :
    (∃ op, e = .poller op) ∨ ∃ n, e = .queueInLoop n := by
  unfold bufferRest at h
  simp only [List.mem_append] at h
  rcases h with h | h
  · split at h
    · exact Or.inr ⟨_, List.mem_singleton.mp h⟩
    · cases h
  · split at h
    · cases h
    · exact Or.inl (onChannel_effects _ _ h)

/-- **The direct write.**  Bytes are taken only when nothing waits, and they are
the first `nwrote` bytes of the message. -/
theorem directWrite_spec :
    acceptedBytes (c.directWrite data a).2.2 = data.take (c.directWrite data a).1 ∧
      (c.directWrite data a).1 ≤ data.length ∧
      (0 < (c.directWrite data a).1 → c.outputBuffer_.readable = []) := by
  unfold directWrite
  split
  · rename_i hempty
    simp only [Bool.and_eq_true, beq_iff_eq, SoundBuffer.readableBytes_eq,
      List.length_eq_zero_iff] at hempty
    cases a with
    | accept k =>
      refine ⟨?_, ?_, fun _ => hempty.2⟩
      · simp only [write, acceptedBytes_cons_write]
        rw [acceptedBytes_eq_nil (by intro n bs h; split at h <;> simp at h), List.append_nil,
          List.length_take, List.take_eq_take_min]
      · simp only [write, List.length_take]
        exact Nat.min_le_right k data.length
    | fail e logged =>
      refine ⟨?_, ?_, ?_⟩ <;> simp only [write] <;> split <;> simp [acceptedBytes]
  · simp

theorem directWrite_silent {e : Effect} (h : e ∈ (c.directWrite data a).2.2) : e.Silent := by
  unfold directWrite at h
  split at h
  · cases a with
    | accept k =>
      simp only [write, List.mem_cons] at h
      rcases h with rfl | h
      · trivial
      · split at h
        · rw [List.mem_singleton.mp h]; trivial
        · cases h
    | fail e' logged =>
      simp only [write] at h
      split at h <;> simp only [List.mem_cons, List.not_mem_nil, or_false] at h
      · rcases h with rfl | rfl <;> trivial
      · rw [h]; trivial
  · cases h

/-- **The cases of `sendInLoop`**: refused, handed over or dropped, or its rest
buffered. -/
theorem sendInLoop_cases :
    (c.state_ = .kDisconnected ∧
      c.sendInLoop data a = (c, [.logError "disconnected, give up writing!"])) ∨
    (c.state_ ≠ .kDisconnected ∧
      ((c.directWrite data a).2.1 = true ∨ data.length ≤ (c.directWrite data a).1) ∧
      c.sendInLoop data a = (c, (c.directWrite data a).2.2)) ∨
    (c.state_ ≠ .kDisconnected ∧ (c.directWrite data a).2.1 = false ∧
      (c.directWrite data a).1 < data.length ∧
      c.sendInLoop data a = ((c.bufferRest (data.drop (c.directWrite data a).1)).1,
        (c.directWrite data a).2.2 ++ (c.bufferRest (data.drop (c.directWrite data a).1)).2)) := by
  unfold sendInLoop
  by_cases hst : c.state_ = .kDisconnected
  · exact Or.inl ⟨hst, if_pos hst⟩
  · rw [if_neg hst]
    obtain ⟨nwrote, fault, es⟩ := c.directWrite data a
    refine Or.inr ?_
    cases fault with
    | true => exact Or.inl ⟨hst, Or.inl rfl, rfl⟩
    | false =>
      by_cases hrest : nwrote < data.length
      · refine Or.inr ⟨hst, rfl, hrest, ?_⟩
        simp [show 0 < data.length - nwrote by omega]
      · refine Or.inl ⟨hst, Or.inr (by omega), ?_⟩
        simp [show ¬ 0 < data.length - nwrote by omega]

@[simp] theorem sendInLoop_state : (c.sendInLoop data a).1.state_ = c.state_ := by
  rcases c.sendInLoop_cases data a with ⟨-, h⟩ | ⟨-, -, h⟩ | ⟨-, -, -, h⟩ <;> rw [h]
  exact bufferRest_state _ _

theorem sendInLoop_silent {e : Effect} (h : e ∈ (c.sendInLoop data a).2) : e.Silent := by
  rcases c.sendInLoop_cases data a with ⟨-, hs⟩ | ⟨-, -, hs⟩ | ⟨-, -, -, hs⟩ <;> rw [hs] at h
  · rw [List.mem_singleton.mp h]; trivial
  · exact directWrite_silent _ _ _ h
  · rcases List.mem_append.mp h with h | h
    · exact directWrite_silent _ _ _ h
    · rcases bufferRest_effects _ _ h with ⟨op, rfl⟩ | ⟨n, rfl⟩ <;> trivial

/-- What the kernel takes of a message that is not refused. -/
theorem acceptedBytes_sendInLoop (hst : c.state_ ≠ .kDisconnected) :
    acceptedBytes (c.sendInLoop data a).2 = data.take (c.directWrite data a).1 := by
  rcases c.sendInLoop_cases data a with ⟨h, -⟩ | ⟨-, -, h⟩ | ⟨-, -, -, h⟩
  · exact absurd h hst
  · rw [h, (c.directWrite_spec data a).1]
  · have hrest : acceptedBytes (c.bufferRest (data.drop (c.directWrite data a).1)).2 = [] :=
      acceptedBytes_eq_nil fun n bs hmem => by
        rcases bufferRest_effects _ _ hmem with ⟨op, hop⟩ | ⟨n, hn⟩ <;> simp_all
    rw [h, acceptedBytes_append, (c.directWrite_spec data a).1, hrest, List.append_nil]

/-- **Without a fault `sendInLoop` puts the message behind everything sent before it**: what the
kernel takes now and what waits afterwards is what waited before and the message. -/
theorem sendInLoop_stream_of_no_fault (hst : c.state_ ≠ .kDisconnected)
    (hf : (c.directWrite data a).2.1 = false) :
    acceptedBytes (c.sendInLoop data a).2 ++ (c.sendInLoop data a).1.outputBuffer_.readable =
      c.outputBuffer_.readable ++ data := by
  obtain ⟨-, -, hempty⟩ := c.directWrite_spec data a
  rw [acceptedBytes_sendInLoop _ _ _ hst]
  rcases c.sendInLoop_cases data a with ⟨h, -⟩ | ⟨-, hdone, h⟩ | ⟨-, -, hlt, h⟩
  · exact absurd h hst
  · rw [h]
    rw [hf] at hdone
    have hall : data.length ≤ (c.directWrite data a).1 := by simpa using hdone
    rw [List.take_of_length_le hall]
    cases data with
    | nil => simp
    | cons x xs =>
      have hread := hempty (Nat.lt_of_lt_of_le (by simp) hall)
      rw [hread, List.append_nil, List.nil_append]
  · rw [h, bufferRest_readable]
    rcases Nat.eq_zero_or_pos (c.directWrite data a).1 with h0 | hpos
    · rw [h0, List.take_zero, List.drop_zero, List.nil_append]
    · rw [hempty hpos, List.nil_append, List.nil_append, List.take_append_drop]

/-- A message only ever adds to what waits. -/
theorem sendInLoop_readable : ∃ rest,
    (c.sendInLoop data a).1.outputBuffer_.readable = c.outputBuffer_.readable ++ rest ∧
      (rest = [] ∧ (c.sendInLoop data a).1.channel_.isWriting = c.channel_.isWriting ∨
        rest ≠ [] ∧ (c.sendInLoop data a).1.channel_.isWriting = true) := by
  rcases c.sendInLoop_cases data a with ⟨-, h⟩ | ⟨-, -, h⟩ | ⟨-, -, hlt, h⟩ <;> rw [h]
  · exact ⟨[], (List.append_nil _).symm, Or.inl ⟨rfl, rfl⟩⟩
  · exact ⟨[], (List.append_nil _).symm, Or.inl ⟨rfl, rfl⟩⟩
  · refine ⟨_, bufferRest_readable _ _, Or.inr ⟨?_, bufferRest_isWriting _ _⟩⟩
    intro hnil
    have hlen := congrArg List.length hnil
    rw [List.length_drop, List.length_nil] at hlen
    omega

/-! ### `handleWrite` -/

/-- How many bytes the kernel takes when it is offered the region `handleWrite`
hands to `write(2)`. -/
def flushed : Nat :=
  match a with
  | .accept k => min k c.outputBuffer_.writableBytes
  | .fail .. => 0

theorem flushed_le : c.flushed a ≤ c.outputBuffer_.writableBytes := by
  cases a with
  | accept k => exact Nat.min_le_right _ _
  | fail e logged => exact Nat.zero_le _

theorem afterWrite_spec (n : Nat) :
    (c.afterWrite n).1 = { c with outputBuffer_ := c.outputBuffer_.retrieve n } := by
  unfold afterWrite shutdownInLoop
  simp only
  split
  · split <;> rfl
  · rfl

theorem afterWrite_effects {n : Nat} {e : Effect} (h : e ∈ (c.afterWrite n).2) :
    (∃ m, e = .queueInLoop m) ∨
      e = .shutdownWrite ∧ c.state_ = .kDisconnecting ∧ c.channel_.isWriting = false := by
  unfold afterWrite shutdownInLoop at h
  simp only [List.mem_append] at h
  rcases h with h | h
  · split at h
    · exact Or.inl ⟨_, List.mem_singleton.mp h⟩
    · cases h
  · split at h
    · rename_i hst
      split at h
      · cases h
      · exact Or.inr ⟨List.mem_singleton.mp h, hst, by simpa using ‹¬ _ = true›⟩
    · cases h

/-- **The cases of `handleWrite`**: not in writing mode, no byte taken, or
`flushed` bytes taken. -/
theorem handleWrite_cases :
    (c.channel_.isWriting = false ∧ ∃ text, c.handleWrite a = (c, [.logError text])) ∨
    (c.channel_.isWriting = true ∧ c.flushed a = 0 ∧
      c.handleWrite a = (c, [.write c.outputBuffer_.writableBytes [],
        .logError "TcpConnection::handlewrite"])) ∨
    (c.channel_.isWriting = true ∧ 0 < c.flushed a ∧
      c.handleWrite a = ((c.afterWrite (c.flushed a)).1,
        .write c.outputBuffer_.writableBytes
            ((c.outputBuffer_.peek c.outputBuffer_.writableBytes).take (c.flushed a)) ::
          (c.afterWrite (c.flushed a)).2)) := by
  unfold handleWrite
  cases hw : c.channel_.isWriting with
  | false => exact Or.inl ⟨rfl, _, rfl⟩
  | true =>
    refine Or.inr ?_
    have hlen := Buffer.length_peek_writableBytes c.outputBuffer_.inv
    cases a with
    | fail e logged => exact Or.inl ⟨rfl, rfl, rfl⟩
    | accept k =>
      have htake : (c.outputBuffer_.peek c.outputBuffer_.writableBytes).take k =
          (c.outputBuffer_.peek c.outputBuffer_.writableBytes).take (c.flushed (.accept k)) := by
        rw [List.take_eq_take_min, hlen, flushed]
      have hn : ((c.outputBuffer_.peek c.outputBuffer_.writableBytes).take
          (c.flushed (.accept k))).length = c.flushed (.accept k) := by
        rw [List.length_take, hlen, flushed]
        exact Nat.min_eq_left (Nat.min_le_right _ _)
      simp only [if_true, Buffer.writeFd, write, htake, hn]
      rcases Nat.eq_zero_or_pos (c.flushed (.accept k)) with h0 | hpos
      · exact Or.inl ⟨trivial, h0, by simp [h0]⟩
      · exact Or.inr ⟨trivial, hpos, by rw [if_pos hpos]⟩

/-- `handleWrite` takes bytes off what waits and leaves the rest of the
connection alone. -/
theorem handleWrite_spec :
    (c.handleWrite a).1 = { c with outputBuffer_ := (c.handleWrite a).1.outputBuffer_ } := by
  rcases c.handleWrite_cases a with ⟨-, text, h⟩ | ⟨-, -, h⟩ | ⟨-, -, h⟩ <;> rw [h]
  rw [afterWrite_spec]

theorem handleWrite_readable : (c.handleWrite a).1.outputBuffer_.readable =
    if c.channel_.isWriting then c.outputBuffer_.readable.drop (c.flushed a)
    else c.outputBuffer_.readable := by
  rcases c.handleWrite_cases a with ⟨hw, text, h⟩ | ⟨hw, h0, h⟩ | ⟨hw, -, h⟩ <;> rw [h, hw]
  · rfl
  · simp [h0]
  · simp [afterWrite_spec]

theorem handleWrite_effects {e : Effect} (h : e ∈ (c.handleWrite a).2) :
    e.Silent ∧ (∀ n bs, e = .write n bs → c.channel_.isWriting = true) := by
  rcases c.handleWrite_cases a with ⟨-, text, hs⟩ | ⟨hw, -, hs⟩ | ⟨hw, -, hs⟩ <;> rw [hs] at h
  · rw [List.mem_singleton.mp h]
    exact ⟨trivial, by simp⟩
  · simp only [List.mem_cons, List.not_mem_nil, or_false] at h
    rcases h with rfl | rfl
    · exact ⟨trivial, fun _ _ _ => hw⟩
    · exact ⟨trivial, by simp⟩
  · rcases List.mem_cons.mp h with rfl | h
    · exact ⟨trivial, fun _ _ _ => hw⟩
    · rcases afterWrite_effects _ h with ⟨m, rfl⟩ | ⟨-, -, hw'⟩
      · exact ⟨trivial, by simp⟩
      · rw [hw] at hw'; cases hw'

end TcpConnection
end Mymuduo
