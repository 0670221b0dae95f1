import Mymuduo.SendOutcome

/-! # What one activation changes

Facts about a single activation on a connection, over all of `ConnOp`: which
activations touch the write side of the socket, the poller, the state, and which
of them close.  The runs of a connection, alone or on its loop, are reasoned about
with these and never by unfolding an activation again.
-/
namespace Mymuduo

def Effect.pollerOp? : Effect → Option PollerOp
  | .poller op => some op
  | _ => none

/-- A call on the sending side of the socket. -/
def Effect.OnWriteSide : Effect → Prop
  | .write .. | .shutdownWrite => True
  | _ => False

/-- The activation runs `handleClose`: for a close or an error, or because a read
has found the end of the stream. -/
def ConnOp.Closes : ConnOp → Prop
  | .handleClose | .handleRead (.data []) _ => True
  | _ => False

/-- A `sendInLoop` with this message and this answer of `write(2)` has something left
to wait for, and the channel is not in writing mode yet.  With nothing waiting the write is
tried: then the kernel does not take the whole message, nor is it given up. -/
def TcpConnection.StartsWriting (c : TcpConnection) (data : List UInt8) (a : WriteAnswer) : Prop :=
  c.state_ ≠ .kDisconnected ∧ c.channel_.isWriting = false ∧ data ≠ [] ∧
    (c.outputBuffer_.readableBytes = 0 → a.Leaves data.length ∧ ¬ a.GivesUp)

namespace TcpConnection
variable (c : TcpConnection)

/-- **The cases of `handleRead`**: a message, the end of the stream, an error.
Only the second touches more than `inputBuffer_`. -/
theorem handleRead_cases (a : ReadAnswer) (err : Int) :
    let c' := { c with inputBuffer_ := c.inputBuffer_.readFd a }
    c.handleRead a err = (c', [.messageCallback]) ∨
    (a = .data [] ∧ c.handleRead a err = c'.handleClose) ∨
    ∃ text text', c.handleRead a err = (c', [.logError text, .logError text']) := by
  intro c'
  unfold handleRead
  cases a with
  | fail e => exact Or.inr (Or.inr ⟨_, _, rfl⟩)
  | data incoming =>
    have hn : (c.inputBuffer_.toBuffer.readFd (.data incoming)).1 =
        .ok (incoming.take c.inputBuffer_.readCapacity).length := by
      simp only [Buffer.readFd]
      split <;> rfl
    simp only [hn]
    split
    · exact Or.inl rfl
    · rename_i h0
      refine Or.inr (Or.inl ⟨?_, rfl⟩)
      have hcap : 0 < c.inputBuffer_.readCapacity := by
        unfold Buffer.readCapacity Buffer.extrabufSize
        split <;> omega
      rw [List.length_take] at h0
      have : incoming.length = 0 := by omega
      rw [List.length_eq_zero_iff.mp this]

@[simp] theorem exec_setDisconnecting :
    c.exec .setDisconnecting = (c.setState .kDisconnecting, []) := rfl

theorem exec_sendInLoop (data : List UInt8) (a : WriteAnswer) :
    c.exec (.sendInLoop data a) = c.sendInLoop data a := rfl

theorem exec_handleWrite (a : WriteAnswer) : c.exec (.handleWrite a) = c.handleWrite a := rfl

theorem shutdownInLoop_conn : c.shutdownInLoop.1 = c := by
  unfold shutdownInLoop
  split <;> rfl

theorem connectEstablished_isWriting :
    c.connectEstablished.1.channel_.isWriting = c.channel_.isWriting := by
  simp [connectEstablished, onChannel, setState]

/-! ### Reading and closing -/

theorem handleRead_eof (err : Int) : c.handleRead (.data []) err =
    { c with inputBuffer_ := c.inputBuffer_.readFd (.data []) }.handleClose := by
  have hn : (c.inputBuffer_.toBuffer.readFd (.data [])).1 = .ok 0 := by
    simp [Buffer.readFd]
  simp [handleRead, hn]

/-- `closeCallback_` is invoked by `handleClose`, and by nothing else. -/
theorem exec_closes (op : ConnOp) : .closeCallback ∈ (c.exec op).2 ↔ op.Closes := by
  have hclose : ∀ d : TcpConnection, .closeCallback ∈ d.handleClose.2 := by
    intro d
    simp [handleClose]
  cases op with
  | connectEstablished => simp [exec, connectEstablished, onChannel, ConnOp.Closes]
  | connectDestroyed loaded =>
    refine ⟨fun he => ?_, fun h => h.elim⟩
    change _ ∈ (c.connectDestroyed loaded).2 at he
    unfold connectDestroyed at he
    split at he <;> simp [onChannel] at he
  | sendInLoop data a => exact ⟨fun he => c.sendInLoop_silent data a he, fun h => h.elim⟩
  | shutdownInLoop =>
    refine ⟨fun he => ?_, fun h => h.elim⟩
    simp only [exec, shutdownInLoop] at he
    split at he <;> simp at he
  | setDisconnecting => exact ⟨fun he => (List.not_mem_nil he).elim, fun h => h.elim⟩
  | handleRead a err =>
    constructor
    · intro he
      change _ ∈ (c.handleRead a err).2 at he
      rcases c.handleRead_cases a err with h | ⟨rfl, -⟩ | ⟨text, text', h⟩
      · rw [h] at he
        cases List.mem_singleton.mp he
      · trivial
      · rw [h] at he
        simp at he
    · intro h
      cases a with
      | fail e => exact h.elim
      | data incoming =>
        cases incoming with
        | nil =>
          rw [exec, handleRead_eof]
          exact hclose _
        | cons b bs => exact h.elim
  | handleWrite a => exact ⟨fun he => (c.handleWrite_effects a he).1, fun h => h.elim⟩
  | handleClose => exact ⟨fun _ => trivial, fun _ => hclose c⟩

/-- An activation that closes is `handleClose`, on a connection whose input buffer may
have changed. -/
theorem exec_of_closes {op : ConnOp} (h : op.Closes) : ∃ d : TcpConnection,
    d.channel_ = c.channel_ ∧ d.state_ = c.state_ ∧ c.exec op = d.handleClose := by
  cases op with
  | handleClose => exact ⟨c, rfl, rfl, rfl⟩
  | handleRead a err =>
    cases a with
    | fail e => exact h.elim
    | data incoming =>
      cases incoming with
      | nil =>
        exact ⟨{ c with inputBuffer_ := c.inputBuffer_.readFd (.data []) }, rfl, rfl,
          c.handleRead_eof err⟩
      | cons b bs => exact h.elim
  | _ => exact h.elim

theorem handleClose_effects : c.handleClose.2 =
    c.channel_.disableAll.2.map Effect.poller ++ [.connectionCallback .down, .closeCallback] := rfl

/-! ### The poller -/

theorem directWrite_pollerOps (data : List UInt8) (a : WriteAnswer) :
    (c.directWrite data a).2.2.filterMap Effect.pollerOp? = [] := by
  unfold directWrite
  split
  · cases a with
    | accept k =>
      simp only [write]
      split <;> rfl
    | fail e logged =>
      simp only [write]
      split <;> rfl
  · rfl

theorem pollerOps_map (ops : List PollerOp) :
    (ops.map Effect.poller).filterMap Effect.pollerOp? = ops := by
  induction ops with
  | nil => rfl
  | cons op ops ih => simp [Effect.pollerOp?, ih]

/-- **Which message starts writing mode**: the first of which something has to wait. -/
theorem startsWriting_iff (data : List UInt8) (a : WriteAnswer) : c.StartsWriting data a ↔
    c.state_ ≠ .kDisconnected ∧ c.channel_.isWriting = false ∧
      (c.directWrite data a).2.1 = false ∧ (c.directWrite data a).1 < data.length := by
  refine and_congr_right fun _ => and_congr_right fun hw => ?_
  by_cases hempty : c.outputBuffer_.readableBytes = 0
  · have hidle : c.Idle := ⟨hw, hempty⟩
    have hfault : (c.directWrite data a).2.1 = false ↔ ¬ a.GivesUp := by
      rw [← Bool.not_eq_true, c.directWrite_fault_iff, and_iff_right hidle]
    rw [hfault, c.directWrite_leaves_iff data a hidle]
    constructor
    · rintro ⟨-, h⟩
      exact (h hempty).symm
    · rintro ⟨hkept, hleaves⟩
      refine ⟨?_, fun _ => ⟨hleaves, hkept⟩⟩
      rintro rfl
      cases a <;> exact absurd hleaves (Nat.not_lt_zero _)
  · rw [c.directWrite_of_busy data a fun hidle => hempty hidle.2, and_iff_right rfl,
      List.length_pos_iff]
    exact and_iff_left fun h => absurd h hempty

/-- What is left of a message takes the channel into writing mode. -/
theorem bufferRest_channel (rest : List UInt8) :
    ((c.bufferRest rest).1.channel_, (c.bufferRest rest).2.filterMap Effect.pollerOp?) =
      if c.channel_.isWriting then (c.channel_, []) else c.channel_.enableWriting := by
  have hmark : ∀ (p : Prop) [Decidable p] (n : Notification),
      (if p then [Effect.queueInLoop n] else []).filterMap Effect.pollerOp? = [] := by
    intro p _ n
    split <;> rfl
  unfold bufferRest
  simp only [List.filterMap_append, hmark, List.nil_append]
  split
  · rfl
  · rw [onChannel, pollerOps_map]

/-- What `sendInLoop` does with the poller: nothing, or what entering writing mode
takes. -/
theorem sendInLoop_channel (data : List UInt8) (a : WriteAnswer) :
    ((c.sendInLoop data a).1.channel_ = c.channel_ ∧
      (c.sendInLoop data a).2.filterMap Effect.pollerOp? = []) ∨
    (c.StartsWriting data a ∧ (c.sendInLoop data a).1.channel_ = c.channel_.enableWriting.1 ∧
      (c.sendInLoop data a).2.filterMap Effect.pollerOp? = c.channel_.enableWriting.2) := by
  rcases c.sendInLoop_cases data a with ⟨-, h⟩ | ⟨-, -, h⟩ | ⟨hst, hfault, hrest, h⟩ <;> rw [h]
  · exact Or.inl ⟨rfl, rfl⟩
  · exact Or.inl ⟨rfl, c.directWrite_pollerOps data a⟩
  · have hchannel := c.bufferRest_channel (data.drop (c.directWrite data a).1)
    rw [List.filterMap_append, directWrite_pollerOps, List.nil_append]
    cases hw : c.channel_.isWriting with
    | true =>
      rw [hw, if_pos rfl, Prod.mk.injEq] at hchannel
      exact Or.inl hchannel
    | false =>
      rw [hw, if_neg Bool.false_ne_true, Prod.ext_iff] at hchannel
      exact Or.inr ⟨(c.startsWriting_iff data a).mpr ⟨hst, hw, hfault, hrest⟩, hchannel⟩

theorem handleWrite_pollerOps (a : WriteAnswer) :
    (c.handleWrite a).2.filterMap Effect.pollerOp? = [] := by
  refine List.filterMap_eq_nil_iff.mpr fun e he => ?_
  rcases c.handleWrite_cases a with ⟨-, text, h⟩ | ⟨-, -, h⟩ | ⟨-, -, h⟩ <;> rw [h] at he
  · rw [List.mem_singleton.mp he]
    rfl
  · simp only [List.mem_cons, List.not_mem_nil, or_false] at he
    rcases he with rfl | rfl <;> rfl
  · rcases List.mem_cons.mp he with rfl | he
    · rfl
    · rcases afterWrite_effects _ he with ⟨m, rfl⟩ | ⟨rfl, -⟩ <;> rfl

theorem shutdownInLoop_effects {e : Effect} (he : e ∈ c.shutdownInLoop.2) : e = .shutdownWrite := by
  unfold shutdownInLoop at he
  split at he
  · cases he
  · exact List.mem_singleton.mp he

/-- **Who touches the channel's registration**: the steps of the connection's life, and
a `sendInLoop` that enters writing mode. -/
theorem exec_channel (op : ConnOp) :
    ((c.exec op).1.channel_ = c.channel_ ∧ (c.exec op).2.filterMap Effect.pollerOp? = []) ∨
      op = .connectEstablished ∨ (∃ loaded, op = .connectDestroyed loaded) ∨ op.Closes ∨
      ∃ data a, op = .sendInLoop data a ∧ c.StartsWriting data a := by
  cases op with
  | connectEstablished => exact Or.inr (Or.inl rfl)
  | connectDestroyed loaded => exact Or.inr (Or.inr (Or.inl ⟨loaded, rfl⟩))
  | handleClose => exact Or.inr (Or.inr (Or.inr (Or.inl trivial)))
  | setDisconnecting => exact Or.inl ⟨rfl, rfl⟩
  | shutdownInLoop =>
    refine Or.inl ⟨by rw [exec, shutdownInLoop_conn], List.filterMap_eq_nil_iff.mpr fun e he => ?_⟩
    rw [c.shutdownInLoop_effects he]
    rfl
  | handleWrite a =>
    refine Or.inl ⟨?_, c.handleWrite_pollerOps a⟩
    rw [exec, c.handleWrite_spec a]
  | handleRead a err =>
    rcases c.handleRead_cases a err with h | ⟨rfl, -⟩ | ⟨text, text', h⟩
    · exact Or.inl (by rw [exec, h]; exact ⟨rfl, rfl⟩)
    · exact Or.inr (Or.inr (Or.inr (Or.inl trivial)))
    · exact Or.inl (by rw [exec, h]; exact ⟨rfl, rfl⟩)
  | sendInLoop data a =>
    rcases c.sendInLoop_channel data a with h | ⟨hstarts, -⟩
    · exact Or.inl h
    · exact Or.inr (Or.inr (Or.inr (Or.inr ⟨data, a, rfl, hstarts⟩)))

/-- **Every activation works on its channel through the setters.** -/
theorem exec_calls (op : ConnOp) : c.channel_.Calls (c.exec op).1.channel_
    ((c.exec op).2.filterMap Effect.pollerOp?) := by
  have hnone : ∀ n, [Effect.connectionCallback n].filterMap Effect.pollerOp? = [] := fun _ => rfl
  rcases c.exec_channel op with ⟨hch, hops⟩ | rfl | ⟨loaded, rfl⟩ | hop | ⟨data, a, rfl, -⟩
  · rw [hch, hops]
    exact .refl
  · simp only [exec, connectEstablished, onChannel, List.filterMap_append, pollerOps_map, hnone,
      List.append_nil]
    have htie : c.channel_.Calls c.channel_.tie [] := .tie .refl
    exact htie.update _
  · by_cases hloaded : loaded = .kConnected
    · have hrest : ∀ ops : List PollerOp, (Effect.connectionCallback .down ::
          ops.map Effect.poller).filterMap Effect.pollerOp? = ops := fun ops => pollerOps_map ops
      rw [exec, connectDestroyed, if_pos hloaded]
      simp only [onChannel, List.filterMap_append, pollerOps_map, hrest]
      exact .remove (.update Channel.kNoneEvent .refl)
    · rw [exec, connectDestroyed, if_neg hloaded]
      simp only [onChannel, pollerOps_map]
      exact .remove .refl
  · obtain ⟨d, hd, -, hexec⟩ := c.exec_of_closes hop
    have hrest :
        [Effect.connectionCallback .down, .closeCallback].filterMap Effect.pollerOp? = [] := rfl
    rw [hexec, handleClose_effects, List.filterMap_append, pollerOps_map, hrest, List.append_nil,
      ← hd]
    exact .update Channel.kNoneEvent .refl
  · rcases c.sendInLoop_channel data a with ⟨hch, hops⟩ | ⟨-, hch, hops⟩ <;> rw [exec, hch, hops]
    · exact .refl
    · exact .update _ .refl

/-! ### The write side -/

variable {op : ConnOp} {e : Effect}

/-- An effect of `connectEstablished`, `connectDestroyed` or `handleClose`. -/
theorem lifecycle_effects
    (hop : op = .connectEstablished ∨ (∃ loaded, op = .connectDestroyed loaded) ∨ op = .handleClose)
    (he : e ∈ (c.exec op).2) :
    (∃ p, e = .poller p) ∨ (∃ n, e = .connectionCallback n) ∨ e = .closeCallback := by
  rcases hop with rfl | ⟨loaded, rfl⟩ | rfl
  · change e ∈ c.connectEstablished.2 at he
    simp only [connectEstablished, onChannel, List.mem_append, List.mem_map,
      List.mem_singleton] at he
    rcases he with ⟨p, -, rfl⟩ | rfl
    · exact Or.inl ⟨p, rfl⟩
    · exact Or.inr (Or.inl ⟨_, rfl⟩)
  · change e ∈ (c.connectDestroyed loaded).2 at he
    unfold connectDestroyed at he
    split at he
    · simp only [onChannel, List.mem_append, List.mem_map, List.mem_cons] at he
      rcases he with ⟨p, -, rfl⟩ | rfl | ⟨p, -, rfl⟩
      · exact Or.inl ⟨p, rfl⟩
      · exact Or.inr (Or.inl ⟨_, rfl⟩)
      · exact Or.inl ⟨p, rfl⟩
    · exact Or.inl (onChannel_effects _ _ he)
  · change e ∈ c.handleClose.2 at he
    simp only [handleClose, onChannel, List.mem_append, List.mem_map, List.mem_cons,
      List.not_mem_nil, or_false] at he
    rcases he with ⟨p, -, rfl⟩ | rfl | rfl
    · exact Or.inl ⟨p, rfl⟩
    · exact Or.inr (Or.inl ⟨_, rfl⟩)
    · exact Or.inr (Or.inr rfl)

/-- **Who touches the write side.**  The half-close is issued by `shutdownInLoop`
out of writing mode (the call in `handleWrite` never issues it, as writing mode is
still on); `write(2)` is called by a `sendInLoop` that is not refused, or in
writing mode. -/
theorem exec_writeSide (he : e ∈ (c.exec op).2) (hside : e.OnWriteSide) :
    (e = .shutdownWrite ∧ op = .shutdownInLoop ∧ c.channel_.isWriting = false) ∨
      ((∃ n bs, e = .write n bs) ∧
        (((∃ data a, op = .sendInLoop data a) ∧ c.state_ ≠ .kDisconnected) ∨
          c.channel_.isWriting = true)) := by
  have hlifecycle : ∀ {d : TcpConnection} {op' : ConnOp}, (op' = .connectEstablished ∨
      (∃ loaded, op' = .connectDestroyed loaded) ∨ op' = .handleClose) →
      e ∉ (d.exec op').2 := by
    intro d op' hop he
    rcases d.lifecycle_effects hop he with ⟨p, rfl⟩ | ⟨n, rfl⟩ | rfl <;> exact hside
  cases op with
  | connectEstablished => exact absurd he (hlifecycle (Or.inl rfl))
  | connectDestroyed loaded => exact absurd he (hlifecycle (Or.inr (Or.inl ⟨_, rfl⟩)))
  | handleClose => exact absurd he (hlifecycle (Or.inr (Or.inr rfl)))
  | setDisconnecting => cases he
  | sendInLoop data a =>
    have hsilent := c.sendInLoop_silent data a he
    have hwrite : ∃ n bs, e = .write n bs := by
      cases e <;> first | exact hside.elim | exact hsilent.elim | exact ⟨_, _, rfl⟩
    refine Or.inr ⟨hwrite, Or.inl ⟨⟨_, _, rfl⟩, fun hst => ?_⟩⟩
    obtain ⟨n, bs, rfl⟩ := hwrite
    simp [exec, sendInLoop, hst] at he
  | shutdownInLoop =>
    simp only [exec, shutdownInLoop] at he
    split at he
    · cases he
    · exact Or.inl ⟨List.mem_singleton.mp he, rfl, by simpa using ‹¬ _ = true›⟩
  | handleRead a err =>
    change e ∈ (c.handleRead a err).2 at he
    rcases c.handleRead_cases a err with h | ⟨ha, h⟩ | ⟨text, text', h⟩ <;> rw [h] at he
    · rw [List.mem_singleton.mp he] at hside
      exact hside.elim
    · exact absurd he (@hlifecycle _ .handleClose (Or.inr (Or.inr rfl)))
    · simp only [List.mem_cons, List.not_mem_nil, or_false] at he
      rcases he with rfl | rfl <;> exact hside.elim
  | handleWrite a =>
    obtain ⟨hsilent, hwriting⟩ := c.handleWrite_effects a he
    have hwrite : ∃ n bs, e = .write n bs := by
      cases e <;> first | exact hside.elim | exact hsilent.elim | exact ⟨_, _, rfl⟩
    obtain ⟨n, bs, rfl⟩ := hwrite
    exact Or.inr ⟨⟨n, bs, rfl⟩, Or.inr (hwriting n bs rfl)⟩

/-- **No other activation queues a notification or writes.** -/
theorem other_effects (hs : ∀ data a, op ≠ .sendInLoop data a) (hw : ∀ a, op ≠ .handleWrite a)
    (he : e ∈ (c.exec op).2) : (∀ n, e ≠ .queueInLoop n) ∧ ∀ n bs, e ≠ .write n bs := by
  have hquiet : ∀ {e : Effect}, (∃ p, e = .poller p) ∨ (∃ n, e = .connectionCallback n) ∨
      e = .closeCallback → (∀ n, e ≠ .queueInLoop n) ∧ ∀ n bs, e ≠ .write n bs := by
    rintro e (⟨p, rfl⟩ | ⟨n, rfl⟩ | rfl) <;> simp
  cases op with
  | sendInLoop data a => exact absurd rfl (hs data a)
  | handleWrite a => exact absurd rfl (hw a)
  | setDisconnecting => cases he
  | shutdownInLoop =>
    rw [c.shutdownInLoop_effects he]
    simp
  | connectEstablished => exact hquiet (c.lifecycle_effects (Or.inl rfl) he)
  | connectDestroyed loaded => exact hquiet (c.lifecycle_effects (Or.inr (Or.inl ⟨_, rfl⟩)) he)
  | handleClose => exact hquiet (c.lifecycle_effects (Or.inr (Or.inr rfl)) he)
  | handleRead b err =>
    change e ∈ (c.handleRead b err).2 at he
    rcases c.handleRead_cases b err with h | ⟨-, h⟩ | ⟨text, text', h⟩ <;> rw [h] at he
    · rw [List.mem_singleton.mp he]
      simp
    · have hclose : e ∈ (exec _ .handleClose).2 := he
      exact hquiet (lifecycle_effects _ (Or.inr (Or.inr rfl)) hclose)
    · simp only [List.mem_cons, List.not_mem_nil, or_false] at he
      rcases he with rfl | rfl <;> simp

/-- `sendInLoop` and `handleWrite` alone touch `outputBuffer_`. -/
theorem other_outputBuffer (hs : ∀ data a, op ≠ .sendInLoop data a)
    (hw : ∀ a, op ≠ .handleWrite a) : (c.exec op).1.outputBuffer_ = c.outputBuffer_ := by
  cases op with
  | sendInLoop data a => exact absurd rfl (hs data a)
  | handleWrite a => exact absurd rfl (hw a)
  | connectEstablished | setDisconnecting | handleClose => rfl
  | connectDestroyed loaded =>
    rw [exec, connectDestroyed]
    split <;> rfl
  | shutdownInLoop => rw [exec, shutdownInLoop_conn]
  | handleRead b err =>
    rw [exec]
    rcases c.handleRead_cases b err with h | ⟨-, h⟩ | ⟨text, text', h⟩ <;> rw [h]
    rfl

/-- Only a `sendInLoop` that is not refused enters writing mode. -/
theorem exec_isWriting (h : (c.exec op).1.channel_.isWriting = true) :
    ((∃ data a, op = .sendInLoop data a) ∧ c.state_ ≠ .kDisconnected) ∨
      c.channel_.isWriting = true := by
  cases op with
  | connectEstablished => exact Or.inr (c.connectEstablished_isWriting ▸ h)
  | connectDestroyed loaded =>
    refine Or.inr ?_
    change (c.connectDestroyed loaded).1.channel_.isWriting = true at h
    unfold connectDestroyed at h
    split at h
    · simp [onChannel] at h
    · simpa [onChannel] using h
  | sendInLoop data a =>
    by_cases hst : c.state_ = .kDisconnected
    · refine Or.inr ?_
      simpa [exec, sendInLoop, hst] using h
    · exact Or.inl ⟨⟨_, _, rfl⟩, hst⟩
  | shutdownInLoop => exact Or.inr (by rwa [exec, shutdownInLoop_conn] at h)
  | setDisconnecting => exact Or.inr h
  | handleRead a err =>
    refine Or.inr ?_
    change (c.handleRead a err).1.channel_.isWriting = true at h
    rcases c.handleRead_cases a err with h' | ⟨-, h'⟩ | ⟨text, text', h'⟩ <;> rw [h'] at h
    · exact h
    · simp [handleClose, onChannel] at h
    · exact h
  | handleWrite a =>
    refine Or.inr ?_
    rw [exec, c.handleWrite_spec a] at h
    exact h
  | handleClose => simp [exec, handleClose, onChannel] at h

/-- **What becomes of `state_`.** -/
theorem exec_state (op : ConnOp) : (c.exec op).1.state_ = c.state_ ∨
    (op = .connectEstablished ∧ (c.exec op).1.state_ = .kConnected) ∨
    (op = .setDisconnecting ∧ (c.exec op).1.state_ = .kDisconnecting) ∨
    ((op.Closes ∨ op = .connectDestroyed .kConnected) ∧
      (c.exec op).1.state_ = .kDisconnected) := by
  cases op with
  | connectEstablished => exact Or.inr (Or.inl ⟨rfl, rfl⟩)
  | connectDestroyed loaded =>
    by_cases h : loaded = .kConnected
    · subst h
      exact Or.inr (Or.inr (Or.inr ⟨Or.inr rfl, rfl⟩))
    · refine Or.inl ?_
      rw [exec, connectDestroyed, if_neg h]
      rfl
  | sendInLoop data a => exact Or.inl (by simp [exec])
  | shutdownInLoop => exact Or.inl (by rw [exec, shutdownInLoop_conn])
  | setDisconnecting => exact Or.inr (Or.inr (Or.inl ⟨rfl, rfl⟩))
  | handleRead a err =>
    rcases c.handleRead_cases a err with h | ⟨rfl, h⟩ | ⟨text, text', h⟩ <;> rw [exec, h]
    · exact Or.inl rfl
    · exact Or.inr (Or.inr (Or.inr ⟨Or.inl trivial, rfl⟩))
    · exact Or.inl rfl
  | handleWrite a => exact Or.inl (by rw [exec, c.handleWrite_spec a])
  | handleClose => exact Or.inr (Or.inr (Or.inr ⟨Or.inl trivial, rfl⟩))

/-- Only `connectEstablished` makes a connection connected. -/
theorem exec_connected (h : (c.exec op).1.state_ = .kConnected) :
    op = .connectEstablished ∨ c.state_ = .kConnected := by
  rcases c.exec_state op with hst | ⟨hop, -⟩ | ⟨-, hst⟩ | ⟨-, hst⟩
  · exact Or.inr (hst ▸ h)
  · exact Or.inl hop
  · rw [hst] at h
    cases h
  · rw [hst] at h
    cases h

end TcpConnection
end Mymuduo
