import Mymuduo.EchoServer
import Mymuduo.HalfClose
import Mymuduo.OutboundStream

/-! # From one end to the other

Two connections of the library, each the other's peer.  Between the `send` on one side and
the message callback on the other a byte waits in three places: in `outputBuffer_`, in the
kernel, and in `inputBuffer_` until the callback takes it out.  Each of them is a queue that
feeds the next one (`Duplex.Feeding`), so that together they are one.  Whatever the kernel
accepts and delivers at a time and however much the callbacks leave behind, nothing is lost,
doubled or reordered on the way from the kernel to the user code.

What the one queue holds is what was sent exactly when it is so in the outbound stream of
either side (`Duplex.Delivers`): no flush hands the kernel more than the readable bytes, and
no message is given up over `EPIPE` or `ECONNRESET`.
-/
namespace Mymuduo
open Transition

namespace ConnOp

/-- Not a read that finds something; those depend on the other side. -/
def Local : ConnOp → Prop
  | .handleRead (.data incoming) _ => incoming = []
  | _ => True

end ConnOp

namespace ConnRun

/-- User code takes `len` bytes out of the input buffer. -/
def retrieve (r : ConnRun) (len : Nat) : ConnRun :=
  { r with conn := { r.conn with inputBuffer_ := r.conn.inputBuffer_.retrieve len } }

end ConnRun

/-- Two connections, `true` and `false`, and what is between them. -/
structure Duplex where
  ends : Bool → ConnRun
  /-- What the kernel has taken from a side and the other side has not read yet. -/
  wire : Bool → List UInt8
  /-- What the user code of a side has taken out of its `inputBuffer_`. -/
  retrieved : Bool → List UInt8

inductive DuplexAction where
  /-- A function of side `x` runs; no read that finds something. -/
  | act (x : Bool) (op : ConnOp)
  /-- `handleRead` of side `x` finds `k` bytes, or as many as there are. -/
  | read (x : Bool) (k : Nat) (err : Int)
  /-- User code of side `x` takes `len` bytes out of the buffer, or as many as there are. -/
  | retrieve (x : Bool) (len : Nat)
deriving DecidableEq, Repr

namespace DuplexAction

/-- No read finds something but those of `read`. -/
def Local : DuplexAction → Prop
  | .act _ op => op.Local
  | _ => True

end DuplexAction

namespace Duplex

/-- Two connections that have just been established. -/
def established (name : Bool → String) (fd : Bool → Int) (writeComplete highWaterMark : Bool) :
    Duplex where
  ends := fun x => ConnRun.established (name x) (fd x) writeComplete highWaterMark
  wire := fun _ => []
  retrieved := fun _ => []

section State
variable (s : Duplex) (x : Bool)

/-- What the read of side `x` finds. -/
def incoming (k : Nat) : List UInt8 := (s.wire !x).take k

/-- How much of it `readFd` takes. -/
def taken (k : Nat) : Nat := min (s.ends x).conn.inputBuffer_.readCapacity k

end State

def exec (s : Duplex) : DuplexAction → Duplex
  | .act x op =>
    { s with
      ends := Function.update s.ends x ((s.ends x).exec op)
      wire := Function.update s.wire x
        (s.wire x ++ acceptedBytes ((s.ends x).conn.exec op).2) }
  | .read x k err =>
    if s.incoming x k = [] then s
    else
      { s with
        ends := Function.update s.ends x
          ((s.ends x).exec (.handleRead (.data (s.incoming x k)) err))
        wire := Function.update s.wire (!x) ((s.wire !x).drop (s.taken x k)) }
  | .retrieve x len =>
    { s with
      ends := Function.update s.ends x ((s.ends x).retrieve len)
      retrieved := Function.update s.retrieved x
        (s.retrieved x ++ (s.ends x).conn.inputBuffer_.readable.take len) }

/-- No flush goes past the readable bytes, and no message is given up. -/
def Delivers (s : Duplex) : DuplexAction → Prop
  | .act x op => (s.ends x).FlushWithinReadable op ∧ (s.ends x).MessageKept op
  | _ => True

/-- While a side is open, the messages passed to its `sendInLoop` are what the other side has
taken out of its buffer, what is still in there, what is on the way, and what is in the output
buffer, in this order. -/
def Intact (s : Duplex) : Prop :=
  ∀ x, ¬ (s.ends x).Closed →
    s.retrieved (!x) ++ (s.ends !x).conn.inputBuffer_.readable ++ s.wire x ++
      (s.ends x).conn.outputBuffer_.readable = (s.ends x).messages

/-! ## Three queues in a row -/

section Queues
variable (s : Duplex) (x : Bool)

/-- What side `x` has read: taken out by its user code, or not yet. -/
def inputLedger : Fifo UInt8 := ⟨s.retrieved x, (s.ends x).conn.inputBuffer_.readable⟩

/-- What the kernel has taken from side `x`: read by the other side, or not yet. -/
def wireLedger : Fifo UInt8 := ⟨(s.inputLedger !x).all, s.wire x⟩

theorem wireLedger_feeds : (s.wireLedger x).Feeds (s.inputLedger !x) := rfl

end Queues

/-- What leaves a side is on the way or has been read, in this order. -/
def Feeding (s : Duplex) : Prop := ∀ x, (s.ends x).ledger.Feeds (s.wireLedger x)

/-- Reading is the only way into the input buffer. -/
theorem readable_exec_local (c : TcpConnection) {op : ConnOp} (h : op.Local) :
    (c.exec op).1.inputBuffer_.readable = c.inputBuffer_.readable := by
  cases op with
  | connectEstablished | setDisconnecting | handleClose => rfl
  | connectDestroyed loaded =>
    rw [TcpConnection.exec, TcpConnection.connectDestroyed]
    split <;> rfl
  | sendInLoop data a => rw [TcpConnection.exec, TcpConnection.sendInLoop_inputBuffer]
  | shutdownInLoop => rw [TcpConnection.exec, TcpConnection.shutdownInLoop_conn]
  | handleWrite a => rw [TcpConnection.exec, c.handleWrite_spec a]
  | handleRead a err =>
    cases a with
    | fail e => exact congrArg (fun d => d.inputBuffer_.readable) (c.handleRead_fail e err).1
    | data incoming =>
      obtain rfl : incoming = [] := h
      rw [TcpConnection.exec, c.handleRead_eof]
      exact (c.inputBuffer_.readable_readFd []).trans (by simp)

section Step
variable {s : Duplex} {x : Bool}

/-- The kernel takes what side `x` writes. -/
theorem Feeding.act (h : s.Feeding) {op : ConnOp} (hlocal : op.Local) :
    (s.exec (.act x op)).Feeding := by
  have hends : ∀ y, (s.exec (.act x op)).ends y = if y = x then (s.ends x).exec op else s.ends y :=
    fun y => Function.update_apply ..
  have hinput : ∀ y, (s.exec (.act x op)).inputLedger y = s.inputLedger y := by
    intro y
    rw [inputLedger, hends]
    split
    · rename_i hy
      rw [hy, ConnRun.conn_exec, readable_exec_local _ hlocal]
      rfl
    · rfl
  intro y
  have hfeeds := h y
  rw [wireLedger, hinput, hends]
  by_cases hy : y = x
  · subst hy
    have hwire : (s.exec (.act y op)).wire y =
        s.wire y ++ acceptedBytes ((s.ends y).conn.exec op).2 := Function.update_self ..
    rw [if_pos rfl, hwire]
    show ((s.ends y).exec op).accepted = _
    rw [ConnRun.accepted_exec]
    show _ = (s.inputLedger !y).all ++ (s.wire y ++ _)
    rw [← List.append_assoc]
    exact congrArg (· ++ acceptedBytes ((s.ends y).conn.exec op).2) hfeeds
  · have hwire : (s.exec (.act x op)).wire y = s.wire y := Function.update_of_ne hy ..
    rw [if_neg hy, hwire]
    exact hfeeds

section Read
variable {k : Nat} (err : Int)

theorem exec_read (h : s.incoming x k ≠ []) : s.exec (.read x k err) =
    { s with
      ends := Function.update s.ends x
        ((s.ends x).exec (.handleRead (.data (s.incoming x k)) err))
      wire := Function.update s.wire (!x) ((s.wire !x).drop (s.taken x k)) } := if_neg h

/-- What is read goes behind what has been read before. -/
theorem inputLedger_read (h : s.incoming x k ≠ []) : (s.exec (.read x k err)).inputLedger x =
    (s.inputLedger x).push ((s.wire !x).take (s.taken x k)) := by
  have hends : (s.exec (.read x k err)).ends x =
      (s.ends x).exec (.handleRead (.data (s.incoming x k)) err) := by
    rw [exec_read err h]
    exact Function.update_self ..
  have hretrieved : (s.exec (.read x k err)).retrieved = s.retrieved := by rw [exec_read err h]
  rw [inputLedger, hends, hretrieved, ConnRun.conn_exec, TcpConnection.exec,
    (s.ends x).conn.handleRead_data h, SoundBuffer.readable_readFd, incoming, List.take_take]
  rfl

/-- The other side has read what it had. -/
theorem inputLedger_read_of_ne (h : s.incoming x k ≠ []) {y : Bool} (hy : y ≠ x) :
    (s.exec (.read x k err)).inputLedger y = s.inputLedger y := by
  have hends : (s.exec (.read x k err)).ends y = s.ends y := by
    rw [exec_read err h]
    exact Function.update_of_ne hy ..
  have hretrieved : (s.exec (.read x k err)).retrieved = s.retrieved := by rw [exec_read err h]
  rw [inputLedger, hends, hretrieved]
  rfl

/-- Reading sends nothing. -/
theorem ledger_read (h : s.incoming x k ≠ []) (y : Bool) :
    ((s.exec (.read x k err)).ends y).ledger = (s.ends y).ledger := by
  rw [exec_read err h]
  by_cases hy : y = x
  · subst hy
    show (Function.update s.ends y _ y).ledger = _
    rw [Function.update_self, ConnRun.ledger, ConnRun.accepted_exec, ConnRun.conn_exec,
      TcpConnection.exec, (s.ends y).conn.handleRead_data h]
    exact congrArg (Fifo.mk · _) (List.append_nil _)
  · exact congrArg ConnRun.ledger (Function.update_of_ne hy ..)

end Read

/-- Side `x` takes some of it off the wire. -/
theorem Feeding.read (h : s.Feeding) (k : Nat) (err : Int) : (s.exec (.read x k err)).Feeding := by
  by_cases hnil : s.incoming x k = []
  · rw [exec, if_pos hnil]
    exact h
  have hnot : (!x) ≠ x := by cases x <;> decide
  intro y
  rw [ledger_read err hnil]
  by_cases hy : y = x
  · subst hy
    have hwire : (s.exec (.read y k err)).wire y = s.wire y := by
      rw [exec_read _ hnil]
      exact Function.update_of_ne hnot.symm ..
    rw [wireLedger, inputLedger_read_of_ne err hnil hnot, hwire]
    exact h y
  · obtain rfl : y = !x := Bool.eq_not.mpr hy
    have hwire : (s.exec (.read x k err)).wire (!x) = (s.wire !x).drop (s.taken x k) := by
      rw [exec_read _ hnil]
      exact Function.update_self ..
    have hledger : (s.exec (.read x k err)).wireLedger (!x) =
        (s.wireLedger !x).take (s.taken x k) := by
      rw [wireLedger, Bool.not_not, inputLedger_read err hnil, hwire, Fifo.all_push, wireLedger,
        Bool.not_not]
      rfl
    rw [hledger]
    exact (h !x).take _

/-- User code of side `x` takes some of it out of the buffer. -/
theorem Feeding.retrieve (h : s.Feeding) (len : Nat) : (s.exec (.retrieve x len)).Feeding := by
  have hends : ∀ y, (s.exec (.retrieve x len)).ends y =
      if y = x then (s.ends x).retrieve len else s.ends y := fun y => Function.update_apply ..
  have hinput : ∀ y, ((s.exec (.retrieve x len)).inputLedger y).all = (s.inputLedger y).all := by
    intro y
    by_cases hy : y = x
    · subst hy
      have htake : (s.exec (.retrieve y len)).inputLedger y = (s.inputLedger y).take len := by
        have hretrieved : (s.exec (.retrieve y len)).retrieved y =
            s.retrieved y ++ (s.ends y).conn.inputBuffer_.readable.take len :=
          Function.update_self ..
        rw [inputLedger, hends, if_pos rfl, hretrieved, ConnRun.retrieve,
          SoundBuffer.readable_retrieve]
        rfl
      rw [htake, Fifo.all_take]
    · have hretrieved : (s.exec (.retrieve x len)).retrieved y = s.retrieved y :=
        Function.update_of_ne hy ..
      rw [inputLedger, hends, if_neg hy, hretrieved]
      rfl
  intro y
  rw [wireLedger, hinput, hends]
  split
  · rename_i hy
    subst hy
    exact h y
  · exact h y

/-- **One step**, whatever the kernel answers, leaves the queues in a row. -/
theorem Feeding.exec (h : s.Feeding) {a : DuplexAction} (ha : a.Local) : (s.exec a).Feeding := by
  cases a with
  | act x op => exact h.act ha
  | read x k err => exact h.read k err
  | retrieve x len => exact h.retrieve len

end Step

theorem feeding_established (name : Bool → String) (fd : Bool → Int)
    (writeComplete highWaterMark : Bool) :
    (established name fd writeComplete highWaterMark).Feeding := by
  intro x
  have hnothing : ((established name fd writeComplete highWaterMark).wireLedger x).all = [] := by
    show [] ++ (SoundBuffer.new.readable ++ _) = []
    rw [SoundBuffer.readable_new]
    rfl
  rw [Fifo.Feeds, hnothing]
  exact (ConnRun.established_spec (name x) (fd x) writeComplete highWaterMark).1

/-- The three queues hold what was sent where the outbound streams do. -/
theorem Feeding.intact_iff {s : Duplex} (h : s.Feeding) :
    s.Intact ↔ ∀ x, (s.ends x).StreamIntact := by
  refine forall_congr' fun x => imp_congr_right fun _ => ?_
  have hqueues : (s.ends x).ledger.all =
      s.retrieved (!x) ++ (s.ends !x).conn.inputBuffer_.readable ++ s.wire x ++
        (s.ends x).conn.outputBuffer_.readable := (h x).all_eq_three (s.wireLedger_feeds x)
  rw [← hqueues]
  exact Iff.rfl

/-! ## What the two connections keep -/

/-- What every run keeps, whatever the kernel answers. -/
structure Inv (s : Duplex) : Prop where
  feeding : s.Feeding
  live : ∀ x, (s.ends x).Live
  waiting : ∀ x, (s.ends x).WaitingMeansWriting

/-- What the functions of a connection keep, and user code that takes bytes out of the input
buffer, every step keeps on either side. -/
theorem ends_exec {P : ConnRun → Prop} (hexec : ∀ r op, P r → P (r.exec op))
    (hretrieve : ∀ r len, P r → P (r.retrieve len)) {s : Duplex} (h : ∀ x, P (s.ends x))
    (a : DuplexAction) : ∀ x, P ((s.exec a).ends x) := by
  have hupdate : ∀ x r, P r → ∀ y, P (Function.update s.ends x r y) := fun x r hr =>
    (Function.forall_update_iff s.ends fun _ t => P t).mpr ⟨hr, fun y _ => h y⟩
  cases a with
  | act x op => exact hupdate x _ (hexec _ op (h x))
  | read x k err =>
    by_cases hnil : s.incoming x k = []
    · rw [exec, if_pos hnil]
      exact h
    · rw [exec_read _ hnil]
      exact hupdate x _ (hexec _ _ (h x))
  | retrieve x len => exact hupdate x _ (hretrieve _ len (h x))

theorem Inv.exec {s : Duplex} (h : s.Inv) {a : DuplexAction} (ha : a.Local) : (s.exec a).Inv where
  feeding := h.feeding.exec ha
  live := ends_exec (fun r op => r.live_exec op) (fun _ _ => id) h.live a
  waiting := ends_exec (fun _ op hr => hr.exec op) (fun _ _ => id) h.waiting a

/-- **One step.**  From two intact streams, a step leaves two intact streams exactly when it
delivers. -/
theorem Inv.streams_exec_iff {s : Duplex} (h : s.Inv) (hs : ∀ x, (s.ends x).StreamIntact)
    (a : DuplexAction) : (∀ x, ((s.exec a).ends x).StreamIntact) ↔ s.Delivers a := by
  have hupdate : ∀ x r, (∀ y, (Function.update s.ends x r y).StreamIntact) ↔ r.StreamIntact :=
    fun x r => (Function.forall_update_iff s.ends fun _ t => t.StreamIntact).trans
      (and_iff_left fun y _ => hs y)
  cases a with
  | act x op => exact (hupdate x _).trans ((s.ends x).intact_exec_iff (h.live x) (hs x))
  | read x k err =>
    by_cases hnil : s.incoming x k = []
    · rw [Duplex.exec, if_pos hnil]
      exact iff_true_intro hs
    · rw [exec_read _ hnil]
      refine iff_true_intro ((hupdate x _).mpr ?_)
      exact ((s.ends x).intact_exec_iff (h.live x) (hs x)).mpr ⟨trivial, trivial⟩
  | retrieve x len => exact iff_true_intro ((hupdate x _).mpr (hs x))

section Runs
variable (name : Bool → String) (fd : Bool → Int) (writeComplete highWaterMark : Bool)

theorem inv_established : (established name fd writeComplete highWaterMark).Inv where
  feeding := feeding_established name fd writeComplete highWaterMark
  live := fun x => ConnRun.live_established (name x) (fd x) writeComplete highWaterMark
  waiting := fun _ _ hwaits => absurd SoundBuffer.readable_new hwaits

theorem intact_established : (established name fd writeComplete highWaterMark).Intact :=
  (feeding_established name fd writeComplete highWaterMark).intact_iff.mpr fun x =>
    ConnRun.streamIntact_established (name x) (fd x) writeComplete highWaterMark

/-- What a run whose steps all deliver keeps. -/
theorem streams_run {as : List DuplexAction} (has : ∀ a ∈ as, a.Local)
    (hdelivers : Along exec Delivers (established name fd writeComplete highWaterMark) as)
    {s : Duplex} (hs : s = as.foldl exec (established name fd writeComplete highWaterMark)) :
    s.Inv ∧ ∀ x, (s.ends x).StreamIntact := by
  rw [hs]
  refine ((hdelivers.and has).always (fun s => s.Inv ∧ ∀ x, (s.ends x).StreamIntact) ?_
    fun s a hs ha => ?_).last
  · exact ⟨inv_established name fd writeComplete highWaterMark, fun x =>
      ConnRun.streamIntact_established (name x) (fd x) writeComplete highWaterMark⟩
  · exact ⟨hs.1.exec ha.1, (hs.1.streams_exec_iff hs.2 a).mpr ha.2⟩

/-- **From one end to the other.**  In every run of two connections with each other, whatever
the kernel answers and however their functions, the reads of either and what the user code
takes out are interleaved: everything sent is accounted for, in order, in every state exactly
when no flush goes past the readable bytes and no message is given up. -/
theorem end_to_end (as : List DuplexAction) (has : ∀ a ∈ as, a.Local) :
    Always exec Intact (established name fd writeComplete highWaterMark) as ↔
      Along exec Delivers (established name fd writeComplete highWaterMark) as := by
  refine always_iff_along Inv DuplexAction.Local
    (inv_established name fd writeComplete highWaterMark)
    (intact_established name fd writeComplete highWaterMark)
    (fun t a ha ht => ht.exec ha) (fun t a ha ht hintact => ?_) as has
  rw [(ht.exec ha).feeding.intact_iff]
  exact ht.streams_exec_iff (ht.feeding.intact_iff.mp hintact) a

end Runs

/-- Of three bytes, the kernel takes one at once and one later. -/
def threeBytes : List DuplexAction :=
  [.act true (.sendInLoop [104, 105, 106] (.accept 1)), .read false 8 0, .retrieve false 1,
    .act true (.handleWrite (.accept 1))]

theorem end_to_end_three_bytes :
    Always exec Intact
      (established (fun _ => "conn") (fun x => if x then 5 else 6) false false) threeBytes := by
  refine (end_to_end (fun _ => "conn") (fun x => if x then 5 else 6) false false threeBytes
    ?_).mpr ?_
  · simp [threeBytes, DuplexAction.Local, ConnOp.Local]
  · refine (along_concat [_, _, _] _).mpr ⟨(along_concat [_, _] _).mpr ⟨(along_concat [_] _).mpr
      ⟨(along_concat [] _).mpr ⟨along_nil, trivial, ?_⟩, trivial⟩, trivial⟩, ?_, trivial⟩
    · exact Or.inr (Or.inr fun _ => id)
    · exact Or.inr fun _ => by decide +kernel

/-! ## The end of the stream -/

/-- Once a side is half-closed, the kernel takes no more bytes from it. -/
def Refused (x : Bool) (s : Duplex) : DuplexAction → Prop
  | .act y op => y = x → acceptedBytes ((s.ends x).conn.exec op).2 = []
  | _ => True

/-- Only `sendInLoop` and `handleWrite` hand bytes to the kernel. -/
theorem acceptedBytes_other (c : TcpConnection) {op : ConnOp}
    (hs : ∀ data a, op ≠ .sendInLoop data a) (hw : ∀ a, op ≠ .handleWrite a) :
    acceptedBytes (c.exec op).2 = [] :=
  acceptedBytes_eq_nil fun n bs he => (c.other_effects hs hw he).2 n bs rfl

theorem accepted_exec_of_refused {s : Duplex} {x : Bool} {a : DuplexAction}
    (h : s.Refused x a) : ((s.exec a).ends x).accepted = (s.ends x).accepted := by
  cases a with
  | act y op =>
    by_cases hy : x = y
    · subst hy
      have hends : (s.exec (.act x op)).ends x = (s.ends x).exec op := Function.update_self ..
      rw [hends, ConnRun.accepted_exec, h rfl, List.append_nil]
    · have hends : (s.exec (.act y op)).ends x = s.ends x := Function.update_of_ne hy ..
      rw [hends]
  | read y k err =>
    by_cases hnil : s.incoming y k = []
    · rw [exec, if_pos hnil]
    · exact congrArg Fifo.done (ledger_read err hnil x)
  | retrieve y len =>
    show (Function.update s.ends y _ x).accepted = _
    by_cases hy : x = y
    · subst hy
      rw [Function.update_self]
      rfl
    · rw [Function.update_of_ne hy]

/-- **The end of the stream comes after everything.**  When a side is half-closed, in a run
whose steps have all delivered and however the run goes on, the other side gets to the end of
the stream with exactly the messages that were sent before. -/
theorem end_of_stream_last (name : Bool → String) (fd : Bool → Int)
    (writeComplete highWaterMark : Bool) (as bs : List DuplexAction)
    (has : ∀ a ∈ as, a.Local)
    (hdelivers : Along exec Delivers (established name fd writeComplete highWaterMark) as)
    {s t : Duplex}
    (hs : s = as.foldl exec (established name fd writeComplete highWaterMark)) (x : Bool)
    (hopen : ¬ (s.ends x).Closed) (op : ConnOp)
    (hhalf : .shutdownWrite ∈ ((s.ends x).conn.exec op).2)
    (hbs : ∀ a ∈ bs, a.Local) (hrefused : Along exec (Refused x) (s.exec (.act x op)) bs)
    (ht : t = bs.foldl exec (s.exec (.act x op))) (hend : t.wire x = []) :
    t.retrieved (!x) ++ (t.ends !x).conn.inputBuffer_.readable = (s.ends x).messages := by
  obtain ⟨hinv, hstreams⟩ := streams_run name fd writeComplete highWaterMark has hdelivers hs
  -- nothing is left in the output buffer
  have hempty := (hinv.waiting x).shutdownWrite hopen hhalf
  have hsent : (s.ends x).accepted = (s.ends x).messages := by
    rw [← hstreams x hopen, hempty, List.append_nil]
  obtain ⟨-, rfl, -⟩ | ⟨⟨n, bytes, heffect⟩, -⟩ := (s.ends x).conn.exec_writeSide hhalf trivial
  · have hissued : s.Refused x (.act x .shutdownInLoop) :=
      fun _ => acceptedBytes_other _ (by simp) (by simp)
    have hrun : t.Feeding ∧ (t.ends x).accepted = (s.ends x).messages := by
      rw [ht]
      refine ((hrefused.and hbs).always
        (fun u => u.Feeding ∧ (u.ends x).accepted = (s.ends x).messages) ?_ ?_).last
      · exact ⟨hinv.feeding.exec trivial, (accepted_exec_of_refused hissued).trans hsent⟩
      · intro u a hu ha
        exact ⟨hu.1.exec ha.1, (accepted_exec_of_refused ha.2).trans hu.2⟩
    have hfeeds : (t.ends x).accepted =
        t.retrieved (!x) ++ (t.ends !x).conn.inputBuffer_.readable ++ t.wire x := hrun.1 x
    rw [← hrun.2, hfeeds, hend, List.append_nil]
  · cases heffect

/-- Two bytes, all of which the kernel takes, and the store of `shutdown`. -/
def twoBytes : Duplex :=
  [.act true (.sendInLoop [104, 105] (.accept 2)), .act true .setDisconnecting].foldl exec
    (established (fun _ => "conn") (fun x => if x then 5 else 6) false false)

/-- The other side reads both, and takes one out. -/
def twoBytesRead : Duplex :=
  [.read false 8 0, .retrieve false 1].foldl exec (twoBytes.exec (.act true .shutdownInLoop))

theorem end_of_stream_last_two_bytes :
    twoBytesRead.retrieved false ++ (twoBytesRead.ends false).conn.inputBuffer_.readable =
      (twoBytes.ends true).messages := by
  have hopen : ¬ (twoBytes.ends true).Closed := by
    show ¬ (((ConnRun.established "conn" 5 false false).exec
      (.sendInLoop [104, 105] (.accept 2))).exec .setDisconnecting).Closed
    have hsent : ¬ ((ConnRun.established "conn" 5 false false).exec
        (.sendInLoop [104, 105] (.accept 2))).Closed := by
      rw [ConnRun.closed_sendInLoop]
      exact ConnRun.open_established "conn" 5 false false
    rw [ConnRun.closed_exec]
    simpa using hsent
  refine end_of_stream_last (fun _ => "conn") (fun x => if x then 5 else 6) false false
    [.act true (.sendInLoop [104, 105] (.accept 2)), .act true .setDisconnecting]
    [.read false 8 0, .retrieve false 1] ?_ ?_ (s := twoBytes) (t := twoBytesRead) rfl true
    hopen .shutdownInLoop (by decide +kernel) ?_ ?_ rfl (by decide +kernel)
  · simp [DuplexAction.Local, ConnOp.Local]
  · refine (along_concat [_] _).mpr ⟨(along_concat [] _).mpr ⟨along_nil, trivial, ?_⟩,
      trivial, trivial⟩
    exact Or.inr (Or.inr fun _ => id)
  · simp [DuplexAction.Local]
  · exact (along_concat [_] _).mpr ⟨(along_concat [] _).mpr ⟨along_nil, trivial⟩, trivial⟩

end Duplex
end Mymuduo
