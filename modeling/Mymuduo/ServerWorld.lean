import Mymuduo.Poller
import Mymuduo.RegisteredOwners

/-! # Connections, pollers and descriptors

`ServerWorld` has every connection a server has accepted, each with its life
(`LifetimeSystem`), the pollers of the loops, and the table of open descriptors.  An
accept may get any fd that is not open, one that has just been closed included; a
connection without owners is destroyed, which closes its fd, and the kernel then
drops the fd from its interest sets.  What a poll reports is the pointer stored in
the interest set, whatever has become of the channel.

The pollers hold raw pointers under fds; here a pointer is the number of the
connection in the order of the accepts, so that a pointer left behind by a
connection does not become one to its successor on the same fd.

The connections of one loop do not wait for each other here: each has its own part
of the queue and of `activeChannels_`, and, the names being distinct, its own entry of
`connections_`.  So the runs are more than those of the program.
-/
namespace Mymuduo
open Transition

/-- Who holds a descriptor, or has its channel in a poller: a loop itself
(`wakeupChannel_`, the acceptor's channel), or a connection. -/
inductive FdHolder where
  | loop
  | connection (i : Nat)
deriving DecidableEq, Repr

/-- The poller of one loop, with its interest set in the kernel. -/
structure LoopPoller where
  channels_ : Int → Option FdHolder
  /-- The mask and the data pointer of each fd. -/
  interest : Int → Option (EventMask × FdHolder)
  /-- Whose channel each `removeChannel` was called for, and what its erase found. -/
  erased : List (FdHolder × Option FdHolder)

namespace LoopPoller

/-- A call for the channel of `x`. -/
def call (x : FdHolder) (p : LoopPoller) : PollerOp → LoopPoller
  | .insert fd => { p with channels_ := Function.update p.channels_ fd (some x) }
  | .erase fd =>
    { p with channels_ := Function.update p.channels_ fd none
             erased := p.erased ++ [(x, p.channels_ fd)] }
  | .ctl op fd events =>
    match op, p.interest fd with
    | .EPOLL_CTL_ADD, none | .EPOLL_CTL_MOD, some _ =>
      { p with interest := Function.update p.interest fd (some (events, x)) }
    | .EPOLL_CTL_DEL, some _ => { p with interest := Function.update p.interest fd none }
    | _, _ => p

/-- The poller has a pointer to the channel of `x` under `fd`. -/
def Has (p : LoopPoller) (fd : Int) (x : FdHolder) : Prop :=
  p.channels_ fd = some x ∨ ∃ events, p.interest fd = some (events, x)

/-- Under `fd` there is what `x` has put there: `entry` in the interest set, and an entry
of `channels_` if `mapped`. -/
structure Shows (p : LoopPoller) (x : FdHolder) (fd : Int) (entry : Option EventMask)
    (mapped : Bool) : Prop where
  channels : p.channels_ fd = if mapped then some x else none
  interest : p.interest fd = entry.map fun events => (events, x)

/-- Nothing but the pointer of `x` is there. -/
theorem Shows.has {p : LoopPoller} {x y : FdHolder} {fd : Int} {entry : Option EventMask}
    {mapped : Bool} (h : p.Shows x fd entry mapped) (hy : p.Has fd y) :
    y = x ∧ (mapped = true ∨ entry.isSome = true) := by
  rcases hy with hy | ⟨events, hy⟩
  · rw [h.channels] at hy
    cases mapped with
    | true => exact ⟨(Option.some.inj hy).symm, Or.inl rfl⟩
    | false => cases hy
  · rw [h.interest] at hy
    cases entry with
    | some events' =>
      cases hy
      exact ⟨rfl, Or.inr rfl⟩
    | none => cases hy

/-- An erase has found nothing, or the entry of the channel it was called for. -/
def ErasedOwn (p : LoopPoller) : Prop := ∀ e ∈ p.erased, e.2 = none ∨ e.2 = some e.1

section Call
variable {p : LoopPoller} {x y : FdHolder} {fd : Int} {entry : Option EventMask} {mapped : Bool}
  {c : PollerOp} {cs : List PollerOp}

/-- `epoll_ctl` leaves `channels_` alone, and nothing is erased. -/
theorem call_ctl (op : CtlOp) (events : EventMask) :
    (p.call x (.ctl op fd events)).channels_ = p.channels_ ∧
      (p.call x (.ctl op fd events)).erased = p.erased := by
  simp only [LoopPoller.call]
  split <;> exact ⟨rfl, rfl⟩

theorem Shows.call (h : p.Shows x fd entry mapped) (hfd : c.fd = fd) :
    (p.call x c).Shows x fd (c.onInterest entry) (c.onMap mapped) := by
  obtain ⟨hmap, hint⟩ := h
  subst hfd
  cases c with
  | insert fd | erase fd =>
    refine ⟨by simp [LoopPoller.call, PollerOp.onMap, PollerOp.fd], ?_⟩
    cases entry <;> exact hint
  | ctl op fd events =>
    simp only [PollerOp.fd] at hmap hint ⊢
    constructor
    · rw [(call_ctl op events).1]
      exact hmap
    · cases op <;> cases entry <;> simp [LoopPoller.call, hint, PollerOp.onInterest]

theorem ErasedOwn.call (h : p.ErasedOwn) (hshows : p.Shows x fd entry mapped) (hfd : c.fd = fd) :
    (p.call x c).ErasedOwn := by
  cases c with
  | insert => exact h
  | erase fd' =>
    intro e he
    rcases List.mem_append.mp he with he | he
    · exact h e he
    · have hfd' : fd' = fd := hfd
      rw [List.mem_singleton.mp he, hfd', hshows.channels]
      cases mapped
      · exact Or.inl rfl
      · exact Or.inr rfl
  | ctl op fd' events =>
    rw [ErasedOwn, (call_ctl op events).2]
    exact h

theorem call_other (hfd : c.fd ≠ fd) : (p.call x c).channels_ fd = p.channels_ fd ∧
    (p.call x c).interest fd = p.interest fd := by
  cases c with
  | insert fd' => exact ⟨Function.update_of_ne (Ne.symm hfd) _ _, rfl⟩
  | erase fd' => exact ⟨Function.update_of_ne (Ne.symm hfd) _ _, rfl⟩
  | ctl op fd' events =>
    have hne : fd ≠ fd' := Ne.symm hfd
    simp only [LoopPoller.call]
    split <;> simp [Function.update_of_ne hne]

/-- **Calls for the channel of `x`**, all for its fd. -/
theorem shows_foldl (hown : p.ErasedOwn) (h : p.Shows x fd entry mapped)
    (hfd : ∀ c ∈ cs, c.fd = fd) :
    (cs.foldl (LoopPoller.call x) p).Shows x fd (cs.foldl PollerOp.onInterest entry)
        (cs.foldl PollerOp.onMap mapped) ∧
      (cs.foldl (LoopPoller.call x) p).ErasedOwn := by
  induction cs generalizing p entry mapped with
  | nil => exact ⟨h, hown⟩
  | cons c cs ih =>
    have hc : c.fd = fd := hfd c List.mem_cons_self
    exact ih (hown.call h hc) (h.call hc) fun c' hc' => hfd c' (List.mem_cons_of_mem c hc')

theorem foldl_call_other (hfd : ∀ c ∈ cs, c.fd ≠ fd) :
    (cs.foldl (LoopPoller.call x) p).channels_ fd = p.channels_ fd ∧
      (cs.foldl (LoopPoller.call x) p).interest fd = p.interest fd := by
  induction cs generalizing p with
  | nil => exact ⟨rfl, rfl⟩
  | cons c cs ih =>
    obtain ⟨hmap, hint⟩ := ih (p := p.call x c) fun c' hc' => hfd c' (List.mem_cons_of_mem c hc')
    obtain ⟨hmap', hint'⟩ := call_other (p := p) (x := x) (hfd c List.mem_cons_self)
    exact ⟨hmap.trans hmap', hint.trans hint'⟩

end Call
end LoopPoller

/-- What the poller was called for so far. -/
def ConnRun.calls (r : ConnRun) : List PollerOp := r.effects.filterMap Effect.pollerOp?

namespace LifetimeSystem

/-- The descriptor, of the socket and of the channel. -/
def fd (s : LifetimeSystem) : Int := s.sys.run.conn.channel_.fd_

/-- What a step calls the poller for: all for the connection's fd, which stays. -/
theorem Step.calls {s s' : LifetimeSystem} {a : LifetimeAction} (h : Step s a s') :
    s'.fd = s.fd ∧ ∃ cs, s'.sys.run.calls = s.sys.run.calls ++ cs ∧ ∀ c ∈ cs, c.fd = s.fd := by
  have hexec : ∀ (r : ConnRun) (op : ConnOp),
      (r.exec op).calls = r.calls ++ (r.conn.exec op).2.filterMap Effect.pollerOp? := by
    intro r op
    rw [ConnRun.calls, ConnRun.effects_exec, List.filterMap_append]
    rfl
  rcases h.run_cases with hr | ⟨op, -, hr⟩ | ⟨-, -, hr⟩
  · exact ⟨congrArg (fun r => r.conn.channel_.fd_) hr, [], by rw [hr, List.append_nil], by simp⟩
  · obtain ⟨hfd, hcs⟩ := (s.sys.run.conn.exec_calls op).fd
    refine ⟨?_, _, by rw [hr, hexec], hcs⟩
    rw [fd, hr]
    exact hfd
  · have hcalls := (s.sys.run.conn.exec_calls .setDisconnecting).trans
      ((s.sys.run.exec .setDisconnecting).conn.exec_calls .shutdownInLoop)
    obtain ⟨hfd, hcs⟩ := hcalls.fd
    refine ⟨?_, _, by rw [hr, hexec, hexec, List.append_assoc], hcs⟩
    rw [fd, hr]
    exact hfd

/-- The connection stays on its loop. -/
theorem Step.tid {s s' : LifetimeSystem} {a : LifetimeAction} (h : Step s a s') :
    s'.tid = s.tid := by
  cases h with
  | serve hstep => exact hstep.threadId
  | close hfree h hop hclose =>
    show (s.sys.performClose _).loop.threadId_ = _
    rw [loop_performClose _ _ hclose]
    rfl
  | closeCallback | destroyQueue => exact s.sys.loop.threadId_queueInLoop _ _
  | destroyedHere => exact ConnectionSystem.threadId_perform _ _
  | _ => rfl

end LifetimeSystem

inductive WorldAction where
  /-- The base loop accepts a connection, which goes to the loop of `tid`. -/
  | accept (tid : Tid) (fd : Int)
  /-- A poll of the loop of `tid` reports `fd`. -/
  | report (tid : Tid) (fd : Int) (revents : EventMask)
  /-- Any other step of connection number `i`. -/
  | connection (i : Nat) (a : LifetimeAction)

/-- What a connection does itself; the reports come from the pollers. -/
def WorldAction.OfConnection : LifetimeAction → Prop
  | .report _ => False
  | a => LifetimeSystem.OnLoop a

theorem WorldAction.OfConnection.onLoop {a : LifetimeAction} (h : OfConnection a) :
    LifetimeSystem.OnLoop a := by
  cases a with
  | report => exact h.elim
  | _ => exact h

structure ServerWorld where
  base : Tid
  /-- The descriptors the loops have themselves, with the loop that polls each. -/
  own : Int → Option Tid
  /-- Every connection accepted so far. -/
  conns : List LifetimeSystem
  pollers : Tid → LoopPoller
  /-- The open descriptors. -/
  fds : Int → Option FdHolder

namespace ServerWorld

/-- The loops are running; nothing is accepted yet. -/
def start (base : Tid) (own : Int → Option Tid) : ServerWorld where
  base := base
  own := own
  conns := []
  pollers := fun tid =>
    { channels_ := fun fd => if own fd = some tid then some .loop else none
      interest := fun fd => if own fd = some tid then some (Channel.kReadEvent, .loop) else none
      erased := [] }
  fds := fun fd => (own fd).map fun _ => .loop

section State
variable (w : ServerWorld) (i : Nat) (c c' : LifetimeSystem)

/-- Connection number `i` goes from `c` to `c'`; the poller of its loop is called for
what is new in the log. -/
def advance : ServerWorld :=
  { w with
    conns := w.conns.set i c'
    pollers := Function.update w.pollers c.tid
      ((c'.sys.run.calls.drop c.sys.run.calls.length).foldl (LoopPoller.call (.connection i))
        (w.pollers c.tid)) }

/-- The kernel closes a descriptor, and polls it no more. -/
def closeFd (fd : Int) : ServerWorld :=
  { w with
    fds := Function.update w.fds fd none
    pollers := fun tid =>
      { w.pollers tid with interest := Function.update (w.pollers tid).interest fd none } }

/-- A connection that loses its last owner is destroyed, and its socket closed. -/
def reap : ServerWorld := if 0 < c.owners ∧ c'.owners = 0 then w.closeFd c.fd else w

/-- Connection number `i` has an owner and holds the open descriptor `fd`. -/
def Alive (fd : Int) : Prop :=
  ∃ c, w.conns[i]? = some c ∧ c.fd = fd ∧ 1 ≤ c.owners ∧ w.fds fd = some (.connection i)

end State

/-- One step. -/
inductive Step : ServerWorld → WorldAction → ServerWorld → Prop where
  /-- The kernel returns any descriptor that is not open. -/
  | accept {w} (tid : Tid) (name : String) (fd : Int) (writeComplete highWaterMark : Bool)
      (memory : Memory UInt8) (hfd : w.fds fd = none) :
      Step w (.accept tid fd)
        { w with
          conns := w.conns ++ [.accepted tid w.base
            (TcpConnection.new name fd writeComplete highWaterMark) memory]
          fds := Function.update w.fds fd (some (.connection w.conns.length)) }
  /-- The pointer in the interest set goes to `activeChannels_`. -/
  | report {w} {tid : Tid} {fd : Int} {events : EventMask} {i : Nat} {c : LifetimeSystem}
      (hentry : (w.pollers tid).interest fd = some (events, .connection i))
      (hc : w.conns[i]? = some c) (hfree : c.Free c.tid) (h : c.sys.pc = .elsewhere)
      (hactive : c.active = none) (revents : EventMask) :
      Step w (.report tid fd revents)
        { w with conns := w.conns.set i { c with active := some revents } }
  | connection {w} {i : Nat} {c c' : LifetimeSystem} {a : LifetimeAction}
      (hc : w.conns[i]? = some c) (hstep : LifetimeSystem.Step c a c')
      (ha : WorldAction.OfConnection a) :
      Step w (.connection i a) ((w.advance i c c').reap c c')

/-! ## What the pollers and the descriptors say -/

/-- The pollers, the descriptors and the connections agree. -/
structure Coherent (w : ServerWorld) : Prop where
  kept : ∀ (i : Nat) c, w.conns[i]? = some c → ∃ name fd writeComplete highWaterMark,
    LifetimeSystem.Kept (TcpConnection.new name fd writeComplete highWaterMark) c
  /-- The descriptor is open as long as there is an owner. -/
  opened : ∀ (i : Nat) c, w.conns[i]? = some c → (0 < c.owners ↔ w.fds c.fd = some (.connection i))
  shown : ∀ (i : Nat) c, w.conns[i]? = some c → 0 < c.owners →
    (w.pollers c.tid).Shows (.connection i) c.fd c.sys.entry c.sys.run.mapped
  /-- Nothing else is in the pollers. -/
  entries : ∀ tid fd x, (w.pollers tid).Has fd x → w.fds fd = some x ∧
    ∀ i : Nat, x = .connection i → ∃ c, w.conns[i]? = some c ∧ c.tid = tid ∧ c.fd = fd
  erased : ∀ tid, (w.pollers tid).ErasedOwn
  own : ∀ fd tid, w.own fd = some tid →
    w.fds fd = some .loop ∧ (w.pollers tid).channels_ fd = some .loop

section Coherence
variable {w : ServerWorld} {i : Nat} {c c' : LifetimeSystem}

theorem coherent_start (base : Tid) (own : Int → Option Tid) : Coherent (start base own) := by
  refine ⟨by simp [start], by simp [start], by simp [start], fun tid fd x h => ?_, ?_, ?_⟩
  · have hx : own fd = some tid ∧ x = .loop := by
      rcases h with h | ⟨events, h⟩
      · simpa [start, eq_comm] using h
      · have h : own fd = some tid ∧ events = Channel.kReadEvent ∧ x = .loop := by
          simpa [start, eq_comm, and_assoc] using h
        exact ⟨h.1, h.2.2⟩
    obtain ⟨hown, rfl⟩ := hx
    exact ⟨by simp [start, hown], by simp⟩
  · intro tid e he
    cases he
  · intro fd tid h
    have hown : own fd = some tid := h
    exact ⟨by simp [start, hown], by simp [start, hown]⟩

/-- A connection is replaced; the others stay. -/
theorem getElem?_conns_set (hc : w.conns[i]? = some c) {j : Nat} {d : LifetimeSystem} :
    (w.conns.set i c')[j]? = some d ↔ j = i ∧ d = c' ∨ j ≠ i ∧ w.conns[j]? = some d := by
  have hlt : i < w.conns.length := (List.getElem?_eq_some_iff.mp hc).1
  by_cases hj : j = i
  · subst hj
    rw [List.getElem?_set_self hlt]
    simp [eq_comm]
  · rw [List.getElem?_set_ne (Ne.symm hj)]
    simp [hj]

theorem getElem?_conns_concat {j : Nat} {d : LifetimeSystem}
    (hd : (w.conns ++ [c])[j]? = some d) :
    w.conns[j]? = some d ∧ j < w.conns.length ∨ j = w.conns.length ∧ d = c := by
  rw [List.getElem?_append] at hd
  split at hd
  · exact Or.inl ⟨hd, ‹_›⟩
  · obtain ⟨hlt, rfl⟩ := List.getElem?_eq_some_iff.mp hd
    simp only [List.length_singleton] at hlt
    exact Or.inr ⟨by omega, by simp⟩

/-- Of the connections on one fd, only one has owners. -/
theorem Coherent.eq_of_live (hw : w.Coherent) {j : Nat} {d : LifetimeSystem}
    (hc : w.conns[i]? = some c) (hd : w.conns[j]? = some d) (hlive : 0 < c.owners)
    (hdlive : 0 < d.owners) (hfd : c.fd = d.fd) : i = j := by
  have hopen := (hw.opened i c hc).mp hlive
  rw [hfd, (hw.opened j d hd).mp hdlive] at hopen
  cases hopen
  rfl

/-- Only the loop of a connection with owners has something under its fd. -/
theorem Coherent.tid_of_has (hw : w.Coherent) (hc : w.conns[i]? = some c) (hlive : 0 < c.owners)
    {tid : Tid} {x : FdHolder} (h : (w.pollers tid).Has c.fd x) : tid = c.tid := by
  obtain ⟨hx, hconn⟩ := hw.entries tid c.fd x h
  obtain rfl : FdHolder.connection i = x :=
    Option.some.inj (((hw.opened i c hc).mp hlive).symm.trans hx)
  obtain ⟨d, hd, hdtid, -⟩ := hconn i rfl
  obtain rfl : c = d := Option.some.inj (hc.symm.trans hd)
  exact hdtid.symm

/-- Nothing is polled under a descriptor that is not open. -/
theorem Coherent.not_has (hw : w.Coherent) {fd : Int} (hfd : w.fds fd = none) (tid : Tid)
    (x : FdHolder) : ¬ (w.pollers tid).Has fd x := by
  intro h
  have hopen := (hw.entries tid fd x h).1
  rw [hfd] at hopen
  cases hopen

/-- A step that concerns neither the pollers nor the descriptors. -/
theorem coherent_set (hw : w.Coherent) (hc : w.conns[i]? = some c)
    (hkept : ∃ name fd writeComplete highWaterMark,
      LifetimeSystem.Kept (TcpConnection.new name fd writeComplete highWaterMark) c')
    (htid : c'.tid = c.tid) (hfd : c'.fd = c.fd) (howners : 0 < c'.owners ↔ 0 < c.owners)
    (hsys : 0 < c.owners → c'.sys.entry = c.sys.entry ∧ c'.sys.run.mapped = c.sys.run.mapped) :
    Coherent { w with conns := w.conns.set i c' } := by
  refine ⟨fun j d hd => ?_, fun j d hd => ?_, fun j d hd hlive => ?_, fun tid fd x h => ?_,
    hw.erased, hw.own⟩
  · rcases (getElem?_conns_set hc).mp hd with ⟨-, rfl⟩ | ⟨-, hd⟩
    · exact hkept
    · exact hw.kept j d hd
  · rcases (getElem?_conns_set hc).mp hd with ⟨rfl, rfl⟩ | ⟨-, hd⟩
    · rw [howners, hfd]
      exact hw.opened j c hc
    · exact hw.opened j d hd
  · rcases (getElem?_conns_set hc).mp hd with ⟨rfl, rfl⟩ | ⟨-, hd⟩
    · rw [howners] at hlive
      rw [htid, hfd, (hsys hlive).1, (hsys hlive).2]
      exact hw.shown j c hc hlive
    · exact hw.shown j d hd hlive
  · obtain ⟨hopen, hconn⟩ := hw.entries tid fd x h
    refine ⟨hopen, fun j hx => ?_⟩
    obtain ⟨d, hd, hdtid, hdfd⟩ := hconn j hx
    by_cases hj : j = i
    · subst hj
      obtain rfl : c = d := Option.some.inj (hc.symm.trans hd)
      exact ⟨c', (getElem?_conns_set hc).mpr (Or.inl ⟨rfl, rfl⟩), htid.trans hdtid, hfd.trans hdfd⟩
    · exact ⟨d, (getElem?_conns_set hc).mpr (Or.inr ⟨hj, hd⟩), hdtid, hdfd⟩

/-- A step of a connection with owners: elsewhere than under its fd nothing changes, and
there it stays as it was or is closed. -/
theorem coherent_replace (hw : w.Coherent) (hc : w.conns[i]? = some c) (hlive : 0 < c.owners)
    {pollers : Tid → LoopPoller} {fds : Int → Option FdHolder}
    (hkept : ∃ name fd writeComplete highWaterMark,
      LifetimeSystem.Kept (TcpConnection.new name fd writeComplete highWaterMark) c')
    (htid : c'.tid = c.tid) (hfd : c'.fd = c.fd)
    (hpollers : ∀ tid fd, fd ≠ c.fd → (pollers tid).channels_ fd = (w.pollers tid).channels_ fd ∧
      (pollers tid).interest fd = (w.pollers tid).interest fd)
    (hfds : ∀ fd, fd ≠ c.fd → fds fd = w.fds fd)
    (hhere : fds c.fd = if 0 < c'.owners then some (.connection i) else none)
    (hshown : (pollers c.tid).Shows (.connection i) c.fd c'.sys.entry c'.sys.run.mapped)
    (hout : ∀ tid x, tid ≠ c.tid → ¬ (pollers tid).Has c.fd x)
    (herased : ∀ tid, (pollers tid).ErasedOwn) :
    Coherent { w with conns := w.conns.set i c', pollers := pollers, fds := fds } := by
  have hopen := (hw.opened i c hc).mp hlive
  -- another connection on the same fd has no owners
  have hother : ∀ j d, j ≠ i → w.conns[j]? = some d → 0 < d.owners → d.fd ≠ c.fd :=
    fun j d hj hd hdlive heq => hj (hw.eq_of_live hd hc hdlive hlive heq)
  refine ⟨fun j d hd => ?_, fun j d hd => ?_, fun j d hd hdlive => ?_, fun tid fd x h => ?_,
    herased, fun fd tid h => ?_⟩
  · rcases (getElem?_conns_set hc).mp hd with ⟨-, rfl⟩ | ⟨-, hd⟩
    · exact hkept
    · exact hw.kept j d hd
  · show 0 < d.owners ↔ fds d.fd = _
    rcases (getElem?_conns_set hc).mp hd with ⟨rfl, rfl⟩ | ⟨hj, hd⟩
    · rw [hfd, hhere]
      split <;> simp_all
    · by_cases hdfd : d.fd = c.fd
      · refine iff_of_false (fun hdlive => hother j d hj hd hdlive hdfd) ?_
        rw [hdfd, hhere]
        split <;> simp [Ne.symm hj]
      · rw [hfds _ hdfd]
        exact hw.opened j d hd
  · rcases (getElem?_conns_set hc).mp hd with ⟨rfl, rfl⟩ | ⟨hj, hd⟩
    · rw [htid, hfd]
      exact hshown
    · obtain ⟨hmap, hint⟩ := hpollers d.tid d.fd (hother j d hj hd hdlive)
      obtain ⟨hmap', hint'⟩ := hw.shown j d hd hdlive
      exact ⟨hmap.trans hmap', hint.trans hint'⟩
  · show fds fd = _ ∧ _
    by_cases heq : fd = c.fd
    · subst heq
      by_cases ht : tid = c.tid
      · subst ht
        obtain ⟨rfl, hreg⟩ := hshown.has h
        have hlive' : 0 < c'.owners := by
          by_contra hdead
          obtain ⟨_, _, _, _, hkept⟩ := hkept
          obtain ⟨hentry, hmap, -⟩ := LifetimeSystem.unregistered_of_dead hkept (by omega)
          simp [hentry, hmap] at hreg
        refine ⟨by rw [hhere, if_pos hlive'], fun j hj => ?_⟩
        cases hj
        exact ⟨c', (getElem?_conns_set hc).mpr (Or.inl ⟨rfl, rfl⟩), htid, hfd⟩
      · exact absurd h (hout tid x ht)
    · obtain ⟨hmap, hint⟩ := hpollers tid fd heq
      have h' : (w.pollers tid).Has fd x := by
        rwa [LoopPoller.Has, ← hmap, ← hint]
      obtain ⟨hopen', hconn⟩ := hw.entries tid fd x h'
      refine ⟨(hfds fd heq).trans hopen', fun j hx => ?_⟩
      obtain ⟨d, hd, hdtid, hdfd⟩ := hconn j hx
      refine ⟨d, (getElem?_conns_set hc).mpr (Or.inr ⟨?_, hd⟩), hdtid, hdfd⟩
      rintro rfl
      obtain rfl : c = d := Option.some.inj (hc.symm.trans hd)
      exact heq hdfd.symm
  · obtain ⟨hloop, hmap⟩ := hw.own fd tid h
    have heq : fd ≠ c.fd := by
      rintro rfl
      rw [hopen] at hloop
      cases hloop
    exact ⟨(hfds fd heq).trans hloop, (hpollers tid fd heq).1.trans hmap⟩

/-- What a step leaves in the poller of the connection's loop. -/
theorem shown_advance (hw : w.Coherent) (hc : w.conns[i]? = some c) (hlive : 0 < c.owners)
    {a : LifetimeAction} (hstep : LifetimeSystem.Step c a c')
    (hentry : c.sys.entry = c.sys.run.entry) :
    ((w.advance i c c').pollers c.tid).Shows (.connection i) c.fd c'.sys.entry c'.sys.run.mapped ∧
      ((w.advance i c c').pollers c.tid).ErasedOwn ∧
      ∀ fd, fd ≠ c.fd → ((w.advance i c c').pollers c.tid).channels_ fd =
          (w.pollers c.tid).channels_ fd ∧
        ((w.advance i c c').pollers c.tid).interest fd = (w.pollers c.tid).interest fd := by
  obtain ⟨-, cs, hcalls, hfd⟩ := hstep.calls
  have hpoller : (w.advance i c c').pollers c.tid =
      cs.foldl (LoopPoller.call (.connection i)) (w.pollers c.tid) := by
    rw [advance, hcalls, List.drop_left]
    exact Function.update_self ..
  have hentry' : c'.sys.entry = cs.foldl PollerOp.onInterest c.sys.entry := by
    rw [hstep.entry hentry, hentry]
    show c'.sys.run.calls.foldl _ _ = _
    rw [hcalls, List.foldl_append]
    rfl
  have hmapped : c'.sys.run.mapped = cs.foldl PollerOp.onMap c.sys.run.mapped := by
    show c'.sys.run.calls.foldl _ _ = _
    rw [hcalls, List.foldl_append]
    rfl
  obtain ⟨hshows, herased⟩ := LoopPoller.shows_foldl (hw.erased c.tid) (hw.shown i c hc hlive) hfd
  rw [hpoller, hentry', hmapped]
  refine ⟨hshows, herased, fun fd hne => LoopPoller.foldl_call_other fun p hp heq => hne ?_⟩
  rw [← heq, hfd p hp]

/-- A step of a connection with owners. -/
theorem coherent_live (hw : w.Coherent) (hc : w.conns[i]? = some c) (hlive : 0 < c.owners)
    {a : LifetimeAction} (hstep : LifetimeSystem.Step c a c') (ha : LifetimeSystem.OnLoop a) :
    ((w.advance i c c').reap c c').Coherent := by
  obtain ⟨name, fd, writeComplete, highWaterMark, hkept⟩ := hw.kept i c hc
  have hkept' := LifetimeSystem.kept_step hkept hstep ha
  have hopen := (hw.opened i c hc).mp hlive
  obtain ⟨hshown, herased, hsame⟩ := shown_advance hw hc hlive hstep hkept.entry
  have hother : ∀ tid, tid ≠ c.tid → (w.advance i c c').pollers tid = w.pollers tid :=
    fun tid ht => Function.update_of_ne ht ..
  -- the other loops have nothing under the fd
  have hout : ∀ tid x, tid ≠ c.tid → ¬ ((w.advance i c c').pollers tid).Has c.fd x := by
    intro tid x ht h
    rw [hother tid ht] at h
    exact ht (hw.tid_of_has hc hlive h)
  have hpollers : ∀ tid fd, fd ≠ c.fd →
      ((w.advance i c c').pollers tid).channels_ fd = (w.pollers tid).channels_ fd ∧
        ((w.advance i c c').pollers tid).interest fd = (w.pollers tid).interest fd := by
    intro tid fd hne
    by_cases ht : tid = c.tid
    · rw [ht]
      exact hsame fd hne
    · rw [hother tid ht]
      exact ⟨rfl, rfl⟩
  have herased' : ∀ tid, ((w.advance i c c').pollers tid).ErasedOwn := by
    intro tid
    by_cases ht : tid = c.tid
    · rw [ht]
      exact herased
    · rw [hother tid ht]
      exact hw.erased tid
  by_cases hdead : c'.owners = 0
  · rw [reap, if_pos ⟨hlive, hdead⟩]
    obtain ⟨hentry, hmapped, -⟩ := LifetimeSystem.unregistered_of_dead hkept' hdead
    refine coherent_replace hw hc hlive ⟨_, _, _, _, hkept'⟩ hstep.tid hstep.calls.1
      (fun tid fd hne => ?_) (fun fd hne => ?_) ?_ ?_ (fun tid x ht h => ?_) herased'
    · exact ⟨(hpollers tid fd hne).1, (Function.update_of_ne hne ..).trans (hpollers tid fd hne).2⟩
    · exact Function.update_of_ne hne ..
    · rw [if_neg (by omega)]
      exact Function.update_self ..
    · rw [hentry, hmapped]
      rw [hmapped] at hshown
      exact ⟨hshown.channels, Function.update_self ..⟩
    · rcases h with h | ⟨events, h⟩
      · exact hout tid x ht (Or.inl h)
      · have hnone : Function.update ((w.advance i c c').pollers tid).interest c.fd none c.fd =
            none := Function.update_self ..
        cases hnone.symm.trans h
  · rw [reap, if_neg fun h => hdead h.2]
    refine coherent_replace hw hc hlive ⟨_, _, _, _, hkept'⟩ hstep.tid hstep.calls.1 hpollers
      (fun _ _ => rfl) ?_ hshown hout herased'
    rw [if_pos (by omega)]
    exact hopen

/-- A step of a connection without owners. -/
theorem coherent_dead (hw : w.Coherent) (hc : w.conns[i]? = some c) (hdead : c.owners = 0)
    {a : LifetimeAction} (hstep : LifetimeSystem.Step c a c') (ha : LifetimeSystem.OnLoop a) :
    ((w.advance i c c').reap c c').Coherent := by
  obtain ⟨name, fd, writeComplete, highWaterMark, hkept⟩ := hw.kept i c hc
  obtain ⟨hdead', hrun⟩ := LifetimeSystem.dead_step hkept.confined hdead hstep ha
  have hadvance : w.advance i c c' = { w with conns := w.conns.set i c' } := by
    rw [advance, hrun, List.drop_length, List.foldl_nil, Function.update_eq_self]
  rw [reap, if_neg (by omega), hadvance]
  exact coherent_set hw hc ⟨_, _, _, _, LifetimeSystem.kept_step hkept hstep ha⟩ hstep.tid
    hstep.calls.1 (by omega) fun hlive => by omega

/-- An accept, on a descriptor that is not open. -/
theorem coherent_accept (hw : w.Coherent) (tid : Tid) (name : String) {fd : Int}
    (writeComplete highWaterMark : Bool) (memory : Memory UInt8) (hfd : w.fds fd = none) :
    Coherent { w with
      conns := w.conns ++ [.accepted tid w.base
        (TcpConnection.new name fd writeComplete highWaterMark) memory]
      fds := Function.update w.fds fd (some (.connection w.conns.length)) } := by
  have hhere : Function.update w.fds fd (some (.connection w.conns.length)) fd =
      some (.connection w.conns.length) := Function.update_self ..
  have hother : ∀ fd', fd' ≠ fd →
      Function.update w.fds fd (some (.connection w.conns.length)) fd' = w.fds fd' :=
    fun fd' hne => Function.update_of_ne hne ..
  have hnone : ∀ tid x, ¬ (w.pollers tid).Has fd x := hw.not_has hfd
  refine ⟨fun i c hc => ?_, fun i c hc => ?_, fun i c hc hlive => ?_, fun tid' fd' x h => ?_,
    hw.erased, fun fd' tid' h => ?_⟩
  · rcases getElem?_conns_concat hc with ⟨hc, -⟩ | ⟨-, rfl⟩
    · exact hw.kept i c hc
    · exact ⟨name, fd, writeComplete, highWaterMark, LifetimeSystem.kept_accepted⟩
  · show 0 < c.owners ↔ Function.update _ _ _ c.fd = _
    rcases getElem?_conns_concat hc with ⟨hc, hlt⟩ | ⟨rfl, rfl⟩
    · by_cases hcfd : c.fd = fd
      · have hopened := hw.opened i c hc
        rw [hcfd, hfd] at hopened
        rw [hcfd, hhere, hopened]
        simp only [reduceCtorEq, Option.some.injEq, FdHolder.connection.injEq, false_iff]
        omega
      · rw [hother _ hcfd]
        exact hw.opened i c hc
    · refine iff_of_true ?_ hhere
      exact LifetimeSystem.owner_of_held LifetimeSystem.kept_accepted.confined (Or.inl rfl)
  · rcases getElem?_conns_concat hc with ⟨hc, -⟩ | ⟨rfl, rfl⟩
    · exact hw.shown i c hc hlive
    · constructor
      · show (w.pollers tid).channels_ fd = none
        exact Option.eq_none_iff_forall_ne_some.mpr fun x h => hnone tid x (Or.inl h)
      · show (w.pollers tid).interest fd = none
        exact Option.eq_none_iff_forall_ne_some.mpr fun x h => hnone tid x.2 (Or.inr ⟨x.1, h⟩)
  · obtain ⟨hopen, hconn⟩ := hw.entries tid' fd' x h
    have hne : fd' ≠ fd := by
      rintro rfl
      exact hnone tid' x h
    refine ⟨(hother fd' hne).trans hopen, fun i hx => ?_⟩
    obtain ⟨c, hc, hctid, hcfd⟩ := hconn i hx
    exact ⟨c, List.getElem?_append_left (List.getElem?_eq_some_iff.mp hc).1 ▸ hc, hctid, hcfd⟩
  · obtain ⟨hloop, hmap⟩ := hw.own fd' tid' h
    refine ⟨(hother fd' ?_).trans hloop, hmap⟩
    rintro rfl
    rw [hfd] at hloop
    cases hloop

/-- **One step** keeps the pollers, the descriptors and the connections in agreement. -/
theorem coherent_step {w' : ServerWorld} {a : WorldAction} (hw : w.Coherent) (h : Step w a w') :
    w'.Coherent := by
  cases h with
  | accept tid name fd writeComplete highWaterMark memory hfd =>
    exact coherent_accept hw tid name writeComplete highWaterMark memory hfd
  | @report tid fd events i c hentry hc hfree h hactive revents =>
    obtain ⟨hopen, hconn⟩ := hw.entries tid fd _ (Or.inr ⟨_, hentry⟩)
    obtain ⟨d, hd, rfl, rfl⟩ := hconn i rfl
    obtain rfl : c = d := Option.some.inj (hc.symm.trans hd)
    have hlive := (hw.opened i c hc).mpr hopen
    have hsome : c.sys.entry.isSome = true := by
      rw [(hw.shown i c hc hlive).interest] at hentry
      cases hentry' : c.sys.entry with
      | some m => rfl
      | none =>
        rw [hentry'] at hentry
        cases hentry
    obtain ⟨name, fd, writeComplete, highWaterMark, hkept⟩ := hw.kept i c hc
    have hstep := LifetimeSystem.Step.report hfree h hactive hsome revents
    exact coherent_set hw hc ⟨_, _, _, _, LifetimeSystem.kept_step hkept hstep trivial⟩ rfl rfl
      Iff.rfl fun _ => ⟨rfl, rfl⟩
  | @connection i c c' a hc hstep ha =>
    rcases Nat.eq_zero_or_pos c.owners with hdead | hlive
    · exact coherent_dead hw hc hdead hstep ha.onLoop
    · exact coherent_live hw hc hlive hstep ha.onLoop

theorem coherent_run {base : Tid} {own : Int → Option Tid} {as : List WorldAction}
    (h : Run Step (start base own) as w) : w.Coherent :=
  h.invariant (coherent_start base own) fun _ _ _ hw hstep => coherent_step hw hstep

end Coherence

/-! ## Registered channels -/

/-- No pointer to a channel dangles, and the channels of the pollers have descriptors of
their own. -/
structure RegistrationsSound (w : ServerWorld) : Prop where
  /-- What `channels_` or the interest set points to. -/
  pointer : ∀ tid fd i, (w.pollers tid).Has fd (.connection i) → w.Alive i fd
  /-- What waits in `activeChannels_`. -/
  active : ∀ (i : Nat) c, w.conns[i]? = some c → c.active.isSome = true → w.Alive i c.fd
  /-- A channel that is registered is in `channels_` under its own fd. -/
  registered : ∀ (i : Nat) c, w.conns[i]? = some c → c.sys.run.conn.channel_.index_ ≠ .kNew →
    (w.pollers c.tid).channels_ c.fd = some (.connection i)
  distinct : ∀ (i j : Nat) c d, w.conns[i]? = some c → w.conns[j]? = some d →
    c.sys.run.conn.channel_.index_ ≠ .kNew → d.sys.run.conn.channel_.index_ ≠ .kNew →
    c.fd = d.fd → i = j
  /-- Every erase has found nothing, or the entry of its own channel. -/
  erased : ∀ tid, (w.pollers tid).ErasedOwn
  /-- The channels of the loops themselves stay where they are. -/
  own : ∀ fd tid, w.own fd = some tid →
    w.fds fd = some .loop ∧ (w.pollers tid).channels_ fd = some .loop

theorem sound_of_coherent {w : ServerWorld} (hw : w.Coherent) : w.RegistrationsSound := by
  have hreg : ∀ (i : Nat) c, w.conns[i]? = some c → c.Registered →
      0 < c.owners ∧ w.fds c.fd = some (.connection i) := by
    intro i c hc h
    obtain ⟨name, fd, writeComplete, highWaterMark, hkept⟩ := hw.kept i c hc
    have hlive := LifetimeSystem.owner_of_registered hkept h
    exact ⟨hlive, (hw.opened i c hc).mp hlive⟩
  refine ⟨fun tid fd i h => ?_, fun i c hc h => ?_, fun i c hc h => ?_,
    fun i j c d hc hd h h' heq => ?_, hw.erased, hw.own⟩
  · obtain ⟨hopen, hconn⟩ := hw.entries tid fd _ h
    obtain ⟨c, hc, -, rfl⟩ := hconn i rfl
    exact ⟨c, hc, rfl, (hw.opened i c hc).mpr hopen, hopen⟩
  · obtain ⟨hlive, hopen⟩ := hreg i c hc (Or.inr (Or.inl h))
    exact ⟨c, hc, rfl, hlive, hopen⟩
  · obtain ⟨hlive, -⟩ := hreg i c hc (Or.inl h)
    obtain ⟨name, fd, writeComplete, highWaterMark, hkept⟩ := hw.kept i c hc
    rw [(hw.shown i c hc hlive).channels, if_pos (hkept.tracked.map.mpr h)]
  · exact hw.eq_of_live hc hd (hreg i c hc (Or.inl h)).1 (hreg j d hd (Or.inl h')).1 heq

/-- **Registered channels are alive**, in every run with any accepts, events and closes,
and with any shared pointers kept and given up: a pointer in `channels_`, in the
interest set or in `activeChannels_` leads to a connection that has an owner and whose
descriptor is open, and no erase removes the entry of another channel. -/
theorem registrations_sound {base : Tid} {own : Int → Option Tid} {as : List WorldAction}
    {w : ServerWorld} (h : Run Step (start base own) as w) : w.RegistrationsSound :=
  sound_of_coherent (coherent_run h)

/-- The peer of the first connection hangs up; the second connection gets its fd as soon
as `connectDestroyed` has run and its batch has ended. -/
theorem registrations_sound_reused : ∃ as, ∃ w : ServerWorld,
    Run Step (start 3 fun fd => if fd = 4 then some 3 else none) as w ∧
      w.fds 5 = some (.connection 1) ∧ w.RegistrationsSound := by
  have hstart : Run Step (start 3 fun fd => if fd = 4 then some 3 else none) [] _ := .refl
  have hopened := hstart
    |>.tail (.accept 0 "first" 5 false false (fun _ => none) rfl)
    |>.tail (.connection (i := 0) rfl (.serve (.swap rfl) (by decide) rfl) trivial)
    |>.tail (.connection (i := 0) rfl (.serve (.connectEstablished (a := .accept 0) rfl) (by decide)
      trivial) trivial)
    |>.tail (.connection (i := 0) rfl (.serve (.endBatch rfl) (by decide) trivial) trivial)
  have hclosed := hopened
    |>.tail (@Step.report _ 0 5 _ 0 _ rfl rfl (by decide) rfl rfl EPOLLHUP)
    |>.tail (.connection (i := 0) rfl (.dispatch (by decide) rfl rfl (by decide)) trivial)
    |>.tail (.connection (i := 0) rfl (.close (by decide) rfl .handleClose trivial) trivial)
    |>.tail (.connection (i := 0) rfl (.closeCallback rfl (by decide)) trivial)
    |>.tail (.connection (i := 0) rfl (.serve (.handled rfl) (by decide) trivial) trivial)
  have hrun := hclosed
    |>.tail (.connection (i := 0) rfl (.serve (.swap rfl) (by decide) rfl) trivial)
    |>.tail (.connection (i := 0) rfl (.serve (.connectDestroyed (a := .accept 0) rfl) (by decide)
      trivial) trivial)
    |>.tail (.connection (i := 0) rfl (.serve (.destroy rfl) (by decide) trivial) trivial)
    |>.tail (.connection (i := 0) rfl (.serve (.endBatch rfl) (by decide) trivial) trivial)
    |>.tail (.accept 0 "second" 5 false false (fun _ => none) (by decide))
  exact ⟨_, _, hrun, by decide, registrations_sound hrun⟩

end ServerWorld
end Mymuduo
