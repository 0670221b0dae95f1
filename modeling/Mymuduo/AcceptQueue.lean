import Mymuduo.AddressText
import Mymuduo.ServerWorld
import Mathlib.Data.Finset.Card
import Mathlib.Data.Int.LeastGreatest

/-! # Accepting

The kernel queues the connections that have come to the listening socket.
`Acceptor::handleRead` takes the oldest one and hands it to `newConnection`, on the lowest
descriptor that is free.  With no descriptor free it takes nothing, and the connection waits:
the only way to lose a connection is that the peer gives it up while it is queued.

The descriptors the loops have themselves and those of the connections are accounted for one
by one (`ServerWorld.Accounted`), so that `accept4` fails for want of a descriptor exactly
when as many connections as there is room for still have owners.
-/
namespace Mymuduo
open Transition

namespace ServerWorld

/-- The connections that have owners. -/
def living (w : ServerWorld) : List LifetimeSystem := w.conns.filter fun c => 0 < c.owners

/-- Whoever the table of descriptors names does hold the descriptor. -/
structure Accounted (w : ServerWorld) : Prop where
  held : ∀ fd (i : Nat), w.fds fd = some (.connection i) →
    ∃ c, w.conns[i]? = some c ∧ c.fd = fd ∧ 0 < c.owners
  loops : ∀ fd, w.fds fd = some .loop → (w.own fd).isSome = true

section Descriptors
variable {w w' : ServerWorld} {a : WorldAction}

theorem accounted_start (base : Tid) (own : Int → Option Tid) : (start base own).Accounted where
  held := fun fd i h => by
    obtain ⟨tid, -, htid⟩ := Option.map_eq_some_iff.mp h
    cases htid
  loops := fun fd h => by
    obtain ⟨tid, htid, -⟩ := Option.map_eq_some_iff.mp h
    exact Option.isSome_iff_exists.mpr ⟨tid, htid⟩

theorem Step.own (h : Step w a w') : w'.own = w.own := by
  cases h with
  | accept | report => rfl
  | connection =>
    rw [reap]
    split <;> rfl

/-- But for the accepts, descriptors are only closed. -/
theorem Step.fds (h : Step w a w') (ha : ∀ tid fd, a ≠ .accept tid fd) (fd : Int) :
    w'.fds fd = w.fds fd ∨ w'.fds fd = none := by
  cases h with
  | accept tid name fd' => exact absurd rfl (ha tid fd')
  | report => exact Or.inl rfl
  | @connection i c c' =>
    rw [reap]
    split
    · by_cases hfd : fd = c.fd
      · exact Or.inr (hfd ▸ Function.update_self ..)
      · exact Or.inl (Function.update_of_ne hfd ..)
    · exact Or.inl rfl

/-- An accept opens one descriptor. -/
theorem Step.fds_accept {tid : Tid} {connfd fd : Int} (h : Step w (.accept tid connfd) w')
    (hfd : fd ≠ connfd) : w'.fds fd = w.fds fd := by
  cases h with
  | accept => exact Function.update_of_ne hfd ..

/-- Only an accept makes a connection. -/
theorem Step.length_conns (h : Step w a w') : w'.conns.length =
    match a with
    | .accept _ _ => w.conns.length + 1
    | _ => w.conns.length := by
  cases h with
  | accept => exact List.length_append
  | report => exact List.length_set
  | @connection i c c' =>
    show ((w.advance i c c').reap c c').conns.length = w.conns.length
    rw [reap]
    split <;> exact List.length_set

/-- A connection is replaced, and its descriptor closed if it has lost its last owner. -/
theorem Accounted.set (h : w.Accounted) {i : Nat} {c c' : LifetimeSystem}
    (hc : w.conns[i]? = some c) (hfd : c'.fd = c.fd) (hconns : w'.conns = w.conns.set i c')
    (hown : w'.own = w.own) (hsame : ∀ fd, w'.fds fd = w.fds fd ∨ w'.fds fd = none)
    (hlive : w'.fds c.fd = some (.connection i) → 0 < c.owners → 0 < c'.owners) :
    w'.Accounted where
  held := fun fd j hj => by
    rcases hsame fd with hfds | hfds
    · obtain ⟨d, hd, hdfd, hdlive⟩ := h.held fd j (hfds ▸ hj)
      by_cases hji : j = i
      · subst hji
        obtain rfl : c = d := Option.some.inj (hc.symm.trans hd)
        exact ⟨c', hconns ▸ (getElem?_conns_set hc).mpr (Or.inl ⟨rfl, rfl⟩), hfd.trans hdfd,
          hlive (hdfd ▸ hj) hdlive⟩
      · exact ⟨d, hconns ▸ (getElem?_conns_set hc).mpr (Or.inr ⟨hji, hd⟩), hdfd, hdlive⟩
    · cases hfds.symm.trans hj
  loops := fun fd hloop => by
    rw [hown]
    rcases hsame fd with hfds | hfds
    · exact h.loops fd (hfds ▸ hloop)
    · cases hfds.symm.trans hloop

theorem Accounted.step (h : w.Accounted) (hstep : Step w a w') : w'.Accounted := by
  have hown := hstep.own
  cases hstep with
  | accept tid name fd writeComplete highWaterMark memory hfd =>
    refine ⟨fun fd' i hi => ?_, fun fd' hloop => ?_⟩
    · by_cases heq : fd' = fd
      · subst heq
        obtain rfl : w.conns.length = i := by
          have hnew := (Function.update_self fd' (some (FdHolder.connection w.conns.length))
            w.fds).symm.trans hi
          cases hnew
          rfl
        refine ⟨_, List.getElem?_concat_length, rfl, ?_⟩
        exact LifetimeSystem.owner_of_held LifetimeSystem.kept_accepted.confined (Or.inl rfl)
      · obtain ⟨c, hc, hcfd, hlive⟩ := h.held fd' i ((Function.update_of_ne heq ..).symm.trans hi)
        exact ⟨c, List.getElem?_append_left (List.getElem?_eq_some_iff.mp hc).1 ▸ hc, hcfd, hlive⟩
    · by_cases heq : fd' = fd
      · subst heq
        have hnew := (Function.update_self fd' (some (FdHolder.connection w.conns.length))
          w.fds).symm.trans hloop
        cases hnew
      · exact h.loops fd' ((Function.update_of_ne heq ..).symm.trans hloop)
  | report hentry hc =>
    refine h.set hc ?_ rfl rfl (fun _ => Or.inl rfl) fun _ hlive => hlive
    rfl
  | @connection i c c' a hc hlife ha =>
    have hfds := (Step.connection hc hlife ha).fds fun tid fd heq => by cases heq
    refine h.set hc hlife.calls.1 ?_ hown hfds ?_
    · rw [reap]
      split <;> rfl
    · intro hopen hlive
      by_contra hdead
      rw [reap, if_pos ⟨hlive, by omega⟩] at hopen
      have hclosed : ((w.advance i c c').closeFd c.fd).fds c.fd = none := Function.update_self ..
      cases hclosed.symm.trans hopen

end Descriptors

section Living
variable {w : ServerWorld}

/-- The descriptors of the connections that have owners. -/
theorem mem_fds_living (hw : w.Coherent) (h : w.Accounted) {fd : Int} :
    fd ∈ w.living.map LifetimeSystem.fd ↔ ∃ i, w.fds fd = some (.connection i) := by
  simp only [living, List.mem_map, List.mem_filter, decide_eq_true_eq]
  constructor
  · rintro ⟨c, ⟨hmem, hlive⟩, rfl⟩
    obtain ⟨i, hc⟩ := List.mem_iff_getElem?.mp hmem
    exact ⟨i, (hw.opened i c hc).mp hlive⟩
  · rintro ⟨i, hi⟩
    obtain ⟨c, hc, hfd, hlive⟩ := h.held fd i hi
    exact ⟨c, ⟨List.mem_of_getElem? hc, hlive⟩, hfd⟩

/-- No two of them are the same. -/
theorem nodup_fds_living (hw : w.Coherent) : (w.living.map LifetimeSystem.fd).Nodup := by
  rw [List.Nodup, List.pairwise_map, living, List.pairwise_filter, List.pairwise_iff_getElem]
  intro i j hi hj hlt hlive hlive' hfd
  have heq : i = j := hw.eq_of_live (List.getElem?_eq_getElem hi) (List.getElem?_eq_getElem hj)
    (of_decide_eq_true hlive) (of_decide_eq_true hlive') hfd
  omega

end Living
end ServerWorld

/-! ## The acceptor -/

/-- The values of `errno` after an `accept4` that matter here, and all the others. -/
inductive AcceptErrno where
  | EAGAIN
  | EMFILE
  | ECONNABORTED
  | other (code : Nat)
deriving DecidableEq, Repr

/-- What the kernel does with an `accept4`; `logged` is what `errno` reads after the logging
call that follows a failure. -/
inductive AcceptAnswer where
  | accept (connfd : Int) (addr : InetAddress)
  | fail (errno logged : AcceptErrno)
deriving DecidableEq, Repr

/-- `Socket::accept`: the descriptor, and what `peeraddr` is afterwards. -/
def Socket.accept (peeraddr : InetAddress) : AcceptAnswer → Int × InetAddress
  | .accept connfd addr => (connfd, if 0 ≤ connfd then addr else peeraddr)
  | .fail _ _ => (-1, peeraddr)

inductive AcceptorEffect where
  | newConnectionCallback (connfd : Int) (peeraddr : InetAddress)
  | close (connfd : Int)
  /-- `accept err`. -/
  | logAcceptErr
  /-- `sockfd reached limit!`. -/
  | logReachedLimit
deriving DecidableEq, Repr

structure Acceptor where
  /-- Whether `newConnectionCallback_` is set. -/
  newConnectionCallback_ : Bool
deriving DecidableEq, Repr

namespace Acceptor

/-- What `errno == EMFILE` compares. -/
def errnoAfterLog : AcceptAnswer → Option AcceptErrno
  | .accept _ _ => none
  | .fail _ logged => some logged

/-- `Acceptor::handleRead`. -/
def handleRead (a : Acceptor) (answer : AcceptAnswer) : List AcceptorEffect :=
  let (connfd, peeraddr) := Socket.accept (InetAddress.new 0 "127.0.0.1") answer
  if 0 ≤ connfd then
    if a.newConnectionCallback_ then [.newConnectionCallback connfd peeraddr] else [.close connfd]
  else if errnoAfterLog answer = some .EMFILE then [.logAcceptErr, .logReachedLimit]
  else [.logAcceptErr]

theorem handleRead_accept (a : Acceptor) {connfd : Int} (h : 0 ≤ connfd) (addr : InetAddress) :
    a.handleRead (.accept connfd addr) = if a.newConnectionCallback_
      then [.newConnectionCallback connfd addr] else [.close connfd] := by
  simp [handleRead, Socket.accept, h]

/-- A failure is logged and nothing else. -/
theorem handleRead_fail (a : Acceptor) (e logged : AcceptErrno) :
    a.handleRead (.fail e logged) = [.logAcceptErr, .logReachedLimit] ∨
      a.handleRead (.fail e logged) = [.logAcceptErr] := by
  by_cases h : logged = .EMFILE <;> simp [handleRead, Socket.accept, errnoAfterLog, h]

end Acceptor

/-- What has become of a connection the kernel had queued. -/
inductive Fate where
  /-- Number `i` of the connections of the server. -/
  | connection (i : Nat)
  /-- Closed at once, as there is nobody to take it. -/
  | closed
  /-- Given up by the peer. -/
  | aborted
deriving DecidableEq, Repr

def Fate.connection? : Fate → Option Nat
  | .connection i => some i
  | _ => none

inductive ListeningAction where
  /-- The kernel queues a connection. -/
  | arrive (peer : InetAddress)
  /-- `Acceptor::handleRead`. -/
  | handleRead (answer : AcceptAnswer)
  /-- A step of the server that is no accept. -/
  | world (a : WorldAction)

/-- A server with its listening socket. -/
structure ListeningServer where
  world : ServerWorld
  acceptor : Acceptor
  /-- The number of descriptors the process may have. -/
  limit : Nat
  /-- The descriptors the process has open for anything else. -/
  others : Int → Bool
  /-- The queue of the listening socket, the oldest connection first. -/
  queue : List InetAddress
  /-- Every connection that was ever queued. -/
  arrived : List InetAddress
  /-- Those that have left the queue. -/
  handled : List (InetAddress × Fate)

namespace ListeningServer

def start (base : Tid) (own : Int → Option Tid) (newConnectionCallback_ : Bool) (limit : Nat)
    (others : Int → Bool) : ListeningServer where
  world := ServerWorld.start base own
  acceptor := ⟨newConnectionCallback_⟩
  limit := limit
  others := others
  queue := []
  arrived := []
  handled := []

/-- The second argument of `listen`. -/
def backlog : Nat := 1024

section State
variable (s : ListeningServer)

/-- The kernel may give out `fd`. -/
def Free (fd : Int) : Prop :=
  0 ≤ fd ∧ fd < s.limit ∧ s.others fd = false ∧ s.world.fds fd = none

def Full : Prop := ∀ fd, ¬ s.Free fd

/-- The descriptor `accept4` returns. -/
def Lowest (fd : Int) : Prop := s.Free fd ∧ ∀ fd', s.Free fd' → fd ≤ fd'

/-- What `accept4` can answer. -/
def Possible : AcceptAnswer → Prop
  | .accept connfd addr => s.queue.head? = some addr ∧ s.Lowest connfd
  | .fail .EAGAIN _ => s.queue = []
  | .fail .EMFILE _ => s.Full
  | .fail .ECONNABORTED _ => s.queue ≠ []
  | .fail (.other _) _ => True

/-- What becomes of the oldest connection in the queue, if it leaves the queue. -/
def fate : AcceptAnswer → Option Fate
  | .accept _ _ =>
    if s.acceptor.newConnectionCallback_ then some (.connection s.world.conns.length)
    else some .closed
  | .fail .ECONNABORTED _ => some .aborted
  | .fail _ _ => none

/-- The oldest connection leaves the queue, unless there is no outcome. -/
def leave : Option Fate → ListeningServer
  | some o =>
    { s with
      queue := s.queue.tail
      handled := s.handled ++ (s.queue.head?.map fun peer => (peer, o)).toList }
  | none => s

end State

/-- What the acceptor does to the server; the descriptor `accept4` has opened is closed again
before anything else can happen to it. -/
inductive Performs : ServerWorld → AcceptorEffect → ServerWorld → Prop where
  | newConnectionCallback {w w'} {connfd : Int} (tid : Tid) (peeraddr : InetAddress)
      (h : ServerWorld.Step w (.accept tid connfd) w') :
      Performs w (.newConnectionCallback connfd peeraddr) w'
  | close {w} (connfd : Int) : Performs w (.close connfd) w
  | logAcceptErr {w} : Performs w .logAcceptErr w
  | logReachedLimit {w} : Performs w .logReachedLimit w

/-- One step. -/
inductive Step : ListeningServer → ListeningAction → ListeningServer → Prop where
  | arrive {s} (peer : InetAddress) (hroom : s.queue.length ≤ backlog) :
      Step s (.arrive peer)
        { s with queue := s.queue ++ [peer], arrived := s.arrived ++ [peer] }
  | handleRead {s} {w' : ServerWorld} (answer : AcceptAnswer) (hpossible : s.Possible answer)
      (h : Run Performs s.world (s.acceptor.handleRead answer) w') :
      Step s (.handleRead answer) { s.leave (s.fate answer) with world := w' }
  | world {s} {w' : ServerWorld} {a : WorldAction} (ha : ∀ tid fd, a ≠ .accept tid fd)
      (h : ServerWorld.Step s.world a w') : Step s (.world a) { s with world := w' }

/-! ## What one step does -/

section Step
variable {s s' : ListeningServer} {a : ListeningAction}

/-- **What `handleRead` does**: it hands the oldest connection to the server, on the lowest
free descriptor, or it leaves the server alone. -/
theorem handleRead_cases {answer : AcceptAnswer} {w' : ServerWorld}
    (hpossible : s.Possible answer)
    (h : Run Performs s.world (s.acceptor.handleRead answer) w') :
    (s.fate answer = some (.connection s.world.conns.length) ∧ ∃ tid connfd addr,
      s.queue.head? = some addr ∧ s.Lowest connfd ∧
        ServerWorld.Step s.world (.accept tid connfd) w') ∨
    (w' = s.world ∧ (∀ i, s.fate answer ≠ some (.connection i)) ∧
      (s.acceptor.newConnectionCallback_ = true → s.fate answer ≠ some .closed)) := by
  cases answer with
  | accept connfd addr =>
    obtain ⟨hhead, hlowest⟩ := hpossible
    rw [Acceptor.handleRead_accept _ hlowest.1.1] at h
    rw [fate]
    cases hcb : s.acceptor.newConnectionCallback_ with
    | true =>
      rw [hcb, if_pos rfl] at h
      obtain ⟨t, hstep, hrest⟩ := run_cons.mp h
      cases hstep with
      | newConnectionCallback tid _ haccept =>
        rw [run_nil hrest]
        exact Or.inl ⟨rfl, tid, connfd, addr, hhead, hlowest, haccept⟩
    | false =>
      rw [hcb, if_neg Bool.false_ne_true] at h
      obtain ⟨t, hstep, hrest⟩ := run_cons.mp h
      cases hstep with
      | close => exact Or.inr ⟨run_nil hrest, by simp, fun htrue => by cases htrue⟩
  | fail e logged =>
    refine Or.inr ⟨?_, fun i => ?_, fun _ => ?_⟩
    · rcases s.acceptor.handleRead_fail e logged with hlog | hlog <;> rw [hlog] at h
      · obtain ⟨t, hstep, hrest⟩ := run_cons.mp h
        obtain ⟨u, hstep', hrest'⟩ := run_cons.mp hrest
        cases hstep
        cases hstep'
        exact run_nil hrest'
      · obtain ⟨t, hstep, hrest⟩ := run_cons.mp h
        cases hstep
        exact run_nil hrest
    · cases e <;> simp [fate]
    · cases e <;> simp [fate]

end Step

/-! ## In the order of arrival -/

/-- Every connection that has arrived is still queued or has left the queue, in this order,
and those that were handed to the server are its connections, in the same order. -/
structure InOrder (s : ListeningServer) : Prop where
  ledger : s.handled.map Prod.fst ++ s.queue = s.arrived
  numbered : s.handled.filterMap (fun e => e.2.connection?) = List.range s.world.conns.length
  served : s.acceptor.newConnectionCallback_ = true → ∀ e ∈ s.handled, e.2 ≠ .closed

section InOrder
variable {s s' : ListeningServer} {a : ListeningAction}

theorem leave_ledger (o : Option Fate) :
    (s.leave o).handled.map Prod.fst ++ (s.leave o).queue = s.handled.map Prod.fst ++ s.queue := by
  cases o with
  | none => rfl
  | some f => cases hq : s.queue <;> simp [leave, hq]

theorem mem_leave {o : Option Fate} {e : InetAddress × Fate} (h : e ∈ (s.leave o).handled) :
    e ∈ s.handled ∨ o = some e.2 := by
  cases o with
  | none => exact Or.inl h
  | some f =>
    rcases List.mem_append.mp h with h | h
    · exact Or.inl h
    · obtain ⟨peer, -, rfl⟩ := Option.map_eq_some_iff.mp (Option.mem_toList.mp h)
      exact Or.inr rfl

/-- Nothing has become a connection. -/
theorem leave_numbered {o : Option Fate} (h : ∀ i, o ≠ some (.connection i)) :
    (s.leave o).handled.filterMap (fun e => e.2.connection?) =
      s.handled.filterMap fun e => e.2.connection? := by
  rcases o with - | (i | - | -)
  · rfl
  · exact absurd rfl (h i)
  · cases hq : s.queue <;> simp [leave, hq, Fate.connection?]
  · cases hq : s.queue <;> simp [leave, hq, Fate.connection?]

theorem InOrder.step (hs : s.InOrder) (h : Step s a s') : s'.InOrder := by
  cases h with
  | arrive peer =>
    refine ⟨?_, hs.numbered, hs.served⟩
    show _ ++ (s.queue ++ [peer]) = s.arrived ++ [peer]
    rw [← List.append_assoc, hs.ledger]
  | @handleRead w' answer hpossible h =>
    have harrived : (s.leave (s.fate answer)).arrived = s.arrived := by
      cases s.fate answer <;> rfl
    have hacceptor : (s.leave (s.fate answer)).acceptor = s.acceptor := by
      cases s.fate answer <;> rfl
    refine ⟨(leave_ledger _).trans (hs.ledger.trans harrived.symm), ?_, fun hcb e he => ?_⟩
    · rcases handleRead_cases hpossible h with
        ⟨hfate, tid, connfd, addr, hhead, -, haccept⟩ | ⟨hw, hfate, -⟩
      · have hlength : w'.conns.length = s.world.conns.length + 1 := haccept.length_conns
        show List.filterMap _ (s.leave (s.fate answer)).handled = _
        rw [hfate, hlength, List.range_succ, ← hs.numbered, leave, hhead]
        simp [Fate.connection?]
      · rw [hw]
        exact (leave_numbered hfate).trans hs.numbered
    · rcases mem_leave he with he | he
      · exact hs.served (hacceptor ▸ hcb) e he
      · intro hclosed
        rw [hclosed] at he
        rcases handleRead_cases hpossible h with ⟨hfate, -⟩ | ⟨-, -, hfate⟩
        · cases hfate.symm.trans he
        · exact hfate (hacceptor ▸ hcb) he
  | @world w' a ha h =>
    refine ⟨hs.ledger, ?_, hs.served⟩
    have hlength : w'.conns.length = s.world.conns.length := by
      rw [h.length_conns]
      cases a with
      | accept tid fd => exact absurd rfl (ha tid fd)
      | report | connection => rfl
    show _ = List.range w'.conns.length
    rw [hlength]
    exact hs.numbered

end InOrder

/-- **Connections are accepted in the order of arrival**, in every run of the server, whatever
`accept4` answers: what has arrived is what has left the queue and what is still in it; the
connections of the server are those that left the queue and were not given up by the peer. -/
theorem accepted_in_order {base : Tid} {own : Int → Option Tid} {newConnectionCallback_ : Bool}
    {limit : Nat} {others : Int → Bool} {as : List ListeningAction} {s : ListeningServer}
    (h : Run Step (start base own newConnectionCallback_ limit others) as s) : s.InOrder :=
  h.invariant ⟨rfl, rfl, fun _ _ he => by cases he⟩ fun _ _ _ hs hstep => hs.step hstep

/-- Of the descriptors below 6, the loop has one and four are in use for other things. -/
def crowded : ListeningServer :=
  start 3 (fun fd => if fd = 4 then some 3 else none) true 6 fun fd => fd < 4

def peer (last : UInt8) : InetAddress := ⟨(10, 0, 0, last), (195, 80)⟩

theorem free_crowded {s : ListeningServer} (hlimit : s.limit = 6)
    (hothers : s.others = crowded.others) (hloop : s.world.fds 4 ≠ none) {fd : Int} :
    s.Free fd ↔ fd = 5 ∧ s.world.fds 5 = none := by
  constructor
  · rintro ⟨-, hlt, hother, hfds⟩
    rw [hlimit] at hlt
    have hge : ¬ fd < 4 := of_decide_eq_false (hothers ▸ hother : crowded.others fd = false)
    have hne : fd ≠ 4 := fun heq => hloop (heq ▸ hfds)
    obtain rfl : fd = 5 := by omega
    exact ⟨rfl, hfds⟩
  · rintro ⟨rfl, hfds⟩
    exact ⟨by decide, by rw [hlimit]; decide, by rw [hothers]; decide, hfds⟩

/-- The second of two connections finds no descriptor and waits. -/
theorem second_waits : ∃ as s, Run Step crowded as s ∧
    s.handled = [(peer 1, .connection 0)] ∧ s.queue = [peer 2] ∧ s.Full := by
  have harrived := (Run.refl : Run Step crowded [] _)
    |>.tail (.arrive (peer 1) (by decide))
    |>.tail (.arrive (peer 2) (by decide))
  have haccepted := harrived.tail (.handleRead (.accept 5 (peer 1))
    ⟨rfl, (free_crowded rfl rfl (by decide)).mpr ⟨rfl, rfl⟩, fun fd h =>
      Int.le_of_eq ((free_crowded rfl rfl (by decide)).mp h).1.symm⟩
    (run_cons.mpr ⟨_, .newConnectionCallback 0 (peer 1)
      (.accept 0 "first" 5 false false (fun _ => none) rfl), .refl⟩))
  have hfull : ∀ s : ListeningServer, s.limit = 6 → s.others = crowded.others →
      s.world.fds 4 ≠ none → s.world.fds 5 ≠ none → s.Full :=
    fun s hlimit hothers hloop hconn fd h => hconn ((free_crowded hlimit hothers hloop).mp h).2
  have hrefused := haccepted.tail (.handleRead (.fail .EMFILE .EMFILE)
    (hfull _ rfl rfl (by decide) (by decide))
    (run_cons.mpr ⟨_, .logAcceptErr, run_cons.mpr ⟨_, .logReachedLimit, .refl⟩⟩))
  exact ⟨_, _, hrefused, rfl, rfl, hfull _ rfl rfl (by decide) (by decide)⟩

theorem accepted_in_order_crowded : ∃ as s, Run Step crowded as s ∧
    s.handled = [(peer 1, .connection 0)] ∧ s.queue = [peer 2] ∧ s.InOrder := by
  obtain ⟨as, s, hrun, hhandled, hqueue, -⟩ := second_waits
  exact ⟨as, s, hrun, hhandled, hqueue, accepted_in_order hrun⟩

/-! ## No descriptor is lost -/

/-- The descriptors below the limit. -/
def descriptors (s : ListeningServer) : Finset Int :=
  (Finset.range s.limit).map ⟨Int.ofNat, fun _ _ => Int.ofNat.inj⟩

/-- Those that no connection can have. -/
def reserved (s : ListeningServer) : Finset Int :=
  s.descriptors.filter fun fd => s.others fd = true ∨ (s.world.own fd).isSome = true

/-- The descriptors of the connections that have owners. -/
def livingFds (s : ListeningServer) : Finset Int :=
  (s.world.living.map LifetimeSystem.fd).toFinset

/-- What every run keeps. -/
structure Balanced (s : ListeningServer) : Prop where
  coherent : s.world.Coherent
  accounted : s.world.Accounted
  inRange : ∀ fd, (s.world.fds fd).isSome = true → 0 ≤ fd ∧ fd < s.limit ∧ s.others fd = false

section Balanced
variable {s s' : ListeningServer} {a : ListeningAction}

theorem Balanced.step (hs : s.Balanced) (h : Step s a s') : s'.Balanced := by
  cases h with
  | arrive peer => exact ⟨hs.coherent, hs.accounted, hs.inRange⟩
  | @handleRead w' answer hpossible h =>
    have hlimit : (s.leave (s.fate answer)).limit = s.limit := by
      cases s.fate answer <;> rfl
    have hothers : (s.leave (s.fate answer)).others = s.others := by
      cases s.fate answer <;> rfl
    have hworld : w'.Coherent ∧ w'.Accounted ∧ ∀ fd, (w'.fds fd).isSome = true →
        (s.world.fds fd).isSome = true ∨ s.Free fd := by
      rcases handleRead_cases hpossible h with
        ⟨-, tid, connfd, addr, -, hlowest, haccept⟩ | ⟨rfl, -⟩
      · refine ⟨ServerWorld.coherent_step hs.coherent haccept, hs.accounted.step haccept,
          fun fd hopen => ?_⟩
        by_cases hfd : fd = connfd
        · exact Or.inr (hfd ▸ hlowest.1)
        · exact Or.inl (haccept.fds_accept hfd ▸ hopen)
      · exact ⟨hs.coherent, hs.accounted, fun fd hopen => Or.inl hopen⟩
    refine ⟨hworld.1, hworld.2.1, fun fd hopen => ?_⟩
    rw [hlimit, hothers]
    rcases hworld.2.2 fd hopen with hopen | ⟨hnonneg, hlt, hother, -⟩
    · exact hs.inRange fd hopen
    · exact ⟨hnonneg, hlt, hother⟩
  | @world w' a ha h =>
    refine ⟨ServerWorld.coherent_step hs.coherent h, hs.accounted.step h, fun fd hopen => ?_⟩
    rcases h.fds ha fd with hfds | hfds
    · exact hs.inRange fd (hfds ▸ hopen)
    · rw [hfds] at hopen
      cases hopen

theorem mem_descriptors {fd : Int} : fd ∈ s.descriptors ↔ 0 ≤ fd ∧ fd < s.limit := by
  rw [descriptors, Finset.mem_map]
  constructor
  · rintro ⟨n, hn, rfl⟩
    exact ⟨Int.natCast_nonneg n, Int.ofNat_lt.mpr (Finset.mem_range.mp hn)⟩
  · rintro ⟨hnonneg, hlt⟩
    refine ⟨fd.toNat, Finset.mem_range.mpr ?_, Int.toNat_of_nonneg hnonneg⟩
    exact (Int.toNat_lt hnonneg).mpr hlt

theorem card_descriptors : s.descriptors.card = s.limit := by
  rw [descriptors, Finset.card_map, Finset.card_range]

theorem mem_reserved {fd : Int} : fd ∈ s.reserved ↔
    (0 ≤ fd ∧ fd < s.limit) ∧ (s.others fd = true ∨ (s.world.own fd).isSome = true) := by
  rw [reserved, Finset.mem_filter, mem_descriptors]

theorem Balanced.mem_livingFds (hs : s.Balanced) {fd : Int} :
    fd ∈ s.livingFds ↔ ∃ i, s.world.fds fd = some (.connection i) :=
  List.mem_toFinset.trans (ServerWorld.mem_fds_living hs.coherent hs.accounted)

theorem Balanced.open_of_own (hs : s.Balanced) {fd : Int} (h : (s.world.own fd).isSome = true) :
    s.world.fds fd = some .loop := by
  obtain ⟨tid, htid⟩ := Option.isSome_iff_exists.mp h
  exact (hs.coherent.own fd tid htid).1

/-- What a loop has itself is not the descriptor of a connection. -/
theorem Balanced.disjoint (hs : s.Balanced) : Disjoint s.reserved s.livingFds := by
  refine Finset.disjoint_left.mpr fun fd hfd hliving => ?_
  obtain ⟨i, hi⟩ := hs.mem_livingFds.mp hliving
  rcases (mem_reserved.mp hfd).2 with hother | hown
  · have hfalse := (hs.inRange fd (by rw [hi]; rfl)).2.2
    cases hother.symm.trans hfalse
  · cases hi.symm.trans (hs.open_of_own hown)

theorem Balanced.union_subset (hs : s.Balanced) :
    s.reserved ∪ s.livingFds ⊆ s.descriptors := by
  intro fd hfd
  rw [mem_descriptors]
  rcases Finset.mem_union.mp hfd with hfd | hfd
  · exact (mem_reserved.mp hfd).1
  · obtain ⟨i, hi⟩ := hs.mem_livingFds.mp hfd
    obtain ⟨hnonneg, hlt, -⟩ := hs.inRange fd (by rw [hi]; rfl)
    exact ⟨hnonneg, hlt⟩

/-- Where no descriptor is free, each is reserved or has a connection. -/
theorem Balanced.full_iff_subset (hs : s.Balanced) :
    s.Full ↔ s.descriptors ⊆ s.reserved ∪ s.livingFds := by
  constructor
  · intro hfull fd hfd
    obtain ⟨hnonneg, hlt⟩ := mem_descriptors.mp hfd
    rw [Finset.mem_union, mem_reserved, hs.mem_livingFds]
    cases hother : s.others fd with
    | true => exact Or.inl ⟨⟨hnonneg, hlt⟩, Or.inl rfl⟩
    | false =>
      cases hfds : s.world.fds fd with
      | none => exact absurd ⟨hnonneg, hlt, hother, hfds⟩ (hfull fd)
      | some holder =>
        cases holder with
        | loop => exact Or.inl ⟨⟨hnonneg, hlt⟩, Or.inr (hs.accounted.loops fd hfds)⟩
        | connection i => exact Or.inr ⟨i, rfl⟩
  · rintro hsubset fd ⟨hnonneg, hlt, hother, hfds⟩
    have hfd := hsubset (mem_descriptors.mpr ⟨hnonneg, hlt⟩)
    rw [Finset.mem_union, mem_reserved, hs.mem_livingFds] at hfd
    rcases hfd with ⟨-, hreserved | hown⟩ | ⟨i, hi⟩
    · cases hother.symm.trans hreserved
    · cases hfds.symm.trans (hs.open_of_own hown)
    · cases hfds.symm.trans hi

theorem Balanced.card_union (hs : s.Balanced) :
    (s.reserved ∪ s.livingFds).card = s.reserved.card + s.world.living.length := by
  rw [Finset.card_union_of_disjoint hs.disjoint, livingFds,
    List.toFinset_card_of_nodup (ServerWorld.nodup_fds_living hs.coherent), List.length_map]

theorem Balanced.le_limit (hs : s.Balanced) :
    s.reserved.card + s.world.living.length ≤ s.limit := by
  have hle := Finset.card_le_card hs.union_subset
  rwa [hs.card_union, card_descriptors] at hle

/-- There is room exactly as long as the descriptors add up to less than the limit. -/
theorem Balanced.full_iff (hs : s.Balanced) :
    s.Full ↔ s.reserved.card + s.world.living.length = s.limit := by
  rw [hs.full_iff_subset, ← hs.card_union]
  constructor
  · intro hsubset
    rw [Finset.Subset.antisymm hs.union_subset hsubset, card_descriptors]
  · intro hcard
    refine (Finset.eq_of_subset_of_card_le hs.union_subset ?_).symm.subset
    rw [card_descriptors, hcard]

theorem lowest_of_not_full (h : ¬ s.Full) : ∃ connfd, s.Lowest connfd := by
  obtain ⟨fd, hfd⟩ := not_forall_not.mp h
  exact Int.exists_least_of_bdd ⟨0, fun fd' hfd' => hfd'.1⟩ ⟨fd, hfd⟩

end Balanced

/-- **No descriptor is lost.**  In every run of the server, however its connections come and
go: the descriptors that are reserved and the connections with owners never add up to more
than the limit; there is no descriptor for a new connection exactly when they add up to the
limit; otherwise `accept4` has one to give. -/
theorem no_descriptor_lost {base : Tid} {own : Int → Option Tid} {newConnectionCallback_ : Bool}
    {limit : Nat} {others : Int → Bool}
    (hown : ∀ fd, (own fd).isSome = true → 0 ≤ fd ∧ fd < limit ∧ others fd = false)
    {as : List ListeningAction} {s : ListeningServer}
    (h : Run Step (start base own newConnectionCallback_ limit others) as s) :
    s.reserved.card + s.world.living.length ≤ s.limit ∧
      (s.Full ↔ s.reserved.card + s.world.living.length = s.limit) ∧
      (¬ s.Full → ∃ connfd, s.Lowest connfd) := by
  have hstart : (start base own newConnectionCallback_ limit others).Balanced := by
    refine ⟨ServerWorld.coherent_start base own, ServerWorld.accounted_start base own,
      fun fd hopen => hown fd ?_⟩
    rwa [← Option.isSome_map]
  have hs : s.Balanced := h.invariant hstart fun _ _ _ hs hstep => hs.step hstep
  exact ⟨hs.le_limit, hs.full_iff, lowest_of_not_full⟩

theorem no_descriptor_lost_crowded : ∃ as s, Run Step crowded as s ∧
    s.reserved.card + s.world.living.length = s.limit := by
  obtain ⟨as, s, hrun, -, -, hfull⟩ := second_waits
  refine ⟨as, s, hrun, (no_descriptor_lost (fun fd h => ?_) hrun).2.1.mp hfull⟩
  have hfd : fd = 4 := by
    by_contra hne
    rw [if_neg hne] at h
    cases h
  rw [hfd]
  decide

end ListeningServer
end Mymuduo
