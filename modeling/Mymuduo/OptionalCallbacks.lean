import Mymuduo.EstablishFirst
import Mymuduo.Notifications

/-! # Callbacks that are not set

`writeCompleteCallback_` and `highWaterMarkCallback_` are optional.  `sendInLoop` tests
each before it binds it.  `handleWrite` binds `writeCompleteCallback_` without a test, so a
connection without it that drains its buffer puts a functor around an empty
`std::function` on its loop's queue, and `doPendingFunctor` raises `bad_function_call` when
it gets there.
-/
namespace Mymuduo
open Transition

namespace ConnRun

/-- Nothing the connection has put on its loop's queue wraps an empty function. -/
def CallbacksSet (r : ConnRun) : Prop := ∀ n, .queueInLoop n ∈ r.effects → n.callable

/-- A flush that drains the buffer finds `writeCompleteCallback_` set. -/
def DrainCallable (r : ConnRun) : ConnOp → Prop
  | .handleWrite a => r.conn.Drains a → r.conn.writeCompleteCallback_ = true
  | _ => True

/-- The connection has met the condition in every activation since its construction. -/
def Met (Q : ConnRun → ConnOp → Prop) (r : ConnRun) : Prop :=
  ∃ name fd writeComplete highWaterMark,
    let start : ConnRun := ⟨TcpConnection.new name fd writeComplete highWaterMark, []⟩
    r = r.ops.foldl exec start ∧ Along exec Q start r.ops

variable (r : ConnRun) (op : ConnOp) (ops : List ConnOp)

/-- **One activation** queues nothing empty, exactly if it is not a flush that drains the
buffer of a connection without the callback. -/
theorem callable_iff : (∀ n ∈ r.conn.notifications op, n.callable) ↔ r.DrainCallable op := by
  cases op with
  | sendInLoop data a =>
    refine iff_of_true (fun n hn => ?_) trivial
    rw [TcpConnection.sendInLoop_notifications, List.mem_append] at hn
    rcases hn with hn | hn <;> split at hn
    · rw [List.mem_singleton.mp hn]; rfl
    · cases hn
    · rw [List.mem_singleton.mp hn]; rfl
    · cases hn
  | handleWrite a =>
    rw [TcpConnection.handleWrite_notifications, DrainCallable]
    by_cases hdrains : r.conn.Drains a <;> simp [hdrains, Notification.callable]
  | _ =>
    refine iff_of_true (fun n hn => ?_) trivial
    rw [r.conn.other_notifications _ (by simp) (by simp)] at hn
    cases hn

theorem callbacksSet_exec :
    (r.exec op).CallbacksSet ↔ r.CallbacksSet ∧ r.DrainCallable op := by
  rw [← callable_iff]
  simp only [CallbacksSet, effects_exec, List.mem_append, or_imp, forall_and,
    TcpConnection.mem_notifications]

theorem callbacksSet_foldl (hr : r.CallbacksSet) :
    (ops.foldl exec r).CallbacksSet ↔ Along exec DrainCallable r ops := by
  induction ops using List.reverseRecOn with
  | nil => exact iff_of_true hr along_nil
  | append_singleton ops op ih =>
    rw [List.foldl_append, along_concat, ← ih]
    exact callbacksSet_exec _ op

theorem callbacksSet_iff (h : r.IsNew ∨ r.IsEstablished) :
    r.CallbacksSet ↔ r.Met DrainCallable := by
  have hstart : ∃ name fd writeComplete highWaterMark, r = r.ops.foldl exec
      ⟨TcpConnection.new name fd writeComplete highWaterMark, []⟩ := by
    rcases h with ⟨name, fd, wc, hw, rfl⟩ | ⟨name, fd, wc, hw, ops, rfl, -⟩
    · exact ⟨name, fd, wc, hw, rfl⟩
    · refine ⟨name, fd, wc, hw, ?_⟩
      rw [ops_foldl]
      rfl
  have hset : ∀ name fd writeComplete highWaterMark, CallbacksSet
      ⟨TcpConnection.new name fd writeComplete highWaterMark, []⟩ := fun _ _ _ _ n hn => by
    cases hn
  constructor
  · intro hr
    obtain ⟨name, fd, wc, hw, hrun⟩ := hstart
    rw [hrun, callbacksSet_foldl _ _ (hset name fd wc hw)] at hr
    exact ⟨name, fd, wc, hw, hrun, hr⟩
  · rintro ⟨name, fd, wc, hw, hrun, hmet⟩
    rw [hrun]
    exact (callbacksSet_foldl _ _ (hset name fd wc hw)).mpr hmet

end ConnRun

namespace ThreadedServer

/-- Every notification that waits in a loop has been put there by its connection. -/
def NotificationsQueued (s : ThreadedServer) : Prop :=
  ∀ l i n, .notification i n ∈ s.tasks l →
    ∃ c, s.conns[i]? = some c ∧ .queueInLoop n ∈ c.run.effects

variable {s s' : ThreadedServer} {t : Tid} {i : Nat} {l : LoopId} {f : LoopFunctor} {op : ConnOp}

theorem NotificationsQueued.frame (h : NotificationsQueued s) {r : ThreadedServer}
    (hconns : ∀ (i : Nat) c, s.conns[i]? = some c → r.conns[i]? = some c)
    (htasks : ∀ l i n, .notification i n ∈ r.tasks l → .notification i n ∈ s.tasks l) :
    NotificationsQueued r := by
  intro l i n hmem
  obtain ⟨c, hc, hn⟩ := h l i n (htasks l i n hmem)
  exact ⟨c, hconns i c hc, hn⟩

theorem NotificationsQueued.perform (h : NotificationsQueued s) (t : Tid) (i : Nat)
    (op : ConnOp) : NotificationsQueued (s.perform t i op) := by
  obtain ⟨fs, htasks, hfs⟩ := s.tasks_perform t i op
  intro l j n hmem
  rw [htasks, List.mem_append] at hmem
  rcases hmem with hmem | hmem
  · obtain ⟨c, hc, hn⟩ := h l j n hmem
    refine ⟨_, by rw [conns_perform, hc]; rfl, ?_⟩
    split
    · rw [ConnRun.effects_exec]
      exact List.mem_append_left _ hn
    · exact hn
  · split at hmem
    · rcases hfs _ hmem with heq | ⟨m, c, heq, hc, hn⟩
      · cases heq
      · cases heq
        refine ⟨_, by rw [conns_perform, hc]; rfl, ?_⟩
        simp [hn]
    · cases hmem

theorem NotificationsQueued.queueInLoop (h : NotificationsQueued s) (t : Tid) (l : LoopId)
    (hf : ∀ i n, f ≠ .notification i n) : NotificationsQueued (s.queueInLoop t l f) := by
  refine h.frame (fun i c hc => hc) fun l' i n hmem => ?_
  rcases mem_tasks_queueInLoop s t l l' hmem with hmem | ⟨-, heq⟩
  · exact hmem
  · exact absurd heq.symm (hf i n)

theorem NotificationsQueued.runInLoop (h : NotificationsQueued s) (t : Tid) (l : LoopId)
    (hf : ∀ i n, f ≠ .notification i n) (op : ConnOp) :
    NotificationsQueued (s.runInLoop t l f op) := by
  rcases s.runInLoop_cases t l f op with ⟨-, hrun⟩ | ⟨-, hrun⟩ <;> rw [hrun]
  · exact h.perform t f.conn op
  · exact h.queueInLoop t l hf

theorem NotificationsQueued.setBatch (h : NotificationsQueued s) {rest : List LoopFunctor}
    (hf : s.batch l = f :: rest) : NotificationsQueued (s.setBatch l rest) :=
  h.frame (fun _ _ hc => hc) fun l' _ _ hmem => mem_tasks_setBatch s l l' hf hmem

theorem notificationsQueued_step (hs : NotificationsQueued s) (h : Step s t s') :
    NotificationsQueued s' := by
  have hend : ∀ x, NotificationsQueued (s.endCall x) := fun x =>
    hs.frame (fun _ _ hc => hc) fun _ _ _ hmem => hmem
  cases h with
  | newConnection ioLoop name sockfd writeComplete highWaterMark =>
    have hadd : NotificationsQueued (s.addConnection ⟨ioLoop,
        ⟨TcpConnection.new name sockfd writeComplete highWaterMark, []⟩⟩) :=
      hs.frame (fun i c hc => conns_addConnection s i _ hc) fun _ _ _ hmem => hmem
    exact hadd.runInLoop _ _ (by simp) _
  | report h | handled l | sendCheck t hc hst | shutdownCheck t hc hst | destruct =>
    exact hs.frame (fun _ _ hc => hc) fun _ _ _ hmem => hmem
  | callback h hop => exact hs.perform _ _ _
  | @swap l h =>
    refine hs.frame (fun _ _ hc => hc) fun l' i n hmem => ?_
    rwa [s.tasks_swapPending l h] at hmem
  | functor h hop => exact (hs.setBatch h).perform _ _ _
  | notification h => exact hs.setBatch h
  | send h hl | shutdownRun h hl => exact (hend _).runInLoop _ _ (by simp) _
  | @shutdownStore t i h =>
    have hcalled : NotificationsQueued
        ((s.endCall (t, .shutDownChecked i)).beginCall (t, .shutDownStored i)) :=
      hs.frame (fun _ _ hc => hc) fun _ _ _ hmem => hmem
    exact hcalled.perform _ _ _
  | @destroy i l h hin hl loaded =>
    have herased : NotificationsQueued { s with connections_ := s.connections_.erase i } :=
      hs.frame (fun _ _ hc => hc) fun _ _ _ hmem => hmem
    exact herased.runInLoop (f := .connectDestroyed i) _ _ (by simp) _

/-- **Optional callbacks are never called when unset**, exactly if every connection without
`writeCompleteCallback_` is never flushed to its last byte by `handleWrite`.  What no
connection has queued, no loop finds. -/
theorem callbacks_set_iff (tid : LoopId → Tid) (own : LoopId → Int → Bool) {ts : List Tid}
    (h : Run Step (start tid own) ts s) :
    ((∀ (i : Nat) c, s.conns[i]? = some c → c.run.CallbacksSet) ↔
        ∀ (i : Nat) c, s.conns[i]? = some c → c.run.Met ConnRun.DrainCallable) ∧
      ((∀ (i : Nat) c, s.conns[i]? = some c → c.run.CallbacksSet) →
        ∀ l i n, .notification i n ∈ s.tasks l → n.callable) := by
  have hqueued : NotificationsQueued s :=
    h.invariant (fun l i n hmem => by simp [tasks, start, EventLoop.new] at hmem)
      fun _ _ _ hs hstep => notificationsQueued_step hs hstep
  constructor
  · refine forall_congr' fun i => forall_congr' fun c => forall_congr' fun hc => ?_
    refine c.run.callbacksSet_iff ?_
    exact ((ordered_run h).phase i c hc (by simp)).imp Waits.run And.left
  · intro hset l i n hmem
    obtain ⟨c, hc, hn⟩ := hqueued l i n hmem
    exact hset i c hc n hn

/-- A message taken at once is reported to a callback that is set. -/
theorem callbacks_set_after_send :
    let tid : LoopId → Tid := fun l => match l with | .base => 0 | .sub n => n + 1
    ∃ ts, ∃ s : ThreadedServer, Run Step (start tid fun _ _ => false) ts s ∧
      .notification 0 (.writeComplete true) ∈ s.tasks .base ∧
      ∀ l i n, .notification i n ∈ s.tasks l → n.callable := by
  intro tid
  have hstart : Run Step (start tid fun _ _ => false) [] _ := .refl
  have hconnected := hstart
    |>.tail (.newConnection .base "conn" 5 true false rfl)
    |>.tail (.sendCheck (i := 0) 0 rfl rfl)
  have hsent := hconnected
    |>.tail (.send (t := 0) (i := 0) (l := .base) (by decide) rfl [104] (.accept 1))
  obtain ⟨hset, hcallable⟩ := callbacks_set_iff tid _ hsent
  refine ⟨_, _, hsent, by decide +kernel, hcallable (hset.mpr fun i c hc => ?_)⟩
  -- neither of the two activations is a flush
  cases i with
  | zero =>
    obtain rfl := Option.some.inj hc
    refine ⟨"conn", 5, true, false, rfl, ?_⟩
    exact (along_concat [_] _).mpr ⟨(along_concat [] _).mpr ⟨along_nil, trivial⟩, trivial⟩
  | succ i => cases hc

/-- A server without a write-complete callback, as the echo server: a byte that has to
wait is flushed, and an empty function waits in the queue of the loop. -/
theorem empty_callback_queued :
    let tid : LoopId → Tid := fun l => match l with | .base => 0 | .sub n => n + 1
    ∃ ts, ∃ s : ThreadedServer, Run Step (start tid fun _ _ => false) ts s ∧
      ∃ l i n, .notification i n ∈ s.tasks l ∧ n.callable = false := by
  intro tid
  have hstart : Run Step (start tid fun _ _ => false) [] _ := .refl
  have hconnected := hstart
    |>.tail (.newConnection .base "conn" 5 false false rfl)
    |>.tail (.sendCheck (i := 0) 0 rfl rfl)
  have hsent := hconnected
    |>.tail (.send (t := 0) (i := 0) (l := .base) (by decide) rfl [104] (.accept 0))
  have hwritable := hsent.tail (@Step.report _ .base 5 _ 0 rfl)
  have hwrite : ChannelCallback.handleWrite.Runs (.handleWrite (.accept 1)) := .handleWrite
  have hflushed := hwritable.tail (.callback (l := .base) (i := 0) (by decide +kernel) hwrite)
  exact ⟨_, _, hflushed, .base, 0, .writeComplete false, by decide +kernel, rfl⟩

end ThreadedServer
end Mymuduo
