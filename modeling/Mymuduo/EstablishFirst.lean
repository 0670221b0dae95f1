import Mymuduo.ThreadConfinement

/-! # Establish before everything else

`newConnection` submits `connectEstablished` through `runInLoop`, `~TcpServer` submits
`connectDestroyed` the same way.  On the base loop both are calls, and the first is over
before the thread gets to anything else.  On another loop both are queued, by one
thread, in this order; and a connection that is not established yet gives its loop
nothing else to do: its channel is in no poller, and `send` and `shutdown` find it not
connected.
-/
namespace Mymuduo
open Transition

/-- `connectEstablished` has run, first and only once. -/
def ConnRun.IsEstablished (r : ConnRun) : Prop :=
  ∃ name fd writeComplete highWaterMark ops,
    r = List.foldl ConnRun.exec (ConnRun.established name fd writeComplete highWaterMark) ops ∧
      .connectEstablished ∉ ops

/-- Nothing has run. -/
def ConnRun.IsNew (r : ConnRun) : Prop :=
  ∃ name fd writeComplete highWaterMark,
    r = ⟨TcpConnection.new name fd writeComplete highWaterMark, []⟩

/-- A call of a user callback by the connection itself. -/
def Effect.CallsBack : Effect → Prop
  | .connectionCallback _ | .messageCallback | .closeCallback => True
  | _ => False

namespace ConnRun
variable {r : ConnRun}

theorem IsEstablished.exec (h : r.IsEstablished) {op : ConnOp} (hop : op ≠ .connectEstablished) :
    (r.exec op).IsEstablished := by
  obtain ⟨name, fd, writeComplete, highWaterMark, ops, rfl, hops⟩ := h
  refine ⟨name, fd, writeComplete, highWaterMark, ops ++ [op], by simp, ?_⟩
  rw [List.mem_append, List.mem_singleton, not_or]
  exact ⟨hops, Ne.symm hop⟩

theorem IsNew.exec (h : r.IsNew) : (r.exec .connectEstablished).IsEstablished := by
  obtain ⟨name, fd, writeComplete, highWaterMark, rfl⟩ := h
  exact ⟨name, fd, writeComplete, highWaterMark, [], rfl, List.not_mem_nil⟩

theorem IsNew.not_connected (h : r.IsNew) : r.conn.state_ ≠ .kConnected := by
  obtain ⟨name, fd, writeComplete, highWaterMark, rfl⟩ := h
  simp [TcpConnection.new]

theorem ops_foldl (ops : List ConnOp) : (ops.foldl ConnRun.exec r).ops = r.ops ++ ops := by
  induction ops generalizing r with
  | nil => simp
  | cons op ops ih => rw [List.foldl_cons, ih, ops_exec, List.append_assoc, List.singleton_append]

theorem effects_foldl (ops : List ConnOp) :
    ∃ es, (ops.foldl ConnRun.exec r).effects = r.effects ++ es := by
  induction ops generalizing r with
  | nil => exact ⟨[], (List.append_nil _).symm⟩
  | cons op ops ih =>
    obtain ⟨es, hes⟩ := ih (r := r.exec op)
    exact ⟨_, by rw [List.foldl_cons, hes, effects_exec, List.append_assoc]⟩

theorem IsEstablished.ops (h : r.IsEstablished) :
    ∃ ops, r.ops = .connectEstablished :: ops ∧ .connectEstablished ∉ ops := by
  obtain ⟨name, fd, writeComplete, highWaterMark, ops, rfl, hops⟩ := h
  exact ⟨ops, by rw [ops_foldl]; rfl, hops⟩

/-- Before the up notification there are only calls of the poller. -/
theorem IsEstablished.effects (h : r.IsEstablished) : ∃ fd es, r.effects =
    [.poller (.insert fd), .poller (.ctl .EPOLL_CTL_ADD fd Channel.kReadEvent),
      .connectionCallback .up] ++ es := by
  obtain ⟨name, fd, writeComplete, highWaterMark, ops, rfl, -⟩ := h
  obtain ⟨es, hes⟩ :=
    effects_foldl (r := established name fd writeComplete highWaterMark) ops
  refine ⟨fd, es, ?_⟩
  rw [hes, established, effects_exec, ConnectionSystem.new_connectEstablished_effects]
  rfl

/-- Nothing has been run and nothing done. -/
theorem IsNew.log_eq (h : r.IsNew) : r.ops = [] ∧ r.effects = [] := by
  obtain ⟨name, fd, writeComplete, highWaterMark, rfl⟩ := h
  exact ⟨rfl, rfl⟩

theorem IsEstablished.count_le (h : r.IsEstablished) : r.ops.count .connectEstablished ≤ 1 := by
  obtain ⟨ops, hops, hnot⟩ := h.ops
  have hcount := List.count_eq_zero_of_not_mem hnot
  exact Nat.le_of_eq (by rw [hops, List.count_cons_self, hcount])

/-- Every other activation comes later. -/
theorem IsEstablished.first (h : r.IsEstablished) {before after : List ConnOp} {op : ConnOp}
    (heq : r.ops = before ++ op :: after) (hop : op ≠ .connectEstablished) :
    .connectEstablished ∈ before := by
  obtain ⟨ops, hops, -⟩ := h.ops
  rw [hops] at heq
  cases before with
  | nil => exact absurd (List.cons.inj heq).1.symm hop
  | cons op' before =>
    rw [(List.cons.inj heq).1]
    exact List.mem_cons_self

/-- Every other callback comes later: the up notification has two calls of the poller in
front of it and nothing else. -/
theorem IsEstablished.up_first (h : r.IsEstablished) {before after : List Effect} {e : Effect}
    (heq : r.effects = before ++ e :: after) (hcalls : e.CallsBack)
    (hup : e ≠ .connectionCallback .up) : .connectionCallback .up ∈ before := by
  obtain ⟨fd, es, heffects⟩ := h.effects
  rw [heffects] at heq
  rcases before with _ | ⟨x, _ | ⟨y, _ | ⟨z, before⟩⟩⟩ <;>
    simp only [List.cons_append, List.nil_append, List.cons.injEq] at heq
  · rw [← heq.1] at hcalls
    exact hcalls.elim
  · rw [← heq.2.1] at hcalls
    exact hcalls.elim
  · exact absurd heq.2.2.1.symm hup
  · rw [← heq.2.2.1]
    simp

end ConnRun

namespace ThreadedServer

/-- `connectEstablished` has run on connection number `i`. -/
def Begun (s : ThreadedServer) (i : Nat) : Prop :=
  ∃ c, s.conns[i]? = some c ∧ c.run.IsEstablished

/-- `connectEstablished` waits in the queue of another thread's loop; all there is behind
it for this connection is `connectDestroyed`. -/
structure Waits (s : ThreadedServer) (i : Nat) (c : LoopConnection) : Prop where
  run : c.run.IsNew
  away : (s.loops c.loop_).threadId_ ≠ s.baseThread
  queue : ∃ rest, (s.tasks c.loop_).filter (fun f => f.conn = i) = .connectEstablished i :: rest ∧
    ∀ f ∈ rest, f = .connectDestroyed i

/-- Every connection waits for `connectEstablished` or is past it, except the one, if
any, on which it is just about to run. -/
structure Ordered (starting : Option Nat) (s : ThreadedServer) : Prop where
  routed : Routed s
  registered : ∀ l fd i, (s.pollers l).Has fd (.connection i) → s.Begun i
  active : ∀ l, ∀ i ∈ s.active l, s.Begun i
  calls : ∀ x ∈ s.calls, s.Begun x.2.conn
  phase : ∀ i c, s.conns[i]? = some c → starting ≠ some i →
    Waits s i c ∨ c.run.IsEstablished ∧ ∀ l, .connectEstablished i ∉ s.tasks l

variable {s s' : ThreadedServer} {t : Tid} {i : Nat} {l : LoopId} {f : LoopFunctor} {op : ConnOp}
  {starting : Option Nat}

theorem Waits.not_begun {c : LoopConnection} (h : Waits s i c) (hc : s.conns[i]? = some c) :
    ¬ s.Begun i := by
  rintro ⟨c', hc', hest⟩
  obtain rfl := Option.some.inj (hc.symm.trans hc')
  obtain ⟨ops, hops, -⟩ := hest.ops
  obtain ⟨name, fd, writeComplete, highWaterMark, hrun⟩ := h.run
  rw [hrun] at hops
  cases hops

/-- **What waits goes on waiting** while its loop is given nothing for it but
`connectDestroyed`. -/
theorem Waits.of_tasks {c : LoopConnection} (h : Waits s i c) {r : ThreadedServer}
    (hthreads : ∀ l, (r.loops l).threadId_ = (s.loops l).threadId_) {fs : List LoopFunctor}
    (htasks : r.tasks c.loop_ = s.tasks c.loop_ ++ fs)
    (hfs : ∀ f ∈ fs, f.conn = i → f = .connectDestroyed i) : Waits r i c := by
  obtain ⟨rest, hqueue, hrest⟩ := h.queue
  refine ⟨h.run, ?_, rest ++ fs.filter (fun f => f.conn = i), ?_, fun f hf => ?_⟩
  · rw [hthreads, baseThread, hthreads]
    exact h.away
  · rw [htasks, List.filter_append, hqueue, List.cons_append]
  · rcases List.mem_append.mp hf with hf | hf
    · exact hrest f hf
    · exact hfs f (List.mem_of_mem_filter hf) (by simpa using (List.mem_filter.mp hf).2)

/-- What has begun is not queued to begin. -/
theorem Ordered.not_queued (h : Ordered none s) (hi : s.Begun i) :
    ∀ l, .connectEstablished i ∉ s.tasks l := by
  obtain ⟨c, hc, hest⟩ := hi
  rcases h.phase i c hc (by simp) with hw | ⟨-, hq⟩
  · exact absurd ⟨c, hc, hest⟩ (hw.not_begun hc)
  · exact hq

theorem begun_perform (h : s.Begun i) (t : Tid) (j : Nat)
    (hj : j = i → op ≠ .connectEstablished) : (s.perform t j op).Begun i := by
  obtain ⟨c, hc, hest⟩ := h
  refine ⟨_, by rw [conns_perform, hc]; rfl, ?_⟩
  split
  · exact hest.exec (hj ‹i = j›.symm)
  · exact hest

/-- **Activations.**  What runs on a connection leaves it established, and what it queues
is not `connectEstablished`. -/
theorem Ordered.perform (h : Ordered starting s) (hst : ∀ j, starting = some j → j = i)
    {c : LoopConnection} (hc : s.conns[i]? = some c) (hi : (c.run.exec op).IsEstablished)
    (hq : ∀ l, .connectEstablished i ∉ s.tasks l) (t : Tid) :
    Ordered none (s.perform t i op) := by
  have hbegun : (s.perform t i op).Begun i :=
    ⟨_, by rw [conns_perform, hc]; rfl, by simpa using hi⟩
  have hmono : ∀ j, s.Begun j → (s.perform t i op).Begun j := by
    intro j hj
    by_cases hji : j = i
    · rwa [hji]
    · exact begun_perform hj t i fun h => absurd h.symm hji
  obtain ⟨fs, htasks, hfs⟩ := s.tasks_perform t i op
  have hconn : ∀ f ∈ fs, f.conn = i ∧ ∀ j, f ≠ .connectEstablished j := by
    intro f hf
    rcases hfs f hf with rfl | ⟨n, c, rfl, -⟩ <;> exact ⟨rfl, by simp⟩
  have hnew : ∀ j l, .connectEstablished j ∉ s.tasks l →
      .connectEstablished j ∉ (s.perform t i op).tasks l := by
    intro j l hj hmem
    rw [htasks, List.mem_append] at hmem
    rcases hmem with hmem | hmem
    · exact hj hmem
    · split at hmem
      · exact (hconn _ hmem).2 j rfl
      · cases hmem
  refine ⟨h.routed.perform t i op, fun l fd j hj => ?_, fun l j hj => ?_, fun x hx => ?_,
    fun j c' hc' _ => ?_⟩
  · rcases has_perform t op hj with hj | ⟨hj, -⟩
    · exact hmono j (h.registered l fd j hj)
    · cases hj
      exact hbegun
  · rw [active_perform] at hj
    exact hmono j (h.active l j hj)
  · rw [calls_perform] at hx
    exact hmono _ (h.calls x hx)
  · by_cases hji : j = i
    · subst hji
      obtain ⟨c'', hc'', hest⟩ := hbegun
      obtain rfl := Option.some.inj (hc'.symm.trans hc'')
      exact Or.inr ⟨hest, fun l => hnew j l (hq l)⟩
    · rw [conns_perform] at hc'
      simp only [hji, if_false, Option.map_id'] at hc'
      rcases h.phase j c' hc' fun hj => hji (hst j hj) with hw | ⟨hest, hold⟩
      · refine Or.inl (hw.of_tasks (fun l => s.threadId_perform t i l op) (htasks c'.loop_) ?_)
        intro f hf hfj
        split at hf
        · exact absurd (hfj.symm.trans (hconn f hf).1) hji
        · cases hf
      · exact Or.inr ⟨hest, fun l => hnew j l (hold l)⟩

/-- An activation of something that has begun. -/
theorem Ordered.perform_begun (h : Ordered none s) (hi : s.Begun i)
    (hop : op ≠ .connectEstablished) (t : Tid) : Ordered none (s.perform t i op) := by
  obtain ⟨c, hc, hest⟩ := hi
  exact h.perform (by simp) hc (hest.exec hop) (h.not_queued ⟨c, hc, hest⟩) t

/-- **Submissions** to a connection's loop: `connectDestroyed`, or anything but
`connectEstablished` for a connection that has begun. -/
theorem Ordered.queueInLoop (h : Ordered none s) (hl : s.loopOf f.conn = some l)
    (hne : f ≠ .connectEstablished f.conn)
    (hf : s.Begun f.conn ∨ f = .connectDestroyed f.conn) (t : Tid) :
    Ordered none (s.queueInLoop t l f) := by
  refine ⟨h.routed.queueInLoop t hl, h.registered, h.active, h.calls, fun j c hc _ => ?_⟩
  rcases h.phase j c hc (by simp) with hw | ⟨hest, hold⟩
  · refine Or.inl (hw.of_tasks (fun l' => s.threadId_queueInLoop t l l' f)
      (s.tasks_queueInLoop t l c.loop_ f) fun g hg hgj => ?_)
    split at hg
    · obtain rfl := List.mem_singleton.mp hg
      subst hgj
      exact hf.resolve_left fun hb => hw.not_begun hc hb
    · cases hg
  · refine Or.inr ⟨hest, fun l' hmem => ?_⟩
    rcases mem_tasks_queueInLoop s t l l' hmem with hmem | ⟨-, rfl⟩
    · exact hold l' hmem
    · exact hne rfl

theorem Ordered.runInLoop (h : Ordered none s) (hi : s.Begun f.conn) (hl : s.loopOf f.conn = some l)
    (hne : f ≠ .connectEstablished f.conn) (hop : op ≠ .connectEstablished) (t : Tid) :
    Ordered none (s.runInLoop t l f op) := by
  rcases s.runInLoop_cases t l f op with ⟨-, hrun⟩ | ⟨-, hrun⟩ <;> rw [hrun]
  · exact h.perform_begun hi hop t
  · exact h.queueInLoop hl hne (Or.inl hi) t

/-! ## The steps -/

theorem begun_addConnection (c : LoopConnection) (h : s.Begun i) : (s.addConnection c).Begun i := by
  obtain ⟨c', hc, hest⟩ := h
  exact ⟨c', conns_addConnection s i c hc, hest⟩

/-- Nobody has anything of a connection that is not there yet. -/
theorem Ordered.conn_ne (h : Ordered none s) (hf : f ∈ s.tasks l) : f.conn ≠ s.conns.length := by
  intro heq
  have hl := h.routed.queued l f hf
  simp [loopOf, heq] at hl

theorem Ordered.addConnection (h : Ordered none s) (c : LoopConnection) :
    Ordered (some s.conns.length) (s.addConnection c) where
  routed := h.routed.addConnection c
  registered l fd i hi := begun_addConnection c (h.registered l fd i hi)
  active l i hi := begun_addConnection c (h.active l i hi)
  calls x hx := begun_addConnection c (h.calls x hx)
  phase i c' hc' hne := by
    have hlt : i < s.conns.length := by
      have hi := (List.getElem?_eq_some_iff.mp hc').1
      simp only [ThreadedServer.addConnection, List.length_append, List.length_singleton] at hi
      have hne' : i ≠ s.conns.length := fun heq => hne (by rw [heq])
      omega
    rw [ThreadedServer.addConnection, List.getElem?_append_left hlt] at hc'
    exact (h.phase i c' hc' (by simp)).imp_left fun hw => ⟨hw.run, hw.away, hw.queue⟩

/-- **`newConnection`**: the connection is established at once, or waits. -/
theorem Ordered.newConnection (h : Ordered none s) (c : LoopConnection) (hc : c.run.IsNew) :
    Ordered none ((s.addConnection c).runInLoop s.baseThread c.loop_
      (.connectEstablished s.conns.length) .connectEstablished) := by
  have hadd := h.addConnection c
  have hself : (s.addConnection c).conns[s.conns.length]? = some c := by
    simp [ThreadedServer.addConnection]
  rcases (s.addConnection c).runInLoop_cases s.baseThread c.loop_
    (.connectEstablished s.conns.length) .connectEstablished with ⟨-, hrun⟩ | ⟨haway, hrun⟩ <;>
    rw [hrun]
  · exact hadd.perform (by simp) hself hc.exec (fun l hmem => h.conn_ne hmem rfl) _
  · refine ⟨hadd.routed.queueInLoop _ (s.loopOf_addConnection_self c), hadd.registered,
      hadd.active, hadd.calls, fun j c' hc' _ => ?_⟩
    by_cases hj : s.conns.length = j
    · subst hj
      obtain rfl := Option.some.inj (hself.symm.trans hc')
      refine Or.inl ⟨hc, ?_, [], ?_, by simp⟩
      · rw [threadId_queueInLoop, baseThread, threadId_queueInLoop]
        exact haway
      · have hnone : ((s.addConnection c).tasks c.loop_).filter
            (fun f => f.conn = s.conns.length) = [] := by
          rw [List.filter_eq_nil_iff]
          exact fun f hf => by simpa using h.conn_ne hf
        rw [tasks_queueInLoop, List.filter_append, hnone, if_pos rfl]
        simp [LoopFunctor.conn]
    · rcases hadd.phase j c' hc' (fun heq => hj (Option.some.inj heq)) with hw | ⟨hest, hold⟩
      · refine Or.inl (hw.of_tasks (fun l' => threadId_queueInLoop _ _ _ l' _)
          (tasks_queueInLoop _ _ _ c'.loop_ _) fun g hg hgj => ?_)
        split at hg
        · rw [List.mem_singleton.mp hg] at hgj
          exact absurd hgj hj
        · cases hg
      · refine Or.inr ⟨hest, fun l hmem => ?_⟩
        rcases mem_tasks_queueInLoop _ _ _ l hmem with hmem | ⟨-, heq⟩
        · exact hold l hmem
        · exact hj (LoopFunctor.connectEstablished.inj heq).symm

/-- **The next functor of a batch** is for a connection that has begun, or is its
`connectEstablished`. -/
theorem Ordered.setBatch (h : Ordered none s) {rest : List LoopFunctor}
    (hf : s.batch l = f :: rest) :
    (Ordered none (s.setBatch l rest) ∧ s.Begun f.conn ∧ f ≠ .connectEstablished f.conn) ∨
      (f = .connectEstablished f.conn ∧ Ordered (some f.conn) (s.setBatch l rest) ∧
        (∃ c, s.conns[f.conn]? = some c ∧ c.run.IsNew) ∧
        ∀ l', .connectEstablished f.conn ∉ (s.setBatch l rest).tasks l') := by
  obtain ⟨hl, hother⟩ := s.tasks_setBatch l hf
  have hloop : s.loopOf f.conn = some l :=
    h.routed.queued l f (by rw [hl]; exact List.mem_cons_self)
  obtain ⟨c, hc, rfl⟩ := Option.map_eq_some_iff.mp hloop
  have hsub : ∀ l', ∀ g ∈ (s.setBatch c.loop_ rest).tasks l', g ∈ s.tasks l' :=
    fun l' g hg => mem_tasks_setBatch s c.loop_ l' hf hg
  -- the other connections do not notice
  have hphase : ∀ j c', s.conns[j]? = some c' → j ≠ f.conn → Waits (s.setBatch c.loop_ rest) j c' ∨
      c'.run.IsEstablished ∧ ∀ l', .connectEstablished j ∉ (s.setBatch c.loop_ rest).tasks l' := by
    intro j c' hc' hj
    rcases h.phase j c' hc' (by simp) with hw | ⟨hest, hold⟩
    · refine Or.inl ⟨hw.run, hw.away, ?_⟩
      obtain ⟨rest', hqueue, hrest⟩ := hw.queue
      refine ⟨rest', ?_, hrest⟩
      by_cases hl' : c'.loop_ = c.loop_
      · rw [hl', hl, List.filter_cons_of_neg (by simpa using Ne.symm hj)] at hqueue
        rw [hl']
        exact hqueue
      · rw [hother _ hl']
        exact hqueue
    · exact Or.inr ⟨hest, fun l' hmem => hold l' (hsub l' _ hmem)⟩
  rcases h.phase f.conn c hc (by simp) with hw | ⟨hest, hold⟩
  · obtain ⟨rest', hqueue, hrest⟩ := hw.queue
    rw [hl, List.filter_cons_of_pos (by simp), List.cons.injEq] at hqueue
    obtain ⟨hfirst, hqueue⟩ := hqueue
    refine Or.inr ⟨hfirst, ⟨h.routed.setBatch hf, h.registered, h.active, h.calls,
      fun j c' hc' hj => hphase j c' hc' fun heq => hj (by rw [heq])⟩, ⟨c, hc, hw.run⟩, ?_⟩
    intro l' hmem
    by_cases hl' : l' = c.loop_
    · subst hl'
      have hin : .connectEstablished f.conn ∈ rest' := by
        rw [← hqueue]
        exact List.mem_filter.mpr ⟨hmem, by simp [LoopFunctor.conn]⟩
      cases hrest _ hin
    · have hwrong := h.routed.queued l' _ (hsub l' _ hmem)
      rw [LoopFunctor.conn, hloop] at hwrong
      exact hl' (Option.some.inj hwrong).symm
  · refine Or.inl ⟨⟨h.routed.setBatch hf, h.registered, h.active, h.calls, fun j c' hc' _ => ?_⟩,
      ⟨c, hc, hest⟩, ?_⟩
    · by_cases hj : j = f.conn
      · subst hj
        obtain rfl := Option.some.inj (hc.symm.trans hc')
        exact Or.inr ⟨hest, fun l' hmem => hold l' (hsub l' _ hmem)⟩
      · exact hphase j c' hc' hj
    · intro heq
      exact hold c.loop_ (by rw [hl, ← heq]; exact List.mem_cons_self)

/-- What is connected has begun. -/
theorem Ordered.begun_of_connected (h : Ordered none s) {c : LoopConnection}
    (hc : s.conns[i]? = some c) (hst : c.run.conn.state_ = .kConnected) : s.Begun i := by
  rcases h.phase i c hc (by simp) with hw | ⟨hest, -⟩
  · exact absurd hst hw.run.not_connected
  · exact ⟨c, hc, hest⟩

theorem ordered_start (tid : LoopId → Tid) (own : LoopId → Int → Bool) :
    Ordered none (start tid own) where
  routed := routed_start tid own
  registered l fd i h := by
    rcases h with h | ⟨events, h⟩ <;> simp [start] at h
  active := by simp [start]
  calls := by simp [start]
  phase := by simp [start]

/-- Steps that run nothing and queue nothing. -/
theorem Ordered.frame (h : Ordered starting s) {r : ThreadedServer} (hrouted : Routed r)
    (hconns : r.conns = s.conns) (htasks : r.tasks = s.tasks)
    (hthreads : ∀ l, (r.loops l).threadId_ = (s.loops l).threadId_)
    (hpollers : r.pollers = s.pollers)
    (hactive : ∀ l, ∀ i ∈ r.active l, s.Begun i) (hcalls : ∀ x ∈ r.calls, s.Begun x.2.conn) :
    Ordered starting r := by
  have hbegun : ∀ j, s.Begun j → r.Begun j := by
    intro j hj
    rwa [Begun, hconns]
  refine ⟨hrouted, fun l fd i hi => ?_, fun l i hi => hbegun i (hactive l i hi),
    fun x hx => hbegun _ (hcalls x hx), fun i c hc hi => ?_⟩
  · rw [hpollers] at hi
    exact hbegun i (h.registered l fd i hi)
  · rw [hconns] at hc
    rw [htasks]
    exact (h.phase i c hc hi).imp_left fun hw =>
      hw.of_tasks hthreads (by rw [htasks, List.append_nil]) (by simp)

theorem Ordered.endCall (h : Ordered none s) (x : Tid × UserCall) : Ordered none (s.endCall x) :=
  h.frame ⟨h.routed.queued, h.routed.registered, h.routed.active⟩ rfl rfl (fun _ => rfl) rfl
    h.active fun y hy => h.calls y (List.mem_of_mem_erase hy)

/-- A call of the user that has got past its test. -/
theorem Ordered.beginCall (h : Ordered none s) {x : Tid × UserCall} (hx : s.Begun x.2.conn) :
    Ordered none (s.beginCall x) :=
  h.frame ⟨h.routed.queued, h.routed.registered, h.routed.active⟩ rfl rfl (fun _ => rfl) rfl
    h.active fun y hy => (List.mem_append.mp hy).elim (h.calls y) fun hy => by
      rwa [List.mem_singleton.mp hy]

/-- **`~TcpServer`**: the connection is destroyed at once, on the base loop, where nothing
waits, or behind its `connectEstablished`. -/
theorem Ordered.destroy (h : Ordered none s) (hl : s.loopOf i = some l) (loaded : StateE) :
    Ordered none ({ s with connections_ := s.connections_.erase i }.runInLoop s.baseThread l
      (.connectDestroyed i) (.connectDestroyed loaded)) := by
  have hord : Ordered none { s with connections_ := s.connections_.erase i } :=
    h.frame ⟨h.routed.queued, h.routed.registered, h.routed.active⟩ rfl rfl (fun _ => rfl) rfl
      h.active h.calls
  rcases ThreadedServer.runInLoop_cases { s with connections_ := s.connections_.erase i }
    s.baseThread l (.connectDestroyed i) (.connectDestroyed loaded) with
    ⟨hhere, hrun⟩ | ⟨-, hrun⟩ <;> rw [hrun]
  · obtain ⟨c, hc, rfl⟩ := Option.map_eq_some_iff.mp hl
    rcases h.phase i c hc (by simp) with hw | ⟨hest, -⟩
    · exact absurd hhere hw.away
    · exact hord.perform_begun ⟨c, hc, hest⟩ (by simp) _
  · exact hord.queueInLoop (f := .connectDestroyed i) hl (by simp) (Or.inr rfl) _

theorem ordered_step (hs : Ordered none s) (h : Step s t s') : Ordered none s' := by
  have hrouted := routed_step hs.routed h
  cases h with
  | newConnection ioLoop name sockfd writeComplete highWaterMark =>
    exact hs.newConnection ⟨ioLoop, _⟩ ⟨name, sockfd, writeComplete, highWaterMark, rfl⟩
  | @report l fd events i h =>
    refine hs.frame hrouted rfl rfl (fun _ => rfl) rfl (fun l' j hj => ?_) hs.calls
    rcases mem_setActive s j l l' hj with hj | ⟨-, hj⟩
    · exact hs.active _ _ hj
    · rcases List.mem_cons.mp hj with rfl | hj
      · exact hs.registered _ _ _ (Or.inr ⟨_, h⟩)
      · exact hs.active _ _ hj
  | callback h hop =>
    refine hs.perform_begun (hs.active _ _ h) ?_ _
    rintro rfl
    cases hop
  | handled l =>
    refine hs.frame hrouted rfl rfl (fun _ => rfl) rfl (fun l' j hj => ?_) hs.calls
    rcases mem_setActive s j l l' hj with hj | ⟨-, hj⟩
    · exact hs.active _ _ hj
    · cases hj
  | @swap l h =>
    refine hs.frame hrouted rfl (s.tasks_swapPending l h) (fun l' => ?_) rfl hs.active hs.calls
    by_cases hl : l' = l
    · subst hl
      simp [swapPending, EventLoop.swapPending]
    · simp [swapPending, hl]
  | functor h hop =>
    rcases hs.setBatch h with ⟨hord, hbegun, hne⟩ | ⟨hfirst, hord, ⟨c, hc, hnew⟩, hq⟩
    · refine hord.perform_begun hbegun ?_ _
      rintro rfl
      cases hop
      exact hne rfl
    · rw [hfirst] at hop
      cases hop
      exact hord.perform (by simp) hc hnew.exec hq _
  | notification h =>
    rcases hs.setBatch h with ⟨hord, -⟩ | ⟨hfirst, -⟩
    · exact hord
    · cases hfirst
  | sendCheck t hc hst | shutdownCheck t hc hst =>
    exact hs.beginCall (hs.begun_of_connected hc hst)
  | send h hl =>
    exact (hs.endCall _).runInLoop (f := .sendInLoop _) (hs.calls _ h) hl (by simp) (by simp) _
  | @shutdownStore t i h =>
    have hi : s.Begun i := hs.calls _ h
    have hcalled := (hs.endCall (t, .shutDownChecked i)).beginCall (x := (t, .shutDownStored i)) hi
    have hop : ConnOp.setDisconnecting ≠ .connectEstablished := by simp
    exact hcalled.perform_begun hi hop t
  | shutdownRun h hl =>
    exact (hs.endCall _).runInLoop (f := .shutdownInLoop _) (hs.calls _ h) hl (by simp) (by simp) _
  | destruct => exact hs.frame hrouted rfl rfl (fun _ => rfl) rfl hs.active hs.calls
  | destroy h hin hl loaded => exact hs.destroy hl loaded

theorem ordered_run {tid : LoopId → Tid} {own : LoopId → Int → Bool} {ts : List Tid}
    (h : Run Step (start tid own) ts s) : Ordered none s :=
  h.invariant (ordered_start tid own) fun _ _ _ hs hstep => ordered_step hs hstep

/-- What waits for `connectEstablished` has no notification waiting. -/
theorem Waits.no_notification {c : LoopConnection} (hw : Waits s i c) (hs : Routed s)
    (hc : s.conns[i]? = some c) (n : Notification) : .notification i n ∉ s.tasks l := by
  intro hmem
  obtain ⟨rest, hqueue, hrest⟩ := hw.queue
  have hl := hs.queued l _ hmem
  rw [LoopFunctor.conn, loopOf_of_some hc, Option.some.injEq] at hl
  have hin : .notification i n ∈ LoopFunctor.connectEstablished i :: rest := by
    rw [← hqueue, hl]
    exact List.mem_filter.mpr ⟨hmem, by simp [LoopFunctor.conn]⟩
  rcases List.mem_cons.mp hin with hin | hin
  · cases hin
  · cases hrest _ hin

/-- **Establish before everything else.**  In every run, `connectEstablished` is the first
activation of a connection and comes only once; the up notification precedes every
other callback the connection makes, and every notification it queues. -/
theorem establish_before_everything (tid : LoopId → Tid) (own : LoopId → Int → Bool)
    {ts : List Tid} (h : Run Step (start tid own) ts s) {c : LoopConnection}
    (hc : s.conns[i]? = some c) :
    c.run.ops.count .connectEstablished ≤ 1 ∧
      (∀ before op after, c.run.ops = before ++ op :: after → op ≠ .connectEstablished →
        .connectEstablished ∈ before) ∧
      (∀ before e after, c.run.effects = before ++ e :: after → e.CallsBack →
        e ≠ .connectionCallback .up → .connectionCallback .up ∈ before) ∧
      ∀ l n, .notification i n ∈ s.tasks l → .connectionCallback .up ∈ c.run.effects := by
  rcases (ordered_run h).phase i c hc (by simp) with hw | ⟨hest, -⟩
  · obtain ⟨hops, heffects⟩ := hw.run.log_eq
    rw [hops, heffects]
    refine ⟨by simp, by simp, by simp, fun l n hmem => ?_⟩
    exact absurd hmem (hw.no_notification (ordered_run h).routed hc n)
  · refine ⟨hest.count_le, fun _ _ _ => hest.first, fun _ _ _ => hest.up_first, fun _ _ _ => ?_⟩
    obtain ⟨fd, es, heffects⟩ := hest.effects
    rw [heffects]
    simp

/-- The server is destroyed while a connection of another loop still waits to be
established: it is established first, then destroyed. -/
theorem establish_before_destroy :
    let tid : LoopId → Tid := fun l => match l with | .base => 0 | .sub n => n + 1
    ∃ ts, ∃ s : ThreadedServer, ∃ c, Run Step (start tid fun _ _ => false) ts s ∧
      s.conns[0]? = some c ∧
      c.run.ops = [.connectEstablished, .connectDestroyed .kConnected] ∧
      c.run.ops.count .connectEstablished ≤ 1 := by
  intro tid
  have hstart : Run Step (start tid fun _ _ => false) [] _ := .refl
  have hqueued := hstart
    |>.tail (.newConnection (.sub 0) "conn" 5 false false rfl)
    |>.tail (.destruct rfl)
    |>.tail (.destroy (i := 0) (l := .sub 0) rfl (by decide) rfl .kConnecting)
  have hdestroyed : (LoopFunctor.connectDestroyed 0).Runs (.connectDestroyed .kConnected) :=
    .connectDestroyed
  have hrun := hqueued
    |>.tail (.swap (l := .sub 0) rfl)
    |>.tail (.functor (l := .sub 0) rfl .connectEstablished)
    |>.tail (.functor (l := .sub 0) rfl hdestroyed)
  exact ⟨_, _, _, hrun, rfl, rfl, (establish_before_everything tid _ hrun (i := 0) rfl).1⟩

end ThreadedServer
end Mymuduo
