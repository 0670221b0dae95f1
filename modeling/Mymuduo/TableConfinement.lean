import Mymuduo.TcpServer

/-! # The connection table and the base loop

Only the thread of the base loop should change `connections_`.  It is where
`newConnection` runs.  `removeConnectionInLoop` is meant to be submitted to the
base loop by `removeConnection`, but `newConnection` binds it into `closeCallback_`
as it is: it runs in the thread that runs `handleClose`, which is the one of the
connection's own loop.
-/
namespace Mymuduo
open Transition

namespace ServerSystem

/-- Only the thread of the base loop has changed the table. -/
def TableConfined (s : ServerSystem) : Prop := ∀ x ∈ s.accesses, x.thread = s.server.loop_

/-- If the operation closes a connection, the connection is on the base loop. -/
def ClosesOnBase (s : ServerSystem) : ServerOp → Prop
  | .newConnection _ _ => True
  | .activate conn op => op.Closes → ∀ c, s.conns[conn]? = some c → c.loop_ = s.server.loop_

/-- What the effects of an activation do to the table's log. -/
theorem foldl_apply (conn : Nat) (c : ServedConnection) (es : List Effect) (s : ServerSystem) :
    (es.foldl (apply conn c) s).server.loop_ = s.server.loop_ ∧
      ∀ x, x ∈ (es.foldl (apply conn c) s).accesses ↔ x ∈ s.accesses ∨
        (.closeCallback ∈ es ∧ x = ⟨c.loop_, c.name_, false⟩) := by
  induction es generalizing s with
  | nil => simp
  | cons e es ih =>
    obtain ⟨hloop, hacc⟩ := ih (apply conn c s e)
    rw [List.foldl_cons]
    refine ⟨hloop.trans (by cases e <;> rfl), fun x => (hacc x).trans ?_⟩
    cases e <;> simp [apply, removeConnectionInLoop]
    tauto

/-- **One operation** keeps the table confined exactly when it does not close a
connection of another loop. -/
theorem confined_exec (s : ServerSystem) (op : ServerOp) (h : s.TableConfined) :
    (s.exec op).TableConfined ↔ s.ClosesOnBase op := by
  cases op with
  | newConnection sockfd ioLoop =>
    refine ⟨fun _ => trivial, fun _ => ?_⟩
    intro x hx
    rcases List.mem_append.mp hx with hx | hx
    · exact h x hx
    · rw [List.mem_singleton.mp hx]
      rfl
  | activate conn op =>
    cases hc : s.conns[conn]? with
    | none =>
      have hexec : s.exec (.activate conn op) = s := by
        simp only [exec, hc]
      rw [hexec]
      exact ⟨fun _ _ c hc' => (by rw [hc] at hc'; cases hc'), fun _ => h⟩
    | some c =>
      have hfold := foldl_apply conn c (c.run.conn.exec op).2
        { s with conns := s.conns.set conn { c with run := c.run.exec op } }
      have hexec : s.exec (.activate conn op) = (c.run.conn.exec op).2.foldl (apply conn c)
          { s with conns := s.conns.set conn { c with run := c.run.exec op } } := by
        simp only [exec, hc]
      rw [TableConfined, hexec, hfold.1]
      constructor
      · intro hconf hop c' hc'
        obtain rfl : c = c' := Option.some.inj (hc.symm.trans hc')
        refine hconf ⟨c.loop_, c.name_, false⟩ ((hfold.2 _).mpr (Or.inr ⟨?_, rfl⟩))
        exact (c.run.conn.exec_closes op).mpr hop
      · intro hQ x hx
        rcases (hfold.2 x).mp hx with hx | ⟨hclose, rfl⟩
        · exact h x hx
        · exact hQ ((c.run.conn.exec_closes op).mp hclose) c hc

/-- **The table is confined to the base loop** all along a run exactly when every
`handleClose` of the run is on a connection of the base loop. -/
theorem table_confined_iff (server : TcpServer) (ops : List ServerOp) :
    Always exec TableConfined (new server) ops ↔ Along exec ClosesOnBase (new server) ops := by
  refine always_iff_along (fun _ => True) (fun _ => True) trivial ?_ (fun _ _ _ _ => trivial) ?_ ops
    fun _ _ => trivial
  · simp [TableConfined, new]
  · exact fun s op _ _ h => confined_exec s op h

/-- A hang-up on the connection of a sub-loop erases it from the table in the
sub-loop's thread. -/
theorem table_not_confined :
    .sub 0 ∈ (TcpServer.started "srv" "1.2.3.4:80" 1 false).threadPool_.getAllLoops ∧
    ¬ Always exec TableConfined (new (TcpServer.started "srv" "1.2.3.4:80" 1 false))
      [.newConnection 5 (.sub 0), .activate 0 .connectEstablished, .activate 0 .handleClose] := by
  refine ⟨by decide, fun h => ?_⟩
  exact absurd (h.last ⟨.sub 0, _, false⟩ (List.mem_append_right _ (List.mem_singleton.mpr rfl)))
    (by decide)

end ServerSystem
end Mymuduo
