import Mymuduo.ConnectionLifetime

/-! # Close notifications and the end of the server

Once `~TcpServer` has begun to go through `connections_`, no connection should call
`removeConnectionInLoop` any more: its `closeCallback_` is bound to the server that
is going away.  Nothing keeps it from doing so.  The destructor only queues
`connectDestroyed`, and until that has run the loop goes on dispatching events; a
hang-up in between notifies a server under destruction.

A server has any number of connections, each on any of the loops, the base loop
included.  They are a family: the beginning and the end of the destructor are steps
of all connections, any other step is one of a single connection.  (Two connections
of one loop are not kept apart; the runs of the family are more than those of the
loops.)
-/
namespace Mymuduo
open Transition

namespace LifetimeSystem

/-- The step is one of the whole server. -/
def OfServer (a : LifetimeAction) : Prop := a = .destruct ∨ a = .destructed

/-- No `handleClose` begins after the destructor has, or is under way when it does. -/
def ClosesBefore (s : LifetimeSystem) : LifetimeAction → Prop
  | .close _ => s.server = .serving
  | .destruct => s.closing = false
  | _ => True

/-- `removeConnectionInLoop` has not been called since the destructor began. -/
def RemovedBefore (s : LifetimeSystem) : Prop := ∀ p ∈ s.removals, p = .serving

/-- The notification that is under way, if any, comes before the destructor, too. -/
structure Settled (s : LifetimeSystem) : Prop where
  removed : s.RemovedBefore
  closing : s.closing = true → s.server = .serving

theorem settled_step {s s' : LifetimeSystem} {a : LifetimeAction} (hs : Settled s)
    (h : Step s a s') (hQ : ClosesBefore s a) : Settled s' := by
  obtain ⟨hremoved, hclosing⟩ := hs
  -- the destructor moves on only when nothing is under way
  have hnone : ∀ p, s.server = p → p ≠ .serving → s.closing = false := by
    rintro p rfl hp
    exact Bool.eq_false_iff.mpr fun h => hp (hclosing h)
  cases h with
  | close => exact ⟨hremoved, fun _ => hQ⟩
  | closeCallback h =>
    refine ⟨fun p hp => ?_, fun h => absurd h Bool.false_ne_true⟩
    rcases List.mem_append.mp hp with hp | hp
    · exact hremoved p hp
    · rw [List.mem_singleton.mp hp]
      exact hclosing h
  | destruct =>
    refine ⟨hremoved, fun h => ?_⟩
    rw [hQ] at h
    cases h
  | destroyHere h | destroyedHere h | destructed h =>
    refine ⟨hremoved, fun hc => ?_⟩
    rw [hnone _ h (by simp)] at hc
    cases hc
  | _ => exact ⟨hremoved, hclosing⟩

variable {ι : Type*} [DecidableEq ι]

/-- **Close notifications and the end of the server.**  For any connections on any
loops, in every run, under every interleaving, in which no `handleClose` begins
after the destructor has begun or is under way when it begins:
`removeConnectionInLoop` is not called from that moment on. -/
theorem no_removal_after_destruct {tid : ι → Tid} {base : Tid} {conn : ι → TcpConnection}
    {memory : ι → Memory UInt8} {as : List (Option ι × LifetimeAction)} {f : ι → LifetimeSystem}
    (h : Run (Each (Meeting Step ClosesBefore) OfServer)
      (fun i => accepted (tid i) base (conn i) (memory i)) as f) (i : ι) :
    (f i).RemovedBefore := by
  obtain ⟨bs, hrun⟩ := h.component i
  have hstart : Settled (accepted (tid i) base (conn i) (memory i)) :=
    ⟨fun p hp => absurd hp List.not_mem_nil, fun hc => absurd hc Bool.false_ne_true⟩
  exact (hrun.invariant hstart fun _ _ _ hs hstep => settled_step hs hstep.1 hstep.2).removed

/-- The peer hangs up, and then the server is destroyed. -/
theorem hangup_before_destruct : ∃ as, ∃ f : Unit → LifetimeSystem,
    Run (Each (Meeting Step ClosesBefore) OfServer)
        (fun _ => accepted 0 3 (TcpConnection.new "conn" 5 false false) fun _ => none) as f ∧
      (f ()).removals = [.serving] ∧ (f ()).server = .ended ∧ (f ()).RemovedBefore := by
  have hstart : Run (Meeting Step ClosesBefore)
      (accepted 0 3 (TcpConnection.new "conn" 5 false false) fun _ => none) [] _ := .refl
  have hrun := hstart
    |>.meet (.serve (.swap rfl) (by decide) rfl) trivial
    |>.meet (.serve (.connectEstablished (a := .accept 0) rfl) (by decide) trivial) trivial
    |>.meet (.serve (.endBatch rfl) (by decide) trivial) trivial
    |>.meet (.report (by decide) rfl rfl rfl EPOLLHUP) trivial
    |>.meet (.dispatch (by decide) rfl rfl (by decide)) trivial
    |>.meet (.close (by decide) rfl .handleClose trivial) rfl
    |>.meet (.closeCallback rfl (by decide)) trivial
    |>.meet (.destruct rfl rfl (fun h => absurd h (by decide))) rfl
    |>.meet (.destructed rfl rfl) trivial
  obtain ⟨bs, hfamily⟩ : ∃ bs, Run (Each (Meeting Step ClosesBefore) OfServer) _ bs _ := hrun.family
  exact ⟨bs, _, hfamily, rfl, rfl,
    no_removal_after_destruct hfamily ()⟩

/-- The peer hangs up while `~TcpServer` goes through the table. -/
theorem hangup_during_destruct : ∃ as, ∃ f : Unit → LifetimeSystem,
    Run (Each Step OfServer)
        (fun _ => accepted 0 3 (TcpConnection.new "conn" 5 false false) fun _ => none) as f ∧
      (f ()).removals = [.iterating] ∧ ¬ (f ()).RemovedBefore := by
  have hstart : Run Step
      (accepted 0 3 (TcpConnection.new "conn" 5 false false) fun _ => none) [] _ := .refl
  have hrun := hstart
    |>.tail (.serve (.swap rfl) (by decide) rfl)
    |>.tail (.serve (.connectEstablished (a := .accept 0) rfl) (by decide) trivial)
    |>.tail (.serve (.endBatch rfl) (by decide) trivial)
    |>.tail (.destruct rfl rfl (fun h => absurd h (by decide)))
    |>.tail (.destroyQueue rfl rfl (by decide))
    |>.tail (.report (by decide) rfl rfl rfl EPOLLHUP)
    |>.tail (.dispatch (by decide) rfl rfl (by decide))
    |>.tail (.close (by decide) rfl .handleClose trivial)
    |>.tail (.closeCallback rfl (by decide))
  obtain ⟨bs, hfamily⟩ : ∃ bs, Run (Each Step OfServer) _ bs _ := hrun.family
  refine ⟨bs, _, hfamily, rfl, fun h => ?_⟩
  cases h .iterating List.mem_cons_self

end LifetimeSystem
end Mymuduo
