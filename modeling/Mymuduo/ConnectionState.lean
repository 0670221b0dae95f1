import Mymuduo.ConnectionLifetime

/-! # The states of a connection

`state_` should only move forward: `kConnecting`, `kConnected`, `kDisconnecting`
(which may be skipped), `kDisconnected`.  The loop's thread does its part.  But
`shutdown` tests for `kConnected` and stores `kDisconnecting` in two steps; when the
connection closes in between, the store takes it back from `kDisconnected`.
-/
namespace Mymuduo
open Transition

namespace StateE

/-- One move forward. -/
inductive Next : StateE → StateE → Prop
  | connected : Next .kConnecting .kConnected
  | disconnecting : Next .kConnected .kDisconnecting
  | disconnected : Next .kDisconnecting .kDisconnected
  | skipped : Next .kConnected .kDisconnected

/-- At most one move forward. -/
def Forward (s t : StateE) : Prop := t = s ∨ Next s t

theorem forward_kDisconnected {t : StateE} (h : Forward .kDisconnected t) : t = .kDisconnected := by
  rcases h with h | h
  · exact h
  · cases h

theorem forward_of_ne_kConnecting {s : StateE} (h : s ≠ .kConnecting) :
    Forward s .kDisconnected := by
  cases s with
  | kDisconnected => exact Or.inl rfl
  | kConnecting => exact absurd rfl h
  | kConnected => exact Or.inr .skipped
  | kDisconnecting => exact Or.inr .disconnected

theorem forward_kDisconnecting_iff {s : StateE} (h : s ≠ .kConnecting) :
    Forward s .kDisconnecting ↔ s ≠ .kDisconnected := by
  constructor
  · rintro hf rfl
    cases forward_kDisconnected hf
  · intro hne
    cases s with
    | kDisconnected => exact absurd rfl hne
    | kConnecting => exact absurd rfl h
    | kConnected => exact Or.inr .disconnecting
    | kDisconnecting => exact Or.inl rfl

end StateE

namespace LifetimeSystem

/-- The value of `state_`. -/
def state (s : LifetimeSystem) : StateE := s.sys.run.conn.state_

/-- `state_` moves forward, or stays. -/
def StateForward (s s' : LifetimeSystem) : Prop := s.state.Forward s'.state

/-- The store of a `shutdown` finds the connection not yet disconnected. -/
def ShutdownInTime (s : LifetimeSystem) : LifetimeAction → Prop
  | .serve (.shutdownStore _) => s.state ≠ .kDisconnected
  | _ => True

/-- `connectEstablished` has run. -/
structure Established (s : LifetimeSystem) : Prop where
  queue : .connectEstablished ∉ s.sys.queue
  state : s.state ≠ .kConnecting

section Step
variable {s s' : LifetimeSystem} {a : LifetimeAction} {op : ConnOp}

/-- The only store of `kDisconnecting` by itself is the one of a thread in `shutdown`. -/
theorem Performs.store (h : s.Performs a .setDisconnecting) :
    ∃ t, a = .serve (.shutdownStore t) := by
  cases h with
  | serve hop =>
    cases hop with
    | callback hpc hop => cases hop
    | shutdownStore => exact ⟨_, rfl⟩
  | close hcb => cases hcb

/-- **One activation** on an established connection, other than that store, moves its
state forward. -/
theorem forward_exec {r : ConnRun} (hst : r.conn.state_ ≠ .kConnecting)
    (hest : op ≠ .connectEstablished) (hstore : op ≠ .setDisconnecting) :
    r.conn.state_.Forward (r.exec op).conn.state_ := by
  rcases r.conn.exec_state op with hs | ⟨hop, -⟩ | ⟨hop, -⟩ | ⟨-, hs⟩
  · exact Or.inl hs
  · exact absurd hop hest
  · exact absurd hop hstore
  · rw [ConnRun.conn_exec, hs]
    exact StateE.forward_of_ne_kConnecting hst

theorem state_shutdownStore {t : Tid} (h : Step s (.serve (.shutdownStore t)) s') :
    s'.state = .kDisconnecting := by
  cases h with
  | serve hstep =>
    cases hstep with
    | shutdownStore ht h =>
      show (s.sys.perform .setDisconnecting).run.conn.state_ = _
      rw [ConnectionSystem.run_perform]
      rfl

/-- **One step** moves the state of an established connection forward exactly when it
is no late store of `kDisconnecting`. -/
theorem forward_iff (hs : Established s) (h : Step s a s') :
    StateForward s s' ↔ ShutdownInTime s a := by
  by_cases hstore : ∃ t, a = .serve (.shutdownStore t)
  · obtain ⟨t, rfl⟩ := hstore
    rw [StateForward, state_shutdownStore h]
    exact StateE.forward_kDisconnecting_iff hs.state
  · have hQ : ShutdownInTime s a := by
      unfold ShutdownInTime
      split
      · exact absurd ⟨_, rfl⟩ hstore
      · trivial
    refine iff_of_true ?_ hQ
    rw [StateForward, state, state]
    rcases h.run_cases with hr | ⟨op, hop, hr⟩ | ⟨-, hst, hr⟩ <;> rw [hr]
    · exact Or.inl rfl
    · refine forward_exec hs.state (hop.established hs.queue) ?_
      rintro rfl
      exact hstore hop.store
    · rw [ConnRun.conn_exec, TcpConnection.exec, TcpConnection.shutdownInLoop_conn, hst]
      exact Or.inr .disconnecting

/-- No activation takes a connection back to `kConnecting`. -/
theorem Step.not_connecting (h : Step s a s') (hs : s.state ≠ .kConnecting) :
    s'.state ≠ .kConnecting := by
  have hexec : ∀ {r : ConnRun} (op : ConnOp), r.conn.state_ ≠ .kConnecting →
      (r.exec op).conn.state_ ≠ .kConnecting := by
    intro r op hst
    rcases r.conn.exec_state op with h | ⟨-, h⟩ | ⟨-, h⟩ | ⟨-, h⟩ <;> rw [ConnRun.conn_exec, h]
    · exact hst
    all_goals simp
  rw [state]
  rcases h.run_cases with hr | ⟨op, -, hr⟩ | ⟨-, -, hr⟩ <;> rw [hr]
  · exact hs
  · exact hexec op hs
  · exact hexec _ (hexec _ hs)

theorem established_step (hs : Established s) (h : Step s a s') : Established s' :=
  ⟨h.established hs.queue, h.not_connecting hs.state⟩

end Step

variable (tid base : Tid) (name : String) (fd : Int) (writeComplete highWaterMark : Bool)
  (memory : Memory UInt8)

theorem established_opened {s : LifetimeSystem}
    (h : Opened (TcpConnection.new name fd writeComplete highWaterMark) s) : Established s := by
  constructor
  · rw [h.queue]
    split <;> simp
  · rw [state, h.run]
    simp [ConnRun.exec, TcpConnection.exec, TcpConnection.connectEstablished,
      TcpConnection.setState]

/-- **The states of a connection.**  The runs along which `state_` only moves forward
are the runs in which every store of a `shutdown` finds the connection not yet
disconnected, under every interleaving. -/
theorem state_forward_iff {as : List LifetimeAction} {s : LifetimeSystem} :
    Run (Within Step StateForward)
        (accepted tid base (TcpConnection.new name fd writeComplete highWaterMark) memory) as s ↔
      Run (Meeting Step ShutdownInTime)
        (accepted tid base (TcpConnection.new name fd writeComplete highWaterMark) memory)
        as s := by
  refine run_within_iff (fun s =>
    Fresh (TcpConnection.new name fd writeComplete highWaterMark) s ∨ Established s)
    (Or.inl fresh_accepted) ?_ ?_
  · rintro s a s' (hs | hs) h -
    · exact (fresh_step hs h).imp_right (established_opened name fd writeComplete highWaterMark)
    · exact Or.inr (established_step hs h)
  · rintro s a s' (hs | hs) h
    · have hst : s.state = .kConnecting := by
        rw [state, hs.run]
        rfl
      have hforward : StateForward s s' := by
        rw [StateForward, hst]
        rcases fresh_step hs h with hs' | hs' <;> rw [state, hs'.run]
        · exact Or.inl rfl
        · exact Or.inr .connected
      refine iff_of_true hforward ?_
      unfold ShutdownInTime
      split
      · rw [hst]
        simp
      · trivial
    · exact forward_iff hs h

/-- Thread 1 finds `kConnected` in `shutdown`; the peer hangs up and the loop's thread
closes the connection; then thread 1 stores `kDisconnecting`. -/
theorem state_goes_back : ∃ as a, ∃ s s' : LifetimeSystem,
    Run Step (accepted 0 0 (TcpConnection.new "conn" 5 false false) fun _ => none) as s ∧
      Step s a s' ∧ s.state = .kDisconnected ∧ s'.state = .kDisconnecting ∧
      ¬ StateForward s s' := by
  have hstart : Run Step
      (accepted 0 0 (TcpConnection.new "conn" 5 false false) fun _ => none) [] _ := .refl
  have hrun := hstart
    |>.tail (.serve (.swap rfl) (by decide) rfl)
    |>.tail (.serve (.connectEstablished (a := .accept 0) rfl) (by decide) trivial)
    |>.tail (.keep 1 (by decide))
    |>.tail (.serve (.endBatch rfl) (by decide) trivial)
    |>.tail (.serve (.shutdownCheck (t := 1) (by decide) rfl rfl) (by decide)
      List.mem_cons_self)
    |>.tail (.report (by decide) rfl rfl rfl EPOLLHUP)
    |>.tail (.dispatch (by decide) rfl rfl (by decide))
    |>.tail (.close (by decide) rfl .handleClose trivial)
    |>.tail (.closeCallback rfl (by decide))
  refine ⟨_, _, _, _, hrun, .serve (.shutdownStore (t := 1) (by decide) rfl) (by decide) trivial,
    rfl, rfl, fun h => ?_⟩
  cases StateE.forward_kDisconnected h

end LifetimeSystem
end Mymuduo
