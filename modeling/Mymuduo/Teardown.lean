import Mymuduo.ConnectionState
import Mymuduo.LateRegistration

/-! # What `connectDestroyed` leaves

A connection that has been destroyed should be `kDisconnected`, without interest,
registered nowhere, and its user told.  `connectDestroyed` does all of this where it
finds `kConnected`, and where `handleClose` has run before, that has done the rest.
But a connection that has been shut down is `kDisconnecting`: `~TcpServer` gets to it
without a `handleClose`, and `connectDestroyed` then does nothing but take the channel
out of the poller.  Once a connection is torn down, a `shutdown` of another thread that
has passed its test takes `state_` back, and a late `handleClose` registers the channel.
-/
namespace Mymuduo
open Transition

namespace ConnRun

/-- What a torn down connection keeps. -/
structure TornDown (r : ConnRun) : Prop where
  state : r.conn.state_ = .kDisconnected
  events : r.conn.channel_.events_ = Channel.kNoneEvent
  index : r.conn.channel_.index_ = .kNew
  notified : .connectionCallback .down ∈ r.effects

/-- What has made a connection `kDisconnected` has also cleared its interest and told the
user. -/
def Disconnected (r : ConnRun) : Prop := r.conn.state_ = .kDisconnected →
  r.conn.channel_.events_ = Channel.kNoneEvent ∧ .connectionCallback .down ∈ r.effects

/-- The activation completes the teardown, or leaves a complete one alone. -/
def TearsDown (r : ConnRun) : ConnOp → Prop
  | .connectDestroyed loaded => loaded = .kConnected ∨ r.conn.state_ = .kDisconnected
  | .setDisconnecting => ¬ r.Destroyed
  | op => op.Closes → ¬ r.Destroyed

variable {r : ConnRun} {op : ConnOp}

theorem exec_ne (r : ConnRun) (op : ConnOp) : r.exec op ≠ r := by
  intro h
  have hlen := congrArg (fun r => r.log.length) h
  simp [exec] at hlen

theorem exec_injective (r : ConnRun) : Function.Injective r.exec := by
  intro op op' h
  have hlog := List.append_cancel_left (congrArg ConnRun.log h)
  simp only [List.cons.injEq, Prod.mk.injEq, and_true] at hlog
  exact hlog.1

theorem events_disableAll (ch : Channel) : ch.disableAll.1.events_ = Channel.kNoneEvent :=
  Channel.events_updateChannel _

/-- What `connectDestroyed` does to a connection it finds connected. -/
theorem tornDown_of_connected (r : ConnRun) :
    (r.exec (.connectDestroyed .kConnected)).TornDown where
  state := rfl
  events := events_disableAll _
  index := rfl
  notified := by
    rw [effects_exec, TcpConnection.exec, TcpConnection.connectDestroyed, if_pos rfl]
    simp

/-- Elsewhere it takes the channel out of the poller, and that is all. -/
theorem conn_connectDestroyed {loaded : StateE} (h : loaded ≠ .kConnected) :
    (r.exec (.connectDestroyed loaded)).conn =
      { r.conn with channel_ := r.conn.channel_.remove.1 } := by
  rw [conn_exec, TcpConnection.exec, TcpConnection.connectDestroyed, if_neg h]
  rfl

theorem disconnected_exec (h : r.Disconnected) (op : ConnOp) : (r.exec op).Disconnected := by
  intro hst
  rw [effects_exec, List.mem_append]
  rcases r.conn.exec_state op with hs | ⟨-, hs⟩ | ⟨-, hs⟩ | ⟨hop, -⟩
  · rw [conn_exec, hs] at hst
    obtain ⟨hevents, hdown⟩ := h hst
    refine ⟨?_, Or.inl hdown⟩
    rcases r.conn.exec_channel op with ⟨hch, -⟩ | rfl | ⟨loaded, rfl⟩ | hclose | ⟨data, a, rfl, hw⟩
    · rwa [conn_exec, hch]
    · rw [hst] at hs
      cases hs
    · by_cases hloaded : loaded = .kConnected
      · subst hloaded
        exact (tornDown_of_connected r).events
      · rwa [conn_connectDestroyed hloaded]
    · obtain ⟨d, -, -, hexec⟩ := r.conn.exec_of_closes hclose
      rw [conn_exec, hexec]
      exact events_disableAll _
    · exact absurd hst hw.1
  · rw [conn_exec, hs] at hst
    cases hst
  · rw [conn_exec, hs] at hst
    cases hst
  · rcases hop with hclose | rfl
    · obtain ⟨d, -, -, hexec⟩ := r.conn.exec_of_closes hclose
      rw [conn_exec, hexec]
      refine ⟨events_disableAll _, Or.inr ?_⟩
      simp [TcpConnection.handleClose_effects]
    · have htorn := tornDown_of_connected r
      have hnotified := htorn.notified
      rw [effects_exec, List.mem_append] at hnotified
      exact ⟨htorn.events, hnotified⟩

theorem tearsDown_of_closes (h : op.Closes) : r.TearsDown op ↔ ¬ r.Destroyed := by
  cases op with
  | handleClose | handleRead a err => exact ⟨fun ht => ht h, fun ht _ => ht⟩
  | _ => exact h.elim

theorem tearsDown_of_not_closes (hdestroy : ¬ ∃ loaded, op = .connectDestroyed loaded)
    (hstore : op ≠ .setDisconnecting) (h : ¬ op.Closes) : r.TearsDown op := by
  cases op with
  | connectDestroyed loaded => exact absurd ⟨loaded, rfl⟩ hdestroy
  | setDisconnecting => exact absurd rfl hstore
  | _ => exact fun hc => absurd hc h

/-- The channel of a destroyed connection is added again by the `disableAll` of
`handleClose`. -/
theorem index_of_closes (h : op.Closes) (hidx : r.conn.channel_.index_ = .kNew) :
    (r.exec op).conn.channel_.index_ = .kAdded := by
  obtain ⟨d, hd, -, hexec⟩ := r.conn.exec_of_closes h
  rw [← hd] at hidx
  rw [conn_exec, hexec]
  simp [TcpConnection.handleClose, TcpConnection.onChannel, TcpConnection.setState,
    Channel.disableAll, EPollPoller.updateChannel, hidx]

/-- `connectDestroyed` tears down what it finds connected, and what is disconnected
already. -/
theorem tornDown_connectDestroyed_iff (hdis : r.Disconnected) (loaded : StateE) :
    (r.exec (.connectDestroyed loaded)).TornDown ↔
      loaded = .kConnected ∨ r.conn.state_ = .kDisconnected := by
  by_cases hloaded : loaded = .kConnected
  · subst hloaded
    exact iff_of_true (tornDown_of_connected r) (Or.inl rfl)
  · constructor
    · intro h
      have hst := h.state
      rw [conn_connectDestroyed hloaded] at hst
      exact Or.inr hst
    · intro h
      have hst := h.resolve_left hloaded
      obtain ⟨hevents, hdown⟩ := hdis hst
      refine ⟨?_, ?_, ?_, ?_⟩
      · rw [conn_connectDestroyed hloaded]
        exact hst
      · rw [conn_connectDestroyed hloaded]
        exact hevents
      · rw [conn_connectDestroyed hloaded]
        exact Channel.index_remove
      · rw [effects_exec]
        exact List.mem_append_left _ hdown

/-- What neither destroys, nor stores, nor closes leaves a torn down connection so. -/
theorem TornDown.exec (h : r.TornDown) (hest : op ≠ .connectEstablished)
    (hdestroy : ¬ ∃ loaded, op = .connectDestroyed loaded) (hstore : op ≠ .setDisconnecting)
    (hclose : ¬ op.Closes) : (r.exec op).TornDown := by
  have hch : (r.exec op).conn.channel_ = r.conn.channel_ := by
    rcases r.conn.exec_channel op with ⟨hch, -⟩ | hop | hop | hop | ⟨data, a, -, hw⟩
    · exact hch
    · exact absurd hop hest
    · exact absurd hop hdestroy
    · exact absurd hop hclose
    · exact absurd h.state hw.1
  have hst : (r.exec op).conn.state_ = r.conn.state_ := by
    rcases r.conn.exec_state op with hs | ⟨hop, -⟩ | ⟨hop, -⟩ | ⟨hop | hop, -⟩
    · exact hs
    · exact absurd hop hest
    · exact absurd hop hstore
    · exact absurd hop hclose
    · exact absurd ⟨_, hop⟩ hdestroy
  refine ⟨hst.trans h.state, by rw [hch]; exact h.events, by rw [hch]; exact h.index, ?_⟩
  rw [effects_exec]
  exact List.mem_append_left _ h.notified

/-- **One activation** on an established connection leaves its teardown complete exactly
when it completes it or leaves it alone. -/
theorem tornDown_exec_iff (hdis : r.Disconnected) (htorn : r.Destroyed → r.TornDown)
    (hest : op ≠ .connectEstablished) :
    ((r.exec op).Destroyed → (r.exec op).TornDown) ↔ r.TearsDown op := by
  by_cases hdestroy : ∃ loaded, op = .connectDestroyed loaded
  · obtain ⟨loaded, rfl⟩ := hdestroy
    have hdes : (r.exec (.connectDestroyed loaded)).Destroyed :=
      destroyed_exec_iff.mpr (Or.inr ⟨loaded, rfl⟩)
    simp only [hdes, forall_const, TearsDown]
    exact tornDown_connectDestroyed_iff hdis loaded
  have hdes : (r.exec op).Destroyed ↔ r.Destroyed :=
    destroyed_exec_iff.trans (or_iff_left hdestroy)
  rw [hdes]
  by_cases hclose : op.Closes
  · rw [tearsDown_of_closes hclose]
    refine ⟨fun h hd => ?_, fun h hd => absurd hd h⟩
    have hidx := index_of_closes hclose (htorn hd).index
    rw [(h hd).index] at hidx
    cases hidx
  by_cases hstore : op = .setDisconnecting
  · subst hstore
    refine ⟨fun h hd => ?_, fun h hd => absurd hd h⟩
    cases (h hd).state
  · refine iff_of_true (fun hd => ?_) (tearsDown_of_not_closes hdestroy hstore hclose)
    exact (htorn hd).exec hest hdestroy hstore hclose

end ConnRun

namespace LifetimeSystem

/-- The connection is `kDisconnected`, its channel has no interest and is registered
nowhere, and the user has been told. -/
structure TornDown (s : LifetimeSystem) : Prop where
  state : s.state = .kDisconnected
  interest : s.sys.run.conn.channel_.isNoneEvent = true
  entry : s.sys.entry = none
  mapped : s.sys.run.mapped = false
  notified : .connectionCallback .down ∈ s.sys.run.effects

/-- Once `connectDestroyed` has run, the connection is torn down. -/
def TeardownComplete (s : LifetimeSystem) : Prop := s.sys.run.Destroyed → s.TornDown

/-- `connectDestroyed` finds `kConnected`, or a connection that is `kDisconnected`; and after it
no `shutdown` stores and no callback closes. -/
def DestroyedInTime (s : LifetimeSystem) : LifetimeAction → Prop
  | .serve .destroy => ∀ loaded rest, s.sys.pc = .destroying loaded rest →
      loaded = .kConnected ∨ s.state = .kDisconnected
  | .destroyedHere => ∀ loaded, s.server = .destroying loaded →
      loaded = .kConnected ∨ s.state = .kDisconnected
  | .serve (.shutdownStore _) | .close _ => ¬ s.sys.run.Destroyed
  | _ => True

/-- What is kept from `connectEstablished` on. -/
structure Settling (s : LifetimeSystem) : Prop where
  established : .connectEstablished ∉ s.sys.queue
  disconnected : s.sys.run.Disconnected
  tornDown : s.sys.run.Destroyed → s.sys.run.TornDown

section Step
variable {s s' : LifetimeSystem} {a : LifetimeAction} {op : ConnOp}

/-- The condition on the step is the one on its activation. -/
theorem Performs.destroyedInTime (h : s.Performs a op) :
    s.DestroyedInTime a ↔ s.sys.run.TearsDown op := by
  cases h with
  | serve hop hallows =>
    cases hop with
    | callback hpc hcb =>
      refine iff_of_true trivial (ConnRun.tearsDown_of_not_closes ?_ ?_ hallows)
      · rintro ⟨loaded, rfl⟩
        cases hcb
      · rintro rfl
        cases hcb
    | destroy hpc =>
      refine ⟨fun h => h _ _ hpc, fun h loaded rest hpc' => ?_⟩
      rw [hpc] at hpc'
      cases hpc'
      exact h
    | shutdownStore => exact Iff.rfl
    | _ => exact iff_of_true trivial fun hc => hc.elim
  | close hcb hclose => exact (ConnRun.tearsDown_of_closes hclose).symm
  | destroyedHere h =>
    refine ⟨fun ht => ht _ h, fun ht loaded h' => ?_⟩
    rw [h] at h'
    cases h'
    exact ht

/-- A step that leaves the connection alone meets the condition. -/
theorem Step.destroyedInTime (h : Step s a s') (hr : s'.sys.run = s.sys.run) :
    s.DestroyedInTime a := by
  have hne : ∀ op, s'.sys.run ≠ s.sys.run.exec op := fun op heq =>
    ConnRun.exec_ne s.sys.run op (heq.symm.trans hr)
  cases h with
  | close => exact absurd (run_performClose _ _) (hne _)
  | destroyedHere => exact absurd (ConnectionSystem.run_perform _ _) (hne _)
  | serve hstep =>
    cases hstep with
    | destroy | shutdownStore => exact absurd (ConnectionSystem.run_perform _ _) (hne _)
    | _ => trivial
  | _ => trivial

/-- **One step.**  The teardown is complete after it exactly when it meets the
condition. -/
theorem teardown_iff (hs : Settling s) (h : Step s a s') :
    (s'.sys.run.Destroyed → s'.sys.run.TornDown) ↔ s.DestroyedInTime a := by
  rcases h.run_cases with hr | ⟨op, hop, hr⟩ | ⟨rfl, hst, hr⟩
  · rw [hr]
    exact iff_of_true hs.tornDown (h.destroyedInTime hr)
  · rw [hr, hop.destroyedInTime]
    exact ConnRun.tornDown_exec_iff hs.disconnected hs.tornDown (hop.established hs.established)
  · refine iff_of_true (fun hd => ?_) trivial
    rw [hr, ConnRun.destroyed_exec_iff, ConnRun.destroyed_exec_iff] at hd
    have hdes : s.sys.run.Destroyed := by simpa using hd
    rw [(hs.tornDown hdes).state] at hst
    cases hst

theorem settling_step (hs : Settling s) (h : Step s a s') (hQ : s.DestroyedInTime a) :
    Settling s' := by
  refine ⟨h.established hs.established, ?_, (teardown_iff hs h).mpr hQ⟩
  rcases h.run_cases with hr | ⟨op, -, hr⟩ | ⟨-, -, hr⟩ <;> rw [hr]
  · exact hs.disconnected
  · exact ConnRun.disconnected_exec hs.disconnected op
  · exact ConnRun.disconnected_exec (ConnRun.disconnected_exec hs.disconnected _) _

/-- What the connection did tells whether it is torn down. -/
theorem teardownComplete_iff (hentry : s.sys.entry = s.sys.run.entry)
    (htracked : s.sys.run.Tracked) :
    s.TeardownComplete ↔ (s.sys.run.Destroyed → s.sys.run.TornDown) := by
  refine imp_congr_right fun _ => ⟨fun h => ?_, fun h => ?_⟩
  · refine ⟨h.state, by simpa [Channel.isNoneEvent] using h.interest, ?_, h.notified⟩
    by_contra hidx
    have hmapped := htracked.map.mpr hidx
    rw [h.mapped] at hmapped
    cases hmapped
  · have hmap := htracked.map
    have hcoherent := htracked.coherent
    rw [Channel.Coherent] at hcoherent
    refine ⟨h.state, by simpa [Channel.isNoneEvent] using h.events, ?_, ?_, h.notified⟩
    · rw [hentry]
      simpa [h.index] using hcoherent
    · simpa [h.index] using hmap

variable {tid base : Tid} {name : String} {fd : Int} {writeComplete highWaterMark : Bool}
  {memory : Memory UInt8}

theorem settling_opened (h : Opened (TcpConnection.new name fd writeComplete highWaterMark) s) :
    Settling s := by
  refine ⟨?_, fun hst => ?_, ?_⟩
  · rw [h.queue]
    split <;> simp
  · rw [h.run] at hst
    cases hst
  · rintro ⟨loaded, hmem⟩
    rw [h.run, ConnRun.ops_exec] at hmem
    simp [ConnRun.ops] at hmem

/-- Before `connectEstablished` every step meets the condition. -/
theorem Fresh.destroyedInTime
    (hs : Fresh (TcpConnection.new name fd writeComplete highWaterMark) s) (h : Step s a s') :
    s.DestroyedInTime a := by
  rcases h.run_cases with hr | ⟨op, hop, hr⟩ | ⟨rfl, -, -⟩
  · exact h.destroyedInTime hr
  · refine hop.destroyedInTime.mpr ?_
    have hrun := hs.run
    rcases fresh_step hs h with hs' | hs'
    · exact absurd (hr.symm.trans (hs'.run.trans hrun.symm)) (ConnRun.exec_ne _ _)
    · have hexec := hs'.run
      rw [← hrun, hr] at hexec
      rw [ConnRun.exec_injective _ hexec]
      exact fun hc => hc.elim
  · trivial

/-- **Teardown is complete** in every state of a run exactly when every `connectDestroyed`
of the run finds the connection connected or disconnected, and after it no `shutdown`
stores and no callback closes. -/
theorem teardown_complete_iff {as : List LifetimeAction} :
    Run (Within Step fun _ t => t.TeardownComplete)
        (accepted tid base (TcpConnection.new name fd writeComplete highWaterMark) memory) as s ↔
      Run (Meeting Step DestroyedInTime)
        (accepted tid base (TcpConnection.new name fd writeComplete highWaterMark) memory)
        as s := by
  have hstart := @tracked_run tid base name fd writeComplete highWaterMark memory [] _ .refl
  refine run_within_iff (fun t =>
    (Fresh (TcpConnection.new name fd writeComplete highWaterMark) t ∨ Settling t) ∧
      t.sys.entry = t.sys.run.entry ∧ t.sys.run.Tracked) ⟨Or.inl fresh_accepted, hstart⟩ ?_ ?_
  · rintro t a u ⟨ht | ht, hentry, htracked⟩ h hQ
    · exact ⟨(fresh_step ht h).imp_right settling_opened, h.entry hentry, h.tracked htracked⟩
    · exact ⟨Or.inr (settling_step ht h hQ), h.entry hentry, h.tracked htracked⟩
  · rintro t a u ⟨ht | ht, hentry, htracked⟩ h
    · refine iff_of_true ?_ (ht.destroyedInTime h)
      rintro ⟨loaded, hmem⟩
      rcases fresh_step ht h with hu | hu <;> rw [hu.run] at hmem
      · cases hmem
      · rw [ConnRun.ops_exec] at hmem
        simp [ConnRun.ops] at hmem
    · rw [teardownComplete_iff (h.entry hentry) (h.tracked htracked)]
      exact teardown_iff ht h

/-- The connection is shut down on its loop, and then the server is destroyed:
`connectDestroyed` finds `kDisconnecting`. -/
theorem teardown_incomplete : ∃ as, ∃ s : LifetimeSystem,
    Run Step (accepted 0 3 (TcpConnection.new "conn" 5 false false) fun _ => none) as s ∧
      s.sys.run.ops = [.connectEstablished, .setDisconnecting, .shutdownInLoop,
        .connectDestroyed .kDisconnecting] ∧ ¬ s.TeardownComplete := by
  have hstart : Run Step
      (accepted 0 3 (TcpConnection.new "conn" 5 false false) fun _ => none) [] _ := .refl
  have hshut := hstart
    |>.tail (.serve (.swap rfl) (by decide) rfl)
    |>.tail (.serve (.connectEstablished (a := .accept 0) rfl) (by decide) trivial)
    |>.tail (.serve (.shutdownHere rfl rfl) (by decide) (show 0 < owners _ by decide))
    |>.tail (.serve (.endBatch rfl) (by decide) trivial)
  have hrun := hshut
    |>.tail (.destruct rfl rfl (fun h => absurd h (by decide)))
    |>.tail (.destroyQueue rfl rfl (by decide))
    |>.tail (.serve (.swap rfl) (by decide) rfl)
    |>.tail (.serve (.connectDestroyed (a := .accept 0) rfl) (by decide) trivial)
    |>.tail (.serve (.destroy rfl) (by decide) trivial)
  refine ⟨_, _, hrun, rfl, fun h => ?_⟩
  have hst := (h (by decide)).state
  cases hst

end Step
end LifetimeSystem
end Mymuduo
