import Mymuduo.Channel
import Mymuduo.Lib.Runs

/-! # The poller of a loop

The registration of a channel is kept in three places: in the channel itself
(`index_` and the mask `events_`), in the poller's map `channels_`, and in the
kernel's interest set.  A `PollerSystem` holds any number of channels of one loop
together with the map and the interest set; `exec` runs one operation of a
channel's owner on it.

The kernel refuses to add an fd that is in the set and to modify or delete one
that is not.  A refused add or modify ends the process (`LOG_FATAL` in `update`),
so `failed` keeps every refusal.
-/
namespace Mymuduo
open Transition

/-- The operations of a channel's owner. -/
inductive ChannelOp where
  | enableReading
  | disableReading
  | enableWriting
  | disableWriting
  | disableAll
  | remove
deriving DecidableEq, Repr

namespace ChannelOp

def run (ch : Channel) : ChannelOp → Channel × List PollerOp
  | .enableReading => ch.enableReading
  | .disableReading => ch.disableReading
  | .enableWriting => ch.enableWriting
  | .disableWriting => ch.disableWriting
  | .disableAll => ch.disableAll
  | .remove => ch.remove

/-- The mask an operation leaves of the mask `events`. -/
def mask (events : EventMask) : ChannelOp → EventMask
  | .enableReading => events ||| Channel.kReadEvent
  | .disableReading => events &&& ~~~Channel.kReadEvent
  | .enableWriting => events ||| Channel.kWriteEvent
  | .disableWriting => events &&& ~~~Channel.kWriteEvent
  | .disableAll => Channel.kNoneEvent
  | .remove => events

end ChannelOp

/-- The channels of one loop, its poller's map, and the kernel's interest set. -/
structure PollerSystem (ι : Type*) where
  channel : ι → Channel
  channels_ : Int → Option ι
  /-- The mask and the data pointer of each fd in the interest set. -/
  interest : Int → Option (EventMask × ι)
  /-- The calls of `epoll_ctl` that failed. -/
  failed : List CtlOp

namespace PollerSystem
variable {ι : Type*}

/-- New channels, one on each of the fds, and a new poller. -/
def new (fd : ι → Int) : PollerSystem ι := ⟨fun i => Channel.new (fd i), fun _ => none,
  fun _ => none, []⟩

/-- `Poller::hasChannel`. -/
def hasChannel [DecidableEq ι] (s : PollerSystem ι) (i : ι) : Bool :=
  s.channels_ (s.channel i).fd_ == some i

/-- What the poller does for channel `i`. -/
def call (i : ι) (s : PollerSystem ι) : PollerOp → PollerSystem ι
  | .insert fd => { s with channels_ := Function.update s.channels_ fd (some i) }
  | .erase fd => { s with channels_ := Function.update s.channels_ fd none }
  | .ctl op fd events =>
    match op, s.interest fd with
    | .EPOLL_CTL_ADD, none | .EPOLL_CTL_MOD, some _ =>
      { s with interest := Function.update s.interest fd (some (events, i)) }
    | .EPOLL_CTL_DEL, some _ => { s with interest := Function.update s.interest fd none }
    | _, _ => { s with failed := s.failed ++ [op] }

/-- An operation on a channel. -/
def exec [DecidableEq ι] (s : PollerSystem ι) (x : ι × ChannelOp) : PollerSystem ι :=
  (x.2.run (s.channel x.1)).2.foldl (call x.1)
    { s with channel := Function.update s.channel x.1 (x.2.run (s.channel x.1)).1 }

/-! ## What an operation touches -/

section Frame
variable {s : PollerSystem ι} {i j : ι} {op : ChannelOp}

/-- All but `remove` are an update with the new mask. -/
theorem run_eq_updateChannel (ch : Channel) (hop : op ≠ .remove) :
    op.run ch = EPollPoller.updateChannel { ch with events_ := op.mask ch.events_ } := by
  cases op with
  | remove => exact absurd rfl hop
  | _ => rfl

theorem fd_run (ch : Channel) : (op.run ch).1.fd_ = ch.fd_ := by
  by_cases hop : op = .remove
  · subst hop
    rfl
  · rw [run_eq_updateChannel ch hop]
    exact Channel.fd_updateChannel _

/-- An operation calls the poller for the fd of its channel only. -/
theorem fd_of_mem_run (ch : Channel) {c : PollerOp} (hc : c ∈ (op.run ch).2) : c.fd = ch.fd_ := by
  by_cases hop : op = .remove
  · subst hop
    exact ch.fd_of_mem_remove hc
  · rw [run_eq_updateChannel ch hop] at hc
    exact Channel.fd_of_mem_updateChannel { ch with events_ := op.mask ch.events_ } hc

theorem call_other (c : PollerOp) {fd : Int} (hfd : c.fd ≠ fd) :
    (call i s c).channels_ fd = s.channels_ fd ∧ (call i s c).interest fd = s.interest fd := by
  cases c with
  | insert fd' => exact ⟨Function.update_of_ne (Ne.symm hfd) _ _, rfl⟩
  | erase fd' => exact ⟨Function.update_of_ne (Ne.symm hfd) _ _, rfl⟩
  | ctl op fd' events =>
    have hne : fd ≠ fd' := Ne.symm hfd
    have hother : ∀ v : Option (EventMask × ι),
        Function.update s.interest fd' v fd = s.interest fd :=
      fun v => by rw [Function.update_of_ne hne]
    simp only [call]
    split
    · exact ⟨rfl, hother _⟩
    · exact ⟨rfl, hother _⟩
    · exact ⟨rfl, hother _⟩
    · exact ⟨rfl, rfl⟩

theorem foldl_call_other (cs : List PollerOp) {fd : Int} (hfd : ∀ c ∈ cs, c.fd ≠ fd) :
    (cs.foldl (call i) s).channels_ fd = s.channels_ fd ∧
      (cs.foldl (call i) s).interest fd = s.interest fd := by
  induction cs generalizing s with
  | nil => exact ⟨rfl, rfl⟩
  | cons c cs ih =>
    obtain ⟨hmap, hint⟩ := ih (s := call i s c) fun c' hc' => hfd c' (List.mem_cons_of_mem c hc')
    obtain ⟨hmap', hint'⟩ := call_other (s := s) (i := i) c (hfd c List.mem_cons_self)
    exact ⟨hmap.trans hmap', hint.trans hint'⟩

theorem channel_foldl_call (cs : List PollerOp) :
    (cs.foldl (call i) s).channel = s.channel := by
  induction cs generalizing s with
  | nil => rfl
  | cons c cs ih =>
    rw [List.foldl_cons, ih]
    cases c with
    | ctl op fd events =>
      simp only [call]
      split <;> rfl
    | _ => rfl

variable [DecidableEq ι]

theorem channel_exec_self : (s.exec (i, op)).channel i = (op.run (s.channel i)).1 := by
  rw [exec, channel_foldl_call]
  exact Function.update_self ..

theorem channel_exec_other (h : j ≠ i) : (s.exec (i, op)).channel j = s.channel j := by
  rw [exec, channel_foldl_call]
  exact Function.update_of_ne h ..

theorem fd_exec : ((s.exec (i, op)).channel j).fd_ = (s.channel j).fd_ := by
  by_cases h : j = i
  · subst h
    rw [channel_exec_self, fd_run]
  · rw [channel_exec_other h]

end Frame

/-! ## Coherence -/

/-- The three copies of the registration of channel `i` agree. -/
structure CoherentAt [DecidableEq ι] (s : PollerSystem ι) (i : ι) : Prop where
  hasChannel : s.hasChannel i = true ↔ (s.channel i).index_ ≠ .kNew
  interest : s.interest (s.channel i).fd_ =
    if (s.channel i).index_ = .kAdded then some ((s.channel i).events_, i) else none

/-- They agree for every channel, and no call of `epoll_ctl` has failed. -/
structure Coherent [DecidableEq ι] (s : PollerSystem ι) : Prop where
  channels : ∀ i, s.CoherentAt i
  failed : s.failed = []

/-- No two channels share an fd. -/
def Distinct (s : PollerSystem ι) : Prop := Function.Injective fun i => (s.channel i).fd_

section Coherence
variable [DecidableEq ι] {s : PollerSystem ι} {i : ι} {op : ChannelOp}

theorem distinct_exec (hd : s.Distinct) : (s.exec (i, op)).Distinct := by
  intro j k h
  simp only [fd_exec] at h
  exact hd h

/-- The operation on the channel itself. -/
theorem coherentAt_exec_self (hs : s.CoherentAt i) :
    (s.exec (i, op)).CoherentAt i ∧ (s.exec (i, op)).failed = s.failed := by
  obtain ⟨hmap, hint⟩ := hs
  simp only [hasChannel, beq_iff_eq] at hmap
  have hself : ∀ ch : Channel, Function.update s.channel i ch i = ch :=
    fun ch => Function.update_self ..
  by_cases hop : op = .remove
  · subst hop
    cases hidx : (s.channel i).index_ <;> rw [hidx] at hint <;>
      refine ⟨⟨?_, ?_⟩, ?_⟩ <;>
      simp [exec, ChannelOp.run, Channel.remove, EPollPoller.removeChannel, hasChannel, call, hidx,
        hint]
  · rw [exec, run_eq_updateChannel _ hop]
    cases hidx : (s.channel i).index_ with
    | kNew =>
      have hnone : s.interest (s.channel i).fd_ = none := by simpa [hidx] using hint
      refine ⟨⟨?_, ?_⟩, ?_⟩ <;> simp [EPollPoller.updateChannel, hasChannel, call, hnone]
    | kDeleted =>
      have hnone : s.interest (s.channel i).fd_ = none := by simpa [hidx] using hint
      refine ⟨⟨?_, ?_⟩, ?_⟩ <;>
        simp [EPollPoller.updateChannel, hasChannel, call, hidx, hnone, hmap]
    | kAdded =>
      have hsome : s.interest (s.channel i).fd_ = some ((s.channel i).events_, i) := by
        simpa [hidx] using hint
      refine ⟨⟨?_, ?_⟩, ?_⟩ <;>
        by_cases hnone : op.mask (s.channel i).events_ = Channel.kNoneEvent <;>
        simp [EPollPoller.updateChannel, hasChannel, call, hidx, hsome, hmap, Channel.isNoneEvent,
          hnone]

/-- **Coherence is kept** by every operation on every channel. -/
theorem coherent_exec (hd : s.Distinct) (hs : s.Coherent) : (s.exec (i, op)).Coherent := by
  obtain ⟨hself, hfailed⟩ : (s.exec (i, op)).CoherentAt i ∧ (s.exec (i, op)).failed = s.failed :=
    coherentAt_exec_self (hs.channels i)
  refine ⟨fun j => ?_, hfailed.trans hs.failed⟩
  by_cases h : j = i
  · rw [h]
    exact hself
  · have hfd : ∀ c ∈ (op.run (s.channel i)).2, c.fd ≠ (s.channel j).fd_ := by
      intro c hc heq
      rw [fd_of_mem_run _ hc] at heq
      exact h (hd heq).symm
    obtain ⟨hmap, hint⟩ := foldl_call_other (i := i) (s := { s with
      channel := Function.update s.channel i (op.run (s.channel i)).1 }) _ hfd
    obtain ⟨hmap', hint'⟩ := hs.channels j
    constructor
    · rw [hasChannel, channel_exec_other h, exec, hmap]
      exact hmap'
    · rw [channel_exec_other h, exec, hint]
      exact hint'

end Coherence

section Runs
variable [DecidableEq ι] {fd : ι → Int}

/-- New channels on distinct fds, after any operations on them. -/
theorem registered_run (hfd : Function.Injective fd) (ops : List (ι × ChannelOp)) :
    (ops.foldl exec (new fd)).Distinct ∧ (ops.foldl exec (new fd)).Coherent := by
  have hnew : (new fd).Distinct ∧ (new fd).Coherent := by
    refine ⟨hfd, fun i => ⟨?_, rfl⟩, rfl⟩
    simp [hasChannel, new, Channel.new]
  have hstep : ∀ (s : PollerSystem ι) (x : ι × ChannelOp), True →
      s.Distinct ∧ s.Coherent → (s.exec x).Distinct ∧ (s.exec x).Coherent := by
    rintro s ⟨i, op⟩ - ⟨hd, hs⟩
    exact ⟨distinct_exec hd, coherent_exec hd hs⟩
  exact @invariant _ _ exec (new fd) (fun s => s.Distinct ∧ s.Coherent) _ hnew hstep ops
    fun _ _ => trivial

/-- **The registration is coherent** after any operations on any number of channels,
and `epoll_ctl` has never failed. -/
theorem registration_coherent (hfd : Function.Injective fd) (ops : List (ι × ChannelOp)) :
    (ops.foldl exec (new fd)).Coherent :=
  (registered_run hfd ops).2

/-- Two channels; one of them is switched off, removed twice, and enabled again. -/
theorem registration_coherent_two : ∃ s : PollerSystem Bool,
    s = [(false, .enableReading), (true, .enableWriting), (false, .disableAll), (false, .remove),
      (false, .remove), (false, .enableReading)].foldl exec (new fun b => if b then 6 else 5) ∧
    s.interest 5 = some (Channel.kReadEvent, false) ∧
    s.interest 6 = some (Channel.kWriteEvent, true) ∧ s.Coherent := by
  refine ⟨_, rfl, by decide, by decide, registration_coherent ?_ _⟩
  intro a b
  revert a b
  decide

/-! ## Channels without interest -/

/-- The fd of a channel without interest is not in the interest set. -/
def IdleUnpolled (s : PollerSystem ι) : Prop :=
  ∀ i, (s.channel i).isNoneEvent = true → s.interest (s.channel i).fd_ = none

/-- An operation that leaves its channel without interest finds the channel added, or
removes it. -/
def DisablesAdded (s : PollerSystem ι) (x : ι × ChannelOp) : Prop :=
  x.2 ≠ .remove → x.2.mask (s.channel x.1).events_ = Channel.kNoneEvent →
    (s.channel x.1).index_ = .kAdded

/-- Where the update of a channel leaves it. -/
theorem index_updateChannel (ch : Channel) :
    (EPollPoller.updateChannel ch).1.index_ = .kAdded ↔
      (ch.isNoneEvent = true → ch.index_ ≠ .kAdded) := by
  unfold EPollPoller.updateChannel
  cases hidx : ch.index_ with
  | kNew => simp
  | kDeleted => simp
  | kAdded => by_cases hnone : ch.isNoneEvent = true <;> simp [hnone, hidx]

/-- In a coherent state the interest set can be read off the indices. -/
theorem idle_iff_index {s : PollerSystem ι} (hs : s.Coherent) : s.IdleUnpolled ↔
    ∀ i, (s.channel i).isNoneEvent = true → (s.channel i).index_ ≠ .kAdded := by
  refine forall_congr' fun i => imp_congr_right fun _ => ?_
  rw [(hs.channels i).interest]
  split <;> simp_all

/-- **One operation** leaves every channel without interest unpolled exactly when it
does not switch off a channel that is not added. -/
theorem idle_exec_iff {s : PollerSystem ι} (hd : s.Distinct) (hs : s.Coherent)
    (h : s.IdleUnpolled) (x : ι × ChannelOp) : (s.exec x).IdleUnpolled ↔ s.DisablesAdded x := by
  obtain ⟨i, op⟩ := x
  rw [idle_iff_index (coherent_exec hd hs)]
  rw [idle_iff_index hs] at h
  have hself : (((s.exec (i, op)).channel i).isNoneEvent = true →
      ((s.exec (i, op)).channel i).index_ ≠ .kAdded) ↔ s.DisablesAdded (i, op) := by
    rw [channel_exec_self]
    by_cases hop : op = .remove
    · subst hop
      simp [ChannelOp.run, Channel.remove, EPollPoller.removeChannel, DisablesAdded]
    · rw [run_eq_updateChannel _ hop, Ne, index_updateChannel]
      simp only [Channel.isNoneEvent, Channel.events_updateChannel, DisablesAdded, beq_iff_eq]
      constructor
      · intro hi _ hmask
        by_contra hidx
        exact hi hmask fun _ => hidx
      · intro hQ hmask hidx
        exact hidx hmask (hQ hop hmask)
  rw [← hself]
  constructor
  · exact fun hall => hall i
  · intro hi j
    by_cases hj : j = i
    · rw [hj]
      exact hi
    · rw [channel_exec_other hj]
      exact h j

/-- **A channel without interest is not polled**, all along a run, exactly when no
disabling operation of the run leaves a channel without interest that is not added. -/
theorem idle_unpolled_iff (hfd : Function.Injective fd) (ops : List (ι × ChannelOp)) :
    Always exec IdleUnpolled (new fd) ops ↔ Along exec DisablesAdded (new fd) ops := by
  refine always_iff_along (fun s => s.Distinct ∧ s.Coherent) (fun _ => True)
    (registered_run hfd []) ?_ ?_ ?_ ops fun _ _ => trivial
  · exact fun i _ => rfl
  · rintro s ⟨i, op⟩ - ⟨hd, hs⟩
    exact ⟨distinct_exec hd, coherent_exec hd hs⟩
  · exact fun s x _ hs h => idle_exec_iff hs.1 hs.2 h x

/-- A channel switched off once. -/
theorem idle_unpolled_once : Always exec IdleUnpolled (new fun _ : Unit => 5)
    [((), .enableReading), ((), .disableAll), ((), .remove)] := by
  refine (idle_unpolled_iff (fun _ _ _ => rfl) _).mpr ?_
  simp only [along_cons, along_nil, and_true, DisablesAdded]
  decide

/-- A channel switched off twice, as by a `handleClose` that runs twice, is polled
again. -/
theorem idle_polled_when_disabled_twice : ¬ Always exec IdleUnpolled (new fun _ : Unit => 5)
    [((), .enableReading), ((), .disableAll), ((), .disableAll)] := by
  intro h
  exact absurd (h.last () (by decide)) (by decide)

end Runs
end PollerSystem
end Mymuduo
