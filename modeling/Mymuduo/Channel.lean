import Mathlib.Data.List.Basic

/-! # Channels and their registration

A `Channel` holds the events its owner is interested in (`events_`), the events
the last poll reported (`revents_`) and where it stands with the poller
(`index_`).  Its setters call `EPollPoller::updateChannel`, which decides from
`index_` and `events_` alone what to do with the map `channels_` and with
`epoll_ctl`; here each returns the channel together with these `PollerOp`s, and
whoever keeps the map or the kernel's interest set applies them.

`handleEventWithGuard` is the dispatch of the reported events, for callbacks of
any kind: it returns the callbacks invoked, in order.
-/
namespace Mymuduo

/-- A set of epoll events, one bit each; `int` in the source. -/
abbrev EventMask := BitVec 32

def EPOLLIN : EventMask := 0x001
def EPOLLPRI : EventMask := 0x002
def EPOLLOUT : EventMask := 0x004
def EPOLLERR : EventMask := 0x008
def EPOLLHUP : EventMask := 0x010

/-- `mask & bits`, read as a truth value. -/
def EventMask.has (mask bits : EventMask) : Bool := mask &&& bits != 0

/-- The operator `||` of the source on two integers. -/
def logicalOr (a b : EventMask) : EventMask := if a ≠ 0 ∨ b ≠ 0 then 1 else 0

/-- The values of `index_`. -/
inductive ChannelIndex where
  | kNew
  | kAdded
  | kDeleted
deriving DecidableEq, Repr

inductive CtlOp where
  | EPOLL_CTL_ADD
  | EPOLL_CTL_MOD
  | EPOLL_CTL_DEL
deriving DecidableEq, Repr

/-- What the poller does on behalf of a channel: entries of `channels_` and calls
of `epoll_ctl` with the mask passed. -/
inductive PollerOp where
  | insert (fd : Int)
  | erase (fd : Int)
  | ctl (op : CtlOp) (fd : Int) (events : EventMask)
deriving DecidableEq, Repr

def PollerOp.fd : PollerOp → Int
  | .insert fd | .erase fd | .ctl _ fd _ => fd

structure Channel where
  fd_ : Int
  events_ : EventMask
  revents_ : EventMask
  index_ : ChannelIndex
  tied_ : Bool
deriving DecidableEq, Repr

namespace Channel

def kNoneEvent : EventMask := 0
def kReadEvent : EventMask := EPOLLIN ||| EPOLLPRI
def kWriteEvent : EventMask := EPOLLOUT

/-- The constructor. -/
def new (fd : Int) : Channel := ⟨fd, 0, 0, .kNew, false⟩

def isNoneEvent (ch : Channel) : Bool := ch.events_ == kNoneEvent
def isWriting (ch : Channel) : Bool := ch.events_.has kWriteEvent
def isReading (ch : Channel) : Bool := ch.events_.has kReadEvent

def set_events (ch : Channel) (revt : EventMask) : Channel := { ch with revents_ := revt }

def tie (ch : Channel) : Channel := { ch with tied_ := true }

end Channel

namespace EPollPoller

/-- `updateChannel`: the channel with its new index, and what is done for it. -/
def updateChannel (ch : Channel) : Channel × List PollerOp :=
  match ch.index_ with
  | .kNew =>
    ({ ch with index_ := .kAdded }, [.insert ch.fd_, .ctl .EPOLL_CTL_ADD ch.fd_ ch.events_])
  | .kDeleted => ({ ch with index_ := .kAdded }, [.ctl .EPOLL_CTL_ADD ch.fd_ ch.events_])
  | .kAdded =>
    if ch.isNoneEvent then
      ({ ch with index_ := .kDeleted }, [.ctl .EPOLL_CTL_DEL ch.fd_ ch.events_])
    else
      (ch, [.ctl .EPOLL_CTL_MOD ch.fd_ ch.events_])

def removeChannel (ch : Channel) : Channel × List PollerOp :=
  ({ ch with index_ := .kNew },
    .erase ch.fd_ ::
      if ch.index_ = .kAdded then [.ctl .EPOLL_CTL_DEL ch.fd_ ch.events_] else [])

end EPollPoller

/-- The kernel's entry for one fd, present with the mask it is polled for, after
a call of the poller.  `epoll_ctl` fails, and changes nothing, when it adds an
fd that is there or modifies or deletes one that is not. -/
def PollerOp.onInterest : Option EventMask → PollerOp → Option EventMask
  | none, .ctl .EPOLL_CTL_ADD _ events => some events
  | some _, .ctl .EPOLL_CTL_MOD _ events => some events
  | some _, .ctl .EPOLL_CTL_DEL _ _ => none
  | entry, _ => entry

/-- Whether `channels_` has an entry for one fd, after a call of the poller. -/
def PollerOp.onMap : Bool → PollerOp → Bool
  | _, .insert _ => true
  | _, .erase _ => false
  | mapped, .ctl .. => mapped

namespace Channel

def enableReading (ch : Channel) : Channel × List PollerOp :=
  EPollPoller.updateChannel { ch with events_ := ch.events_ ||| kReadEvent }

def disableReading (ch : Channel) : Channel × List PollerOp :=
  EPollPoller.updateChannel { ch with events_ := ch.events_ &&& ~~~kReadEvent }

def enableWriting (ch : Channel) : Channel × List PollerOp :=
  EPollPoller.updateChannel { ch with events_ := ch.events_ ||| kWriteEvent }

def disableWriting (ch : Channel) : Channel × List PollerOp :=
  EPollPoller.updateChannel { ch with events_ := ch.events_ &&& ~~~kWriteEvent }

def disableAll (ch : Channel) : Channel × List PollerOp :=
  EPollPoller.updateChannel { ch with events_ := kNoneEvent }

def remove (ch : Channel) : Channel × List PollerOp := EPollPoller.removeChannel ch

/-- The callbacks a channel was given; `none` is an empty `std::function`. -/
structure Callbacks (ω : Type*) where
  readCallback_ : Option ω
  writeCallback_ : Option ω
  closeCallback_ : Option ω
  errorCallback_ : Option ω

/-- The callbacks `handleEventWithGuard` invokes for the events in `revents_`. -/
def handleEventWithGuard {ω : Type*} (ch : Channel) (cb : Callbacks ω) : List ω :=
  (if ch.revents_.has EPOLLHUP && !ch.revents_.has EPOLLIN then cb.closeCallback_.toList else [])
    ++ (if ch.revents_.has EPOLLERR then cb.errorCallback_.toList else [])
    ++ (if ch.revents_.has (logicalOr EPOLLIN EPOLLPRI) then cb.readCallback_.toList else [])
    ++ (if ch.revents_.has EPOLLOUT then cb.writeCallback_.toList else [])

/-- `handleEvent`; `guard` is whether `tie_.lock()` yields the owner. -/
def handleEvent {ω : Type*} (ch : Channel) (guard : Bool) (cb : Callbacks ω) : List ω :=
  if ch.tied_ then
    if guard then ch.handleEventWithGuard cb else []
  else
    ch.handleEventWithGuard cb

/-! ## What the setters change -/

variable (ch : Channel)

/-- `EPOLLIN || EPOLLPRI` is `1`, which is `EPOLLIN`. -/
theorem has_logicalOr (mask : EventMask) :
    mask.has (logicalOr EPOLLIN EPOLLPRI) = mask.has EPOLLIN := rfl

@[simp] theorem events_updateChannel : (EPollPoller.updateChannel ch).1.events_ = ch.events_ := by
  unfold EPollPoller.updateChannel
  split <;> try rfl
  split <;> rfl

@[simp] theorem fd_updateChannel : (EPollPoller.updateChannel ch).1.fd_ = ch.fd_ := by
  unfold EPollPoller.updateChannel
  split <;> try rfl
  split <;> rfl

theorem fd_of_mem_updateChannel {c : PollerOp} (hc : c ∈ (EPollPoller.updateChannel ch).2) :
    c.fd = ch.fd_ := by
  unfold EPollPoller.updateChannel at hc
  split at hc
  · simp only [List.mem_cons, List.not_mem_nil, or_false] at hc
    rcases hc with rfl | rfl <;> rfl
  · rw [List.mem_singleton.mp hc]
    rfl
  · split at hc <;> rw [List.mem_singleton.mp hc] <;> rfl

theorem fd_of_mem_remove {c : PollerOp} (hc : c ∈ ch.remove.2) : c.fd = ch.fd_ := by
  simp only [remove, EPollPoller.removeChannel, List.mem_cons] at hc
  rcases hc with rfl | hc
  · rfl
  · split at hc
    · rw [List.mem_singleton.mp hc]
      rfl
    · cases hc

@[simp] theorem isWriting_updateChannel :
    (EPollPoller.updateChannel ch).1.isWriting = ch.isWriting := by
  simp [isWriting]

@[simp] theorem isWriting_enableWriting : ch.enableWriting.1.isWriting = true := by
  have h : (ch.events_ ||| kWriteEvent) &&& kWriteEvent = kWriteEvent := by
    ext i hi
    simpa using fun h => Or.inr h
  rw [enableWriting, isWriting_updateChannel, isWriting, EventMask.has]
  simp only [h]
  decide

@[simp] theorem isWriting_enableReading : ch.enableReading.1.isWriting = ch.isWriting := by
  have h : (ch.events_ ||| kReadEvent) &&& kWriteEvent = ch.events_ &&& kWriteEvent := by
    have h0 : kReadEvent &&& kWriteEvent = 0#32 := by decide
    rw [BitVec.and_or_distrib_right, h0, BitVec.or_zero]
  rw [enableReading, isWriting_updateChannel, isWriting, isWriting, EventMask.has, EventMask.has]
  simp only [h]

@[simp] theorem isWriting_disableAll : ch.disableAll.1.isWriting = false := by
  rw [disableAll, isWriting_updateChannel]
  exact (by decide : EventMask.has kNoneEvent kWriteEvent = false)

@[simp] theorem isWriting_remove : ch.remove.1.isWriting = ch.isWriting := rfl

@[simp] theorem isWriting_tie : ch.tie.isWriting = ch.isWriting := rfl

/-! ## The kernel's view -/

/-- The index tells whether the kernel has an entry for the channel's fd. -/
def Coherent (entry : Option EventMask) : Prop := entry.isSome = true ↔ ch.index_ = .kAdded

variable {ch} {entry : Option EventMask}

theorem Coherent.updateChannel (h : ch.Coherent entry) :
    (EPollPoller.updateChannel ch).1.Coherent
      ((EPollPoller.updateChannel ch).2.foldl PollerOp.onInterest entry) := by
  unfold Coherent at h ⊢
  unfold EPollPoller.updateChannel
  cases hidx : ch.index_ <;> cases entry <;>
    simp [hidx, PollerOp.onInterest] at h ⊢
  split <;> simp [PollerOp.onInterest, hidx]

theorem Coherent.remove (h : ch.Coherent entry) :
    ch.remove.1.Coherent (ch.remove.2.foldl PollerOp.onInterest entry) := by
  unfold Coherent at h ⊢
  unfold Channel.remove EPollPoller.removeChannel
  cases hidx : ch.index_ <;> cases entry <;>
    simp [hidx, PollerOp.onInterest] at h ⊢

/-- `Calls ch ch' ops`: setters called on `ch` leave `ch'`, with these calls of the
poller. -/
inductive Calls (ch : Channel) : Channel → List PollerOp → Prop
  | refl : Calls ch ch []
  | tie {ch' : Channel} {ops : List PollerOp} : Calls ch ch' ops → Calls ch ch'.tie ops
  | update {ch' : Channel} {ops : List PollerOp} (events : EventMask) : Calls ch ch' ops →
      Calls ch (EPollPoller.updateChannel { ch' with events_ := events }).1
        (ops ++ (EPollPoller.updateChannel { ch' with events_ := events }).2)
  | remove {ch' : Channel} {ops : List PollerOp} : Calls ch ch' ops →
      Calls ch ch'.remove.1 (ops ++ ch'.remove.2)

/-- The setters called one after the other. -/
theorem Calls.trans {ch' ch'' : Channel} {ops ops' : List PollerOp} (h : ch.Calls ch' ops)
    (h' : ch'.Calls ch'' ops') : ch.Calls ch'' (ops ++ ops') := by
  induction h' with
  | refl => simpa using h
  | tie _ ih => exact .tie ih
  | update events _ ih => simpa [List.append_assoc] using Calls.update events ih
  | remove _ ih => simpa [List.append_assoc] using Calls.remove ih

/-- The setters call the poller for the fd of their channel only. -/
theorem Calls.fd {ch' : Channel} {ops : List PollerOp} (h : ch.Calls ch' ops) :
    ch'.fd_ = ch.fd_ ∧ ∀ c ∈ ops, c.fd = ch.fd_ := by
  induction h with
  | refl => exact ⟨rfl, by simp⟩
  | tie _ ih => exact ih
  | update events _ ih =>
    refine ⟨(fd_updateChannel _).trans ih.1, fun c hc => ?_⟩
    rcases List.mem_append.mp hc with hc | hc
    · exact ih.2 c hc
    · exact (fd_of_mem_updateChannel _ hc).trans ih.1
  | remove _ ih =>
    refine ⟨ih.1, fun c hc => ?_⟩
    rcases List.mem_append.mp hc with hc | hc
    · exact ih.2 c hc
    · exact (fd_of_mem_remove _ hc).trans ih.1

/-- The index tells what the kernel has for the channel's fd, and what `channels_`
has. -/
structure Tracked (ch : Channel) (entry : Option EventMask) (mapped : Bool) : Prop where
  coherent : ch.Coherent entry
  map : mapped = true ↔ ch.index_ ≠ .kNew

/-- **The index tracks the kernel** through any calls. -/
theorem Coherent.of_calls {ch' : Channel} {ops : List PollerOp} (h : ch.Coherent entry)
    (hcalls : ch.Calls ch' ops) : ch'.Coherent (ops.foldl PollerOp.onInterest entry) := by
  induction hcalls with
  | refl => exact h
  | tie _ ih => exact ih
  | @update ch' ops events _ ih =>
    rw [List.foldl_append]
    have hcoherent : Channel.Coherent { ch' with events_ := events } _ := ih
    exact hcoherent.updateChannel
  | remove _ ih =>
    rw [List.foldl_append]
    exact ih.remove

/-- **The index tracks the poller** through any calls. -/
theorem Tracked.of_calls {ch' : Channel} {ops : List PollerOp} {mapped : Bool}
    (h : ch.Tracked entry mapped) (hcalls : ch.Calls ch' ops) :
    ch'.Tracked (ops.foldl PollerOp.onInterest entry) (ops.foldl PollerOp.onMap mapped) := by
  refine ⟨h.coherent.of_calls hcalls, ?_⟩
  induction hcalls with
  | refl => exact h.map
  | tie _ ih => exact ih
  | @update ch' ops events _ ih =>
    rw [List.foldl_append]
    unfold EPollPoller.updateChannel
    cases hidx : ch'.index_ with
    | kNew => simp [PollerOp.onMap]
    | kDeleted | kAdded =>
      have hmapped : ops.foldl PollerOp.onMap mapped = true := ih.mpr (by simp [hidx])
      by_cases hnone : events = kNoneEvent <;> simp [isNoneEvent, hnone, PollerOp.onMap, hmapped]
  | @remove ch' ops _ ih =>
    rw [List.foldl_append]
    unfold Channel.remove EPollPoller.removeChannel
    split <;> simp [PollerOp.onMap]

/-- A channel the poller has does not survive the loss of its interest. -/
theorem index_disableAll_of_added (h : ch.index_ = .kAdded) :
    ch.disableAll.1.index_ = .kDeleted := by
  simp [disableAll, EPollPoller.updateChannel, h, isNoneEvent]

/-- A channel the poller has keeps its place when an interest is added. -/
theorem index_enableWriting_of_added (h : ch.index_ = .kAdded) :
    ch.enableWriting.1.index_ = .kAdded := by
  have hw : ch.enableWriting.1.isWriting = true := isWriting_enableWriting ch
  unfold enableWriting EPollPoller.updateChannel at *
  simp only [h] at hw ⊢
  split at hw
  · rename_i hnone
    simp only [isNoneEvent, beq_iff_eq] at hnone
    simp only [isWriting, hnone] at hw
    exact absurd hw (by decide)
  · rename_i hsome
    rw [if_neg hsome]

theorem index_remove : ch.remove.1.index_ = .kNew := rfl

end Channel
end Mymuduo
