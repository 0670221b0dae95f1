import Mymuduo.Poller

/-! # From a subscription to its handler

A channel subscribes with `enableReading` and `enableWriting`, whose masks are `kReadEvent`
and `kWriteEvent`; the poller hands the masks to the kernel and the kernel's reports back to
the channels; the loop goes through the batch and `handleEvent` tests the bits of each
report.  `DispatchLoop` holds the channels of one loop with their registration, the batch
the last poll reported and what of it is still to be handled; between any two of the loop's
own steps, callbacks and functors do what they like to the channels.

`handleEventWithGuard` tests `revents_ & (EPOLLIN || EPOLLPRI)`, and `EPOLLIN || EPOLLPRI`
is `1`.  Urgent data, to which every reading channel is subscribed, calls no handler unless
ordinary data is reported with it; a level-triggered poller then reports it at every poll.
-/
namespace Mymuduo
open Transition

namespace EventMask
variable {mask a b : EventMask}

theorem has_or : mask.has (a ||| b) = (mask.has a || mask.has b) := by
  simp only [has, BitVec.and_or_distrib_left, bne, ← Bool.not_and, Bool.not_inj_iff]
  rw [Bool.eq_iff_iff]
  simp only [beq_iff_eq, Bool.and_eq_true]
  exact BitVec.or_eq_zero_iff

/-- All bits of the mask are bits of `bits`. -/
def Within (mask bits : EventMask) : Prop := mask &&& bits = mask

theorem Within.or (ha : a.Within mask) (hb : b.Within mask) : (a ||| b).Within mask := by
  rw [Within, BitVec.and_or_distrib_right, ha, hb]

theorem Within.and (ha : a.Within mask) : (a &&& b).Within mask := by
  rw [Within, BitVec.and_assoc, BitVec.and_comm b, ← BitVec.and_assoc, ha]

instance : Decidable (a.Within b) := inferInstanceAs (Decidable (_ = _))

/-- What meets a mask meets every mask that has its bits. -/
theorem Within.has (ha : a.Within b) (h : mask &&& a ≠ 0) : mask.has b = true := by
  rw [EventMask.has, bne_iff_ne]
  intro hnone
  rw [← ha, BitVec.and_comm a, ← BitVec.and_assoc, hnone] at h
  exact h BitVec.zero_and

end EventMask

/-- The four callbacks of a channel. -/
inductive CallbackSlot where
  | read
  | write
  | close
  | error
deriving DecidableEq, Repr

namespace Channel
variable {ω : Type*}

namespace Callbacks

/-- The callbacks, each with its name. -/
def named (cb : Callbacks ω) : Callbacks (CallbackSlot × ω) where
  readCallback_ := cb.readCallback_.map (.read, ·)
  writeCallback_ := cb.writeCallback_.map (.write, ·)
  closeCallback_ := cb.closeCallback_.map (.close, ·)
  errorCallback_ := cb.errorCallback_.map (.error, ·)

/-- All four callbacks are set. -/
structure Complete (cb : Callbacks ω) : Prop where
  read : cb.readCallback_.isSome = true
  write : cb.writeCallback_.isSome = true
  close : cb.closeCallback_.isSome = true
  error : cb.errorCallback_.isSome = true

end Callbacks

variable {ch : Channel} {cb : Callbacks ω} {f : ω}

/-- When the read callback is invoked. -/
theorem read_mem_handleEventWithGuard : (.read, f) ∈ ch.handleEventWithGuard cb.named ↔
    ch.revents_.has EPOLLIN = true ∧ cb.readCallback_ = some f := by
  rw [handleEventWithGuard, has_logicalOr]
  simp [Callbacks.named]

/-- When the write callback is invoked. -/
theorem write_mem_handleEventWithGuard : (.write, f) ∈ ch.handleEventWithGuard cb.named ↔
    ch.revents_.has EPOLLOUT = true ∧ cb.writeCallback_ = some f := by
  rw [handleEventWithGuard]
  simp [Callbacks.named]

/-- `handleEvent` runs the callbacks of a channel that has no owner, or whose owner lives. -/
theorem handleEvent_of_alive {guard : Bool} (h : ch.tied_ = true → guard = true) :
    ch.handleEvent guard cb = ch.handleEventWithGuard cb := by
  unfold handleEvent
  split
  · rw [if_pos (h ‹_›)]
  · rfl

/-- The bits a channel can subscribe to. -/
def subscription : EventMask := kReadEvent ||| kWriteEvent

end Channel

/-- The operations of a channel's owner subscribe to nothing else. -/
theorem ChannelOp.mask_within (op : ChannelOp) {events : EventMask}
    (h : events.Within Channel.subscription) : (op.mask events).Within Channel.subscription := by
  cases op with
  | enableReading => exact h.or (by decide : Channel.kReadEvent.Within Channel.subscription)
  | enableWriting => exact h.or (by decide : Channel.kWriteEvent.Within Channel.subscription)
  | disableReading | disableWriting => exact h.and
  | disableAll => exact (by decide : Channel.kNoneEvent.Within Channel.subscription)
  | remove => exact h

/-- They leave the mask that is theirs, and never touch the report. -/
theorem ChannelOp.run_events_revents (op : ChannelOp) (ch : Channel) :
    (op.run ch).1.events_ = op.mask ch.events_ ∧ (op.run ch).1.revents_ = ch.revents_ := by
  by_cases hop : op = .remove
  · subst hop
    exact ⟨rfl, rfl⟩
  · rw [PollerSystem.run_eq_updateChannel ch hop, Channel.events_updateChannel]
    refine ⟨rfl, ?_⟩
    unfold EPollPoller.updateChannel
    split <;> try rfl
    split <;> rfl

/-- A mask passed to `epoll_ctl` subscribes to nothing else. -/
def PollerOp.Subscribes : PollerOp → Prop
  | .ctl _ _ events => events.Within Channel.subscription
  | _ => True

theorem ChannelOp.run_subscribes (op : ChannelOp) {ch : Channel}
    (h : ch.events_.Within Channel.subscription) : ∀ c ∈ (op.run ch).2, c.Subscribes := by
  intro c hc
  by_cases hop : op = .remove
  · subst hop
    simp only [run, Channel.remove, EPollPoller.removeChannel, List.mem_cons] at hc
    rcases hc with rfl | hc
    · trivial
    · split at hc
      · rw [List.mem_singleton.mp hc]
        exact h
      · cases hc
  · have hmask := op.mask_within h
    rw [PollerSystem.run_eq_updateChannel ch hop] at hc
    unfold EPollPoller.updateChannel at hc
    split at hc
    · simp only [List.mem_cons, List.not_mem_nil, or_false] at hc
      rcases hc with rfl | rfl
      · trivial
      · exact hmask
    · rw [List.mem_singleton.mp hc]
      exact hmask
    · split at hc <;> rw [List.mem_singleton.mp hc] <;> exact hmask

/-- An `epoll_event` with the channel in its `data.ptr`. -/
structure EpollEvent (ι : Type*) where
  events : EventMask
  ptr : ι
deriving DecidableEq, Repr

namespace PollerSystem
variable {ι : Type*} [DecidableEq ι]

/-- A change to channel `i` that the poller takes no part in. -/
def setChannel (p : PollerSystem ι) (i : ι) (ch : Channel) : PollerSystem ι :=
  { p with channel := Function.update p.channel i ch }

/-- `EPollPoller::fillActiveChannels`. -/
def fillActiveChannels (p : PollerSystem ι) (events_ : List (EpollEvent ι))
    (activeChannels : List ι) : PollerSystem ι × List ι :=
  events_.foldl (fun r e =>
    (r.1.setChannel e.ptr ((r.1.channel e.ptr).set_events e.events), r.2 ++ [e.ptr]))
    (p, activeChannels)

/-- The mask the kernel has for the fd of channel `i`. -/
def registered (p : PollerSystem ι) (i : ι) : EventMask :=
  ((p.interest (p.channel i).fd_).map Prod.fst).getD 0

/-- What the channels and the kernel have been asked for is the same in both states. -/
structure SameInterest (p p' : PollerSystem ι) : Prop where
  events : ∀ i, (p'.channel i).events_ = (p.channel i).events_
  interest : p'.interest = p.interest

/-- Nobody has asked for anything but reading and writing. -/
structure Subscribed (p : PollerSystem ι) : Prop where
  events : ∀ i, (p.channel i).events_.Within Channel.subscription
  interest : ∀ fd x, p.interest fd = some x → x.1.Within Channel.subscription

section Interest
variable {p p' p'' : PollerSystem ι} {i : ι} {ch : Channel}

omit [DecidableEq ι] in
theorem SameInterest.trans (h : p.SameInterest p') (h' : p'.SameInterest p'') :
    p.SameInterest p'' :=
  ⟨fun i => (h'.events i).trans (h.events i), h'.interest.trans h.interest⟩

theorem sameInterest_setChannel (hevents : ch.events_ = (p.channel i).events_) :
    p.SameInterest (p.setChannel i ch) := by
  refine ⟨fun j => ?_, rfl⟩
  by_cases hj : j = i
  · subst hj
    exact (congrArg Channel.events_ (Function.update_self ..)).trans hevents
  · exact congrArg Channel.events_ (Function.update_of_ne hj ..)

omit [DecidableEq ι] in
theorem SameInterest.subscribed (h : p.SameInterest p') (hp : p.Subscribed) : p'.Subscribed := by
  refine ⟨fun i => ?_, ?_⟩
  · rw [h.events]
    exact hp.events i
  · rw [h.interest]
    exact hp.interest

omit [DecidableEq ι] in
theorem Subscribed.registered (h : p.Subscribed) (i : ι) :
    (p.registered i).Within Channel.subscription := by
  unfold PollerSystem.registered
  cases hentry : p.interest (p.channel i).fd_ with
  | none => exact (by decide : EventMask.Within 0 Channel.subscription)
  | some x => exact h.interest _ x hentry

omit [DecidableEq ι] in
/-- A call of the poller puts its own mask into the interest set. -/
theorem interest_call {c : PollerOp} (hc : c.Subscribes)
    (h : ∀ fd x, p.interest fd = some x → x.1.Within Channel.subscription) :
    ∀ fd x, (p.call i c).interest fd = some x → x.1.Within Channel.subscription := by
  cases c with
  | insert fd' | erase fd' => exact h
  | ctl op fd' events =>
    have hset : ∀ entry : Option (EventMask × ι),
        (∀ x, entry = some x → x.1.Within Channel.subscription) →
        ∀ fd x, Function.update p.interest fd' entry fd = some x →
          x.1.Within Channel.subscription := by
      intro entry hentry fd x hx
      by_cases hfd : fd = fd'
      · subst hfd
        rw [Function.update_self] at hx
        exact hentry x hx
      · rw [Function.update_of_ne hfd] at hx
        exact h fd x hx
    have hsome : ∀ x, some (events, i) = some x → x.1.Within Channel.subscription := by
      intro x hx
      rw [← Option.some.inj hx]
      exact hc
    simp only [call]
    split
    · exact hset _ hsome
    · exact hset _ hsome
    · exact hset none (by simp)
    · exact h

omit [DecidableEq ι] in
theorem interest_foldl_call (cs : List PollerOp) (hcs : ∀ c ∈ cs, c.Subscribes)
    (h : ∀ fd x, p.interest fd = some x → x.1.Within Channel.subscription) :
    ∀ fd x, (cs.foldl (call i) p).interest fd = some x →
      x.1.Within Channel.subscription := by
  induction cs generalizing p with
  | nil => exact h
  | cons c cs ih =>
    obtain ⟨hc, hrest⟩ := List.forall_mem_cons.mp hcs
    exact ih hrest (interest_call hc h)

/-- The owners of the channels ask for reading and writing only. -/
theorem Subscribed.exec (h : p.Subscribed) (i : ι) (op : ChannelOp) :
    (p.exec (i, op)).Subscribed := by
  refine ⟨fun j => ?_, interest_foldl_call _ (op.run_subscribes (h.events i)) h.interest⟩
  by_cases hj : j = i
  · subst hj
    rw [channel_exec_self, (op.run_events_revents _).1]
    exact op.mask_within (h.events j)
  · rw [channel_exec_other hj]
    exact h.events j

theorem revents_setChannel (h : ch.revents_ = (p.channel i).revents_) (j : ι) :
    ((p.setChannel i ch).channel j).revents_ = (p.channel j).revents_ := by
  by_cases hj : j = i
  · subst hj
    exact (congrArg Channel.revents_ (Function.update_self ..)).trans h
  · exact congrArg Channel.revents_ (Function.update_of_ne hj ..)

/-- The loop of `fillActiveChannels` asks for nothing, and lists the channels in the order
of their reports. -/
theorem fillActiveChannels_spec (events_ : List (EpollEvent ι)) (active : List ι) :
    p.SameInterest (p.fillActiveChannels events_ active).1 ∧
      (p.fillActiveChannels events_ active).2 = active ++ events_.map EpollEvent.ptr := by
  unfold fillActiveChannels
  induction events_ generalizing p active with
  | nil => exact ⟨⟨fun _ => rfl, rfl⟩, by simp⟩
  | cons e es ih =>
    have hset : p.SameInterest (p.setChannel e.ptr ((p.channel e.ptr).set_events e.events)) :=
      sameInterest_setChannel rfl
    obtain ⟨hsame, hactive⟩ := @ih (p.setChannel e.ptr ((p.channel e.ptr).set_events e.events))
      (active ++ [e.ptr])
    exact ⟨hset.trans hsame, by simpa using hactive⟩

/-- A channel that is not reported keeps its `revents_`. -/
theorem revents_fillActiveChannels_other (events_ : List (EpollEvent ι)) (active : List ι)
    (h : i ∉ events_.map EpollEvent.ptr) :
    ((p.fillActiveChannels events_ active).1.channel i).revents_ = (p.channel i).revents_ := by
  unfold fillActiveChannels
  induction events_ generalizing p active with
  | nil => rfl
  | cons e es ih =>
    obtain ⟨hne, hes⟩ := List.ne_and_not_mem_of_not_mem_cons h
    rw [List.foldl_cons, ih _ hes]
    exact congrArg Channel.revents_ (Function.update_of_ne hne ..)

/-- **Every channel of the batch gets its own report.** -/
theorem revents_fillActiveChannels (events_ : List (EpollEvent ι)) (active : List ι)
    (h : (events_.map EpollEvent.ptr).Nodup) : ∀ e ∈ events_,
      ((p.fillActiveChannels events_ active).1.channel e.ptr).revents_ = e.events := by
  induction events_ generalizing p active with
  | nil => simp
  | cons e es ih =>
    obtain ⟨hnot, hes⟩ := List.nodup_cons.mp h
    intro e' he'
    rcases List.mem_cons.mp he' with rfl | he'
    · have hself : (p.setChannel e'.ptr ((p.channel e'.ptr).set_events e'.events)).channel e'.ptr =
          (p.channel e'.ptr).set_events e'.events := Function.update_self ..
      refine (revents_fillActiveChannels_other (i := e'.ptr) es _ hnot).trans ?_
      rw [hself]
      rfl
    · exact ih _ hes e' he'

end Interest
end PollerSystem

/-- The channels of one loop, and where the loop stands in its batch. -/
structure DispatchLoop (ι ω : Type*) where
  poller : PollerSystem ι
  /-- What the last `epoll_wait` reported. -/
  events_ : List (EpollEvent ι)
  /-- What of the batch is left to handle. -/
  activeChannels_ : List ι
  /-- Whether `tie_.lock()` yields the owner. -/
  alive : ι → Bool
  callbacks : ι → Channel.Callbacks ω
  /-- The masks at the last poll; no step reads them. -/
  polledFor : ι → EventMask

/-- A step of the loop, or of the code it runs. -/
inductive DispatchStep (ι ω : Type*) where
  /-- `poller_->poll`, where `epoll_wait` reports `events`. -/
  | poll (events : List (EpollEvent ι))
  /-- `handleEvent` on the next channel of the batch. -/
  | handle
  /-- A callback or functor calls a setter of channel `i`, ... -/
  | user (i : ι) (op : ChannelOp)
  | tie (i : ι)
  /-- ... or gives it callbacks, or its owner goes. -/
  | own (i : ι) (alive : Bool) (callbacks : Channel.Callbacks ω)

/-- `epoll_wait` reports an fd once. -/
def DispatchStep.Kernel {ι ω : Type*} : DispatchStep ι ω → Prop
  | .poll events => (events.map EpollEvent.ptr).Nodup
  | _ => True

namespace DispatchLoop
variable {ι ω : Type*} [DecidableEq ι]

/-- A loop with new channels on the fds. -/
def new (fd : ι → Int) (callbacks : ι → Channel.Callbacks ω) : DispatchLoop ι ω where
  poller := PollerSystem.new fd
  events_ := []
  activeChannels_ := []
  alive := fun _ => false
  callbacks := callbacks
  polledFor := fun _ => 0

/-- The poll of one iteration, with the `clear` before it. -/
def poll (s : DispatchLoop ι ω) (events : List (EpollEvent ι)) : DispatchLoop ι ω :=
  { s with
    poller := (s.poller.fillActiveChannels events []).1
    events_ := events
    activeChannels_ := (s.poller.fillActiveChannels events []).2
    polledFor := s.poller.registered }

/-- The callbacks `handleEvent` invokes for channel `i`. -/
def invoked (s : DispatchLoop ι ω) (i : ι) : List (CallbackSlot × ω) :=
  (s.poller.channel i).handleEvent (s.alive i) (s.callbacks i).named

def exec (s : DispatchLoop ι ω) : DispatchStep ι ω → DispatchLoop ι ω
  -- the loop polls when it is through with the batch
  | .poll events => if s.activeChannels_ = [] then s.poll events else s
  | .handle => { s with activeChannels_ := s.activeChannels_.tail }
  | .user i op => { s with poller := s.poller.exec (i, op) }
  | .tie i => { s with poller := s.poller.setChannel i (s.poller.channel i).tie }
  | .own i alive callbacks =>
    { s with
      alive := Function.update s.alive i alive
      callbacks := Function.update s.callbacks i callbacks }

/-- The channel of the report `e` is the next to be handled; it is alive, has all its
callbacks, and is registered for some of what is reported. -/
structure Handles (s : DispatchLoop ι ω) (a : DispatchStep ι ω) (e : EpollEvent ι) : Prop where
  handle : a = .handle
  head : s.activeChannels_.head? = some e.ptr
  reported : e ∈ s.events_
  alive : (s.poller.channel e.ptr).tied_ = true → s.alive e.ptr = true
  complete : (s.callbacks e.ptr).Complete
  asked : e.events &&& s.polledFor e.ptr ≠ 0

/-- The callbacks for the reported events are invoked, and so at least one is. -/
def Heard (s : DispatchLoop ι ω) (a : DispatchStep ι ω) : Prop :=
  ∀ e, s.Handles a e →
    (e.events.has Channel.kReadEvent = true →
      ∃ f, (s.callbacks e.ptr).readCallback_ = some f ∧ (.read, f) ∈ s.invoked e.ptr) ∧
    (e.events.has EPOLLOUT = true →
      ∃ f, (s.callbacks e.ptr).writeCallback_ = some f ∧ (.write, f) ∈ s.invoked e.ptr) ∧
    s.invoked e.ptr ≠ []

/-- Urgent data is reported together with ordinary data. -/
def UrgentWithData (s : DispatchLoop ι ω) (a : DispatchStep ι ω) : Prop :=
  ∀ e, s.Handles a e → e.events.has EPOLLPRI = true → e.events.has EPOLLIN = true

/-- Nobody asks for anything but reading and writing, and the channels of the batch have the
events reported for them. -/
structure Inv (s : DispatchLoop ι ω) : Prop where
  subscribed : s.poller.Subscribed
  polledFor : ∀ i, (s.polledFor i).Within Channel.subscription
  reports : ∀ e ∈ s.events_, (s.poller.channel e.ptr).revents_ = e.events

section Dispatch
variable {s : DispatchLoop ι ω} {a : DispatchStep ι ω} {e : EpollEvent ι}

/-! ## The invariant -/

theorem Inv.poll (h : s.Inv) {events : List (EpollEvent ι)}
    (hevents : (events.map EpollEvent.ptr).Nodup) : (s.poll events).Inv :=
  ⟨(s.poller.fillActiveChannels_spec events []).1.subscribed h.subscribed,
    h.subscribed.registered, PollerSystem.revents_fillActiveChannels events [] hevents⟩

theorem Inv.tie (h : s.Inv) (i : ι) : (s.exec (.tie i)).Inv := by
  have hsame := @PollerSystem.sameInterest_setChannel _ _ s.poller i (s.poller.channel i).tie rfl
  have hkept := @PollerSystem.revents_setChannel _ _ s.poller i (s.poller.channel i).tie rfl
  exact ⟨hsame.subscribed h.subscribed, h.polledFor,
    fun e he => (hkept e.ptr).trans (h.reports e he)⟩

theorem Inv.user (h : s.Inv) (i : ι) (op : ChannelOp) : (s.exec (.user i op)).Inv := by
  refine ⟨h.subscribed.exec i op, h.polledFor, fun e he => ?_⟩
  change ((s.poller.exec (i, op)).channel e.ptr).revents_ = e.events
  by_cases hj : e.ptr = i
  · subst hj
    rw [PollerSystem.channel_exec_self, (op.run_events_revents _).2]
    exact h.reports e he
  · rw [PollerSystem.channel_exec_other hj]
    exact h.reports e he

theorem Inv.exec (h : s.Inv) (ha : a.Kernel) : (s.exec a).Inv := by
  cases a with
  | poll events =>
    unfold DispatchLoop.exec
    simp only
    split
    · exact h.poll ha
    · exact h
  | user i op => exact h.user i op
  | tie i => exact h.tie i
  | handle | own => exact ⟨h.subscribed, h.polledFor, h.reports⟩

omit [DecidableEq ι] in
theorem new_inv (fd : ι → Int) (cb : ι → Channel.Callbacks ω) : (new fd cb).Inv := by
  have hnone : EventMask.Within 0 Channel.subscription := by decide
  exact ⟨⟨fun _ => hnone, by simp [new, PollerSystem.new]⟩, fun _ => hnone, by simp [new]⟩

/-! ## One report -/

omit [DecidableEq ι] in
/-- **One report is heard exactly if urgent data does not come alone**: what is asked for is
to be read or to be written, so that some handler runs. -/
theorem heard_iff (h : s.Inv) : s.Heard a ↔ s.UrgentWithData a := by
  refine forall_congr' fun e => imp_congr_right fun he => ?_
  obtain ⟨r, hr⟩ := Option.isSome_iff_exists.mp he.complete.read
  obtain ⟨w, hw⟩ := Option.isSome_iff_exists.mp he.complete.write
  have hinvoked : s.invoked e.ptr =
      (s.poller.channel e.ptr).handleEventWithGuard (s.callbacks e.ptr).named :=
    Channel.handleEvent_of_alive he.alive
  have hasked : e.events.has Channel.subscription = true := (h.polledFor e.ptr).has he.asked
  rw [Channel.subscription, Channel.kReadEvent, Channel.kWriteEvent, EventMask.has_or,
    EventMask.has_or] at hasked
  have hread : (.read, r) ∈ s.invoked e.ptr ↔ e.events.has EPOLLIN = true := by
    rw [hinvoked, Channel.read_mem_handleEventWithGuard, h.reports e he.reported]
    exact and_iff_left hr
  have hwrite : (.write, w) ∈ s.invoked e.ptr ↔ e.events.has EPOLLOUT = true := by
    rw [hinvoked, Channel.write_mem_handleEventWithGuard, h.reports e he.reported]
    exact and_iff_left hw
  rw [Channel.kReadEvent, EventMask.has_or, hr, hw]
  simp only [Option.some.injEq, exists_eq_left', hread, hwrite]
  constructor
  · rintro ⟨hin, -, -⟩ hpri
    exact hin (by rw [hpri, Bool.or_true])
  · intro hpri
    have hdata : (e.events.has EPOLLIN || e.events.has EPOLLPRI) = true →
        e.events.has EPOLLIN = true := fun hor => by
      rcases Bool.or_eq_true_iff.mp hor with hin | hurgent
      · exact hin
      · exact hpri hurgent
    refine ⟨hdata, id, ?_⟩
    rcases Bool.or_eq_true_iff.mp hasked with hin | hout
    · exact List.ne_nil_of_mem (hread.mpr (hdata hin))
    · exact List.ne_nil_of_mem (hwrite.mpr hout)

/-! ## Runs -/

/-- **No subscribed event is silently ignored**, in any run of the loop over any batches,
exactly if urgent data is never reported alone to a channel that can be called back. -/
theorem subscribed_heard_iff (fd : ι → Int) (cb : ι → Channel.Callbacks ω)
    (as : List (DispatchStep ι ω)) (has : ∀ a ∈ as, a.Kernel) :
    Along exec Heard (new fd cb) as ↔ Along exec UrgentWithData (new fd cb) as :=
  along_congr Inv DispatchStep.Kernel (new_inv fd cb) (fun _ _ ha h _ => h.exec ha)
    (fun _ _ _ h => heard_iff h) as has

/-- A channel with all its callbacks, reading, on which the poll reports `revents`. -/
def reported (revents : EventMask) : List (DispatchStep Unit Unit) :=
  [.own () true ⟨some (), some (), some (), some ()⟩, .user () .enableReading,
    .poll [⟨revents, ()⟩]]

/-- Urgent data that comes with ordinary data is heard. -/
theorem subscribed_heard_together : Along exec Heard (new (fun _ => 5) fun _ => ⟨none, none, none,
    none⟩) (reported (EPOLLIN ||| EPOLLPRI) ++ [.handle]) := by
  refine (subscribed_heard_iff _ _ _ ?_).mpr ?_
  · simp [reported, DispatchStep.Kernel]
  · refine (along_concat _ _).mpr ⟨?_, fun e he _ => ?_⟩
    · simp only [reported, along_cons, along_nil, and_true]
      exact ⟨fun e he => (by cases he.handle), fun e he => (by cases he.handle),
        fun e he => (by cases he.handle)⟩
    · have hmem : e ∈ [(⟨EPOLLIN ||| EPOLLPRI, ()⟩ : EpollEvent Unit)] := he.reported
      rw [List.mem_singleton.mp hmem]
      decide

/-- Urgent data alone: the channel asked for it, and no handler runs. -/
theorem subscribed_not_heard : ¬ Along exec Heard (new (fun _ => 5) fun _ => ⟨none, none, none,
    none⟩) (reported EPOLLPRI ++ [.handle]) := by
  intro h
  have hlast := ((along_concat _ _).mp h).2 ⟨EPOLLPRI, ()⟩
    ⟨rfl, rfl, List.mem_singleton.mpr rfl, by decide, ⟨rfl, rfl, rfl, rfl⟩, by decide⟩
  exact hlast.2.2 rfl

end Dispatch
end DispatchLoop
end Mymuduo
