import Mathlib.Algebra.Group.Int.Defs
import Mathlib.Algebra.Group.Nat.Defs
import Mymuduo.EventDispatch
import Mymuduo.SystemCall
import Mymuduo.Lib.RoundRobin

/-! # What a poll reports, and who has to wait for it

`epoll_wait` fills `events_` from the front, no further than its size, and `poll` hands the
channels of the entries filled to the loop.  When `events_` was full, `poll` doubles it.

If more fds are ready than fit, the kernel goes round robin through them: `PollQueue` is the
poller together with the kernel's list of those that are ready.  A level-triggered fd goes
behind the others once it has been reported, and stays in the list until it is no longer
ready.
-/
namespace Mymuduo
open Transition

namespace Errno

def EINTR : Errno := .other 4
def EINVAL : Errno := .other 22

end Errno

/-- `static_cast<int>` of a size. -/
def staticCastInt (n : Nat) : Int :=
  if n % 2 ^ 32 < 2 ^ 31 then (n % 2 ^ 32 : Nat) else (n % 2 ^ 32 : Nat) - 2 ^ 32

theorem staticCastInt_of_lt {n : Nat} (h : n < 2 ^ 31) : staticCastInt n = n := by
  unfold staticCastInt
  split <;> omega

/-- A power of two that is too large comes out as nothing to write to. -/
theorem staticCastInt_pow {k : Nat} (h : 0 < staticCastInt (2 ^ k)) : 2 ^ k < 2 ^ 31 := by
  by_contra hge
  have hk : 31 ≤ k := (Nat.pow_le_pow_iff_right (by decide)).mp (Nat.not_lt.mp hge)
  rcases Nat.eq_or_lt_of_le hk with rfl | hlt
  · exact absurd h (by decide)
  · have hzero : 2 ^ k % 2 ^ 32 = 0 := Nat.mod_eq_zero_of_dvd (Nat.pow_dvd_pow 2 hlt)
    rw [staticCastInt, hzero] at h
    exact absurd h (by decide)

/-- The first `n` entries of `events_`, each of which the kernel has to have written. -/
def readEntries {α : Type*} : Nat → List (Option α) → Option (List α)
  | 0, _ => some []
  | n + 1, some e :: rest => (readEntries n rest).map (e :: ·)
  | _ + 1, _ => none

theorem readEntries_append {α : Type*} (es : List α) (rest : List (Option α)) :
    readEntries es.length (es.map some ++ rest) = some es := by
  induction es with
  | nil => rfl
  | cons e es ih =>
    show (readEntries es.length (es.map some ++ rest)).map (e :: ·) = _
    rw [ih]
    rfl

/-- The poller of a loop, and what the kernel has for it. -/
structure PollQueue (ι : Type*) where
  poller : PollerSystem ι
  /-- An entry is `none` until the kernel writes to it. -/
  events_ : List (Option (EpollEvent ι))
  /-- The fds that are ready, as the kernel lists them. -/
  ready : List Int
  /-- What the polls that reported something have put into `activeChannels_`. -/
  reports : List (List ι)
  /-- The errors that `poll` has logged. -/
  errors : List Errno
  /-- An entry has been read that the kernel had not written. -/
  wild : Bool

/-- What happens around a poller. -/
inductive PollAction (ι : Type*) where
  /-- The fd becomes ready. -/
  | arrive (fd : Int)
  /-- The fd is no longer ready. -/
  | settle (fd : Int)
  /-- The owner of channel `i` calls one of its setters. -/
  | owner (i : ι) (op : ChannelOp)
  /-- The loop polls; `revents` are the events at each fd. -/
  | poll (revents : Int → EventMask)
  /-- The loop polls, and `epoll_wait` fails. -/
  | fail (e : Errno)

namespace PollQueue
variable {ι : Type*} [DecidableEq ι]

def kInitEventListSize : Nat := 16

/-- A new poller, for new channels on the fds. -/
def new (fd : ι → Int) : PollQueue ι where
  poller := PollerSystem.new fd
  events_ := List.replicate kInitEventListSize none
  ready := []
  reports := []
  errors := []
  wild := false

section Operations
variable (s : PollQueue ι)

/-- The fd is in the interest set. -/
def watches (fd : Int) : Bool := (s.poller.interest fd).isSome

/-- The entry for the fd, with the data pointer it was registered with. -/
def entry (revents : Int → EventMask) (fd : Int) : Option (EpollEvent ι) :=
  (s.poller.interest fd).map fun x => ⟨revents fd, x.2⟩

/-- What `epoll_wait` writes. -/
def epoll_wait (maxevents : Int) (revents : Int → EventMask) :
    Except Errno (List (EpollEvent ι)) :=
  if maxevents ≤ 0 then .error .EINVAL
  else .ok ((s.ready.take maxevents.toNat).filterMap (s.entry revents))

def fillActiveChannels (numEvents : Nat) : PollQueue ι :=
  match readEntries numEvents s.events_ with
  | none => { s with wild := true }
  | some events =>
    { s with
      poller := (s.poller.fillActiveChannels events []).1
      reports := s.reports ++ [(s.poller.fillActiveChannels events []).2] }

/-- `EPollPoller::poll`, where `epoll_wait` has written `events` or failed. -/
def poll (answer : Except Errno (List (EpollEvent ι))) : PollQueue ι :=
  match answer with
  | .ok events =>
    let written := { s with events_ := events.map some ++ s.events_.drop events.length }
    if 0 < events.length then
      let filled := written.fillActiveChannels events.length
      if events.length = filled.events_.length then
        { filled with
          events_ := filled.events_ ++ List.replicate filled.events_.length none }
      else filled
    else written
  | .error saveErrno =>
    if saveErrno ≠ .EINTR then { s with errors := s.errors ++ [saveErrno] } else s

def exec (s : PollQueue ι) : PollAction ι → PollQueue ι
  | .arrive fd =>
    if s.watches fd then { s with ready := RoundRobin.step s.ready (.arrive fd) } else s
  | .settle fd => { s with ready := RoundRobin.step s.ready (.leave fd) }
  | .owner i op =>
    -- an fd that is deleted from the set is no longer listed
    let after := { s with poller := s.poller.exec (i, op) }
    if after.watches (s.poller.channel i).fd_ then after
    else { after with ready := s.ready.erase (s.poller.channel i).fd_ }
  | .poll revents =>
    { s.poll (s.epoll_wait (staticCastInt s.events_.length) revents) with
      ready := RoundRobin.step s.ready (.serve (staticCastInt s.events_.length).toNat) }
  | .fail e => s.poll (.error e)

end Operations
end PollQueue

/-! ## The poller and the interest set -/

namespace PollerSystem
variable {ι : Type*} [DecidableEq ι] {p : PollerSystem ι}

/-- The data pointer of an fd is the channel on it. -/
def Owned (p : PollerSystem ι) : Prop := ∀ fd x, p.interest fd = some x → (p.channel x.2).fd_ = fd

omit [DecidableEq ι] in
theorem interest_call_owned {i : ι} {c : PollerOp} (hc : c.fd = (p.channel i).fd_)
    (h : p.Owned) : (p.call i c).Owned := by
  intro fd x hx
  have hchannel : (p.call i c).channel = p.channel := channel_foldl_call (s := p) [c]
  rw [hchannel]
  by_cases hfd : fd = c.fd
  · subst hfd
    cases c with
    | insert | erase => exact h _ _ hx
    | ctl op fd events =>
      simp only [call] at hx
      have hself : ∀ v, Function.update p.interest fd v fd = v := fun v =>
        Function.update_self fd v p.interest
      split at hx
      · obtain rfl := Option.some.inj ((hself _).symm.trans hx)
        exact hc.symm
      · obtain rfl := Option.some.inj ((hself _).symm.trans hx)
        exact hc.symm
      · cases (hself _).symm.trans hx
      · exact h _ _ hx
  · rw [(call_other c (Ne.symm hfd)).2] at hx
    exact h fd x hx

omit [DecidableEq ι] in
theorem owned_foldl_call {i : ι} (cs : List PollerOp)
    (hcs : ∀ c ∈ cs, c.fd = (p.channel i).fd_) (h : p.Owned) : (cs.foldl (call i) p).Owned := by
  induction cs generalizing p with
  | nil => exact h
  | cons c cs ih =>
    obtain ⟨hc, hrest⟩ := List.forall_mem_cons.mp hcs
    have hchannel : (p.call i c).channel = p.channel := channel_foldl_call (s := p) [c]
    exact ih (fun c' hc' => hchannel ▸ hrest c' hc') (interest_call_owned hc h)

/-- Changes to a channel that leave it on its fd change no owner. -/
theorem Owned.update (h : p.Owned) {i : ι} {ch : Channel} (hfd : ch.fd_ = (p.channel i).fd_) :
    Owned { p with channel := Function.update p.channel i ch } := by
  intro fd x hx
  by_cases hi : x.2 = i
  · have hown := h fd x hx
    rw [hi] at hown ⊢
    exact (congrArg Channel.fd_ (Function.update_self ..)).trans (hfd.trans hown)
  · exact (congrArg Channel.fd_ (Function.update_of_ne hi ..)).trans (h fd x hx)

theorem Owned.exec (h : p.Owned) (i : ι) (op : ChannelOp) : (p.exec (i, op)).Owned := by
  have hself : Function.update p.channel i (op.run (p.channel i)).1 i = (op.run (p.channel i)).1 :=
    Function.update_self ..
  have hfd : (op.run (p.channel i)).1.fd_ = (p.channel i).fd_ := fd_run (p.channel i)
  refine owned_foldl_call _ (fun c hc => ?_) (h.update hfd)
  rw [fd_of_mem_run _ hc, ← hfd]
  exact congrArg Channel.fd_ hself.symm

/-- Other fds stay in the interest set as they are. -/
theorem interest_exec_other {i : ι} {op : ChannelOp} {fd : Int} (hfd : fd ≠ (p.channel i).fd_) :
    (p.exec (i, op)).interest fd = p.interest fd :=
  (foldl_call_other (s := { p with
    channel := Function.update p.channel i (op.run (p.channel i)).1 }) _ fun c hc heq =>
      hfd (by rw [← heq, fd_of_mem_run _ hc])).2

/-- A poll writes to the `revents_` of the channels and to nothing else. -/
theorem fillActiveChannels_eq (events : List (EpollEvent ι)) (active : List ι) :
    ∃ revents : ι → EventMask, (p.fillActiveChannels events active).1 =
      { p with channel := fun i => { p.channel i with revents_ := revents i } } := by
  unfold fillActiveChannels
  induction events generalizing p active with
  | nil => exact ⟨fun i => (p.channel i).revents_, rfl⟩
  | cons e es ih =>
    obtain ⟨revents, heq⟩ := @ih (p.setChannel e.ptr ((p.channel e.ptr).set_events e.events))
      (active ++ [e.ptr])
    refine ⟨revents, heq.trans ?_⟩
    congr 1
    funext i
    by_cases hi : i = e.ptr
    · subst hi
      simp [setChannel, Channel.set_events]
    · simp [setChannel, hi]

end PollerSystem

namespace PollQueue
variable {ι : Type*} [DecidableEq ι]

/-- What every run keeps. -/
structure Inv (s : PollQueue ι) : Prop where
  distinct : s.poller.Distinct
  coherent : s.poller.Coherent
  owned : s.poller.Owned
  nodup : s.ready.Nodup
  watched : ∀ fd ∈ s.ready, s.watches fd = true
  size : ∃ k, s.events_.length = 2 ^ (k + 4)
  wild : s.wild = false

section Poll
variable {s : PollQueue ι} {revents : Int → EventMask} {events : List (EpollEvent ι)}

theorem inv_new {fd : ι → Int} (hfd : Function.Injective fd) : (new fd).Inv where
  distinct := hfd
  coherent := PollerSystem.registration_coherent hfd []
  owned := by simp [new, PollerSystem.new, PollerSystem.Owned]
  nodup := List.nodup_nil
  watched := by simp [new]
  size := ⟨0, by simp [new, kInitEventListSize]⟩
  wild := rfl

/-- The entries for fds in the interest set: one each, with the channel on it. -/
theorem entries_spec (h : s.Inv) {fds : List Int} (hfds : ∀ fd ∈ fds, s.watches fd = true) :
    (fds.filterMap (s.entry revents)).map (fun e => (s.poller.channel e.ptr).fd_) = fds ∧
      ∀ e ∈ fds.filterMap (s.entry revents),
        e.events = revents (s.poller.channel e.ptr).fd_ ∧ s.poller.hasChannel e.ptr = true := by
  induction fds with
  | nil => exact ⟨rfl, by simp⟩
  | cons fd fds ih =>
    obtain ⟨hfd, hrest⟩ := List.forall_mem_cons.mp hfds
    obtain ⟨hmap, hall⟩ := ih hrest
    obtain ⟨x, hx⟩ := Option.isSome_iff_exists.mp hfd
    have hown := h.owned fd x hx
    have hentry : s.entry revents fd = some ⟨revents fd, x.2⟩ := by simp [entry, hx]
    rw [List.filterMap_cons, hentry]
    refine ⟨by simp [hmap, hown], fun e he => ?_⟩
    rcases List.mem_cons.mp he with rfl | he
    · refine ⟨by rw [hown], (h.coherent.channels x.2).hasChannel.mpr fun hnew => ?_⟩
      -- a channel in the interest set is an added one
      have hinterest := (h.coherent.channels x.2).interest
      rw [hown, hx, hnew] at hinterest
      cases hinterest
    · exact hall e he

/-- A poll that reports something. -/
theorem poll_reported (hle : events.length ≤ s.events_.length) (hne : events ≠ []) :
    ∃ entries, s.poll (.ok events) =
        { s with
          poller := (s.poller.fillActiveChannels events []).1
          events_ := entries
          reports := s.reports ++ [events.map EpollEvent.ptr] } ∧
      entries.length =
        if events.length = s.events_.length then 2 * s.events_.length else s.events_.length := by
  have hlength : (events.map some ++ s.events_.drop events.length).length = s.events_.length := by
    simp only [List.length_append, List.length_map, List.length_drop]
    omega
  have hfilled := (s.poller.fillActiveChannels_spec events []).2
  rw [List.nil_append] at hfilled
  simp only [poll, fillActiveChannels, List.length_pos_iff.mpr hne, if_true, readEntries_append,
    hlength, hfilled]
  split
  · refine ⟨_, rfl, ?_⟩
    simp only [List.length_append, List.length_replicate, hlength]
    omega
  · exact ⟨_, rfl, hlength⟩

/-- The size is a power of two; as an `int` it is itself, or not positive. -/
theorem Inv.size_lt (h : s.Inv) (hpos : 0 < staticCastInt s.events_.length) :
    s.events_.length < 2 ^ 31 := by
  obtain ⟨k, hk⟩ := h.size
  rw [hk] at hpos ⊢
  exact staticCastInt_pow hpos

/-- The entries of the poll that comes next. -/
def batch (s : PollQueue ι) (revents : Int → EventMask) : List (EpollEvent ι) :=
  (s.ready.take s.events_.length).filterMap (s.entry revents)

theorem Inv.batch_spec (h : s.Inv) (revents : Int → EventMask) :
    (s.batch revents).map (fun e => (s.poller.channel e.ptr).fd_) =
        s.ready.take s.events_.length ∧
      ∀ e ∈ s.batch revents,
        e.events = revents (s.poller.channel e.ptr).fd_ ∧ s.poller.hasChannel e.ptr = true :=
  entries_spec h fun fd hfd => h.watched fd (List.mem_of_mem_take hfd)

theorem Inv.length_batch (h : s.Inv) (revents : Int → EventMask) :
    (s.batch revents).length = min s.events_.length s.ready.length := by
  have hmap := congrArg List.length (h.batch_spec revents).1
  rwa [List.length_map, List.length_take] at hmap

/-- **What a poll can do.**  It is refused for its size; nothing is ready; or it reports
those at the front, and the others come nearer. -/
theorem exec_poll_cases (h : s.Inv) (revents : Int → EventMask) :
    (staticCastInt s.events_.length ≤ 0 ∧
      s.exec (.poll revents) = { s with errors := s.errors ++ [.EINVAL] }) ∨
    (s.ready = [] ∧ s.exec (.poll revents) = s) ∨
    (s.ready ≠ [] ∧ s.events_.length < 2 ^ 31 ∧ ∃ entries,
      s.exec (.poll revents) =
        { s with
          poller := (s.poller.fillActiveChannels (s.batch revents) []).1
          events_ := entries
          ready := RoundRobin.step s.ready (.serve s.events_.length)
          reports := s.reports ++ [(s.batch revents).map EpollEvent.ptr] } ∧
      entries.length =
        if s.events_.length ≤ s.ready.length then 2 * s.events_.length
        else s.events_.length) := by
  by_cases hpos : staticCastInt s.events_.length ≤ 0
  · refine Or.inl ⟨hpos, ?_⟩
    have hzero : (staticCastInt s.events_.length).toNat = 0 := Int.toNat_of_nonpos hpos
    simp [exec, epoll_wait, hpos, poll, hzero, RoundRobin.step, Errno.EINVAL, Errno.EINTR]
  · have hlt := h.size_lt (Int.not_le.mp hpos)
    have hcast := staticCastInt_of_lt hlt
    have hwait : s.epoll_wait (staticCastInt s.events_.length) revents = .ok (s.batch revents) := by
      rw [epoll_wait, if_neg hpos, hcast]
      rfl
    have hlength := h.length_batch revents
    obtain ⟨k, hk⟩ := h.size
    have hsize : 0 < s.events_.length := hk ▸ Nat.pow_pos (by decide)
    refine Or.inr ?_
    by_cases hready : s.ready = []
    · refine Or.inl ⟨hready, ?_⟩
      have hnil : s.batch revents = [] := by simp [batch, hready]
      have hstep : ∀ n, RoundRobin.step s.ready (.serve n) = s.ready := fun n => by
        simp [hready, RoundRobin.step]
      rw [exec, hwait, hnil, hstep]
      rfl
    · refine Or.inr ⟨hready, hlt, ?_⟩
      have hne : s.batch revents ≠ [] := fun hnil => by
        have hlen := List.length_pos_iff.mpr hready
        rw [hnil, List.length_nil] at hlength
        omega
      have hle : (s.batch revents).length ≤ s.events_.length := by omega
      obtain ⟨entries, hpoll, hentries⟩ := poll_reported hle hne
      refine ⟨entries, by rw [exec, hwait, hpoll, hcast]; rfl, ?_⟩
      rw [hentries]
      refine if_congr ?_ rfl rfl
      omega

/-- A setter touches the fd of its own channel. -/
theorem Inv.owner (h : s.Inv) (i : ι) (op : ChannelOp) : (s.exec (.owner i op)).Inv := by
  have hdistinct : (s.poller.exec (i, op)).Distinct := PollerSystem.distinct_exec h.distinct
  have hcoherent : (s.poller.exec (i, op)).Coherent :=
    PollerSystem.coherent_exec h.distinct h.coherent
  have hother : ∀ fd ∈ s.ready, fd ≠ (s.poller.channel i).fd_ →
      ((s.poller.exec (i, op)).interest fd).isSome = true := fun fd hfd hne => by
    rw [PollerSystem.interest_exec_other hne]
    exact h.watched fd hfd
  rw [PollQueue.exec]
  split
  · rename_i hfd
    refine ⟨hdistinct, hcoherent, h.owned.exec i op, h.nodup, fun fd' hfd' => ?_, h.size, h.wild⟩
    by_cases hne : fd' = (s.poller.channel i).fd_
    · rw [hne]
      exact hfd
    · exact hother fd' hfd' hne
  · refine ⟨hdistinct, hcoherent, h.owned.exec i op, h.nodup.erase _, fun fd' hfd' => ?_, h.size,
      h.wild⟩
    have hne : fd' ≠ (s.poller.channel i).fd_ := fun heq => h.nodup.not_mem_erase (heq ▸ hfd')
    exact hother fd' (List.mem_of_mem_erase hfd') hne

/-- A poll reorders those that are ready, and doubles `events_` or leaves its size. -/
theorem Inv.poll (h : s.Inv) (revents : Int → EventMask) : (s.exec (.poll revents)).Inv := by
  rcases exec_poll_cases h revents with ⟨-, heq⟩ | ⟨-, heq⟩ | ⟨-, -, entries, heq, hlength⟩
  · rw [heq]
    exact ⟨h.distinct, h.coherent, h.owned, h.nodup, h.watched, h.size, h.wild⟩
  · rwa [heq]
  · obtain ⟨r, hfill⟩ := PollerSystem.fillActiveChannels_eq (p := s.poller) (s.batch revents) []
    have hcoherent : PollerSystem.Coherent
        { s.poller with channel := fun i => { s.poller.channel i with revents_ := r i } } :=
      ⟨fun i => ⟨(h.coherent.channels i).hasChannel, (h.coherent.channels i).interest⟩,
        h.coherent.failed⟩
    obtain ⟨k, hk⟩ := h.size
    rw [heq, hfill]
    refine ⟨h.distinct, hcoherent, h.owned, RoundRobin.nodup_step h.nodup (.serve _),
      fun fd hfd => h.watched fd ?_, ?_, h.wild⟩
    · rcases List.mem_append.mp hfd with hmem | hmem
      · exact List.mem_of_mem_drop hmem
      · exact List.mem_of_mem_take hmem
    · show ∃ k, entries.length = _
      rw [hlength, hk]
      split
      · exact ⟨k + 1, Nat.pow_succ'.symm⟩
      · exact ⟨k, rfl⟩

theorem Inv.exec (h : s.Inv) (a : PollAction ι) : (s.exec a).Inv := by
  obtain ⟨hdistinct, hcoherent, howned, hnodup, hwatched, hsize, hwild⟩ := id h
  cases a with
  | arrive fd =>
    by_cases hfd : s.watches fd = true
    · rw [PollQueue.exec, if_pos hfd]
      refine ⟨hdistinct, hcoherent, howned, RoundRobin.nodup_step hnodup (.arrive fd),
        fun fd' hfd' => ?_, hsize, hwild⟩
      rcases RoundRobin.step_arrive s.ready fd with heq | ⟨-, heq⟩
      · exact hwatched fd' (heq ▸ hfd')
      · rcases List.mem_append.mp (heq ▸ hfd') with hmem | hmem
        · exact hwatched fd' hmem
        · exact (List.mem_singleton.mp hmem) ▸ hfd
    · rwa [PollQueue.exec, if_neg hfd]
  | settle fd =>
    exact ⟨hdistinct, hcoherent, howned, RoundRobin.nodup_step hnodup (.leave fd),
      fun fd' hfd' => hwatched fd' (List.mem_of_mem_erase hfd'), hsize, hwild⟩
  | owner i op => exact h.owner i op
  | poll revents => exact h.poll revents
  | fail e =>
    rw [PollQueue.exec, PollQueue.poll]
    split
    · exact ⟨hdistinct, hcoherent, howned, hnodup, hwatched, hsize, hwild⟩
    · exact h

theorem inv_run {fd : ι → Int} (hfd : Function.Injective fd) (as : List (PollAction ι)) :
    (as.foldl exec (new fd)).Inv :=
  invariant (D := fun _ => True) (inv_new hfd) (fun _ a _ h => h.exec a) as fun _ _ => trivial

/-- `events_` grows only when a poll has filled it. -/
theorem length_exec (h : s.Inv) (a : PollAction ι) :
    (s.exec a).events_.length = s.events_.length ∨
      s.events_.length ≤ s.ready.length ∧
        (s.exec a).events_.length = 2 * s.events_.length := by
  cases a with
  | arrive fd | owner i op =>
    refine Or.inl ?_
    rw [PollQueue.exec]
    split <;> rfl
  | settle fd => exact Or.inl rfl
  | poll revents =>
    rcases exec_poll_cases h revents with ⟨-, heq⟩ | ⟨-, heq⟩ | ⟨-, -, entries, heq, hlength⟩
    · exact Or.inl (by rw [heq])
    · exact Or.inl (by rw [heq])
    · rw [heq]
      by_cases hfull : s.events_.length ≤ s.ready.length
      · exact Or.inr ⟨hfull, hlength.trans (if_pos hfull)⟩
      · exact Or.inl (hlength.trans (if_neg hfull))
  | fail e =>
    refine Or.inl ?_
    rw [PollQueue.exec, PollQueue.poll]
    split <;> rfl

/-- If never more than `n` fds are ready, `events_` does not outgrow twice as many. -/
theorem length_run {fd : ι → Int} (hfd : Function.Injective fd) {n : Nat}
    {as : List (PollAction ι)}
    (hready : Always PollQueue.exec (fun t => t.ready.length ≤ n) (new fd) as) :
    (as.foldl PollQueue.exec (new fd)).events_.length ≤ max kInitEventListSize (2 * n) := by
  induction as using List.reverseRecOn with
  | nil => exact Nat.le_trans (Nat.le_of_eq (List.length_replicate ..)) (Nat.le_max_left _ _)
  | append_singleton as a ih =>
    obtain ⟨has, -⟩ := (always_concat as a).mp hready
    rw [List.foldl_append]
    rcases length_exec (inv_run hfd as) a with heq | ⟨hle, heq⟩
    · exact Nat.le_trans (Nat.le_of_eq heq) (ih has)
    · have hn := has.last
      exact Nat.le_trans (Nat.le_of_eq heq)
        (Nat.le_trans (Nat.mul_le_mul_left 2 (Nat.le_trans hle hn)) (Nat.le_max_right _ _))

/-- **What a poll reports.**  In every reachable state, with fewer than `2 ^ 30` fds ready at a
time: `events_` has room for the call that is made of it; the entries read are those the
kernel has just written; and the channels handed to the loop are those at the front of the
kernel's list, each once, in its order, registered, and with its own events. -/
theorem poll_reports (revents : Int → EventMask) {fd : ι → Int} (hfd : Function.Injective fd)
    {n : Nat} (hn : n < 2 ^ 30)
    {as : List (PollAction ι)}
    (hready : Always PollQueue.exec (fun t => t.ready.length ≤ n) (new fd) as)
    (hs : s = as.foldl PollQueue.exec (new fd)) (hs' : s' = s.exec (.poll revents)) :
    staticCastInt s.events_.length = s.events_.length ∧
      s.events_.length ≤ max kInitEventListSize (2 * n) ∧ s'.wild = false ∧
      ∃ active, s'.reports = s.reports ++ (if s.ready = [] then [] else [active]) ∧
        active.map (fun i => (s.poller.channel i).fd_) = s.ready.take s.events_.length ∧
        active.Nodup ∧ ∀ i ∈ active, s'.poller.hasChannel i = true ∧
          (s'.poller.channel i).revents_ = revents (s.poller.channel i).fd_ := by
  have hinv : s.Inv := hs ▸ inv_run hfd as
  have hbound : s.events_.length ≤ max kInitEventListSize (2 * n) := hs ▸ length_run hfd hready
  have hlt : s.events_.length < 2 ^ 31 := by
    refine Nat.lt_of_le_of_lt hbound (Nat.max_lt.mpr ⟨by decide, by omega⟩)
  have hcast := staticCastInt_of_lt hlt
  obtain ⟨hmap, hentries⟩ := hinv.batch_spec revents
  have hptrs : ((s.batch revents).map EpollEvent.ptr).Nodup := by
    refine List.Nodup.of_map (fun i => (s.poller.channel i).fd_) ?_
    rw [List.map_map]
    exact hmap ▸ hinv.nodup.sublist (List.take_sublist _ _)
  refine ⟨hcast, hbound, hs' ▸ (hinv.exec _).wild, (s.batch revents).map EpollEvent.ptr, ?_, ?_,
    hptrs, ?_⟩
  · rcases exec_poll_cases hinv revents with ⟨hneg, -⟩ | ⟨hnone, heq⟩ | ⟨hsome, -, entries, heq, -⟩
    · obtain ⟨k, hk⟩ := hinv.size
      have hpos : 0 < s.events_.length := hk ▸ Nat.pow_pos (by decide)
      omega
    · rw [hs', heq, if_pos hnone, List.append_nil]
    · rw [hs', heq, if_neg hsome]
  · rw [List.map_map]
    exact hmap
  · intro i hi
    obtain ⟨e, he, rfl⟩ := List.mem_map.mp hi
    obtain ⟨hevents, hhas⟩ := hentries e he
    have hpoller : s'.poller = (s.poller.fillActiveChannels (s.batch revents) []).1 := by
      rcases exec_poll_cases hinv revents with ⟨hneg, -⟩ | ⟨hnone, -⟩ | ⟨-, -, entries, heq, -⟩
      · obtain ⟨k, hk⟩ := hinv.size
        have hpos : 0 < s.events_.length := hk ▸ Nat.pow_pos (by decide)
        omega
      · simp [batch, hnone] at he
      · rw [hs', heq]
    rw [hpoller]
    refine ⟨?_, ?_⟩
    · obtain ⟨r, hfill⟩ := PollerSystem.fillActiveChannels_eq (p := s.poller) (s.batch revents) []
      rw [hfill]
      exact hhas
    · rw [PollerSystem.revents_fillActiveChannels _ _ hptrs e he]
      exact hevents

/-- Two channels; only one of them is ready. -/
theorem poll_reports_one : ∃ s s' : PollQueue Bool,
    s = [.owner false .enableReading, .owner true .enableReading, .arrive 6].foldl PollQueue.exec
      (new fun b => if b then 6 else 5) ∧
    s' = s.exec (.poll fun _ => EPOLLIN) ∧ s'.reports = [[true]] ∧
    s'.wild = false ∧ s.events_.length ≤ 16 := by
  have hinj : Function.Injective fun b : Bool => if b then (6 : Int) else 5 := by
    intro a b
    revert a b
    decide
  have hready : Always PollQueue.exec (fun t => t.ready.length ≤ 1)
      (new fun b => if b then (6 : Int) else 5)
      [.owner false .enableReading, .owner true .enableReading, .arrive 6] := by
    refine (always_concat [_, _] _).mpr ⟨(always_concat [_] _).mpr
      ⟨(always_singleton _).mpr ⟨?_, ?_⟩, ?_⟩, ?_⟩ <;> decide
  obtain ⟨-, hbound, hwild, -⟩ := poll_reports (fun _ => EPOLLIN) hinj (by decide) hready rfl rfl
  exact ⟨_, _, rfl, rfl, by decide, hwild, hbound⟩

end Poll

/-! ## Round robin -/

/-- What an action is for those that are ready. -/
def event (s : PollQueue ι) : PollAction ι → RoundRobin.Event Int
  | .arrive fd => if s.watches fd then .arrive fd else .serve 0
  | .settle fd => .leave fd
  | .owner i op =>
    if watches { s with poller := s.poller.exec (i, op) } (s.poller.channel i).fd_ then .serve 0
    else .leave (s.poller.channel i).fd_
  | .poll _ => .serve (staticCastInt s.events_.length).toNat
  | .fail _ => .serve 0

/-- The events of a run. -/
def eventsAlong : PollQueue ι → List (PollAction ι) → List (RoundRobin.Event Int)
  | _, [] => []
  | s, a :: as => s.event a :: eventsAlong (s.exec a) as

/-- From `s` to `s'` those that were ready have been through `es`; whoever was served has
been reported, and every report was as long as `events_`. -/
structure Serves (s : PollQueue ι) (es : List (RoundRobin.Event Int)) (s' : PollQueue ι) :
    Prop where
  fd : ∀ i, (s'.poller.channel i).fd_ = (s.poller.channel i).fd_
  size : s.events_.length ≤ s'.events_.length
  reports : ∃ new, s'.reports = s.reports ++ new ∧
    new.length * s.events_.length ≤ RoundRobin.widths es ∧
    ∀ fd ∈ RoundRobin.servedAlong s.ready es, ∃ active ∈ new, ∃ i ∈ active,
      (s.poller.channel i).fd_ = fd

section Fairness
variable {s s' s'' : PollQueue ι} {e : RoundRobin.Event Int} {es : List (RoundRobin.Event Int)}

omit [DecidableEq ι] in
/-- A step that reports nothing. -/
theorem Serves.silent (hfd : ∀ i, (s'.poller.channel i).fd_ = (s.poller.channel i).fd_)
    (hsize : s'.events_ = s.events_) (hreports : s'.reports = s.reports)
    (hserved : e.served s.ready = []) : s.Serves [e] s' where
  fd := hfd
  size := Nat.le_of_eq (congrArg List.length hsize.symm)
  reports := by
    have hnone : RoundRobin.servedAlong s.ready [e] = [] := (List.append_nil _).trans hserved
    exact ⟨[], by simpa using hreports, by simp, by simp [hnone]⟩

/-- **One action** is one event for those that are ready. -/
theorem exec_serves (h : s.Inv) (a : PollAction ι) :
    (s.exec a).ready = RoundRobin.step s.ready (s.event a) ∧ s.Serves [s.event a] (s.exec a) := by
  have hzero : ∀ l : List Int, RoundRobin.step l (.serve 0) = l := fun l => by
    simp [RoundRobin.step]
  cases a with
  | arrive fd =>
    by_cases hfd : s.watches fd = true
    · simp only [exec, event, if_pos hfd]
      exact ⟨trivial, .silent (fun _ => rfl) rfl rfl rfl⟩
    · simp only [exec, event, if_neg hfd]
      exact ⟨(hzero _).symm, .silent (fun _ => rfl) rfl rfl rfl⟩
  | settle fd => exact ⟨rfl, .silent (fun _ => rfl) rfl rfl rfl⟩
  | owner i op =>
    have hfd : ∀ j, ((s.poller.exec (i, op)).channel j).fd_ = (s.poller.channel j).fd_ :=
      fun j => PollerSystem.fd_exec
    by_cases hw : watches { s with poller := s.poller.exec (i, op) } (s.poller.channel i).fd_ = true
    · simp only [exec, event, if_pos hw]
      exact ⟨(hzero _).symm, .silent hfd rfl rfl rfl⟩
    · simp only [exec, event, if_neg hw]
      exact ⟨rfl, .silent hfd rfl rfl rfl⟩
  | poll revents =>
    rcases exec_poll_cases h revents with ⟨hneg, heq⟩ | ⟨hready, heq⟩ |
      ⟨hready, hlt, entries, heq, hlength⟩
    · have htoNat : (staticCastInt s.events_.length).toNat = 0 := Int.toNat_of_nonpos hneg
      rw [heq, event, htoNat]
      exact ⟨(hzero _).symm, .silent (fun _ => rfl) rfl rfl rfl⟩
    · rw [heq, event, hready]
      exact ⟨by simp [RoundRobin.step], .silent (fun _ => rfl) rfl rfl (by simp [hready])⟩
    · have htoNat : (staticCastInt s.events_.length).toNat = s.events_.length := by
        rw [staticCastInt_of_lt hlt]
        rfl
      obtain ⟨r, hfill⟩ := PollerSystem.fillActiveChannels_eq (p := s.poller) (s.batch revents) []
      rw [heq, event, htoNat, hfill]
      refine ⟨rfl, fun _ => rfl, ?_, [_], rfl, by simp [RoundRobin.widths], fun fd hfd => ?_⟩
      · show _ ≤ entries.length
        rw [hlength]
        split <;> omega
      · simp only [RoundRobin.servedAlong, RoundRobin.Event.served, List.append_nil] at hfd
        rw [← (h.batch_spec revents).1] at hfd
        obtain ⟨e, he, hefd⟩ := List.mem_map.mp hfd
        exact ⟨_, List.mem_singleton_self _, e.ptr, List.mem_map_of_mem he, hefd⟩
  | fail e =>
    refine ⟨?_, ?_⟩
    · rw [event, hzero, exec, poll]
      split <;> rfl
    · rw [exec, poll]
      split <;> exact .silent (fun _ => rfl) rfl rfl rfl

/-- A run is a run of the round robin. -/
theorem run_serves (as : List (PollAction ι)) : ∀ {s : PollQueue ι}, s.Inv →
    s.Serves (s.eventsAlong as) (as.foldl exec s) := by
  induction as with
  | nil => exact fun _ => ⟨fun _ => rfl, Nat.le_refl _, [], by simp, by simp, by
      simp [eventsAlong, RoundRobin.servedAlong]⟩
  | cons a as ih =>
    intro s h
    obtain ⟨hready, hfd, hsize, new, hnew, hwidth, hserved⟩ := exec_serves h a
    obtain ⟨hfd', hsize', new', hnew', hwidth', hserved'⟩ := ih (h.exec a)
    refine ⟨fun i => (hfd' i).trans (hfd i), Nat.le_trans hsize hsize', new ++ new', ?_, ?_,
      fun fd hmem => ?_⟩
    · rw [List.foldl_cons, hnew', hnew, List.append_assoc]
    · have hsum : RoundRobin.widths (s.eventsAlong (a :: as)) =
          RoundRobin.widths [s.event a] + RoundRobin.widths ((s.exec a).eventsAlong as) := by
        simp [RoundRobin.widths, eventsAlong]
      rw [List.length_append, Nat.add_mul, hsum]
      exact Nat.add_le_add hwidth (Nat.le_trans (Nat.mul_le_mul_left _ hsize) hwidth')
    · rcases List.mem_append.mp hmem with hhere | hlater
      · obtain ⟨active, hactive, i, hi, hifd⟩ := hserved fd (by simpa [RoundRobin.servedAlong])
        exact ⟨active, List.mem_append_left _ hactive, i, hi, hifd⟩
      · rw [← hready] at hlater
        obtain ⟨active, hactive, i, hi, hifd⟩ := hserved' fd hlater
        exact ⟨active, List.mem_append_right _ hactive, i, hi, (hfd i).symm.trans hifd⟩

/-- Who is ready all along has not left. -/
theorem stays_along {fd : Int} (as : List (PollAction ι)) : ∀ {s : PollQueue ι}, s.Inv →
    Always exec (fun t => fd ∈ t.ready) s as → ∀ e ∈ s.eventsAlong as, e ≠ .leave fd := by
  induction as with
  | nil => simp [eventsAlong]
  | cons a as ih =>
    intro s h halways
    obtain ⟨hfirst, hrest⟩ := (always_append [a] as).mp halways
    refine List.forall_mem_cons.mpr ⟨fun hleave => ?_, ih (h.exec a) hrest⟩
    have hmem : fd ∈ (s.exec a).ready := hfirst.last
    rw [(exec_serves h a).1, hleave] at hmem
    exact h.nodup.not_mem_erase hmem

/-- **No channel starves.**  From any reachable state on, and whatever else becomes ready, is
no longer ready or is set up differently: a channel whose fd stays ready is reported as soon
as the polls that report something have reported as many as were ahead of it. -/
theorem no_starvation {fd : ι → Int} (hfd : Function.Injective fd) (as bs : List (PollAction ι))
    (i : ι) (hs : s = as.foldl exec (new fd)) (hs' : s' = bs.foldl exec s)
    (hready : Always exec (fun t => fd i ∈ t.ready) s bs)
    (hpolls : s.ready.idxOf (fd i) < (s'.reports.length - s.reports.length) * s.events_.length) :
    ∃ active ∈ s'.reports.drop s.reports.length, i ∈ active := by
  subst hs'
  have hinv : s.Inv := hs ▸ inv_run hfd as
  have hsame : ∀ j, (s.poller.channel j).fd_ = fd j := hs ▸ (run_serves as (inv_new hfd)).fd
  obtain ⟨-, -, new, hnew, hwidth, hserved⟩ := run_serves bs hinv
  rw [hnew, List.length_append, Nat.add_sub_cancel_left] at hpolls
  have hmem := RoundRobin.mem_servedAlong (hready [] List.nil_prefix)
    (stays_along bs hinv hready) (Nat.lt_of_lt_of_le hpolls hwidth)
  obtain ⟨active, hactive, j, hj, hjfd⟩ := hserved _ hmem
  rw [hsame] at hjfd
  refine ⟨active, ?_, hfd hjfd ▸ hj⟩
  rw [hnew, List.drop_left]
  exact hactive

end Fairness

/-! ## Seventeen channels -/

/-- Channels on the fds from 3 on are made readable one after the other, and their fds become
ready in this order. -/
def crowd (n : Nat) : List (PollAction (Fin n)) :=
  (List.finRange n).map (fun i => .owner i .enableReading) ++
    (List.finRange n).map fun i => .arrive (i.val + 3)

theorem fd_injective (n : Nat) : Function.Injective fun i : Fin n => (i.val : Int) + 3 := by
  intro i j h
  simp only at h
  exact Fin.ext (by omega)

/-- One more channel than fits: it is not in the first report. -/
theorem no_starvation_crowd : ∃ s s' : PollQueue (Fin 17),
    s = (crowd 17).foldl exec (new fun i => i.val + 3) ∧
    s' = [.poll fun _ => EPOLLIN, .poll fun _ => EPOLLIN].foldl exec s ∧
    s'.reports.map List.length = [16, 17] ∧ (∀ active ∈ s'.reports.take 1, 16 ∉ active) ∧
    ∃ active ∈ s'.reports, (16 : Fin 17) ∈ active := by
  refine ⟨_, _, rfl, rfl, by decide +kernel, by decide +kernel, ?_⟩
  have hreported := no_starvation (fd_injective 17) (crowd 17)
    [.poll fun _ => EPOLLIN, .poll fun _ => EPOLLIN] 16 rfl rfl ?_ (by decide +kernel)
  · obtain ⟨active, hactive, hmem⟩ := hreported
    exact ⟨active, List.mem_of_mem_drop hactive, hmem⟩
  · refine (always_concat [_] _).mpr ⟨(always_singleton _).mpr ⟨?_, ?_⟩, ?_⟩ <;> decide +kernel

end PollQueue
end Mymuduo
