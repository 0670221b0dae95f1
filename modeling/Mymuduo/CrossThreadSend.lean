import Mymuduo.ConnectionSystem

/-! # A send from another thread

A `send` from a thread other than the loop's should hand over the contents its
string has at the call.  What it binds into the functor is `buf.c_str()`: the
functor reads whatever is there when it runs.  So the contents arrive in every
run in which the callers leave a string alone, after `send` has returned, until
the functor has run; in the others the functor sends other bytes, or reads memory
that is not allocated any more.
-/
namespace Mymuduo
open Transition

/-- The functor did what `sendInLoop` does with the contents at the call. -/
def Delivery.Faithful (d : Delivery) : Prop :=
  d.outcome = some (d.conn.sendInLoop d.contents d.answer)

namespace ConnectionSystem

/-- A store that does not change a cell to which a queued `sendInLoop` points. -/
def StringsLeftAlone (s : ConnectionSystem) : ServiceAction → Prop
  | .store p v => ∀ buf len contents, .sendInLoop buf len contents ∈ s.queue →
      p < buf ∨ buf + len ≤ p ∨ v = s.memory p
  | _ => True

/-- Every string of a `send` under way or queued still has its contents, and every
functor that ran has delivered them. -/
structure Intact (s : ConnectionSystem) : Prop where
  queued : ∀ buf len contents, .sendInLoop buf len contents ∈ s.queue →
    s.memory.load buf len = some contents
  sending : ∀ t buf len contents, s.users t = .sending buf len contents →
    s.memory.load buf len = some contents
  delivered : ∀ d ∈ s.deliveries, d.Faithful

/-- Only a store changes the memory, and it misses the strings of the calls under
way. -/
theorem Step.memory_cases {s s' : ConnectionSystem} {a : ServiceAction} (h : Step s a s') :
    s'.memory = s.memory ∨
      ∃ p v, a = .store p v ∧ s'.memory = s.memory.store p v ∧
        ∀ t buf len contents, s.users t = .sending buf len contents →
          p < buf ∨ buf + len ≤ p := by
  cases h with
  | store p v hout => exact Or.inr ⟨p, v, rfl, rfl, hout⟩
  | callback h op => exact Or.inl (s.memory_perform op)
  | connectEstablished | destroy | shutdownInLoop | sendHere | shutdownStore =>
    exact Or.inl (s.memory_perform _)
  | sendInLoop => exact Or.inl (s.memory_perform _)
  | shutdownHere => exact Or.inl ((memory_perform _ _).trans (s.memory_perform _))
  | _ => exact Or.inl rfl

/-- A thread gets into `send` with a string that is there. -/
theorem Step.sending {s s' : ConnectionSystem} {a : ServiceAction} (h : Step s a s') {u : Tid}
    {buf len : Nat} {contents : List UInt8} (hu : s'.users u = .sending buf len contents) :
    s.users u = .sending buf len contents ∨
      (s.memory.load buf len = some contents ∧ s'.memory = s.memory) := by
  cases h with
  | sendCheck ht h hst buf' len' contents' hload =>
    rw [setUser_apply] at hu
    split at hu
    · cases hu
      exact Or.inr ⟨hload, rfl⟩
    · exact Or.inl hu
  | sendQueue | shutdownCheck | shutdownStore | shutdownQueue =>
    rw [setUser_apply] at hu
    split at hu
    · cases hu
    · exact Or.inl (by simpa [queueInLoop] using hu)
  | shutdownHere | callback | connectEstablished | destroy | sendInLoop | shutdownInLoop
  | sendHere =>
    simp only [setPc, users_perform] at hu
    exact Or.inl hu
  | _ => exact Or.inl hu

/-- A delivery is made from the string of a queued `sendInLoop`. -/
theorem Step.deliveries_cases {s s' : ConnectionSystem} {a : ServiceAction} (h : Step s a s') :
    s'.deliveries = s.deliveries ∨
      ∃ buf len contents wa, .sendInLoop buf len contents ∈ s.queue ∧
        s'.deliveries = s.deliveries ++ [⟨s.run.conn, wa, contents,
          (s.memory.load buf len).map fun bytes => s.run.conn.sendInLoop bytes wa⟩] := by
  cases h with
  | sendInLoop h data wa =>
    exact Or.inr ⟨_, _, _, _, by simp [queue, h, ServicePc.rest], rfl⟩
  | callback h op => exact Or.inl (s.deliveries_perform op)
  | connectEstablished | destroy | shutdownInLoop | sendHere | shutdownStore =>
    exact Or.inl (s.deliveries_perform _)
  | shutdownHere => exact Or.inl ((deliveries_perform _ _).trans (s.deliveries_perform _))
  | _ => exact Or.inl rfl

theorem intact_step {s s' : ConnectionSystem} {a : ServiceAction} (hs : Intact s)
    (h : Step s a s') (hQ : StringsLeftAlone s a) : Intact s' := by
  obtain ⟨hqueued, hsending, hdelivered⟩ := hs
  have hload : ∀ buf len contents, .sendInLoop buf len contents ∈ s.queue ∨
      (∃ t, s.users t = .sending buf len contents) → s'.memory.load buf len = some contents := by
    intro buf len contents hor
    have hold : s.memory.load buf len = some contents :=
      hor.elim (hqueued buf len contents) fun ⟨t, ht⟩ => hsending t buf len contents ht
    rcases h.memory_cases with hm | ⟨p, v, rfl, hm, hout⟩ <;> rw [hm]
    · exact hold
    · rw [Memory.load_store, hold]
      rcases hor with hf | ⟨t, ht⟩
      · exact hQ buf len contents hf
      · exact (hout t buf len contents ht).imp_right Or.inl
  refine ⟨?_, ?_, ?_⟩
  · intro buf len contents hf
    rcases h.mem_queue hf with hf | (⟨n, hf⟩ | ⟨hf, -⟩) | ⟨t, _, _, _, hf, ht⟩ | ⟨t, hf, -⟩
    · exact hload _ _ _ (Or.inl hf)
    · cases hf
    · cases hf
    · cases hf
      exact hload _ _ _ (Or.inr ⟨t, ht⟩)
    · cases hf
  · intro t buf len contents ht
    rcases h.sending ht with ht | ⟨hl, hm⟩
    · exact hload _ _ _ (Or.inr ⟨t, ht⟩)
    · rw [hm]
      exact hl
  · intro d hd
    rcases h.deliveries_cases with hds | ⟨buf, len, contents, wa, hmem, hds⟩ <;> rw [hds] at hd
    · exact hdelivered d hd
    · rcases List.mem_append.mp hd with hd | hd
      · exact hdelivered d hd
      · obtain rfl := List.mem_singleton.mp hd
        rw [Delivery.Faithful, hqueued _ _ _ hmem]
        rfl

/-- **A send from another thread delivers its contents**, in every run in which the
strings of queued sends are left alone until their functors have run. -/
theorem cross_thread_send_faithful {tid : Tid} {conn : TcpConnection} {memory : Memory UInt8}
    {as : List ServiceAction} {s : ConnectionSystem}
    (h : Run (Meeting Step StringsLeftAlone) (accepted tid conn memory) as s) :
    ∀ d ∈ s.deliveries, d.Faithful := by
  have hs : Intact s := by
    refine h.invariant ⟨?_, ?_, ?_⟩ fun _ _ _ hs hstep => intact_step hs hstep.1 hstep.2
    · simp [accepted, queue, ServicePc.rest, EventLoop.enqueue, EventLoop.new]
    · simp [accepted]
    · simp [accepted]
  exact hs.delivered

/-- Once the only caller's `send` has returned, no string is in use by a call. -/
theorem idle_after_send {t u : Tid} {pc : UserPc} {p buf len : Nat} {contents : List UInt8}
    (h : Function.update (Function.update (fun _ => UserPc.idle) u pc) u .idle t =
      .sending buf len contents) : p < buf ∨ buf + len ≤ p := by
  rw [Function.update_idem, Function.update_apply] at h
  split at h <;> cases h

/-- Thread 1 sends one byte and frees its string once the functor has run. -/
theorem send_then_free_late : ∃ as, ∃ s : ConnectionSystem,
    Run (Meeting Step StringsLeftAlone)
        (accepted 0 (TcpConnection.new "conn" 5 false false) fun _ => some 104) as s ∧
      s.run.accepted = [104] ∧ s.memory 7 = none ∧ ∀ d ∈ s.deliveries, d.Faithful := by
  have hstart : Run (Meeting Step StringsLeftAlone)
      (accepted 0 (TcpConnection.new "conn" 5 false false) fun _ => some 104) [] _ := .refl
  have hrun := hstart
    |>.meet (.swap rfl) trivial
    |>.meet (.connectEstablished (a := .accept 0) rfl) trivial
    |>.meet (.sendCheck (t := 1) (by decide) rfl rfl 7 1 [104] rfl) trivial
    |>.meet (.sendQueue (t := 1) (by decide) rfl) trivial
    |>.meet (.endBatch rfl) trivial
    |>.meet (.swap rfl) trivial
    |>.meet (.sendInLoop rfl [104] (.accept 1) (by intro bytes h; cases h; rfl)) trivial
    |>.meet (.store 7 none fun _ _ _ _ => idle_after_send) (by
      intro buf len contents hf
      change _ ∈ ([] : List Functor) at hf
      cases hf)
  exact ⟨_, _, hrun, by decide, rfl, cross_thread_send_faithful hrun⟩

/-- Thread 1 sends `h` and then reuses the string for `x`: the functor sends `x`. -/
theorem send_then_reuse : ∃ as, ∃ s : ConnectionSystem,
    Run Step (accepted 0 (TcpConnection.new "conn" 5 false false) fun _ => some 104) as s ∧
      s.run.accepted = [120] ∧ ¬ ∀ d ∈ s.deliveries, d.Faithful := by
  have hstart : Run Step
      (accepted 0 (TcpConnection.new "conn" 5 false false) fun _ => some 104) [] _ := .refl
  have hrun := hstart
    |>.tail (.swap rfl)
    |>.tail (.connectEstablished (a := .accept 0) rfl)
    |>.tail (.sendCheck (t := 1) (by decide) rfl rfl 7 1 [104] rfl)
    |>.tail (.sendQueue (t := 1) (by decide) rfl)
    |>.tail (.store 7 (some 120) fun _ _ _ _ => idle_after_send)
    |>.tail (.endBatch rfl)
    |>.tail (.swap rfl)
    |>.tail (.sendInLoop rfl [120] (.accept 1) (by intro bytes h; cases h; rfl))
  refine ⟨_, _, hrun, by decide, fun h => ?_⟩
  have hd := h _ (List.mem_singleton.mpr rfl)
  exact absurd (congrArg (Option.map fun o => acceptedBytes o.2) hd) (by decide)

end ConnectionSystem
end Mymuduo
