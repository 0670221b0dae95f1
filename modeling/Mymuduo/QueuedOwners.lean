import Mymuduo.ConnectionLifetime

/-! # Queued functors and the owners of their connection

Every functor that targets a connection should find it alive.  `connectEstablished`,
`connectDestroyed` and the notifications bind a shared pointer to it and are owners
themselves.  `sendInLoop` and `shutdownInLoop` bind `this`: once the table has let
go of the connection and the other functors have run, a thread that has called
`send` may hold the last pointer, and give it up before `sendInLoop` has run.
-/
namespace Mymuduo
open Transition

/-- The loop's thread is in `doPendingFunctor`. -/
def ServicePc.inBatch : ServicePc → Bool
  | .batch _ | .destroying _ _ => true
  | _ => false

namespace ConnectionSystem

/-- What a connection queues itself owns it. -/
theorem shared_of_queues {es : List Effect} {f : Functor} (hf : f ∈ es.filterMap Effect.queues) :
    f.shared = true := by
  rcases queues_cases es hf with ⟨n, rfl⟩ | ⟨rfl, -⟩ <;> rfl

/-- **What a step does to `pendingFunctors_`**: the swap empties it; any other step
adds functors that own the connection, or the one functor of a thread in `send` or
`shutdown`. -/
theorem Step.pending_cases {s s' : ConnectionSystem} {a : ServiceAction} (h : Step s a s') :
    (a = .swap ∧ s'.loop = s.loop.swapPending.1) ∨
      (a ≠ .swap ∧ ∃ fs, s'.loop.pendingFunctors_ = s.loop.pendingFunctors_ ++ fs ∧
        ((∀ f ∈ fs, f.shared = true) ∨ ∃ t f, fs = [f] ∧ s.users t ≠ .idle)) := by
  have hperform : ∀ op, ∃ fs, (s.perform op).loop.pendingFunctors_ =
      s.loop.pendingFunctors_ ++ fs ∧ ((∀ f ∈ fs, f.shared = true) ∨
        ∃ t f, fs = [f] ∧ s.users t ≠ .idle) :=
    fun op => ⟨_, s.pending_perform op, Or.inl fun f hf => shared_of_queues hf⟩
  cases h with
  | swap => exact Or.inl ⟨rfl, rfl⟩
  | callback h op => exact Or.inr ⟨by simp, hperform op⟩
  | sendInLoop h data a => exact Or.inr ⟨by simp, hperform (.sendInLoop data a)⟩
  | connectEstablished | destroy | shutdownInLoop | sendHere | shutdownStore =>
    exact Or.inr ⟨by simp, hperform _⟩
  | shutdownHere =>
    have hpending := (s.perform .setDisconnecting).pending_perform .shutdownInLoop
    rw [s.pending_perform .setDisconnecting, TcpConnection.exec_setDisconnecting,
      List.filterMap_nil, List.append_nil] at hpending
    exact Or.inr ⟨by simp, _, hpending, Or.inl fun f hf => shared_of_queues hf⟩
  | sendQueue ht h | shutdownQueue ht h =>
    exact Or.inr ⟨by simp, _, EventLoop.pending_queueInLoop .., Or.inr ⟨_, _, rfl,
      ne_of_eq_of_ne h (by simp)⟩⟩
  | _ => exact Or.inr ⟨by simp, [], (List.append_nil _).symm, Or.inl (by simp)⟩

/-- The loop's thread leaves `handleEvent` when it has handled the channel. -/
theorem Step.inHandler {s s' : ConnectionSystem} {a : ServiceAction} (h : Step s a s')
    (ha : a ≠ .handled) (hpc : s.pc.inHandler = true) : s'.pc.inHandler = true := by
  cases h with
  | handled => exact absurd rfl ha
  | poll | callback => rfl
  | swap h | connectEstablished h | connectDestroyed h | destroy h | sendInLoop h | shutdownInLoop h
  | notification h | endBatch h =>
    rw [h] at hpc
    cases hpc
  | sendHere | shutdownHere | shutdownStore => simpa [setUser] using hpc
  | _ => exact hpc

/-- A batch begins with a swap and ends with `endBatch`. -/
theorem Step.inBatch {s s' : ConnectionSystem} {a : ServiceAction} (h : Step s a s')
    (ha : a ≠ .endBatch) (hpc : s'.pc.inBatch = false) : s.pc.inBatch = false := by
  cases h with
  | endBatch => exact absurd rfl ha
  | swap | connectEstablished | connectDestroyed | destroy | sendInLoop | shutdownInLoop
  | notification => cases hpc
  | poll h | callback h | handled h =>
    rw [h]
    rfl
  | sendHere | shutdownHere | shutdownStore => simpa [setUser] using hpc
  | _ => exact hpc

/-- A thread is in `send` or `shutdown` since its test of `state_`. -/
theorem Step.callers {s s' : ConnectionSystem} {a : ServiceAction} (h : Step s a s') {u : Tid}
    (hu : s'.users u ≠ .idle) :
    s.users u ≠ .idle ∨ a = .sendCheck u ∨ a = .shutdownCheck u := by
  -- the thread that takes the step, or another one
  have hset : ∀ {s : ConnectionSystem} {t : Tid} {pc : UserPc}, (s.setUser t pc).users u ≠ .idle →
      u = t ∧ pc ≠ .idle ∨ s.users u ≠ .idle := by
    intro s t pc hu
    rw [setUser_apply] at hu
    split at hu
    · exact Or.inl ⟨‹_›, hu⟩
    · exact Or.inr hu
  cases h with
  | sendCheck =>
    rcases hset hu with ⟨rfl, -⟩ | hu
    · exact Or.inr (Or.inl rfl)
    · exact Or.inl hu
  | shutdownCheck =>
    rcases hset hu with ⟨rfl, -⟩ | hu
    · exact Or.inr (Or.inr rfl)
    · exact Or.inl hu
  | sendQueue | shutdownQueue =>
    rcases hset hu with ⟨-, hne⟩ | hu
    · exact absurd rfl hne
    · exact Or.inl hu
  | shutdownStore ht h =>
    rcases hset hu with ⟨rfl, -⟩ | hu
    · exact Or.inl (by simp [h])
    · exact Or.inl (by rwa [← users_perform])
  | callback | connectEstablished | destroy | sendInLoop | shutdownInLoop | sendHere
  | shutdownHere =>
    simp only [setPc, users_perform] at hu
    exact Or.inl hu
  | _ => exact Or.inl hu

end ConnectionSystem

namespace LifetimeSystem

/-- Every functor that exists targets a connection that exists. -/
def Supported (s : LifetimeSystem) : Prop := ∀ f ∈ s.tasks, 1 ≤ s.owners

section State
variable (s : LifetimeSystem)

/-- The number of shared pointers a step gives up: the ones of the batch when its
vector goes, the one of `handleEvent`, the one of `~TcpServer`, the one of a thread. -/
def drops : LifetimeAction → Nat
  | .serve .endBatch => s.functors.countP Functor.shared
  | .serve .handled | .destroyedHere | .release _ => 1
  | _ => 0

/-- The functors that are left when a step has given up its pointers. -/
def remaining : LifetimeAction → List Functor
  | .serve .endBatch => s.sys.loop.pendingFunctors_
  | _ => s.tasks

/-- The last shared pointer is not given up while a `sendInLoop` or a `shutdownInLoop`
is queued. -/
def LastOwnerStays (a : LifetimeAction) : Prop :=
  s.owners ≤ s.drops a → ∀ f ∈ s.remaining a, f.shared = true

end State

/-- What every run keeps: outside a batch there is no vector, and a thread in `send` or
`shutdown` has a pointer. -/
structure Accounting (s : LifetimeSystem) : Prop where
  functors : s.sys.pc.inBatch = false → s.functors = []
  callers : ∀ t, s.sys.users t ≠ .idle → t ∈ s.holders

section Step
variable {s s' : LifetimeSystem} {a : LifetimeAction}

theorem owner_of_shared {f : Functor} (hf : f ∈ s.tasks) (hshared : f.shared = true) :
    1 ≤ s.owners := by
  have : 0 < s.tasks.countP Functor.shared := List.countP_pos_iff.mpr ⟨f, hf, hshared⟩
  rw [owners]
  omega

/-- Where there is no owner, the functors that exist are not owners. -/
theorem supported_iff : s.Supported ↔ (s.owners = 0 → ∀ f ∈ s.tasks, f.shared = true) := by
  constructor
  · intro h h0 f hf
    exact absurd (h f hf) (by omega)
  · intro h f hf
    rcases Nat.eq_zero_or_pos s.owners with h0 | hpos
    · exact owner_of_shared hf (h h0 f hf)
    · exact hpos

/-- Where nothing is given up, the owners do not get fewer. -/
theorem owners_le (hin : s.inTable = true → s'.inTable = true)
    (hholders : s.holders.length ≤ s'.holders.length) (hserver : s'.server.holds = s.server.holds)
    (hpc : s.sys.pc.inHandler = true → s'.sys.pc.inHandler = true)
    (htasks : s.tasks.countP Functor.shared ≤ s'.tasks.countP Functor.shared) :
    s.owners ≤ s'.owners := by
  rw [owners, owners, hserver]
  have hboole : ∀ {b c : Bool}, (b = true → c = true) →
      (if b then 1 else 0) ≤ if c then 1 else 0 := by
    intro b c
    cases b <;> cases c <;> simp
  have := hboole hin
  have := hboole hpc
  omega

theorem functorsAfter_eq {sa : ServiceAction} (hswap : sa ≠ .swap) (hend : sa ≠ .endBatch) :
    s.functorsAfter sa = s.functors := by
  unfold functorsAfter
  split
  · exact absurd rfl hswap
  · exact absurd rfl hend
  · rfl

/-- A step of the connection that neither ends the batch nor leaves `handleEvent`. -/
theorem owners_serve {sa : ServiceAction} {sys' : ConnectionSystem} (hs : Accounting s)
    (hstep : ConnectionSystem.Step s.sys sa sys') (hend : sa ≠ .endBatch)
    (hhandled : sa ≠ .handled) :
    s.owners ≤ owners { s with sys := sys', functors := s.functorsAfter sa } ∧
      ∀ f ∈ tasks { s with sys := sys', functors := s.functorsAfter sa },
        f ∈ s.tasks ∨ f.shared = true ∨ 0 < s.owners := by
  have htasks : s.tasks.countP Functor.shared ≤
        (tasks { s with sys := sys', functors := s.functorsAfter sa }).countP Functor.shared ∧
      ∀ f ∈ tasks { s with sys := sys', functors := s.functorsAfter sa },
        f ∈ s.tasks ∨ f.shared = true ∨ 0 < s.owners := by
    rcases hstep.pending_cases with ⟨rfl, hloop⟩ | ⟨hswap, fs, hpending, hfs⟩
    · have hempty : s.functors = [] := by
        cases hstep with
        | swap h =>
          refine hs.functors ?_
          rw [h]
          rfl
      have heq : tasks { s with sys := sys', functors := s.functorsAfter .swap } = s.tasks := by
        show sys'.loop.pendingFunctors_ ++ s.sys.loop.pendingFunctors_ = _
        rw [hloop, tasks, hempty, List.append_nil]
        rfl
      rw [heq]
      exact ⟨Nat.le_refl _, fun f hf => Or.inl hf⟩
    · have heq : tasks { s with sys := sys', functors := s.functorsAfter sa } =
          s.sys.loop.pendingFunctors_ ++ fs ++ s.functors := by
        show sys'.loop.pendingFunctors_ ++ s.functorsAfter sa = _
        rw [hpending, functorsAfter_eq hswap hend]
      rw [heq]
      constructor
      · simp only [tasks, List.countP_append]
        omega
      · intro f hf
        simp only [List.mem_append, or_assoc] at hf
        rcases hf with hf | hf | hf
        · exact Or.inl (List.mem_append_left _ hf)
        · rcases hfs with hfs | ⟨t, g, rfl, ht⟩
          · exact Or.inr (Or.inl (hfs f hf))
          · -- the thread that queues it has a pointer
            have := List.length_pos_of_mem (hs.callers t ht)
            refine Or.inr (Or.inr ?_)
            rw [owners]
            omega
        · exact Or.inl (List.mem_append_right _ hf)
  exact ⟨owners_le id (Nat.le_refl _) rfl (hstep.inHandler hhandled) htasks.1, htasks.2⟩

/-- The table lets go of the connection, and `connectDestroyed` is queued. -/
theorem tasks_destroyed {t : Tid} (hsys : s'.sys = s.sys.queueInLoop t .connectDestroyed)
    (hfunctors : s'.functors = s.functors) :
    s'.tasks = s.sys.loop.pendingFunctors_ ++ [.connectDestroyed] ++ s.functors := by
  rw [tasks, hsys, hfunctors, ConnectionSystem.queueInLoop, EventLoop.pending_queueInLoop]

theorem mem_tasks_destroyed {t : Tid} {f : Functor} (hf : f ∈ s'.tasks)
    (hsys : s'.sys = s.sys.queueInLoop t .connectDestroyed) (hfunctors : s'.functors = s.functors) :
    f ∈ s.tasks ∨ f.shared = true := by
  rw [tasks_destroyed hsys hfunctors, List.mem_append, List.mem_append, List.mem_singleton] at hf
  rcases hf with (hf | rfl) | hf
  · exact Or.inl (List.mem_append_left _ hf)
  · exact Or.inr rfl
  · exact Or.inl (List.mem_append_right _ hf)

theorem owners_destroyed {t : Tid} (hsys : s'.sys = s.sys.queueInLoop t .connectDestroyed)
    (hfunctors : s'.functors = s.functors)
    (hkept : (s'.holders, s'.server) = (s.holders, s.server)) (hin : s'.inTable = false) :
    s.owners ≤ s'.owners := by
  obtain ⟨hholders, hserver⟩ : s'.holders = s.holders ∧ s'.server = s.server := by simpa using hkept
  have hpc : s'.sys.pc = s.sys.pc := by
    rw [hsys]
    rfl
  have hcount : s'.tasks.countP Functor.shared = s.tasks.countP Functor.shared + 1 := by
    have hone : [Functor.connectDestroyed].countP Functor.shared = 1 := rfl
    rw [tasks_destroyed hsys hfunctors, tasks, List.countP_append, List.countP_append,
      List.countP_append, hone]
    omega
  rw [owners, owners, hcount, hholders, hserver, hpc, hin]
  split <;> simp
  omega

/-- `connectDestroyed` queues nothing. -/
theorem queues_connectDestroyed (c : TcpConnection) (loaded : StateE) :
    (c.exec (.connectDestroyed loaded)).2.filterMap Effect.queues = [] := by
  refine List.filterMap_eq_nil_iff.mpr fun e he => ?_
  rcases c.lifecycle_effects (Or.inr (Or.inl ⟨loaded, rfl⟩)) he with ⟨p, rfl⟩ | ⟨n, rfl⟩ | rfl
  · rfl
  · rfl
  · exact ((c.exec_closes _).mp he).elim

/-- **What a step does to the owners**: it gives none up, and what it queues is an
owner or comes from one; or it gives up `drops`, and queues nothing. -/
theorem Step.owners_cases (h : Step s a s') (hs : Accounting s) :
    (s.drops a = 0 ∧ s.remaining a = s.tasks ∧ s.owners ≤ s'.owners ∧
      ∀ f ∈ s'.tasks, f ∈ s.tasks ∨ f.shared = true ∨ 0 < s.owners) ∨
    (s'.owners + s.drops a = s.owners ∧ s'.tasks = s.remaining a) := by
  cases h with
  | @serve sa sys' hstep hfree hallows =>
    by_cases hend : sa = .endBatch
    · subst hend
      cases hstep with
      | endBatch h =>
        refine Or.inr ⟨?_, List.append_nil _⟩
        simp [owners, tasks, functorsAfter, drops, ConnectionSystem.setPc, h, ServicePc.inHandler]
        omega
    · by_cases hhandled : sa = .handled
      · subst hhandled
        cases hstep with
        | handled h =>
          refine Or.inr ⟨?_, rfl⟩
          simp [owners, tasks, functorsAfter, drops, ConnectionSystem.setPc, h, ServicePc.inHandler]
          omega
      · obtain ⟨hle, htasks⟩ := owners_serve hs hstep hend hhandled
        refine Or.inl ⟨?_, ?_, hle, htasks⟩
        · unfold drops
          split <;> simp_all
        · unfold remaining
          split <;> simp_all
  | report => exact Or.inl ⟨rfl, rfl, Nat.le_refl _, fun f hf => Or.inl hf⟩
  | destruct h | destructed h =>
    refine Or.inl ⟨rfl, rfl, ?_, fun f hf => Or.inl hf⟩
    exact owners_le id (Nat.le_refl _) (by rw [h]; rfl) id (Nat.le_refl _)
  | dispatch =>
    refine Or.inl ⟨rfl, rfl, ?_, fun f hf => Or.inl hf⟩
    exact owners_le id (Nat.le_refl _) rfl (fun _ => rfl) (Nat.le_refl _)
  | @close revents cb todo op hfree h hop hclose =>
    have htasks : tasks { s with
        sys := (s.sys.performClose op).setPc (.handling revents todo), closing := true } =
          s.tasks := by
      show (s.sys.performClose op).loop.pendingFunctors_ ++ _ = _
      rw [loop_performClose _ _ hclose]
      rfl
    refine Or.inl ⟨rfl, rfl, ?_, fun f hf => Or.inl (htasks ▸ hf)⟩
    exact owners_le id (Nat.le_refl _) rfl (fun _ => rfl) (Nat.le_of_eq (by rw [htasks]))
  | closeCallback | destroyQueue =>
    exact Or.inl ⟨rfl, rfl, owners_destroyed rfl rfl rfl rfl,
      fun f hf => (mem_tasks_destroyed hf rfl rfl).imp_right Or.inl⟩
  | destroyHere h hin hloop =>
    refine Or.inl ⟨rfl, rfl, ?_, fun f hf => Or.inl hf⟩
    simp [owners, tasks, h, hin, ServerPc.holds]
    omega
  | destroyedHere h hloop =>
    refine Or.inr ⟨?_, ?_⟩
    · simp [owners, tasks, drops, h, ServerPc.holds, queues_connectDestroyed]
    · simp [tasks, remaining, queues_connectDestroyed]
  | keep t howner =>
    refine Or.inl ⟨rfl, rfl, ?_, fun f hf => Or.inl hf⟩
    exact owners_le id (Nat.le_succ _) rfl id (Nat.le_refl _)
  | @release t h hidle =>
    refine Or.inr ⟨?_, rfl⟩
    have := List.length_pos_of_mem h
    simp only [owners, tasks, drops, List.length_erase_of_mem h]
    omega

/-- **One step** leaves every functor with its connection exactly when it does not give
up the last pointer behind a `sendInLoop` or a `shutdownInLoop`. -/
theorem supported_step_iff (hacc : Accounting s) (hs : s.Supported) (h : Step s a s') :
    s'.Supported ↔ s.LastOwnerStays a := by
  rcases h.owners_cases hacc with ⟨hdrops, hremaining, hle, htasks⟩ | ⟨howners, htasks⟩
  · rw [supported_iff] at hs
    refine iff_of_true (supported_iff.mpr fun h0 f hf => ?_) fun h0 f hf => ?_
    · rcases htasks f hf with hf | hf | hpos
      · exact hs (by omega) f hf
      · exact hf
      · omega
    · rw [hremaining] at hf
      exact hs (by omega) f hf
  · rw [supported_iff, LastOwnerStays, htasks]
    exact imp_congr_left (by omega)

theorem accounting_step (hs : Accounting s) (h : Step s a s') : Accounting s' := by
  obtain ⟨hfunctors, hcallers⟩ := hs
  cases h with
  | @serve sa sys' hstep hfree hallows =>
    constructor
    · intro hpc
      show s.functorsAfter sa = []
      by_cases hend : sa = .endBatch
      · rw [hend]
        rfl
      · by_cases hswap : sa = .swap
        · subst hswap
          cases hstep with
          | swap => cases hpc
        · rw [functorsAfter_eq hswap hend]
          exact hfunctors (hstep.inBatch hend hpc)
    · intro t ht
      rcases hstep.callers ht with ht | rfl | rfl
      · exact hcallers t ht
      · exact hallows
      · exact hallows
  | dispatch hfree h hactive howner =>
    refine ⟨fun _ => hfunctors ?_, hcallers⟩
    rw [h]
    rfl
  | close hfree h hop hclose =>
    refine ⟨fun _ => hfunctors ?_, fun t ht => hcallers t ?_⟩
    · rw [h]
      rfl
    · rwa [← users_performClose]
  | destroyedHere =>
    refine ⟨fun hpc => hfunctors ?_, fun t ht => hcallers t ?_⟩
    · rwa [← ConnectionSystem.pc_perform]
    · rwa [← ConnectionSystem.users_perform]
  | keep t => exact ⟨hfunctors, fun u hu => List.mem_cons_of_mem _ (hcallers u hu)⟩
  | release h hidle =>
    refine ⟨hfunctors, fun u hu => (List.mem_erase_of_ne ?_).mpr (hcallers u hu)⟩
    rintro rfl
    exact hu hidle
  | _ => exact ⟨hfunctors, hcallers⟩

end Step

variable (tid base : Tid) (conn : TcpConnection) (memory : Memory UInt8)

theorem accounting_accepted : Accounting (accepted tid base conn memory) :=
  ⟨fun _ => rfl, fun _ h => absurd rfl h⟩

theorem supported_accepted : Supported (accepted tid base conn memory) := by
  intro f hf
  simp [owners, accepted]
  omega

/-- **Queued functors and the owners of their connection.**  A connection that has just
been accepted supports its functors; and the runs all of whose states do are the
runs in which the last shared pointer is never given up while a `sendInLoop` or a
`shutdownInLoop` is queued, under every interleaving. -/
theorem supported_run_iff {as : List LifetimeAction} {s : LifetimeSystem} :
    Supported (accepted tid base conn memory) ∧
      (Run (Within Step fun _ s => Supported s) (accepted tid base conn memory) as s ↔
        Run (Meeting Step LastOwnerStays) (accepted tid base conn memory) as s) := by
  refine ⟨supported_accepted tid base conn memory, run_within_iff
    (fun s => Accounting s ∧ Supported s)
    ⟨accounting_accepted tid base conn memory, supported_accepted tid base conn memory⟩ ?_ ?_⟩
  · rintro s a s' ⟨hacc, hs⟩ h hQ
    exact ⟨accounting_step hacc h, (supported_step_iff hacc hs h).mpr hQ⟩
  · rintro s a s' ⟨hacc, hs⟩ h
    exact supported_step_iff hacc hs h

/-- Thread 1 keeps a pointer and is in `send` when the peer hangs up; it queues
`sendInLoop` behind `connectDestroyed`, and gives the last pointer up. -/
theorem send_outlives_owner : ∃ as, ∃ s : LifetimeSystem,
    Run Step (accepted 0 0 (TcpConnection.new "conn" 5 false false) fun _ => some 104) as s ∧
      .sendInLoop 7 1 [104] ∈ s.tasks ∧ s.owners = 0 ∧ ¬ s.Supported := by
  have hstart : Run Step
      (accepted 0 0 (TcpConnection.new "conn" 5 false false) fun _ => some 104) [] _ := .refl
  have hrun := hstart
    |>.tail (.serve (.swap rfl) (by decide) rfl)
    |>.tail (.serve (.connectEstablished (a := .accept 0) rfl) (by decide) trivial)
    |>.tail (.keep 1 (by decide))
    |>.tail (.serve (.endBatch rfl) (by decide) trivial)
    |>.tail (.serve (.sendCheck (t := 1) (by decide) rfl rfl 7 1 [104] rfl) (by decide)
      List.mem_cons_self)
    |>.tail (.report (by decide) rfl rfl rfl EPOLLHUP)
    |>.tail (.dispatch (by decide) rfl rfl (by decide))
    |>.tail (.close (by decide) rfl .handleClose trivial)
    |>.tail (.closeCallback rfl (by decide))
    |>.tail (.serve (.handled rfl) (by decide) trivial)
    |>.tail (.serve (.swap rfl) (by decide) rfl)
    |>.tail (.serve (.connectDestroyed (a := .accept 0) rfl) (by decide) trivial)
    |>.tail (.serve (.destroy rfl) (by decide) trivial)
    |>.tail (.serve (.sendQueue (t := 1) (by decide) rfl) (by decide) trivial)
    |>.tail (.serve (.endBatch rfl) (by decide) trivial)
    |>.tail (.release (t := 1) List.mem_cons_self rfl)
  refine ⟨_, _, hrun, List.mem_cons_self, rfl, fun h => ?_⟩
  exact absurd (h (.sendInLoop 7 1 [104]) List.mem_cons_self) (by decide)

end LifetimeSystem
end Mymuduo
