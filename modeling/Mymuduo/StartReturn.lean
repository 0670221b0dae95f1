import Mymuduo.StartOrder

/-! # The handshake of a start

`startLoop` sleeps in the monitor of `EventLoopThread` until `loop_` is set, and the worker
notifies it once.  The handshake loses no notification (`handshake_sound`), but `loop_` does
not stay set: a worker whose `loop()` has returned clears it.  A caller that gets into the
monitor only then waits for ever, so `startLoop` can return exactly as long as the worker has
not taken its loop back (`startLoop_returns_iff`).
-/
namespace Mymuduo
open Transition

namespace ServerStart
variable {s s' : ServerStart} {t : Tid} {i : Nat} {th : LoopThread} {es : List StartEvent}

/-! ## No notification is lost -/

/-- **The handshake of `startLoop`.**  It is reached with `tid_` stored; worker and caller are
never in the monitor together; and a caller that sleeps there without having been notified
has nothing to be notified of, unless the worker is about to. -/
theorem handshake_sound {base : Tid} {numThreads : Int} {cb : Bool} {as : List StartActor}
    (h : Run Step (initial base numThreads cb) as s) (i : Nat) :
    (s.place = .lock i ∨ s.place = .test i ∨ s.place = .asleep i →
      (s.threads i).tid_ = (s.threads i).tid) ∧
    ¬ (s.place = .test i ∧ (s.threads i).pc.inMonitor = true) ∧
    ((s.threads i).monitor.holder = none → (s.threads i).pc.published = true →
      (s.threads i).monitor.sleeping = []) := by
  obtain ⟨-, -, -, -, hok, hholder, -, -, hposted⟩ := (inv_run h).threads i
  refine ⟨fun hplace => hok.cached ?_, ?_, fun hfree hpub => ?_⟩
  · have hpost : (s.threads i).pc.pastPost = true := by
      rcases hplace with hp | hp | hp <;> exact hposted (by rw [hp]; rfl) (by simp [hp])
    cases hpc : (s.threads i).pc <;> simp_all
  · rintro ⟨hplace, hin⟩
    have hheld := hholder.mpr hplace
    rw [hok.holder.mpr hin] at hheld
    cases hheld
  · exact hok.sound.no_lost_notification hfree (hok.loop_.trans hpub)

/-- The caller sleeps; the worker has not published yet. -/
theorem handshake_sound_asleep : ∃ as, ∃ s : ServerStart, Run Step (initial 3 1 false) as s ∧
    s.place = .asleep 0 ∧ (s.threads 0).monitor.sleeping = [.starter] ∧
    (s.threads 0).tid_ = (s.threads 0).tid := by
  have hstart : Run Step (initial 3 1 false) [] _ := .refl
  have hrun := hstart
    |>.tail (.call 3 (by decide))
    |>.tail (.create rfl (by decide) 11)
    |>.tail (.worker (i := 0) (.cacheTid rfl))
    |>.tail (.worker (i := 0) (.post rfl))
    |>.tail (.semWait rfl (by decide))
    |>.tail (.lock rfl rfl)
    |>.tail (.wait rfl rfl)
  exact ⟨_, _, hrun, rfl, rfl, (handshake_sound hrun 0).1 (Or.inr (Or.inr rfl))⟩

/-! ## When `startLoop` returns -/

/-- `startLoop` waits for a loop that has been taken back. -/
structure Stuck (s : ServerStart) (i : Nat) : Prop where
  inv : s.Inv
  current : s.place.current = some i
  withdrawn : (s.threads i).pc.withdrawn = true

theorem Stuck.step {a : StartActor} (h : s.Stuck i) (hstep : Step s a s') : s'.Stuck i := by
  have hinv := h.inv.step hstep
  obtain ⟨hs, hcur, hpc⟩ := h
  have hmoved : ∀ {t pc}, s.starter = some (t, pc) → pc.current = some i := fun hst =>
    place_of hst ▸ hcur
  cases hstep with
  | call t hwrap =>
    have hstarter : s.starter ≠ none := fun h0 => by simp [place, h0] at hcur
    have hnext : s.started_ ≠ 0 := fun h0 => hstarter (hs.started.mp h0)
    exact ⟨hinv, by simpa [place, hnext] using hcur, hpc⟩
  | semWait hst hsem | lock hst hfree | wait hst hnull | wake hst =>
    obtain rfl := Option.some.inj (hmoved hst)
    refine ⟨hinv, rfl, ?_⟩
    simpa [setStarter, setMonitor, setThread] using hpc
  | @take t k hst hset =>
    obtain rfl : k = i := Option.some.inj (hmoved hst)
    obtain ⟨-, -, -, -, hok, hholder, -, -, -⟩ := hs.threads k
    have hheld := hholder.mpr (place_of hst)
    -- the loop is still there only while the worker is inside
    have hin : (s.threads k).pc.inMonitor = true := by
      have hpub := hok.loop_.symm.trans hset
      cases hcase : (s.threads k).pc <;> simp_all
    rw [hok.holder.mpr hin] at hheld
    cases hheld
  | create hst | created hst | initBase hst | inBase hst | listenHere hst | listenQueue hst =>
    cases hmoved hst
  | base hp => exact ⟨hinv, hcur, hpc⟩
  | @worker j es th hw =>
    refine ⟨hinv, hcur, ?_⟩
    by_cases hij : i = j
    · subst hij
      have hself : ((s.setThread i th).log es).threads i = th := Function.update_self ..
      rw [hself]
      exact hw.withdrawn hpc
    · have hother : ((s.setThread j th).log es).threads i = s.threads i :=
        threads_setThread_of_ne _ hij
      rw [hother]
      exact hpc

/-- `startLoop` waits for a worker that has not taken its loop back. -/
structure Waiting (s : ServerStart) (i : Nat) : Prop where
  inv : s.Inv
  current : s.place.current = some i
  withdrawn : (s.threads i).pc.withdrawn = false

/-- There is a call at the thread. -/
theorem Waiting.starter (h : s.Waiting i) : ∃ t, s.starter = some (t, s.place) := by
  have hcur := h.current
  cases hs : s.starter with
  | none => simp [place, hs] at hcur
  | some p => exact ⟨p.1, by rw [place_of hs]⟩

/-- The call moves on, and is still at the thread. -/
theorem Waiting.stay (h : s.Waiting i) (hstep : Step s (.caller t) s')
    (hcur : s'.place.current = some i) (hpc : (s'.threads i).pc = (s.threads i).pc) :
    s'.Waiting i :=
  ⟨h.inv.step hstep, hcur, hpc ▸ h.withdrawn⟩

theorem threads_setThread_self (s : ServerStart) (t : Tid) (pc : StartPc) (i : Nat)
    (th : LoopThread) :
    ((s.setThread i th).setStarter t pc).threads i = th := Function.update_self ..

/-- A step of the worker brings its loop nearer. -/
theorem Waiting.worker (h : s.Waiting i)
    (hw : (s.threads i).WorkerStep s.threadInitCallback_ i es th)
    (hwithdrawn : th.pc.withdrawn = false) (hleft : th.pc.left < (s.threads i).pc.left) :
    ∃ bs s', Run Step s bs s' ∧ s'.Waiting i ∧
      (s'.threads i).pc.left < (s.threads i).pc.left := by
  have hself : ((s.setThread i th).log es).threads i = th := Function.update_self ..
  refine ⟨_, _, Run.refl.tail (.worker hw), ⟨h.inv.worker hw, h.current, ?_⟩, ?_⟩
  · rw [hself]
    exact hwithdrawn
  · rw [hself]
    exact hleft

/-- Until its loop can be handed over, the worker can go on; where it needs the monitor and
the caller is inside, the caller goes to sleep. -/
theorem Waiting.nearer (h : s.Waiting i) (hleft : 0 < (s.threads i).pc.left) :
    ∃ bs s', Run Step s bs s' ∧ s'.Waiting i ∧
      (s'.threads i).pc.left < (s.threads i).pc.left := by
  obtain ⟨hs, hcur, hwithdrawn⟩ := id h
  obtain ⟨-, -, -, -, hok, hholder, -, -, -⟩ := hs.threads i
  cases hpc : (s.threads i).pc with
  | cacheTid => exact hpc ▸ h.worker (.cacheTid hpc) (by simp) (by simp [hpc])
  | post => exact hpc ▸ h.worker (.post hpc) (by simp) (by simp [hpc])
  | construct =>
    refine hpc ▸ h.worker (.construct hpc) ?_ ?_ <;>
      cases s.threadInitCallback_ <;> simp [hpc]
  | callback => exact hpc ▸ h.worker (.callbackReturn hpc) (by simp) (by simp [hpc])
  | publish => exact hpc ▸ h.worker (.publish hpc) (by simp) (by simp [hpc])
  | unlock => exact hpc ▸ h.worker (.unlock hpc) (by simp) (by simp [hpc])
  | notify =>
    rcases hok.sleeping with hnil | hone
    · exact hpc ▸ h.worker (.notifyNone hpc hnil) (by simp) (by simp [hpc])
    · exact hpc ▸ h.worker (.notifyOne hpc (by rw [hone]; exact List.mem_singleton_self _))
        (by simp) (by simp [hpc])
  | lock =>
    cases hheld : (s.threads i).monitor.holder with
    | none => exact hpc ▸ h.worker (.lock hpc hheld) (by simp) (by simp [hpc])
    | some p =>
      cases p with
      | worker =>
        have hin := hok.holder.mp hheld
        rw [hpc] at hin
        cases hin
      | starter =>
        have hplace := hholder.mp hheld
        obtain ⟨t, hst⟩ := h.starter
        rw [hplace] at hst
        have hnull : (s.threads i).monitor.data = false := by rw [hok.loop_, hpc]; rfl
        have hself := threads_setThread_self s t (.asleep i) i
          { s.threads i with monitor := (s.threads i).monitor.wait .starter }
        have hpc' := (congrArg LoopThread.pc hself).trans hpc
        have hasleep := h.stay (.wait hst hnull) rfl (hpc'.trans hpc.symm)
        have hfree := congrArg (fun th => th.monitor.holder) hself
        obtain ⟨bs, s', hrun, hwaiting, hnear⟩ := hasleep.worker
          (.lock hpc' hfree) (by simp)
          (Nat.lt_of_lt_of_eq (by decide : 3 < 4) (congrArg ThreadPc.left hpc').symm)
        exact ⟨_, s', hrun.head (.wait hst hnull), hwaiting,
          Nat.lt_of_lt_of_eq hnear (congrArg ThreadPc.left hpc')⟩
  | notCreated | looping | relock | unpublish | leave | returned =>
    rw [hpc] at hleft
    cases hleft

/-- The worker has published its loop, and is out of the monitor again. -/
theorem Waiting.ready (h : s.Waiting i) (hleft : (s.threads i).pc.left = 0) :
    (s.threads i).monitor.data = true ∧ (s.threads i).pc.pastPost = true ∧
      (s.threads i).monitor.holder ≠ some .worker := by
  obtain ⟨hs, hcur, hwithdrawn⟩ := h
  obtain ⟨-, -, hcreated, -, hok, -, -, -, -⟩ := hs.threads i
  rw [hok.loop_, ne_eq, hok.holder]
  have hnot := hcreated hcur
  cases hpc : (s.threads i).pc <;> simp_all

/-- Inside, the caller finds the loop. -/
theorem Waiting.inside (h : s.Waiting i) (hleft : (s.threads i).pc.left = 0)
    (hplace : s.place = .test i) : ∃ bs s', Run Step s bs s' ∧ .sub i ∈ s'.loops_ := by
  obtain ⟨t, hst⟩ := h.starter
  rw [hplace] at hst
  exact ⟨_, _, Run.refl.tail (.take hst (h.ready hleft).1),
    List.mem_append_right _ (List.mem_singleton_self _)⟩

/-- Nobody keeps the caller out. -/
theorem Waiting.outside (h : s.Waiting i) (hleft : (s.threads i).pc.left = 0)
    (hplace : s.place = .lock i) : ∃ bs s', Run Step s bs s' ∧ .sub i ∈ s'.loops_ := by
  obtain ⟨t, hst⟩ := h.starter
  rw [hplace] at hst
  have hfree : (s.threads i).monitor.holder = none := by
    cases hheld : (s.threads i).monitor.holder with
    | none => rfl
    | some p =>
      cases p with
      | worker => exact absurd hheld (h.ready hleft).2.2
      | starter => cases hplace.symm.trans ((h.inv.threads i).holder.mp hheld)
  have hpc := congrArg LoopThread.pc (threads_setThread_self s t (.test i) i
    { s.threads i with monitor := (s.threads i).monitor.lock .starter })
  have hinside := h.stay (.lock hst hfree) rfl hpc
  obtain ⟨bs, s', hrun, hmem⟩ := hinside.inside (hpc ▸ hleft) rfl
  exact ⟨_, s', hrun.head (.lock hst hfree), hmem⟩

/-- With the loop there, the caller gets it, wherever it is. -/
theorem Waiting.get (h : s.Waiting i) (hleft : (s.threads i).pc.left = 0) :
    ∃ bs s', Run Step s bs s' ∧ .sub i ∈ s'.loops_ := by
  obtain ⟨t, hst⟩ := h.starter
  have hcur := h.current
  cases hplace : s.place with
  | test j =>
    obtain rfl : j = i := Option.some.inj ((congrArg StartPc.current hplace).symm.trans hcur)
    exact h.inside hleft hplace
  | lock j =>
    obtain rfl : j = i := Option.some.inj ((congrArg StartPc.current hplace).symm.trans hcur)
    exact h.outside hleft hplace
  | asleep j =>
    obtain rfl : j = i := Option.some.inj ((congrArg StartPc.current hplace).symm.trans hcur)
    rw [hplace] at hst
    have hpc := congrArg LoopThread.pc (threads_setThread_self s t (.lock j) j
      { s.threads j with monitor := (s.threads j).monitor.wake .starter })
    obtain ⟨bs, s', hrun, hmem⟩ :=
      (h.stay (.wake hst) rfl hpc).outside (hpc ▸ hleft) rfl
    exact ⟨_, s', hrun.head (.wake hst), hmem⟩
  | semWait j =>
    obtain rfl : j = i := Option.some.inj ((congrArg StartPc.current hplace).symm.trans hcur)
    rw [hplace] at hst
    have hsem := (h.inv.threads j).semaphore hplace (h.ready hleft).2.1
    have hpc := congrArg LoopThread.pc (threads_setThread_self s t (.lock j) j
      { s.threads j with sem := (s.threads j).sem - 1 })
    obtain ⟨bs, s', hrun, hmem⟩ :=
      (h.stay (.semWait hst hsem) rfl hpc).outside (hpc ▸ hleft) rfl
    exact ⟨_, s', hrun.head (.semWait hst hsem), hmem⟩
  | create | initBase | inBase | listen | returned =>
    rw [hplace] at hcur
    cases hcur

/-- The worker comes nearer until its loop can be handed over. -/
theorem Waiting.returns (h : s.Waiting i) : ∃ bs s', Run Step s bs s' ∧ .sub i ∈ s'.loops_ := by
  obtain ⟨bs, u, hrun, hwaiting, hzero⟩ :=
    exists_run_of_measure (Waiting · i) (fun s => (s.threads i).pc.left = 0)
      (fun s => (s.threads i).pc.left) (fun _ hs => (Nat.eq_zero_or_pos _).imp_right hs.nearer) h
  obtain ⟨cs, s', hrun', hmem⟩ := hwaiting.get hzero
  exact ⟨_, s', hrun.trans hrun', hmem⟩

theorem stuck_run {as : List StartActor} (h : s.Stuck i) (hrun : Run Step s as s') : s'.Stuck i :=
  @Run.invariant _ _ _ _ _ (fun s => Stuck s i) _ hrun h fun _ _ _ hs hstep => hs.step hstep

/-- What `startLoop` waits for is not in `loops_`. -/
theorem Stuck.not_mem (h : s.Stuck i) : .sub i ∉ s.loops_ := by
  have hdone : s.done = i := StartPc.done_of_current h.current _
  rw [h.inv.loops, hdone]
  simp

/-- **When `startLoop` can return**: as long as the worker has not taken its loop back, it is
only a matter of time; afterwards the call never returns, and the server never listens. -/
theorem startLoop_returns_iff {base : Tid} {numThreads : Int} {cb : Bool}
    {as : List StartActor} (h : Run Step (initial base numThreads cb) as s)
    (hcur : s.place.current = some i) :
    (∃ bs s', Run Step s bs s' ∧ .sub i ∈ s'.loops_) ↔
      (s.threads i).pc.withdrawn = false := by
  have hinv := inv_run h
  constructor
  · rintro ⟨bs, s', hrun, hmem⟩
    rw [← Bool.not_eq_true]
    exact fun hwithdrawn => (stuck_run ⟨hinv, hcur, hwithdrawn⟩ hrun).not_mem hmem
  · exact fun hwithdrawn => Waiting.returns ⟨hinv, hcur, hwithdrawn⟩

/-- The thread-init callback has handed out the loop, and somebody has called `quit()` on it;
`loop()` returns before the caller gets into the monitor. -/
theorem startLoop_never_returns : ∃ as, ∃ s : ServerStart, Run Step (initial 3 1 true) as s ∧
    s.place = .semWait 0 ∧ ¬ ∃ bs s', Run Step s bs s' ∧ .sub 0 ∈ s'.loops_ := by
  have hstart : Run Step (initial 3 1 true) [] _ := .refl
  have hrun := hstart
    |>.tail (.call 3 (by decide))
    |>.tail (.create rfl (by decide) 11)
    |>.tail (.worker (i := 0) (.cacheTid rfl))
    |>.tail (.worker (i := 0) (.post rfl))
    |>.tail (.worker (i := 0) (.construct rfl))
    |>.tail (.worker (i := 0) (.callbackReturn rfl))
    |>.tail (.worker (i := 0) (.lock rfl rfl))
    |>.tail (.worker (i := 0) (.publish rfl))
    |>.tail (.worker (i := 0) (.notifyNone rfl rfl))
    |>.tail (.worker (i := 0) (.unlock rfl))
    |>.tail (.worker (i := 0) (.loopReturn rfl))
    |>.tail (.worker (i := 0) (.relock rfl rfl))
  refine ⟨_, _, hrun, rfl, fun hreturns => ?_⟩
  cases (startLoop_returns_iff hrun rfl).mp hreturns

end ServerStart
end Mymuduo
