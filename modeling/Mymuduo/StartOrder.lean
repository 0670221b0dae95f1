import Mymuduo.ServerStart

/-! # The order of a start

There is only one (`start_in_order`): one thread after the other, with the thread-init callback
of each run to its end before the loop is handed over, and `listen` behind them all.  A worker
shows nothing any more once its loop is published, and nothing of the next one is seen before
the loop is in `loops_`; so the trace is cut into blocks, and only the last of them is under
way.
-/
namespace Mymuduo
open Transition

namespace ServerStart
variable {s s' : ServerStart} {t : Tid} {pc : StartPc} {i : Nat} {th : LoopThread}
  {es : List StartEvent}

theorem blocks_succ (cb : Bool) (k : Nat) : blocks cb (k + 1) = blocks cb k ++ block cb k := by
  simp [blocks, List.range_succ]

/-! ## Every step keeps the invariant -/

/-- `Thread::start` creates thread `i`. -/
theorem Inv.create (h : s.Inv) (hs : s.starter = some (t, .create i))
    (hi : i < s.numThreads_.toNat) (tid : Tid) :
    ((s.setThread i (.create tid)).setStarter t (.semWait i)).Inv := by
  have hplace := place_of hs
  have hdone : s.done = i := by rw [done, hplace]; rfl
  have hcur : ∀ j, s.place.current ≠ some j := by simp [hplace]
  have hself : ((s.setThread i (.create tid)).setStarter t (.semWait i)).threads i =
      .create tid := Function.update_self ..
  refine ⟨iff_of_false (fun h0 => ?_) (Option.some_ne_none _), Nat.le_of_lt hi, fun j hj => ?_,
    ?_, hdone ▸ h.loops, fun hp => ?_, fun j => ?_, by simp [setStarter, place]⟩
  · cases (h.started.mp h0).symm.trans hs
  · obtain rfl : i = j := Option.some.inj hj
    exact hi
  · have htail : s.tail = [] := by rw [tail, hplace]; rfl
    rw [tail_of_current (s := (s.setThread i _).setStarter t (.semWait i)) rfl, hself]
    exact h.trace.trans (by rw [hdone, htail]; rfl)
  · rw [(h.pending hp).1] at hplace
    cases hplace
  · by_cases hji : j = i
    · subst hji
      rw [hself]
      exact {
        past := fun hj => absurd hj (Nat.lt_irrefl j)
        fresh := fun _ hne => absurd rfl hne
        created := by simp [LoopThread.create]
        callback := by simp [LoopThread.create]
        ok := LoopThread.create_ok tid
        holder := by simp [LoopThread.create, LoopThread.new, Monitor.new, setStarter, place]
        asleep := by simp [LoopThread.create, LoopThread.new, Monitor.new]
        semaphore := by simp [LoopThread.create]
        posted := fun _ hne => absurd rfl hne }
    · have hne : (StartPc.semWait i).current ≠ some j := fun heq => hji (Option.some.inj heq).symm
      have hmoved := (h.threads j).move _ (hcur j) hne (by rw [hplace]; rfl)
      rwa [← threads_setThread_of_ne (.create tid) hji] at hmoved

/-- In the monitor, with `loop_` set: the worker is out of it, and its callback is behind it. -/
theorem Inv.handedOver (h : s.Inv) (hplace : s.place = .test i)
    (hset : (s.threads i).monitor.data = true) :
    Monitor.Step id (s.threads i).monitor .starter (s.threads i).monitor.unlock ∧
      (s.threads i).pc.pastPublish = true ∧ (s.threads i).inits s.threadInitCallback_ i =
        LoopThread.callbackRun s.threadInitCallback_ (.sub i) := by
  obtain ⟨-, -, -, -, hok, hholder, -, -, -⟩ := h.threads i
  have hheld : (s.threads i).monitor.holder = some .starter := hholder.mpr hplace
  have hpublished : (s.threads i).pc.published = true := hok.loop_ ▸ hset
  have hout : (s.threads i).pc.inMonitor = false := by
    rw [← Bool.not_eq_true, ← hok.holder, hheld]
    simp
  refine ⟨.unlock hheld ?_, ?_⟩
  · rw [← Bool.not_eq_true]
    intro howed
    rw [hok.owed howed] at hout
    cases hout
  · unfold LoopThread.inits
    cases hpc : (s.threads i).pc <;> simp_all

/-- The thread is one of those the start has behind it. -/
theorem Inv.threadAt_handedOver (h : s.Inv) (hplace : s.place = .test i)
    (hset : (s.threads i).monitor.data = true) :
    ThreadAt s.threadInitCallback_ s.numThreads_.toNat (.create (i + 1)) i
      { s.threads i with monitor := (s.threads i).monitor.unlock } := by
  obtain ⟨hunlock, hpast, -⟩ := h.handedOver hplace hset
  obtain ⟨-, -, -, hcallback, hok, hholder, hasleep, -, -⟩ := h.threads i
  exact {
    past := fun _ => hpast
    fresh := fun hi => absurd hi (Nat.not_succ_le_self i)
    created := by simp
    callback := hcallback
    ok := hok.of_starter hunlock rfl rfl (by simp [hholder.mpr hplace]) hok.sleeping
    holder := by simp
    asleep := fun hsl => by
      rw [hasleep hsl] at hplace
      cases hplace
    semaphore := by simp
    posted := by simp }

/-- `startLoop` returns. -/
theorem Inv.take (h : s.Inv) (hs : s.starter = some (t, .test i))
    (hset : (s.threads i).monitor.data = true) :
    ((((s.setMonitor i (s.threads i).monitor.unlock).setStarter t (.create (i + 1))).pushLoop
      (.sub i)).log [.started (.sub i)]).Inv := by
  have hplace := place_of hs
  have hdone : s.done = i := by rw [done, hplace]; rfl
  have hcur : s.place.current = some i := by rw [hplace]; rfl
  have hinits := (h.handedOver hplace hset).2.2
  refine ⟨iff_of_false (fun h0 => ?_) (Option.some_ne_none _), h.current_lt i hcur, by
    simp [log, pushLoop, setStarter, place], ?_, ?_, fun hp => ?_, fun j => ?_,
    by simp [log, pushLoop, setStarter, place]⟩
  · cases (h.started.mp h0).symm.trans hs
  · show s.trace ++ _ = blocks s.threadInitCallback_ (i + 1) ++ []
    rw [h.trace, hdone, tail_of_current hcur, hinits, blocks_succ, List.append_nil, block,
      List.append_assoc]
  · show s.loops_ ++ _ = (List.range (i + 1)).map .sub
    rw [h.loops, hdone, List.range_succ, List.map_append]
    rfl
  · rw [(h.pending hp).1] at hplace
    cases hplace
  · by_cases hji : j = i
    · subst hji
      have hself : ((((s.setMonitor j (s.threads j).monitor.unlock).setStarter t
          (.create (j + 1))).pushLoop (.sub j)).log [.started (.sub j)]).threads j =
          { s.threads j with monitor := (s.threads j).monitor.unlock } := Function.update_self ..
      rw [hself]
      exact h.threadAt_handedOver hplace hset
    · have hne : s.place.current ≠ some j := fun heq =>
        hji (Option.some.inj (heq.symm.trans hcur))
      have hlt : j < i + 1 ↔ j < s.place.done s.numThreads_.toNat := by
        rw [hplace]
        exact ⟨fun hj => Nat.lt_of_le_of_ne (Nat.le_of_lt_succ hj) hji, Nat.lt_succ_of_lt⟩
      have hmoved := (h.threads j).move (.create (i + 1)) hne (by simp) hlt
      rwa [← threads_setThread_of_ne { s.threads i with
        monitor := (s.threads i).monitor.unlock } hji] at hmoved

/-- Nothing is queued on the base loop before the start is through. -/
theorem Inv.pending_eq_zero (h : s.Inv) (hplace : s.place ≠ .returned) : s.pending = 0 := by
  by_contra hp
  exact hplace (h.pending (Nat.pos_of_ne_zero hp)).1

/-- Behind the last thread. -/
theorem Inv.proceed (h : s.Inv) (pc' : StartPc) (pending : Nat) (es : List StartEvent)
    (hs : s.starter = some (t, pc)) (hdone : s.done = s.numThreads_.toNat)
    (hcur : s.place.current = none) (hdone' : pc'.done s.numThreads_.toNat = s.numThreads_.toNat)
    (hcur' : pc'.current = none)
    (htail : ({ s with pending := pending } : ServerStart).tailAt pc' = s.tail ++ es)
    (hpending : 0 < pending → pc' = .returned ∧ pending = 1)
    (hbase : pc' = .initBase ∨ pc' = .inBase → s.numThreads_ = 0 ∧ s.threadInitCallback_ = true) :
    (log { s.setStarter t pc' with pending := pending } es).Inv := by
  refine ⟨iff_of_false (fun h0 => ?_) (Option.some_ne_none _), Nat.le_of_eq hdone',
    fun i hi => ?_, ?_, ?_, hpending, fun j => ?_, hbase⟩
  · cases (h.started.mp h0).symm.trans hs
  · cases hcur'.symm.trans hi
  · have hdone'' : (log { s.setStarter t pc' with pending := pending } es).done = s.done :=
      hdone'.trans hdone.symm
    show s.trace ++ es = _
    rw [hdone'', h.trace, List.append_assoc, ← htail]
    rfl
  · have hloops := h.loops
    rw [hdone] at hloops
    exact hloops.trans (by rw [← hdone']; rfl)
  · refine (h.threads j).move _ (fun hj => ?_) (fun hj => ?_) ?_
    · cases hcur.symm.trans hj
    · cases hcur'.symm.trans hj
    · rw [← done, hdone]
      exact Iff.of_eq (congrArg (j < ·) hdone')

/-- The base loop runs `listen`. -/
theorem Inv.base (h : s.Inv) (hp : 0 < s.pending) :
    (log { s with pending := s.pending - 1 } [.listen]).Inv := by
  obtain ⟨hplace, hone⟩ := h.pending hp
  refine ⟨h.started, h.done_le, h.current_lt, ?_, h.loops, fun hp' => ?_, h.threads, h.onBase⟩
  · have htail : s.tail = baseRun s.numThreads_ s.threadInitCallback_ := by
      simp [tail, tailAt, hplace, hone]
    have htail' : (log { s with pending := s.pending - 1 } [.listen]).tail =
        baseRun s.numThreads_ s.threadInitCallback_ ++ [.listen] := by
      have hplace' : (log { s with pending := s.pending - 1 } [.listen]).place = .returned := hplace
      rw [tail, hplace']
      simp [tailAt, log, hone]
    show s.trace ++ [.listen] = _
    rw [htail', h.trace, htail, List.append_assoc]
    rfl
  · simp only [log, hone] at hp'
    exact absurd hp' (Nat.lt_irrefl 0)

/-- A step of worker `i`, whichever place the start is at. -/
theorem Inv.worker (h : s.Inv)
    (hstep : (s.threads i).WorkerStep s.threadInitCallback_ i es th) :
    ((s.setThread i th).log es).Inv := by
  obtain ⟨hpast, hfresh, -, hcallback, hok, hholder, hasleep, hsem, hposted⟩ := h.threads i
  have hself : ((s.setThread i th).log es).threads i = th := Function.update_self ..
  obtain ⟨hholder', hasleep'⟩ := hstep.starter hok
  refine ⟨h.started, h.done_le, h.current_lt, ?_, h.loops, h.pending, fun j => ?_, h.onBase⟩
  · show s.trace ++ es = blocks s.threadInitCallback_ s.done ++ _
    rw [h.trace, List.append_assoc]
    refine congrArg (blocks s.threadInitCallback_ s.done ++ ·) ?_
    by_cases hcur : s.place.current = some i
    · rw [tail_of_current hcur, tail_of_current (s := (s.setThread i th).log es) hcur, hself,
        ← hstep.inits hcallback]
      rfl
    · -- a worker the start is past shows nothing any more
      have hlt : i < s.done := by
        by_contra hge
        exact hstep.created.1 (hfresh (Nat.not_lt.mp hge) hcur)
      have hother : ∀ j, s.place.current = some j →
          ((s.setThread i th).log es).threads j = s.threads j := fun j hj =>
        threads_setThread_of_ne _ fun heq => hcur (heq ▸ hj)
      rw [(hstep.pastPublish (hpast hlt)).2, List.append_nil]
      cases hcase : s.place.current with
      | some j =>
        rw [tail_of_current hcase, tail_of_current (s := (s.setThread i th).log []) hcase]
        exact (congrArg _ (hother j hcase)).symm
      | none =>
        have hplace : ((s.setThread i th).log []).place = s.place := rfl
        simp only [tail, tailAt, hplace]
        cases hp : s.place <;> first | rfl | (rw [hp] at hcase; cases hcase)
  · by_cases hji : j = i
    · subst hji
      rw [hself]
      exact {
        past := fun hj => (hstep.pastPublish (hpast hj)).1
        fresh := fun hj hne => absurd (hfresh hj hne) hstep.created.1
        created := fun _ => hstep.created.2
        callback := hstep.callback hcallback
        ok := hstep.ok hok
        holder := hholder'.trans hholder
        asleep := fun hs => hasleep (hasleep' hs)
        semaphore := fun hp => hstep.semaphore (hsem hp)
        posted := fun hj hne => hstep.pastPost (hposted hj hne) }
    · have hthread := h.threads j
      rwa [← threads_setThread_of_ne th hji] at hthread

/-- The loop over the threads ends. -/
theorem Inv.created (h : s.Inv) (hs : s.starter = some (t, .create i))
    (hi : ¬ (i : Int) < s.numThreads_) :
    (s.setStarter t
      (if s.numThreads_ = 0 ∧ s.threadInitCallback_ = true then .initBase else .listen)).Inv := by
  have hplace := place_of hs
  have hdone : s.done = s.numThreads_.toNat := by
    have hle := h.done_le
    rw [done, hplace] at hle ⊢
    simp only [StartPc.done] at hle ⊢
    omega
  have hpending : ∀ {p : Prop}, 0 < s.pending → p := fun hp => by
    cases hplace.symm.trans (h.pending hp).1
  have htail : s.tail = [] := by rw [tail, hplace]; rfl
  have hmove := fun pc' => h.proceed pc' s.pending [] hs hdone (by rw [hplace]; rfl)
  simp only [log, List.append_nil] at hmove
  split
  · rename_i hcond
    exact hmove .initBase rfl rfl (by rw [htail]; rfl) (fun hp => hpending hp) fun _ => hcond
  · rename_i hcond
    refine hmove .listen rfl rfl ?_ (fun hp => hpending hp) (by simp)
    -- no callback runs on the base loop
    rw [htail]
    show baseRun s.numThreads_ s.threadInitCallback_ = []
    unfold baseRun LoopThread.callbackRun
    split
    · rename_i hzero
      rw [if_neg fun hcb => hcond ⟨hzero, hcb⟩]
    · rfl

theorem Inv.step {a : StartActor} (h : s.Inv) (hstep : Step s a s') : s'.Inv := by
  cases hstep with
  | call t hwrap => exact h.call t
  | create hs hi tid => exact h.create hs (by omega) tid
  | semWait hs hsem => exact h.semWait hs hsem
  | lock hs hfree => exact h.lock hs hfree
  | wait hs hnull => exact h.wait hs hnull
  | wake hs => exact h.wake hs
  | take hs hset => exact h.take hs hset
  | created hs hi => exact h.created hs hi
  | initBase hs =>
    have hplace := place_of hs
    exact h.proceed .inBase s.pending [.initBegin .base] hs (by rw [done, hplace]; rfl)
      (by rw [hplace]; rfl) rfl rfl (by rw [tail, hplace]; rfl)
      (fun hp => by cases hplace.symm.trans (h.pending hp).1) fun _ => h.onBase (Or.inl hplace)
  | inBase hs =>
    have hplace := place_of hs
    obtain ⟨hzero, hcb⟩ := h.onBase (Or.inr hplace)
    exact h.proceed .listen s.pending [.initEnd .base] hs (by rw [done, hplace]; rfl)
      (by rw [hplace]; rfl) rfl rfl
      (by simp [tail, hplace, tailAt, baseRun, LoopThread.callbackRun, hzero, hcb])
      (fun hp => by cases hplace.symm.trans (h.pending hp).1) (by simp)
  | listenHere hs ht =>
    have hplace := place_of hs
    have hnone := h.pending_eq_zero (by simp [hplace])
    exact h.proceed .returned s.pending [.listen] hs (by rw [done, hplace]; rfl)
      (by rw [hplace]; rfl) rfl rfl (by simp [tail, hplace, tailAt, hnone]) (by simp [hnone])
      (by simp)
  | @listenQueue t hs ht =>
    have hplace := place_of hs
    have hnone := h.pending_eq_zero (by simp [hplace])
    have hmoved := h.proceed .returned (s.pending + 1) [] hs (by rw [done, hplace]; rfl)
      (by rw [hplace]; rfl) rfl rfl (by simp [tail, hplace, tailAt]) (by simp [hnone]) (by simp)
    simpa only [log, List.append_nil] using hmoved
  | base hp => exact h.base hp
  | worker hstep => exact h.worker hstep

theorem inv_run {base : Tid} {numThreads : Int} {cb : Bool} {as : List StartActor}
    (h : Run Step (initial base numThreads cb) as s) : s.Inv :=
  h.invariant (inv_initial base numThreads cb) fun _ _ _ hs hstep => hs.step hstep

/-- The parameters stay. -/
theorem Step.parameters {a : StartActor} (h : Step s a s') :
    s'.numThreads_ = s.numThreads_ ∧ s'.threadInitCallback_ = s.threadInitCallback_ := by
  cases h <;> exact ⟨rfl, rfl⟩

theorem parameters_run {base : Tid} {numThreads : Int} {cb : Bool} {as : List StartActor}
    (h : Run Step (initial base numThreads cb) as s) :
    s.numThreads_ = numThreads ∧ s.threadInitCallback_ = cb := by
  induction h with
  | refl => exact ⟨rfl, rfl⟩
  | tail _ hstep ih => exact ⟨hstep.parameters.1.trans ih.1, hstep.parameters.2.trans ih.2⟩

/-! ## What is seen of a start -/

theorem blocks_mono (cb : Bool) {k n : Nat} (h : k ≤ n) : blocks cb k <+: blocks cb n := by
  obtain ⟨d, rfl⟩ := Nat.exists_eq_add_of_le h
  rw [blocks, blocks, List.range_add, List.flatMap_append]
  exact List.prefix_append _ _

theorem inits_prefix_block (cb : Bool) (i : Nat) (th : LoopThread) (hcb : th.pc = .callback →
    cb = true) : th.inits cb i <+: block cb i := by
  unfold LoopThread.inits
  split
  · exact List.nil_prefix
  · exact List.nil_prefix
  · exact List.nil_prefix
  · exact List.nil_prefix
  · rename_i hpc
    rw [block, LoopThread.callbackRun, if_pos (hcb hpc)]
    exact ⟨_, rfl⟩
  · exact List.prefix_append _ _

/-- What has been seen is the beginning of what is to be seen. -/
theorem Inv.trace_prefix (h : s.Inv) :
    s.trace <+: startOrder s.numThreads_ s.threadInitCallback_ := by
  have hbehind : s.done = s.numThreads_.toNat → ∀ rest,
      s.tail ++ rest = baseRun s.numThreads_ s.threadInitCallback_ ++ [.listen] →
      s.trace <+: startOrder s.numThreads_ s.threadInitCallback_ := by
    intro hdone rest hrest
    refine ⟨rest, ?_⟩
    rw [startOrder, h.trace, hdone, List.append_assoc, hrest, ← List.append_assoc]
  have hwithin : ∀ i, s.place.current = some i →
      s.trace <+: startOrder s.numThreads_ s.threadInitCallback_ := by
    intro i hcur
    have hblock := inits_prefix_block _ i (s.threads i) (h.threads i).callback
    rw [h.trace, done, StartPc.done_of_current hcur, tail_of_current hcur]
    have hle := blocks_mono s.threadInitCallback_ (h.current_lt i hcur)
    rw [blocks_succ] at hle
    exact ((List.prefix_append_right_inj _).mpr hblock).trans
      (hle.trans ⟨_, (List.append_assoc ..).symm⟩)
  cases hplace : s.place with
  | create i =>
    have htail : s.tail = [] := by rw [tail, hplace]; rfl
    rw [h.trace, htail, List.append_nil]
    exact (blocks_mono _ h.done_le).trans ⟨_, (List.append_assoc ..).symm⟩
  | semWait i | lock i | test i | asleep i => exact hwithin i (by rw [hplace]; rfl)
  | initBase =>
    exact hbehind (by rw [done, hplace]; rfl) _ (by rw [tail, hplace]; rfl)
  | inBase =>
    obtain ⟨hzero, hcb⟩ := h.onBase (Or.inr hplace)
    refine hbehind (by rw [done, hplace]; rfl) [.initEnd .base, .listen] ?_
    simp [tail, hplace, tailAt, baseRun, LoopThread.callbackRun, hzero, hcb]
  | listen => exact hbehind (by rw [done, hplace]; rfl) [.listen] (by rw [tail, hplace]; rfl)
  | returned =>
    by_cases hnone : s.pending = 0
    · exact hbehind (by rw [done, hplace]; rfl) [] (by simp [tail, hplace, tailAt, hnone])
    · exact hbehind (by rw [done, hplace]; rfl) [.listen]
        (by simp [tail, hplace, tailAt, hnone])

theorem listen_not_mem_callbackRun (cb : Bool) (loop : LoopId) :
    .listen ∉ LoopThread.callbackRun cb loop := by
  cases cb <;> simp [LoopThread.callbackRun]

theorem listen_not_mem_block (cb : Bool) (i : Nat) : .listen ∉ block cb i := by
  simp [block, listen_not_mem_callbackRun]

/-- When the acceptor listens, the start has come to its end. -/
theorem Inv.place_of_listen (h : s.Inv) (hmem : .listen ∈ s.trace) : s.place = .returned := by
  have htail : .listen ∈ s.tail := by
    rw [h.trace] at hmem
    refine (List.mem_append.mp hmem).resolve_left fun hblocks => ?_
    obtain ⟨i, -, hi⟩ := List.mem_flatMap.mp hblocks
    exact listen_not_mem_block _ i hi
  have hwithin : ∀ i, s.place.current ≠ some i := by
    intro i hcur
    rw [tail_of_current hcur] at htail
    exact listen_not_mem_block _ i ((inits_prefix_block _ i _ (h.threads i).callback).subset htail)
  cases hplace : s.place with
  | returned => rfl
  | semWait i | lock i | test i | asleep i => exact absurd (by rw [hplace]; rfl) (hwithin i)
  | create | initBase | inBase => simp [tail, hplace, tailAt] at htail
  | listen =>
    rw [tail, hplace, tailAt, baseRun] at htail
    split at htail
    · exact absurd htail (listen_not_mem_callbackRun _ _)
    · cases htail

/-- **A server starts in one order only**, whichever threads call `start`, however often, and
however they, the workers and the base loop are interleaved: one thread after the other, each
with its callback run to the end before its loop is handed over, and the next one only then;
and behind them all `listen`, once. -/
theorem start_in_order {base : Tid} {numThreads : Int} {cb : Bool} {as : List StartActor}
    (h : Run Step (initial base numThreads cb) as s) :
    s.trace <+: startOrder numThreads cb ∧
      (.listen ∈ s.trace → s.loops_ = (List.range numThreads.toNat).map .sub ∧
        ∀ i, i < numThreads.toNat → (s.threads i).pc.pastPublish = true) := by
  have hinv := inv_run h
  obtain ⟨rfl, rfl⟩ := parameters_run h
  refine ⟨hinv.trace_prefix, fun hmem => ?_⟩
  have hdone : s.done = s.numThreads_.toNat := by
    rw [done, hinv.place_of_listen hmem]
    rfl
  refine ⟨hdone ▸ hinv.loops, fun i hi => (hinv.threads i).past ?_⟩
  exact Nat.lt_of_lt_of_eq hi hdone.symm

/-- One thread, started from a thread that is not the base loop's. -/
theorem start_in_order_one : ∃ as, ∃ s : ServerStart, Run Step (initial 3 1 true) as s ∧
    s.trace = [.initBegin (.sub 0), .initEnd (.sub 0), .started (.sub 0), .listen] ∧
    s.trace <+: startOrder 1 true ∧ s.loops_ = [.sub 0] := by
  have hstart : Run Step (initial 3 1 true) [] _ := .refl
  have hrun := hstart
    |>.tail (.call 7 (by decide))
    |>.tail (.create rfl (by decide) 11)
    |>.tail (.worker (i := 0) (.cacheTid rfl))
    |>.tail (.worker (i := 0) (.post rfl))
    |>.tail (.semWait rfl (by decide))
    |>.tail (.worker (i := 0) (.construct rfl))
    |>.tail (.worker (i := 0) (.callbackReturn rfl))
    |>.tail (.worker (i := 0) (.lock rfl rfl))
    |>.tail (.worker (i := 0) (.publish rfl))
    |>.tail (.worker (i := 0) (.notifyNone rfl rfl))
    |>.tail (.worker (i := 0) (.unlock rfl))
    |>.tail (.lock (i := 0) rfl rfl)
    |>.tail (.take (i := 0) rfl rfl)
    |>.tail (.created rfl (by decide))
    |>.tail (.listenQueue rfl (by decide))
    |>.tail (.base (by decide))
  obtain ⟨hbefore, hlisten⟩ := start_in_order hrun
  exact ⟨_, _, hrun, rfl, hbefore, (hlisten (by decide)).1⟩

end ServerStart
end Mymuduo
