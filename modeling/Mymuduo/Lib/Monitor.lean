import Mathlib.Data.List.Basic

/-! # Monitors

A monitor is a mutex with one condition variable, around data that only the thread inside
touches.  Threads that find the guard `g` false go to sleep, which leaves the monitor; a
notification, or nothing at all, wakes them, and they have to get in again and look.

The discipline that makes this work is that whoever makes the guard true notifies before it
leaves.  `owed` says that this is still to be done: the guard has come true, and not every
sleeper has been woken since.  `Step` asks for the discipline and for nothing else, so that
`no_lost_notification` holds of every program whose accesses are such steps: with the
monitor free and the guard true, nobody sleeps.
-/

structure Monitor (τ σ : Type*) where
  holder : Option τ
  /-- Those that have not been woken since they went to sleep. -/
  sleeping : List τ
  data : σ
  owed : Bool

namespace Monitor
variable {τ σ : Type*}

/-- Nobody has been here yet. -/
def new (d : σ) : Monitor τ σ := ⟨none, [], d, false⟩

section Operations
variable (m : Monitor τ σ) (g : σ → Bool) (d : σ) (t : τ)

def lock : Monitor τ σ := { m with holder := some t }

def unlock : Monitor τ σ := { m with holder := none }

/-- `t` goes to sleep, which lets the others in. -/
def wait : Monitor τ σ := { m with holder := none, sleeping := m.sleeping ++ [t] }

/-- The data changes; a guard that comes true has to be made known. -/
def write : Monitor τ σ := { m with data := d, owed := g d && (m.owed || !g m.data) }

/-- A notification when nobody sleeps. -/
def notifyNone : Monitor τ σ := { m with owed := false }

@[simp] theorem holder_lock : (m.lock t).holder = some t := rfl
@[simp] theorem owed_lock : (m.lock t).owed = m.owed := rfl
@[simp] theorem holder_unlock : m.unlock.holder = none := rfl
@[simp] theorem owed_unlock : m.unlock.owed = m.owed := rfl
@[simp] theorem holder_wait : (m.wait t).holder = none := rfl
@[simp] theorem holder_write : (m.write g d).holder = m.holder := rfl
@[simp] theorem holder_notifyNone : m.notifyNone.holder = m.holder := rfl
@[simp] theorem owed_notifyNone : m.notifyNone.owed = false := rfl

variable [DecidableEq τ]

/-- The sleeper `t` wakes up, for no reason. -/
def wake : Monitor τ σ := { m with sleeping := m.sleeping.erase t }

/-- One notification, which reaches `t`. -/
def notifyOne : Monitor τ σ :=
  { m.wake t with owed := m.owed && !(m.sleeping.erase t).isEmpty }

@[simp] theorem holder_wake : (m.wake t).holder = m.holder := rfl
@[simp] theorem holder_notifyOne : (m.notifyOne t).holder = m.holder := rfl

end Operations

variable [DecidableEq τ]

/-- One step of thread `t`. -/
inductive Step (g : σ → Bool) : Monitor τ σ → τ → Monitor τ σ → Prop where
  | lock {m t} (hfree : m.holder = none) : Step g m t (m.lock t)
  | unlock {m t} (hheld : m.holder = some t) (howed : m.owed = false) : Step g m t m.unlock
  | wait {m t} (hheld : m.holder = some t) (hguard : g m.data = false) : Step g m t (m.wait t)
  | write {m t} (hheld : m.holder = some t) (d : σ) : Step g m t (m.write g d)
  | notifyOne {m t} {u : τ} (hu : u ∈ m.sleeping) : Step g m t (m.notifyOne u)
  | notifyNone {m t} (hnone : m.sleeping = []) : Step g m t m.notifyNone
  | wake {m t} : Step g m t (m.wake t)

/-- Nobody sleeps through a true guard, unless the thread inside is about to notify. -/
structure Sound (g : σ → Bool) (m : Monitor τ σ) : Prop where
  sleepers : g m.data = true → m.sleeping ≠ [] → m.owed = true
  inside : m.owed = true → m.holder ≠ none
  guard : m.owed = true → g m.data = true

variable {g : σ → Bool} {m m' : Monitor τ σ} {t : τ}

omit [DecidableEq τ] in
theorem new_sound (d : σ) : (new d : Monitor τ σ).Sound g :=
  ⟨fun _ h => absurd rfl h, by simp [new], by simp [new]⟩

/-- Fewer sleepers: what is owed to the rest was owed before. -/
theorem Sound.sleeping_erase (h : m.Sound g) (u : τ) (hguard : g m.data = true)
    (hrest : m.sleeping.erase u ≠ []) : m.owed = true := by
  refine h.sleepers hguard fun hnil => hrest ?_
  rw [hnil]
  rfl

theorem Sound.step (hm : m.Sound g) (h : Step g m t m') : m'.Sound g := by
  obtain ⟨hsleepers, hinside, hguarded⟩ := id hm
  cases h with
  | lock hfree => exact ⟨hsleepers, fun _ => Option.some_ne_none t, hguarded⟩
  | unlock hheld howed =>
    refine ⟨hsleepers, fun h => ?_, hguarded⟩
    rw [show m.owed = true from h] at howed
    cases howed
  | wait hheld hguard =>
    have hfalse : ∀ {p : Prop}, g m.data = true → p := fun h => by
      rw [hguard] at h
      cases h
    exact ⟨fun h => hfalse h, fun h => hfalse (hguarded h), hguarded⟩
  | write hheld d =>
    refine ⟨fun hd hs => ?_, fun _ => ?_, fun h => ?_⟩
    · -- the guard was true before, or it has come true now
      cases hold : g m.data with
      | true => simp [write, show g d = true from hd, hsleepers hold hs]
      | false => simp [write, show g d = true from hd, hold]
    · simp [write, hheld]
    · simp only [write, Bool.and_eq_true] at h
      exact h.1
  | @notifyOne u hu =>
    refine ⟨fun hd hs => ?_, fun h => ?_, fun h => ?_⟩
    · have hrest : (m.sleeping.erase u).isEmpty = false := List.isEmpty_eq_false_iff.mpr hs
      rw [notifyOne, hm.sleeping_erase u hd hs, hrest]
      rfl
    · simp only [notifyOne, Bool.and_eq_true] at h
      exact hinside h.1
    · simp only [notifyOne, Bool.and_eq_true] at h
      exact hguarded h.1
  | notifyNone hnone =>
    exact ⟨fun _ hs => absurd hnone hs, by simp [notifyNone], by simp [notifyNone]⟩
  | wake => exact ⟨hm.sleeping_erase t, hinside, hguarded⟩

omit [DecidableEq τ] in
/-- **No lost notification.**  While the guard is true and the monitor free, everybody who
has gone to sleep has been woken. -/
theorem Sound.no_lost_notification (h : m.Sound g) (hfree : m.holder = none)
    (hguard : g m.data = true) : m.sleeping = [] := by
  by_contra hs
  exact h.inside (h.sleepers hguard hs) hfree

end Monitor
