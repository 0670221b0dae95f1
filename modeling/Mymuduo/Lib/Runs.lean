import Mathlib.Data.List.Induction
import Mathlib.Logic.Function.Basic

/-! # Runs of a transition system

Two presentations of a run, and the induction rules a safety proof uses.

A **deterministic** system is a function `exec : σ → α → σ`; a run is the list
of the labels it was driven by, and the state reached is `as.foldl exec s`.
`Always P s as` says that `P` holds in every state the run passes through,
`Along Q s as` that every step is taken in a state that meets `Q`.  The rule
`always_iff_along` turns a step-by-step equivalence into one about whole runs.

A **relational** system is a labelled relation `Step : σ → α → σ → Prop`; its
runs are the derivations of `Run Step s as t`.  `Meeting Step Q` is the same
system restricted to the steps that meet `Q`, so that "every run whose steps all
meet `Q`" is a run of it; `Within Step R` is the system restricted to the steps
along `R`.  `run_within_iff` is the relational form of the equivalence.

A **family** of systems moves one component at a time, or all of them together by a
label they share (`Each`).  What holds of the runs of a component holds of every
component of a run of the family.
-/
namespace Transition

section Deterministic
variable {σ α : Type*} (exec : σ → α → σ)

/-- `P` holds in every state of the run, the first and the last included. -/
def Always (P : σ → Prop) (s : σ) (as : List α) : Prop :=
  ∀ l, l <+: as → P (l.foldl exec s)

/-- Every step of the run meets `Q` in the state it is taken in. -/
def Along (Q : σ → α → Prop) (s : σ) (as : List α) : Prop :=
  ∀ l a, l ++ [a] <+: as → Q (l.foldl exec s) a

variable {exec} {P : σ → Prop} {Q : σ → α → Prop} {s : σ}

theorem Always.last {as : List α} (h : Always exec P s as) : P (as.foldl exec s) :=
  h as (List.prefix_refl as)

theorem always_nil : Always exec P s [] ↔ P s := by
  constructor
  · exact fun h => h.last
  · intro h l hl
    rw [List.prefix_nil.mp hl]
    exact h

theorem along_nil : Along exec Q s [] := by
  intro l a hl
  simp at hl

theorem always_concat (as : List α) (a : α) :
    Always exec P s (as ++ [a]) ↔ Always exec P s as ∧ P (exec (as.foldl exec s) a) := by
  constructor
  · intro h
    refine ⟨fun l hl => h l (hl.trans (List.prefix_append _ _)), ?_⟩
    simpa using h.last
  · rintro ⟨h, hlast⟩ l hl
    rcases List.prefix_concat_iff.mp hl with rfl | hl
    · simpa using hlast
    · exact h l hl

theorem along_concat (as : List α) (a : α) :
    Along exec Q s (as ++ [a]) ↔ Along exec Q s as ∧ Q (as.foldl exec s) a := by
  constructor
  · intro h
    exact ⟨fun l b hl => h l b (hl.trans (List.prefix_append _ _)), h as a (List.prefix_refl _)⟩
  · rintro ⟨h, hlast⟩ l b hl
    rcases List.prefix_concat_iff.mp hl with heq | hl
    · obtain ⟨rfl, hab⟩ := List.append_inj' heq rfl
      obtain rfl : b = a := by simpa using hab
      exact hlast
    · exact h l b hl

@[simp] theorem along_singleton (a : α) : Along exec Q s [a] ↔ Q s a := by
  simpa [along_nil] using along_concat [] a

@[simp] theorem always_singleton (a : α) : Always exec P s [a] ↔ P s ∧ P (exec s a) := by
  simpa [always_nil] using always_concat [] a

theorem along_append (as bs : List α) :
    Along exec Q s (as ++ bs) ↔ Along exec Q s as ∧ Along exec Q (as.foldl exec s) bs := by
  induction bs using List.reverseRecOn with
  | nil => simp [along_nil]
  | append_singleton bs b ih =>
    rw [← List.append_assoc, along_concat, along_concat, ih, List.foldl_append, and_assoc]

theorem always_append (as bs : List α) :
    Always exec P s (as ++ bs) ↔ Always exec P s as ∧ Always exec P (as.foldl exec s) bs := by
  induction bs using List.reverseRecOn with
  | nil =>
    rw [List.append_nil, always_nil]
    exact ⟨fun h => ⟨h, h.last⟩, fun h => h.1⟩
  | append_singleton bs b ih =>
    rw [← List.append_assoc, always_concat, always_concat, ih, List.foldl_append, and_assoc]

theorem along_cons (a : α) (as : List α) :
    Along exec Q s (a :: as) ↔ Q s a ∧ Along exec Q (exec s a) as := by
  simpa using along_append [a] as

/-- **Invariants of a run.**  What the first state has and every admissible step
keeps holds in the last state. -/
theorem invariant {Inv : σ → Prop} {D : α → Prop} (h0 : Inv s)
    (hstep : ∀ t a, D a → Inv t → Inv (exec t a)) :
    ∀ as : List α, (∀ a ∈ as, D a) → Inv (as.foldl exec s) := by
  intro as
  induction as using List.reverseRecOn with
  | nil => exact fun _ => h0
  | append_singleton as a ih =>
    intro hD
    rw [List.foldl_append]
    exact hstep _ a (hD a (by simp)) (ih fun b hb => hD b (by simp [hb]))

/-- **A step-by-step equivalence lifts to runs.**  If, from a state where `P`
holds, a step keeps `P` exactly when it meets `Q`, then `P` holds all along a
run exactly when all its steps meet `Q`. -/
theorem always_iff_along (Inv : σ → Prop) (D : α → Prop) (hI : Inv s) (h0 : P s)
    (hinv : ∀ t a, D a → Inv t → Inv (exec t a))
    (hstep : ∀ t a, D a → Inv t → P t → (P (exec t a) ↔ Q t a)) :
    ∀ as : List α, (∀ a ∈ as, D a) → (Always exec P s as ↔ Along exec Q s as) := by
  intro as
  induction as using List.reverseRecOn with
  | nil => exact fun _ => ⟨fun _ => along_nil, fun _ => always_nil.mpr h0⟩
  | append_singleton as a ih =>
    intro hD
    have hDa : D a := hD a (by simp)
    have hDas : ∀ b ∈ as, D b := fun b hb => hD b (by simp [hb])
    have hIas := invariant hI hinv as hDas
    rw [always_concat, along_concat, ih hDas]
    refine and_congr_right fun hQ => ?_
    exact hstep _ a hDa hIas ((ih hDas).mpr hQ).last

/-- A condition on the labels alone joins one on the steps. -/
theorem Along.and {D : α → Prop} {as : List α} (hD : ∀ a ∈ as, D a) (h : Along exec Q s as) :
    Along exec (fun t a => D a ∧ Q t a) s as :=
  fun l a hl => ⟨hD a (hl.subset (by simp)), h l a hl⟩

/-- What the first state has and every step that meets `Q` keeps holds all along a run whose
steps all meet `Q`. -/
theorem Along.always {as : List α} (h : Along exec Q s as) (Inv : σ → Prop) (h0 : Inv s)
    (hstep : ∀ t a, Inv t → Q t a → Inv (exec t a)) : Always exec Inv s as := by
  induction as using List.reverseRecOn with
  | nil => exact always_nil.mpr h0
  | append_singleton as a ih =>
    obtain ⟨has, ha⟩ := (along_concat as a).mp h
    exact (always_concat as a).mpr ⟨ih has, hstep _ a (ih has).last ha⟩

/-- **A step-by-step equivalence of two conditions.**  Two conditions on the steps that
agree wherever an invariant holds are met along the same runs; the steps that meet them
have to keep the invariant, the others need not. -/
theorem along_congr {R : σ → α → Prop} (Inv : σ → Prop) (D : α → Prop) (hI : Inv s)
    (hinv : ∀ t a, D a → Inv t → R t a → Inv (exec t a))
    (hstep : ∀ t a, D a → Inv t → (Q t a ↔ R t a)) (as : List α) (hD : ∀ a ∈ as, D a) :
    Along exec Q s as ↔ Along exec R s as := by
  induction as using List.reverseRecOn with
  | nil => exact iff_of_true along_nil along_nil
  | append_singleton as a ih =>
    have hDas : ∀ b ∈ as, D b := fun b hb => hD b (by simp [hb])
    rw [along_concat, along_concat, ih hDas]
    refine and_congr_right fun hR => ?_
    have hlast : Inv (as.foldl exec s) :=
      ((hR.and hDas).always Inv hI fun t b ht hb => hinv t b hb.1 ht hb.2).last
    exact hstep _ a (hD a (by simp)) hlast

end Deterministic

section Relational
variable {σ α : Type*}

/-- `Run Step s as t`: the steps labelled `as`, in this order, lead from `s` to
`t`. -/
inductive Run (Step : σ → α → σ → Prop) (s : σ) : List α → σ → Prop
  | refl : Run Step s [] s
  | tail {as : List α} {a : α} {t u : σ} :
      Run Step s as t → Step t a u → Run Step s (as ++ [a]) u

/-- The system restricted to the steps that meet `Q`. -/
def Meeting (Step : σ → α → σ → Prop) (Q : σ → α → Prop) (s : σ) (a : α) (t : σ) : Prop :=
  Step s a t ∧ Q s a

/-- The system restricted to the steps along `R`. -/
def Within (Step : σ → α → σ → Prop) (R : σ → σ → Prop) (s : σ) (a : α) (t : σ) : Prop :=
  Step s a t ∧ R s t

variable {Step : σ → α → σ → Prop} {s t u : σ}

/-- **Invariants of a relational run.** -/
theorem Run.invariant {Inv : σ → Prop} {as : List α} (h : Run Step s as t) (h0 : Inv s)
    (hstep : ∀ t a u, Inv t → Step t a u → Inv u) : Inv t := by
  induction h with
  | refl => exact h0
  | tail _ hs ih => exact hstep _ _ _ ih hs

/-- **Invariants that hold until something happens.**  What every step from a state without
`P` keeps holds at the end, or held where the run passed `P`. -/
theorem Run.invariant_until {Inv P : σ → Prop} {as : List α} (h : Run Step s as t) (h0 : Inv s)
    (hstep : ∀ t a u, Inv t → ¬ P t → Step t a u → Inv u) :
    Inv t ∨ ∃ bs cs u, as = bs ++ cs ∧ Run Step s bs u ∧ Run Step u cs t ∧ Inv u ∧ P u := by
  induction h with
  | refl => exact Or.inl h0
  | @tail as a t u hrun hs ih =>
    rcases ih with hinv | ⟨bs, cs, v, rfl, hbefore, hafter, hinv, hp⟩
    · by_cases hp : P t
      · exact Or.inr ⟨as, [a], t, rfl, hrun, Run.refl.tail hs, hinv, hp⟩
      · exact Or.inl (hstep _ _ _ hinv hp hs)
    · exact Or.inr ⟨bs, cs ++ [a], v, List.append_assoc .., hbefore, hafter.tail hs, hinv, hp⟩

/-- Where a run ends, the next one begins. -/
theorem Run.stop {as : List α} (_ : Run Step s as t) : Run Step t [] t := .refl

theorem Run.trans {as bs : List α} (h : Run Step s as t) (h' : Run Step t bs u) :
    Run Step s (as ++ bs) u := by
  induction h' with
  | refl => simpa using h
  | tail _ hs ih => simpa using ih.tail hs

/-- One more step, in front. -/
theorem Run.head {a : α} {as : List α} (h : Step s a t) (h' : Run Step t as u) :
    Run Step s (a :: as) u := (Run.refl.tail h).trans h'

/-- **A goal that can always be brought nearer can be reached.** -/
theorem exists_run_of_measure (Inv Goal : σ → Prop) (measure : σ → Nat)
    (hnearer : ∀ t, Inv t →
      Goal t ∨ ∃ as u, Run Step t as u ∧ Inv u ∧ measure u < measure t) (h0 : Inv s) :
    ∃ as t, Run Step s as t ∧ Inv t ∧ Goal t := by
  induction hn : measure s using Nat.strongRecOn generalizing s with
  | ind n ih =>
    rcases hnearer s h0 with hgoal | ⟨as, u, hrun, hinv, hlt⟩
    · exact ⟨[], s, .refl, h0, hgoal⟩
    · obtain ⟨bs, t, hrest, hend⟩ := ih (measure u) (hn ▸ hlt) hinv rfl
      exact ⟨as ++ bs, t, hrun.trans hrest, hend⟩

theorem run_nil (h : Run Step s [] t) : t = s := by
  generalize hbs : ([] : List α) = bs at h
  cases h with
  | refl => rfl
  | tail => simp at hbs

/-- A run begins with its first step. -/
theorem run_cons {a : α} {as : List α} :
    Run Step s (a :: as) u ↔ ∃ t, Step s a t ∧ Run Step t as u := by
  constructor
  · intro h
    generalize hbs : a :: as = bs at h
    induction h generalizing as with
    | refl => cases hbs
    | @tail bs b t u hrun hstep ih =>
      cases bs with
      | nil =>
        cases hbs
        exact ⟨u, run_nil hrun ▸ hstep, .refl⟩
      | cons c cs =>
        cases hbs
        obtain ⟨t', hfirst, hrest⟩ := ih rfl
        exact ⟨t', hfirst, hrest.tail hstep⟩
  · rintro ⟨t, hstep, hrun⟩
    exact hrun.head hstep

/-- One more step, which meets `Q`. -/
theorem Run.meet {Q : σ → α → Prop} {as : List α} {a : α} (h : Run (Meeting Step Q) s as t)
    (hstep : Step t a u) (hq : Q t a) : Run (Meeting Step Q) s (as ++ [a]) u :=
  h.tail ⟨hstep, hq⟩

/-- A run of the restricted system is a run. -/
theorem Run.of_meeting {Q : σ → α → Prop} {as : List α} (h : Run (Meeting Step Q) s as t) :
    Run Step s as t := by
  induction h with
  | refl => exact .refl
  | tail _ hs ih => exact ih.tail hs.1

/-- **A step-by-step equivalence lifts to relational runs.**  If, where the invariant
holds, a step is along `R` exactly when it meets `Q`, then the runs all of whose
steps are along `R` are the runs all of whose steps meet `Q`. -/
theorem run_within_iff {R : σ → σ → Prop} {Q : σ → α → Prop} (Inv : σ → Prop) (h0 : Inv s)
    (hinv : ∀ t a u, Inv t → Step t a u → Q t a → Inv u)
    (hstep : ∀ t a u, Inv t → Step t a u → (R t u ↔ Q t a)) {as : List α} :
    Run (Within Step R) s as t ↔ Run (Meeting Step Q) s as t := by
  have hmeeting : ∀ {as t}, Run (Meeting Step Q) s as t → Inv t :=
    fun h => h.invariant h0 fun _ _ _ ht hs => hinv _ _ _ ht hs.1 hs.2
  constructor
  · intro h
    induction h with
    | refl => exact .refl
    | tail _ hs ih => exact ih.tail ⟨hs.1, (hstep _ _ _ (hmeeting ih) hs.1).mp hs.2⟩
  · intro h
    induction h with
    | refl => exact .refl
    | tail hrun hs ih => exact ih.tail ⟨hs.1, (hstep _ _ _ (hmeeting hrun) hs.1).mpr hs.2⟩

end Relational

section Family
variable {ι σ α : Type*} [DecidableEq ι]

/-- A step of one component, or a step of all by the same label. -/
inductive Each (Step : σ → α → σ → Prop) (shared : α → Prop) :
    (ι → σ) → Option ι × α → (ι → σ) → Prop
  | one {f : ι → σ} {i : ι} {a : α} {t : σ} (ha : ¬ shared a) (h : Step (f i) a t) :
      Each Step shared f (some i, a) (Function.update f i t)
  | all {f g : ι → σ} {a : α} (ha : shared a) (h : ∀ i, Step (f i) a (g i)) :
      Each Step shared f (none, a) g

variable {Step : σ → α → σ → Prop} {shared : α → Prop}

/-- **A component of a run** of the family is a run of the component. -/
theorem Run.component {f g : ι → σ} {as : List (Option ι × α)}
    (h : Run (Each Step shared) f as g) (i : ι) : ∃ bs, Run Step (f i) bs (g i) := by
  induction h with
  | refl => exact ⟨[], .refl⟩
  | tail _ hs ih =>
    obtain ⟨bs, hrun⟩ := ih
    cases hs with
    | @one j a t ha h =>
      by_cases hij : i = j
      · subst hij
        exact ⟨_, by simpa using hrun.tail h⟩
      · exact ⟨bs, by simpa [Function.update_of_ne hij] using hrun⟩
    | all ha h => exact ⟨_, hrun.tail (h i)⟩

/-- A system is a family of one. -/
theorem Run.family {s t : σ} {as : List α} (h : Run Step s as t) :
    ∃ bs, Run (Each Step shared) (fun _ : Unit => s) bs fun _ => t := by
  induction h with
  | refl => exact ⟨[], .refl⟩
  | @tail _ a t u _ hs ih =>
    obtain ⟨bs, hrun⟩ := ih
    by_cases ha : shared a
    · exact ⟨_, hrun.tail (.all ha fun _ => hs)⟩
    · have hone : Each Step shared (fun _ : Unit => t) (some (), a) fun _ => u := by
        have h : Each Step shared (fun _ : Unit => t) (some (), a)
            (Function.update (fun _ : Unit => t) () u) := .one ha hs
        rwa [show Function.update (fun _ : Unit => t) () u = fun _ => u from
          funext fun _ => Function.update_self ..] at h
      exact ⟨_, hrun.tail hone⟩

end Family
end Transition
