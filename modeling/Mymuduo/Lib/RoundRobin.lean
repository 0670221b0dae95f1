import Mathlib.Data.List.Nodup

/-! # Round robin

A list of those that wait for service.  A service takes up to `n` of them from the front,
and puts them behind the others; those that arrive go to the end, and anybody may leave.

Nobody starves: as long as somebody waits without being served, every service brings it
nearer to the front by its full width, so that it is served as soon as the widths of the
services add up to more than its place (`mem_servedAlong`).
-/
namespace RoundRobin
variable {α : Type*}

/-- What happens to those that wait. -/
inductive Event (α : Type*) where
  | arrive (a : α)
  | leave (a : α)
  | serve (n : Nat)
deriving DecidableEq, Repr

namespace Event

/-- How many can be served. -/
@[simp] def width : Event α → Nat
  | serve n => n
  | _ => 0

/-- Who is served of those that wait in `l`. -/
@[simp] def served (l : List α) : Event α → List α
  | serve n => l.take n
  | _ => []

end Event

variable [DecidableEq α]

def step (l : List α) : Event α → List α
  | .arrive a => if a ∈ l then l else l ++ [a]
  | .leave a => l.erase a
  | .serve n => l.drop n ++ l.take n

/-- All that are served along a run, in order. -/
def servedAlong : List α → List (Event α) → List α
  | _, [] => []
  | l, e :: es => e.served l ++ servedAlong (step l e) es

/-- The widths of the services of a run, added up. -/
def widths : List (Event α) → Nat
  | [] => 0
  | e :: es => e.width + widths es

section Step
variable {l : List α} {a : α} {e : Event α}

/-- Nobody waits twice. -/
theorem step_arrive (l : List α) (b : α) :
    step l (.arrive b) = l ∨ b ∉ l ∧ step l (.arrive b) = l ++ [b] := by
  by_cases h : b ∈ l
  · exact Or.inl (if_pos h)
  · exact Or.inr ⟨h, if_neg h⟩

theorem nodup_step (h : l.Nodup) (e : Event α) : (step l e).Nodup := by
  cases e with
  | arrive b =>
    rcases step_arrive l b with heq | ⟨hb, heq⟩
    · rwa [heq]
    · rw [heq]
      exact List.nodup_append.mpr ⟨h, List.nodup_singleton b,
        fun x hx y hy hxy => hb (by rwa [← List.mem_singleton.mp hy, ← hxy])⟩
  | leave b => exact h.erase b
  | serve n =>
    refine (List.perm_append_comm.nodup_iff).mpr ?_
    rwa [List.take_append_drop]

/-- Only by leaving does one stop waiting. -/
theorem mem_step (h : a ∈ l) (hstay : e ≠ .leave a) : a ∈ step l e := by
  cases e with
  | arrive b =>
    rcases step_arrive l b with heq | ⟨-, heq⟩
    · rwa [heq]
    · rw [heq]
      exact List.mem_append_left _ h
  | leave b =>
    have hne : a ≠ b := fun heq => hstay (by rw [heq])
    exact (List.mem_erase_of_ne hne).mpr h
  | serve n =>
    refine (List.perm_append_comm.mem_iff).mp ?_
    rwa [List.take_append_drop]

theorem idxOf_erase_le (hne : a ≠ b) (l : List α) : (l.erase b).idxOf a ≤ l.idxOf a := by
  induction l with
  | nil => exact Nat.le_refl _
  | cons x l ih =>
    by_cases hxb : x = b
    · subst hxb
      rw [List.erase_cons_head, List.idxOf_cons_ne _ (Ne.symm hne)]
      exact Nat.le_succ _
    · rw [List.erase_cons_tail (by simpa using hxb)]
      by_cases hxa : x = a
      · simp [hxa]
      · rw [List.idxOf_cons_ne _ hxa, List.idxOf_cons_ne _ hxa]
        exact Nat.succ_le_succ ih

/-- Who is not among those served moves up by as many. -/
theorem idxOf_serve {n : Nat} (h : a ∈ l) (hnot : a ∉ l.take n) :
    (step l (.serve n)).idxOf a + n = l.idxOf a := by
  have hdrop : a ∈ l.drop n := by
    rw [← List.take_append_drop n l] at h
    exact (List.mem_append.mp h).resolve_left hnot
  have hlength : (l.take n).length = n := by
    refine List.length_take_of_le (Nat.le_of_lt ?_)
    by_contra hle
    rw [List.drop_eq_nil_of_le (Nat.not_lt.mp hle)] at hdrop
    cases hdrop
  have hsplit : l.idxOf a = n + (l.drop n).idxOf a := by
    conv_lhs => rw [← List.take_append_drop n l]
    rw [List.idxOf_append_of_notMem hnot, hlength]
  rw [hsplit, step, List.idxOf_append_of_mem hdrop, Nat.add_comm]

/-- **One step.**  Who stays and is not served comes nearer to the front by the width of
the service. -/
theorem idxOf_step (h : a ∈ l) (hstay : e ≠ .leave a) (hnot : a ∉ e.served l) :
    (step l e).idxOf a + e.width ≤ l.idxOf a := by
  cases e with
  | arrive b =>
    rcases step_arrive l b with heq | ⟨-, heq⟩
    · rw [heq]
      exact Nat.le_refl _
    · rw [heq, List.idxOf_append_of_mem h]
      exact Nat.le_refl _
  | leave b => exact idxOf_erase_le (fun heq => hstay (by rw [heq])) l
  | serve n => exact Nat.le_of_eq (idxOf_serve h hnot)

end Step

/-- **Nobody starves.** -/
theorem mem_servedAlong {a : α} {es : List (Event α)} : ∀ {l : List α}, a ∈ l →
    (∀ e ∈ es, e ≠ .leave a) → l.idxOf a < widths es → a ∈ servedAlong l es := by
  induction es with
  | nil => exact fun _ _ hlt => absurd hlt (Nat.not_lt_zero _)
  | cons e es ih =>
    intro l h hstay hlt
    obtain ⟨hfirst, hrest⟩ := List.forall_mem_cons.mp hstay
    rw [servedAlong, List.mem_append]
    by_cases hserved : a ∈ e.served l
    · exact Or.inl hserved
    · have hnearer := idxOf_step h hfirst hserved
      have hsum : widths (e :: es) = e.width + widths es := rfl
      exact Or.inr (ih (mem_step h hfirst) hrest (by omega))

end RoundRobin
