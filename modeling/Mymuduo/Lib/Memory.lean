import Mathlib.Logic.Function.Basic

/-! # A flat memory

Addresses are numbers; a cell holds a value or is not allocated.  A block of
cells is loaded as a whole, and the load is undefined as soon as one of them is
not allocated.  The frame rules say when a store cannot be seen by a load:
outside the block, or when it stores what is there.
-/

/-- Cells by address; `none` is a cell that is not allocated. -/
abbrev Memory (β : Type*) := Nat → Option β

namespace Memory
variable {β : Type*}

/-- The `n` cells from `p` on. -/
def load (m : Memory β) (p : Nat) : Nat → Option (List β)
  | 0 => some []
  | n + 1 =>
    match m p, load m (p + 1) n with
    | some b, some bs => some (b :: bs)
    | _, _ => none

/-- The cell at `p` gets the value `v`, or is freed. -/
def store (m : Memory β) (p : Nat) (v : Option β) : Memory β := Function.update m p v

theorem load_congr {m m' : Memory β} {p n : Nat} (h : ∀ i, p ≤ i → i < p + n → m' i = m i) :
    m'.load p n = m.load p n := by
  induction n generalizing p with
  | zero => rfl
  | succ n ih =>
    have hhead : m' p = m p := h p (Nat.le_refl p) (by omega)
    have htail : m'.load (p + 1) n = m.load (p + 1) n :=
      ih fun i hi hi' => h i (by omega) (by omega)
    rw [load, load, hhead, htail]

/-- **Frame rule of a store.**  A block that the store misses, or whose cell it
stores unchanged, loads as before. -/
theorem load_store {m : Memory β} {p n q : Nat} {v : Option β}
    (h : q < p ∨ p + n ≤ q ∨ v = m q) : (m.store q v).load p n = m.load p n := by
  refine load_congr fun i hi hi' => ?_
  by_cases hq : i = q
  · subst hq
    rw [store, Function.update_self]
    rcases h with h | h | h
    · omega
    · omega
    · exact h
  · exact Function.update_of_ne hq v m

end Memory
