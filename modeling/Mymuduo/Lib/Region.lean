import Mathlib.Data.List.Basic

/-! # Regions of a contiguous array

A `std::vector`-like array is a list of cells.  `slice l i j` is the region
`[i, j)`, `overwrite l i xs` copies `xs` over the cells from `i` on, and
`resize l n x` cuts the array to `n` cells or pads it with `x`.  `scatter` fills
several arrays in order from one stream.  The lemmas say what a region holds after
each of them; every bound that a caller must establish for the copy to stay inside
the array is a hypothesis.
-/
namespace Region
variable {α : Type*}

/-- The cells of the region `[i, j)`. -/
def slice (l : List α) (i j : Nat) : List α := (l.drop i).take (j - i)

/-- `xs` copied over the cells from `i` on. -/
def overwrite (l : List α) (i : Nat) (xs : List α) : List α :=
  l.take i ++ xs ++ l.drop (i + xs.length)

/-- The array resized to `n` cells, new cells holding `x`. -/
def resize (l : List α) (n : Nat) (x : α) : List α :=
  l.take n ++ List.replicate (n - l.length) x

/-- The arrays `ls` filled in order from `xs`; an array `xs` does not reach is left as it
is. -/
def scatter : List (List α) → List α → List (List α)
  | [], _ => []
  | l :: ls, xs => overwrite l 0 (xs.take l.length) :: scatter ls (xs.drop l.length)

variable {l xs : List α} {i j k n : Nat} {x : α}

theorem length_slice (hj : j ≤ l.length) : (slice l i j).length = j - i := by
  rw [slice, List.length_take, List.length_drop]
  omega

@[simp] theorem slice_self : slice l i i = [] := by
  simp [slice]

theorem length_overwrite (h : i + xs.length ≤ l.length) :
    (overwrite l i xs).length = l.length := by
  simp only [overwrite, List.length_append, List.length_take, List.length_drop]
  omega

@[simp] theorem length_resize : (resize l n x).length = n := by
  simp only [resize, List.length_append, List.length_take, List.length_replicate]
  omega

theorem drop_slice : (slice l i j).drop n = slice l (i + n) j := by
  rw [slice, slice, List.drop_take, List.drop_drop, Nat.sub_sub]

theorem take_slice (h : i + n ≤ j) : (slice l i j).take n = slice l i (i + n) := by
  rw [slice, slice, List.take_take]
  congr 1
  omega

theorem slice_append_slice (hij : i ≤ j) (hjk : j ≤ k) :
    slice l i j ++ slice l j k = slice l i k := by
  have hl : slice l i j = (slice l i k).take (j - i) := by
    rw [take_slice (by omega), Nat.add_sub_cancel' hij]
  have hr : slice l j k = (slice l i k).drop (j - i) := by
    rw [drop_slice, Nat.add_sub_cancel' hij]
  rw [hl, hr, List.take_append_drop]

theorem slice_append_left (h : j ≤ l.length) : slice (l ++ xs) i j = slice l i j := by
  rcases Nat.le_total i j with hij | hji
  · rw [slice, slice, List.drop_append_of_le_length (by omega),
      List.take_append_of_le_length (by rw [List.length_drop]; omega)]
  · simp [slice, Nat.sub_eq_zero_of_le hji]

theorem slice_take (h : j ≤ n) : slice (l.take n) i j = slice l i j := by
  rw [slice, slice, List.drop_take, List.take_take, Nat.min_eq_left (by omega)]

/-- A region below the cells copied over is untouched. -/
theorem slice_overwrite_below (hj : j ≤ k) (hk : k ≤ l.length) :
    slice (overwrite l k xs) i j = slice l i j := by
  rw [overwrite, List.append_assoc, slice_append_left (by rw [List.length_take]; omega),
    slice_take hj]

/-- The cells copied over hold what was copied. -/
theorem slice_overwrite_self (h : i ≤ l.length) :
    slice (overwrite l i xs) i (i + xs.length) = xs := by
  rw [slice, overwrite, List.append_assoc, List.drop_append, List.length_take,
    Nat.min_eq_left h, Nat.sub_self, List.drop_zero, Nat.add_sub_cancel_left]
  simp

/-- **Appending to a region.**  Copying `xs` right behind the region `[i, j)`
extends it by `xs`. -/
theorem slice_overwrite_append (hij : i ≤ j) (hj : j ≤ l.length) :
    slice (overwrite l j xs) i (j + xs.length) = slice l i j ++ xs := by
  rw [← slice_append_slice hij (Nat.le_add_right j xs.length),
    slice_overwrite_below (Nat.le_refl j) hj, slice_overwrite_self hj]

/-- Resizing keeps the regions that lie inside both arrays. -/
theorem slice_resize (hn : j ≤ n) (hj : j ≤ l.length) :
    slice (resize l n x) i j = slice l i j := by
  rw [resize, slice_append_left (by rw [List.length_take]; omega), slice_take hn]

/-- A copy to the tail of an array from `i` on. -/
theorem take_append_overwrite_drop :
    l.take i ++ overwrite (l.drop i) 0 xs = overwrite l i xs := by
  rw [overwrite, overwrite, List.take_zero, List.nil_append, Nat.zero_add, List.drop_drop,
    List.append_assoc]

/-- What was copied to the head of an array can be read back. -/
theorem take_overwrite_zero : (overwrite l 0 xs).take xs.length = xs := by
  rw [overwrite, List.take_zero, List.nil_append, List.take_left]

/-! ## Copying cell by cell

The same copies as loops over the cells, from the first to the last.  They fail where a
cell outside the array is read or written, and where the destination of a copy within
the array begins inside its source, which a forward copy does not allow.
-/

/-- The `n` cells from `src` on. -/
def copyOut (l : List α) (src : Nat) : Nat → Option (List α)
  | 0 => some []
  | n + 1 =>
    match l[src]?, copyOut l (src + 1) n with
    | some x, some xs => some (x :: xs)
    | _, _ => none

/-- `xs` written to the cells from `dst` on. -/
def copyIn (l : List α) (dst : Nat) : List α → Option (List α)
  | [] => some l
  | x :: xs => if dst < l.length then copyIn (l.set dst x) (dst + 1) xs else none

/-- The loop of `copyWithin`. -/
def moveCells (l : List α) (src dst : Nat) : Nat → Option (List α)
  | 0 => some l
  | n + 1 =>
    match l[src]? with
    | some x => if dst < l.length then moveCells (l.set dst x) (src + 1) (dst + 1) n else none
    | none => none

/-- The `n` cells from `src` on written to those from `dst` on. -/
def copyWithin (l : List α) (src dst n : Nat) : Option (List α) :=
  if src ≤ dst ∧ dst < src + n then none else moveCells l src dst n

theorem slice_cons (h : i < j) (hj : j ≤ l.length) :
    slice l i j = l[i] :: slice l (i + 1) j := by
  rw [slice, slice, List.drop_eq_getElem_cons (by omega), ← Nat.succ_pred_eq_of_pos
    (Nat.sub_pos_of_lt h), List.take_succ_cons]
  congr 2

/-- A write below a region leaves it. -/
theorem slice_set_below (h : k < i) : slice (l.set k x) i j = slice l i j := by
  rw [slice, slice, List.drop_set_of_lt h]

/-- A copy is its first cell and the copy of the others. -/
theorem overwrite_cons (h : i < l.length) :
    overwrite (l.set i x) (i + 1) xs = overwrite l i (x :: xs) := by
  have htake : (l.set i x).take (i + 1) = l.take i ++ [x] := by
    rw [List.take_add_one, List.take_set_of_le (Nat.le_refl i), List.getElem?_set_self h]
    rfl
  rw [overwrite, overwrite, htake, List.drop_set_of_lt (by omega), List.length_cons,
    Nat.add_assoc i 1, Nat.add_comm 1, List.append_assoc (l.take i), List.singleton_append]

theorem copyOut_eq (h : i + n ≤ l.length) : copyOut l i n = some (slice l i (i + n)) := by
  induction n generalizing i with
  | zero => simp [copyOut]
  | succ n ih =>
    rw [copyOut, List.getElem?_eq_getElem (by omega), ih (by omega),
      slice_cons (by omega) h, Nat.add_right_comm, Nat.add_assoc i n 1]

/-- A copy that succeeds has the length asked for. -/
theorem length_of_copyOut (h : copyOut l i n = some xs) : xs.length = n := by
  induction n generalizing i xs with
  | zero =>
    obtain rfl : [] = xs := Option.some.inj h
    rfl
  | succ n ih =>
    rw [copyOut] at h
    split at h
    · rename_i x ys hx hys
      obtain rfl : x :: ys = xs := Option.some.inj h
      rw [List.length_cons, ih hys]
    · cases h

theorem copyIn_eq (h : i + xs.length ≤ l.length) : copyIn l i xs = some (overwrite l i xs) := by
  induction xs generalizing l i with
  | nil => simp [copyIn, overwrite]
  | cons x xs ih =>
    rw [List.length_cons] at h
    rw [copyIn, if_pos (by omega), ih (by rw [List.length_set]; omega),
      overwrite_cons (by omega)]

theorem moveCells_eq (hik : k ≤ i) (h : i + n ≤ l.length) :
    moveCells l i k n = some (overwrite l k (slice l i (i + n))) := by
  induction n generalizing l i k with
  | zero => simp [moveCells, overwrite]
  | succ n ih =>
    rw [moveCells, List.getElem?_eq_getElem (by omega)]
    simp only
    rw [if_pos (by omega), ih (by omega) (by rw [List.length_set]; omega),
      slice_set_below (by omega), overwrite_cons (by omega), slice_cons (i := i) (by omega) h,
      Nat.add_right_comm, Nat.add_assoc i n 1]

/-- **A forward copy to lower cells** is the copy of the region as it was. -/
theorem copyWithin_eq (hik : k < i) (h : i + n ≤ l.length) :
    copyWithin l i k n = some (overwrite l k (slice l i (i + n))) := by
  rw [copyWithin, if_neg (by omega), moveCells_eq (Nat.le_of_lt hik) h]

end Region
