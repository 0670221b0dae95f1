import Mathlib.Data.Nat.Digits.Defs

/-! # Reading numerals

A reader of numbers in a base up to sixteen, which takes as many digits as there are: what
`Nat.toDigits` writes is read back as the number it was written for, and the reader goes on
with what follows.  A numeral that begins with a zero is the numeral of zero.

Fields with a separator between them can be told apart as long as the separator is in none of
those on one side of it.
-/
namespace Numeral

/-! ## Separators -/

section Separators
variable {α : Type*} {sep : α} {xs xs' ys ys' : List α}

/-- The first separator. -/
theorem append_cons_inj_first (h : sep ∉ xs) (h' : sep ∉ xs') :
    xs ++ sep :: ys = xs' ++ sep :: ys' ↔ xs = xs' ∧ ys = ys' := by
  induction xs generalizing xs' with
  | nil =>
    cases xs' with
    | nil => simp
    | cons x' xs' =>
      have hne : sep ≠ x' := fun heq => h' (heq ▸ List.mem_cons_self)
      simp [hne]
  | cons x xs ih =>
    cases xs' with
    | nil =>
      have hne : x ≠ sep := fun heq => h (heq ▸ List.mem_cons_self)
      simp [hne]
    | cons x' xs' =>
      have hrest := ih (fun hmem => h (List.mem_cons_of_mem x hmem))
        fun hmem => h' (List.mem_cons_of_mem x' hmem)
      simp [hrest, and_assoc]

/-- The last separator. -/
theorem append_cons_inj_last (h : sep ∉ ys) (h' : sep ∉ ys') :
    xs ++ sep :: ys = xs' ++ sep :: ys' ↔ xs = xs' ∧ ys = ys' := by
  have hreverse := @append_cons_inj_first _ sep ys.reverse ys'.reverse xs.reverse xs'.reverse
    (by simpa using h) (by simpa using h')
  rw [← List.reverse_inj]
  simpa [and_comm] using hreverse

end Separators

/-! ## Digits -/

/-- The value of a digit, and 16 for what is not one. -/
def digitValue (c : Char) : Nat :=
  if '0' ≤ c ∧ c ≤ '9' then c.toNat - '0'.toNat
  else if 'a' ≤ c ∧ c ≤ 'f' then c.toNat - 'a'.toNat + 10
  else if 'A' ≤ c ∧ c ≤ 'F' then c.toNat - 'A'.toNat + 10
  else 16

/-- The number read with the digits at the front added to `acc`, and what follows them. -/
def scan (b acc : Nat) : List Char → Nat × List Char
  | [] => (acc, [])
  | c :: cs => if digitValue c < b then scan b (b * acc + digitValue c) cs else (acc, c :: cs)

/-- There is no digit at the front. -/
def Stops (b : Nat) (cs : List Char) : Prop := ∀ c ∈ cs.head?, b ≤ digitValue c

theorem digitValue_digitChar {m : Nat} (h : m < 16) : digitValue (Nat.digitChar m) = m :=
  (by decide : ∀ m < 16, digitValue (Nat.digitChar m) = m) m h

variable {b : Nat}

theorem scan_stop {cs : List Char} (h : Stops b cs) (acc : Nat) : scan b acc cs = (acc, cs) := by
  cases cs with
  | nil => rfl
  | cons c cs =>
    have hc : b ≤ digitValue c := h c rfl
    rw [scan, if_neg (Nat.not_lt.mpr hc)]

theorem scan_digitChar {m : Nat} (hb : b ≤ 16) (hm : m < b) (acc : Nat) (cs : List Char) :
    scan b acc (m.digitChar :: cs) = scan b (b * acc + m) cs := by
  have hvalue : digitValue m.digitChar = m := digitValue_digitChar (Nat.lt_of_lt_of_le hm hb)
  rw [scan, hvalue, if_pos hm]

/-- **What was written is read back.** -/
theorem scan_toDigits (hb' : 1 < b) (hb : b ≤ 16) (n : Nat) (cs : List Char) :
    scan b 0 (Nat.toDigits b n ++ cs) = scan b n cs := by
  induction n using Nat.base_induction b hb' generalizing cs with
  | single m hm =>
    rw [Nat.toDigits_of_lt_base hm, List.singleton_append, scan_digitChar hb hm, Nat.mul_zero,
      Nat.zero_add]
  | digit m k hk hm ih =>
    rw [← Nat.toDigits_append_toDigits hb' hm hk, Nat.toDigits_of_lt_base hk, List.append_assoc,
      ih, List.singleton_append, scan_digitChar hb hk]

/-- No numeral but that of zero begins with a zero. -/
theorem toDigits_head (hb' : 1 < b) (hb : b ≤ 16) {n : Nat} {cs : List Char}
    (h : Nat.toDigits b n = '0' :: cs) : n = 0 ∧ cs = [] := by
  induction n using Nat.base_induction b hb' generalizing cs with
  | single m hm =>
    rw [Nat.toDigits_of_lt_base hm, List.cons.injEq] at h
    have hvalue := digitValue_digitChar (Nat.lt_of_lt_of_le hm hb)
    rw [h.1] at hvalue
    exact ⟨hvalue.symm, h.2.symm⟩
  | digit m k hk hm ih =>
    rw [← Nat.toDigits_append_toDigits hb' hm hk] at h
    cases hds : Nat.toDigits b m with
    | nil => exact absurd hds Nat.toDigits_ne_nil
    | cons d ds =>
      rw [hds, List.cons_append, List.cons.injEq] at h
      obtain ⟨rfl, -⟩ := h
      have hzero := (ih hds).1
      omega

end Numeral
