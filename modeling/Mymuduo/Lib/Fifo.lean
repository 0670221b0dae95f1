import Mathlib.Data.List.Induction

/-! # The ledger of a first-in first-out queue

What any queue that neither loses, nor duplicates, nor reorders its elements
looks like from outside: the elements already taken out (`done`), in the order
they were taken, and those still `waiting`.  Pushing appends to `waiting`,
taking moves a prefix of `waiting` to `done`, and `all` (everything that ever
went in, in order) changes only by pushes.  An implementation is first-in
first-out when each of its steps is a push, a take, or neither, on its ledger.
-/

/-- The ledger of a queue. -/
structure Fifo (α : Type*) where
  done : List α
  waiting : List α

namespace Fifo
variable {α : Type*}

/-- Nothing pushed yet. -/
def empty : Fifo α := ⟨[], []⟩

/-- `xs` enter the queue. -/
def push (q : Fifo α) (xs : List α) : Fifo α := ⟨q.done, q.waiting ++ xs⟩

/-- The first `n` elements leave the queue. -/
def take (q : Fifo α) (n : Nat) : Fifo α := ⟨q.done ++ q.waiting.take n, q.waiting.drop n⟩

/-- Everything that ever entered the queue, in order. -/
def all (q : Fifo α) : List α := q.done ++ q.waiting

@[simp] theorem all_empty : (empty : Fifo α).all = [] := rfl

@[simp] theorem all_push (q : Fifo α) (xs : List α) : (q.push xs).all = q.all ++ xs := by
  simp [all, push]

@[simp] theorem all_take (q : Fifo α) (n : Nat) : (q.take n).all = q.all := by
  simp [all, take]

theorem done_prefix_all (q : Fifo α) : q.done <+: q.all :=
  List.prefix_append _ _

/-- What has been taken out of a part of the elements is a prefix of that part of
what went in: the queue is first-in first-out for every class of elements. -/
theorem filter_done_prefix (q : Fifo α) (p : α → Bool) :
    q.done.filter p <+: q.all.filter p :=
  (q.done_prefix_all).filter p

/-! ## Queues in a row -/

/-- What leaves `p` enters `q`. -/
def Feeds (p q : Fifo α) : Prop := p.done = q.all

variable {p q r : Fifo α}

/-- Elements that leave at the near end change nothing between the two. -/
theorem Feeds.take (h : p.Feeds q) (n : Nat) : p.Feeds (q.take n) :=
  Eq.trans h (q.all_take n).symm

/-- **Two queues in a row are one queue.** -/
theorem Feeds.all_eq (h : p.Feeds q) : p.all = q.done ++ q.waiting ++ p.waiting := by
  rw [all, h]
  rfl

/-- **Three queues in a row are one queue.** -/
theorem Feeds.all_eq_three (h : p.Feeds q) (h' : q.Feeds r) :
    p.all = r.done ++ r.waiting ++ q.waiting ++ p.waiting := by
  rw [h.all_eq, h']
  rfl

end Fifo
