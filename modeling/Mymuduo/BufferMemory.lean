import Mymuduo.BufferQueue

/-! # The memory of a buffer

The vector of a `Buffer` never shrinks, and `makeSpace` keeps the cells in front of
`readerIndex_` when it grows it.  Its size is still bounded by the backlog, not by the
traffic: the vector is grown only when there is less free room in front and behind together
than is asked for, so that what is carried along in front is shorter than what comes in
(`length_append`).  The bound on a run follows: twice the largest backlog, or the size of a
fresh buffer (`memory_bounded`).
-/
namespace Mymuduo
open Transition

/-- A call of a member of `Buffer`. -/
inductive BufferCall where
  | op (op : BufferOp)
  | readFd (a : ReadAnswer)
deriving DecidableEq, Repr

namespace BufferCall

/-- The call brings bytes in. -/
def Fills : BufferCall → Prop
  | .op (.append _) | .readFd _ => True
  | _ => False

/-- The call brings bytes in or takes bytes out; only `ensureWriteableBytes` does neither. -/
def MovesBytes : BufferCall → Prop
  | .op (.ensureWriteableBytes _) => False
  | _ => True

end BufferCall

namespace Buffer

def call (b : Buffer) : BufferCall → Buffer
  | .op op => b.step op
  | .readFd a => (b.readFd a).2

variable {b : Buffer}

theorem step_inv (h : b.Inv) (op : BufferOp) : (b.step op).Inv := by
  cases op with
  | append data => exact (append_spec h data).1
  | retrieve len | retrieveAsString len => exact retrieve_inv h len
  | retrieveAll =>
    rw [step, exec, retrieveAll_eq]
    exact retrieve_inv h _
  | retrieveAllAsString => exact retrieve_inv h _
  | ensureWriteableBytes len => exact (ensureWriteableBytes_spec h len).1

theorem call_inv (h : b.Inv) (x : BufferCall) : (b.call x).Inv := by
  cases x with
  | op op => exact step_inv h op
  | readFd a => exact (readFd_spec h a).1

/-- **The representation invariant holds** after any calls, whatever their arguments. -/
theorem inv_of_calls (xs : List BufferCall) : (xs.foldl call new).Inv :=
  @invariant _ _ call new Inv (fun _ => True) new_inv (fun _ x _ h => call_inv h x) xs
    fun _ _ => trivial

/-! ## How far one call grows the vector -/

theorem readableBytes_append (h : b.Inv) (data : List UInt8) :
    (b.append data).readableBytes = b.readableBytes + data.length := by
  obtain ⟨hinv, hread⟩ := append_spec h data
  rw [← length_readable hinv, hread, List.length_append, length_readable h]

theorem length_retrieve (len : Nat) : (b.retrieve len).buffer_.length = b.buffer_.length := by
  unfold retrieve
  split <;> rfl

theorem length_store (h : b.Inv) {data : List UInt8} (hfit : data.length ≤ b.writableBytes) :
    (b.store data).buffer_.length = b.buffer_.length := by
  have hle := h.writer_le
  rw [writableBytes] at hfit
  exact Region.length_overwrite (by omega)

theorem length_makeSpace (h : b.Inv) (len : Nat) :
    (b.makeSpace len).buffer_.length =
      if b.writableBytes + b.prependableBytes < len + kCheapPrepend then b.writerIndex_ + len
      else b.buffer_.length := by
  unfold makeSpace
  split
  · exact Region.length_resize
  · exact Region.length_overwrite (slide_fits h)

/-- **An append that grows the vector grows it to less than twice the bytes readable then**,
and `kCheapPrepend` cells: the cells in front of them are fewer than those that come in. -/
theorem length_append (h : b.Inv) (data : List UInt8) :
    (b.append data).buffer_.length ≤
      max b.buffer_.length (2 * (b.append data).readableBytes + kCheapPrepend) := by
  obtain ⟨hinv, -, hroom⟩ := ensureWriteableBytes_spec h data.length
  have hreader := h.reader_le
  rw [readableBytes_append h, append, length_store hinv hroom, ensureWriteableBytes]
  split
  · rw [length_makeSpace h]
    split
    · rename_i hshort
      rw [prependableBytes] at hshort
      rw [readableBytes]
      omega
    · exact Nat.le_max_left _ _
  · exact Nat.le_max_left _ _

/-- So does a read: what it appends behind the cells it fills is an append. -/
theorem length_readFd (h : b.Inv) (a : ReadAnswer) :
    (b.readFd a).2.buffer_.length ≤
      max b.buffer_.length (2 * (b.readFd a).2.readableBytes + kCheapPrepend) := by
  cases a with
  | fail e => exact Nat.le_max_left _ _
  | data incoming =>
    simp only [readFd]
    split
    · rename_i hfit
      rw [length_store h hfit]
      exact Nat.le_max_left _ _
    · have hfit := List.length_take_le b.writableBytes (incoming.take b.readCapacity)
      have happend := length_append (store_spec h hfit).1
        ((incoming.take b.readCapacity).drop b.writableBytes)
      rwa [length_store h hfit] at happend

/-! ## Runs -/

/-- What one call does to the bound. -/
theorem length_call {x : BufferCall} {M : Nat} (h : b.Inv) (hx : x.MovesBytes)
    (hM : x.Fills → (b.call x).readableBytes ≤ M) :
    (b.call x).buffer_.length ≤ max b.buffer_.length (2 * M + kCheapPrepend) := by
  have hgrow : x.Fills → (b.call x).buffer_.length ≤
        max b.buffer_.length (2 * (b.call x).readableBytes + kCheapPrepend) →
      (b.call x).buffer_.length ≤ max b.buffer_.length (2 * M + kCheapPrepend) :=
    fun hfills hle => by
      have hread := hM hfills
      omega
  cases x with
  | readFd a => exact hgrow trivial (length_readFd h a)
  | op op =>
    cases op with
    | append data => exact hgrow trivial (length_append h data)
    | retrieve len | retrieveAsString len =>
      exact Nat.le_trans (Nat.le_of_eq (length_retrieve len)) (Nat.le_max_left _ _)
    | retrieveAll => exact Nat.le_max_left _ _
    | retrieveAllAsString =>
      exact Nat.le_trans (Nat.le_of_eq (length_retrieve _)) (Nat.le_max_left _ _)
    | ensureWriteableBytes len => exact hx.elim

/-- **The memory of a buffer is bounded by its largest backlog**, however many bytes pass
through: no more than `M` readable after any append or read, no more than `2 * M` cells and
`kCheapPrepend`, or those of a fresh buffer. -/
theorem memory_bounded (xs : List BufferCall) (M : Nat) (hxs : ∀ x ∈ xs, x.MovesBytes)
    (hM : Along call (fun b x => x.Fills → (b.call x).readableBytes ≤ M) new xs) :
    Always call (fun b => b.buffer_.length ≤
      max (kCheapPrepend + kInitialSize) (2 * M + kCheapPrepend)) new xs := by
  have hnew : new.Inv ∧ new.buffer_.length ≤
      max (kCheapPrepend + kInitialSize) (2 * M + kCheapPrepend) :=
    ⟨new_inv, Nat.le_trans (Nat.le_of_eq List.length_replicate) (Nat.le_max_left _ _)⟩
  have hbound := (hM.and hxs).always (fun b => b.Inv ∧ b.buffer_.length ≤
      max (kCheapPrepend + kInitialSize) (2 * M + kCheapPrepend)) hnew fun b x hb hx => by
    have hcall := length_call hb.1 hx.1 hx.2
    exact ⟨call_inv hb.1 x, by omega⟩
  exact fun l hl => (hbound l hl).2

/-- Close to the bound: a dead prefix one cell short of what would let the second append
slide is carried along. -/
theorem memory_bounded_tight :
    let xs : List BufferCall := [.op (.append (List.replicate 1000 1)), .op (.retrieve 999),
      .op (.append (List.replicate 1030 1))]
    (xs.foldl call new).buffer_.length = 2038 ∧ (xs.foldl call new).buffer_.length ≤ 2070 := by
  intro xs
  refine ⟨by decide +kernel, (memory_bounded xs 1031 ?_ ?_).last⟩
  · intro x hx
    simp only [xs, List.mem_cons, List.not_mem_nil, or_false] at hx
    rcases hx with rfl | rfl | rfl <;> trivial
  · refine (along_cons _ _).mpr ⟨fun _ => ?_, (along_cons _ _).mpr ⟨fun h => h.elim,
      (along_singleton _).mpr fun _ => ?_⟩⟩ <;> decide +kernel

end Buffer
end Mymuduo
