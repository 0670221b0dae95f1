import Mymuduo.Buffer
import Mymuduo.Lib.Fifo
import Mymuduo.Lib.Runs

/-! # The buffer is a queue

Every sequence of operations on a fresh `Buffer` is a run of a byte queue
(`BufferOp.onQueue`), whichever way `makeSpace` finds its room: it grows the vector, or
slides the readable bytes down over a range that overlaps them.

`Buffer.copyChecked` executes the same operations with every copy as a loop over cells that
fails outside `buffer_`, and on a `std::copy` whose destination begins inside its source.
No run of admissible operations gets there: the slide is only taken from strictly above
`kCheapPrepend`.
-/
namespace Mymuduo
open Transition

/-- A call of a member of `Buffer`, with its arguments. -/
inductive BufferOp where
  | append (data : List UInt8)
  | retrieve (len : Nat)
  | retrieveAll
  | retrieveAsString (len : Nat)
  | retrieveAllAsString
  | ensureWriteableBytes (len : Nat)
deriving DecidableEq, Repr

namespace BufferOp

/-- What the operation does to a byte queue. -/
def onQueue (q : Fifo UInt8) : BufferOp → Fifo UInt8
  | append data => q.push data
  | retrieve len | retrieveAsString len => q.take len
  | retrieveAll | retrieveAllAsString => q.take q.waiting.length
  | ensureWriteableBytes _ => q

/-- The string the operation returns when `waiting` are the bytes of the queue. -/
def returned (waiting : List UInt8) : BufferOp → List UInt8
  | retrieveAsString len => waiting.take len
  | retrieveAllAsString => waiting
  | _ => []

end BufferOp

namespace Buffer

/-- A string is made of readable bytes only. -/
def Admits (b : Buffer) : BufferOp → Prop
  | .retrieveAsString len => len ≤ b.readableBytes
  | _ => True

/-- The operation: the buffer, and the string returned. -/
def exec (b : Buffer) : BufferOp → Buffer × List UInt8
  | .append data => (b.append data, [])
  | .retrieve len => (b.retrieve len, [])
  | .retrieveAll => (b.retrieveAll, [])
  | .retrieveAsString len => (b.retrieveAsString len).swap
  | .retrieveAllAsString => b.retrieveAllAsString.swap
  | .ensureWriteableBytes len => (b.ensureWriteableBytes len, [])

def step (b : Buffer) (op : BufferOp) : Buffer := (b.exec op).1

/-! ## The operations with their copies cell by cell -/

def makeSpaceChecked (b : Buffer) (len : Nat) : Option Buffer :=
  if b.writableBytes + b.prependableBytes < len + kCheapPrepend then
    some { b with buffer_ := Region.resize b.buffer_ (b.writerIndex_ + len) 0 }
  else
    (Region.copyWithin b.buffer_ b.readerIndex_ kCheapPrepend
        (b.writerIndex_ - b.readerIndex_)).map fun cells =>
      { buffer_ := cells
        readerIndex_ := kCheapPrepend
        writerIndex_ := kCheapPrepend + b.readableBytes }

def ensureWriteableBytesChecked (b : Buffer) (len : Nat) : Option Buffer :=
  if b.writableBytes < len then b.makeSpaceChecked len else some b

def appendChecked (b : Buffer) (data : List UInt8) : Option Buffer :=
  (b.ensureWriteableBytesChecked data.length).bind fun b' =>
    (Region.copyIn b'.buffer_ b'.writerIndex_ data).map fun cells =>
      { b' with buffer_ := cells, writerIndex_ := b'.writerIndex_ + data.length }

def retrieveAsStringChecked (b : Buffer) (len : Nat) : Option (Buffer × List UInt8) :=
  (Region.copyOut b.buffer_ b.readerIndex_ len).map fun result => (b.retrieve len, result)

/-- The operation, with every copy checked. -/
def execChecked (b : Buffer) : BufferOp → Option (Buffer × List UInt8)
  | .append data => (b.appendChecked data).map fun b' => (b', [])
  | .retrieve len => some (b.retrieve len, [])
  | .retrieveAll => some (b.retrieveAll, [])
  | .retrieveAsString len => b.retrieveAsStringChecked len
  | .retrieveAllAsString => b.retrieveAsStringChecked b.readableBytes
  | .ensureWriteableBytes len => (b.ensureWriteableBytesChecked len).map fun b' => (b', [])

variable {b : Buffer} {len : Nat} {op : BufferOp}

/-- **Both ways of making room stay inside the vector.**  The slide starts strictly above
`kCheapPrepend`: there is room in front that is not there behind. -/
theorem makeSpaceChecked_eq (h : b.Inv) (hlen : b.writableBytes < len) :
    b.makeSpaceChecked len = some (b.makeSpace len) := by
  obtain ⟨-, h2, h3⟩ := h
  unfold makeSpaceChecked makeSpace
  split
  · rfl
  · rename_i hroom
    have hbelow : kCheapPrepend < b.readerIndex_ := by
      rw [prependableBytes] at hroom
      omega
    rw [Region.copyWithin_eq hbelow (by omega), Nat.add_sub_cancel' h2]
    rfl

theorem ensureWriteableBytesChecked_eq (h : b.Inv) :
    b.ensureWriteableBytesChecked len = some (b.ensureWriteableBytes len) := by
  unfold ensureWriteableBytesChecked ensureWriteableBytes
  split
  · exact makeSpaceChecked_eq h ‹_›
  · rfl

theorem appendChecked_eq (h : b.Inv) (data : List UInt8) :
    b.appendChecked data = some (b.append data) := by
  obtain ⟨hinv, -, hroom⟩ := ensureWriteableBytes_spec h data.length
  have hle := hinv.writer_le
  rw [writableBytes] at hroom
  rw [appendChecked, ensureWriteableBytesChecked_eq h, Option.bind_some,
    Region.copyIn_eq (by omega)]
  rfl

theorem retrieveAsStringChecked_eq (h : b.Inv) (hlen : len ≤ b.readableBytes) :
    b.retrieveAsStringChecked len = some (b.retrieveAsString len).swap := by
  have hle := h.writer_le
  have hreader := h.reader_le
  rw [readableBytes] at hlen
  rw [retrieveAsStringChecked, Region.copyOut_eq (by omega)]
  rfl

/-- **Every copy stays inside `buffer_`.** -/
theorem execChecked_eq (h : b.Inv) (hop : b.Admits op) : b.execChecked op = some (b.exec op) := by
  cases op with
  | append data => rw [execChecked, appendChecked_eq h]; rfl
  | retrieve len | retrieveAll => rfl
  | retrieveAsString len => exact retrieveAsStringChecked_eq h hop
  | retrieveAllAsString => exact retrieveAsStringChecked_eq h (Nat.le_refl _)
  | ensureWriteableBytes len => rw [execChecked, ensureWriteableBytesChecked_eq h]; rfl

/-! ## Runs -/

theorem peek_of_le (h : b.Inv) (hlen : len ≤ b.readableBytes) :
    b.peek len = b.readable.take len := by
  rw [← take_peek h (Nat.le_refl len) hlen, List.take_of_length_le]
  have hle := h.writer_le
  have hreader := h.reader_le
  rw [readableBytes] at hlen
  rw [peek, Region.length_slice (by omega)]
  omega

theorem retrieveAll_eq (b : Buffer) : b.retrieveAll = b.retrieve b.readableBytes := by
  rw [retrieve, if_neg (Nat.lt_irrefl _)]

/-- **One operation is that of a queue**: the buffer keeps its invariant, its readable bytes
change as the queue does, and the string returned is the queue's. -/
theorem exec_spec (h : b.Inv) (hop : b.Admits op) {q : Fifo UInt8} (hq : b.readable = q.waiting) :
    (b.step op).Inv ∧ (b.step op).readable = (op.onQueue q).waiting ∧
      (b.exec op).2 = op.returned q.waiting := by
  have hlength : b.readableBytes = q.waiting.length := by rw [← hq, length_readable h]
  have hretrieve : ∀ len, (b.retrieve len).Inv ∧
      (b.retrieve len).readable = (q.take len).waiting := fun len => by
    refine ⟨retrieve_inv h len, ?_⟩
    rw [readable_retrieve h, hq]
    rfl
  cases op with
  | append data =>
    obtain ⟨hinv, hread⟩ := append_spec h data
    exact ⟨hinv, hread.trans (by rw [hq]; rfl), rfl⟩
  | retrieve len => exact ⟨(hretrieve len).1, (hretrieve len).2, rfl⟩
  | retrieveAll =>
    rw [step, exec, retrieveAll_eq, hlength]
    exact ⟨(hretrieve _).1, (hretrieve _).2, rfl⟩
  | retrieveAsString len =>
    refine ⟨(hretrieve len).1, (hretrieve len).2, ?_⟩
    rw [← hq]
    exact peek_of_le h hop
  | retrieveAllAsString =>
    rw [step, exec, retrieveAllAsString, hlength]
    refine ⟨(hretrieve _).1, (hretrieve _).2, ?_⟩
    change b.peek _ = q.waiting
    rw [peek_of_le h (Nat.le_of_eq hlength.symm), hq, List.take_length]
  | ensureWriteableBytes len =>
    obtain ⟨hinv, hread, -⟩ := ensureWriteableBytes_spec h len
    exact ⟨hinv, hread.trans hq, rfl⟩

/-- **`Buffer` is a FIFO byte queue.**  After every operation of every run from a fresh
buffer the representation invariant holds and the readable bytes are those of the queue;
every copy stays inside `buffer_`, the strings returned are the bytes that leave the queue,
and `ensureWriteableBytes` makes the room it is asked for. -/
theorem buffer_is_queue (ops : List BufferOp) (hops : Along step Admits new ops) :
    ∀ l, l <+: ops →
      (l.foldl step new).Inv ∧
      (l.foldl step new).readable = (l.foldl BufferOp.onQueue Fifo.empty).waiting ∧
      ∀ op, l ++ [op] <+: ops →
        (l.foldl step new).execChecked op = some ((l.foldl step new).exec op) ∧
        ((l.foldl step new).exec op).2 =
          op.returned (l.foldl BufferOp.onQueue Fifo.empty).waiting ∧
        ∀ len, op = .ensureWriteableBytes len →
          len ≤ ((l.foldl step new).step op).writableBytes := by
  have hrun : ∀ l, l <+: ops → (l.foldl step new).Inv ∧
      (l.foldl step new).readable = (l.foldl BufferOp.onQueue Fifo.empty).waiting := by
    intro l
    induction l using List.reverseRecOn with
    | nil => exact fun _ => ⟨new_inv, Region.slice_self⟩
    | append_singleton l op ih =>
      intro hl
      obtain ⟨hinv, hread⟩ := ih ((List.prefix_append l [op]).trans hl)
      obtain ⟨hinv', hread', -⟩ := exec_spec hinv (hops l op hl) hread
      rw [List.foldl_append, List.foldl_append]
      exact ⟨hinv', hread'⟩
  intro l hl
  obtain ⟨hinv, hread⟩ := hrun l hl
  refine ⟨hinv, hread, fun op hop => ⟨execChecked_eq hinv (hops l op hop),
    (exec_spec hinv (hops l op hop) hread).2.2, ?_⟩⟩
  rintro len rfl
  exact (ensureWriteableBytes_spec hinv len).2.2

/-- Exactly the room there is, with one byte readable: the byte slides down and is still
what the next string holds. -/
theorem buffer_is_queue_after_slide :
    let l : List BufferOp := [.append [1, 2, 3], .retrieveAsString 2, .ensureWriteableBytes 1023]
    (l.foldl step new).readerIndex_ = kCheapPrepend ∧
      (l.foldl step new).writableBytes = 1023 ∧
      (l.foldl step new).Inv ∧ ((l.foldl step new).exec .retrieveAllAsString).2 = [3] := by
  intro l
  have hops : Along step Admits new (l ++ [.retrieveAllAsString]) := by
    refine (along_cons _ _).mpr ⟨trivial, (along_cons _ _).mpr ⟨?_, ?_⟩⟩
    · change 2 ≤ _
      decide +kernel
    · exact (along_cons _ _).mpr ⟨trivial, (along_singleton _).mpr trivial⟩
  obtain ⟨hinv, -, hop⟩ := buffer_is_queue _ hops l (List.prefix_append _ _)
  refine ⟨by decide +kernel, by decide +kernel, hinv, ?_⟩
  rw [(hop _ (List.prefix_refl _)).2.1]
  rfl

end Buffer
end Mymuduo
