import Mymuduo.Lib.Region
import Mymuduo.SystemCall

/-! # The connection buffer

`Buffer` is the class of `Buffer.h`: a vector of bytes and two indices into it.

    prependable bytes |  readable bytes  | writable bytes   |
    0  <=         readerIndex_   <=    writerIndex_    <=    size

The operations below are the code's own.  Sizes are natural numbers: nothing here
is said about sums that exceed `size_t`.  `Buffer.Inv` is the representation
invariant of the picture, and `Buffer.readable` the byte queue the buffer stands
for; each operation keeps the first and acts on the second as a queue does
(`append` adds at the end, `retrieve` drops from the front).  `SoundBuffer` is a
buffer together with its invariant, so a connection cannot hold a broken one.
-/
namespace Mymuduo

/-- The three members of the class. -/
structure Buffer where
  buffer_ : List UInt8
  readerIndex_ : Nat
  writerIndex_ : Nat
deriving DecidableEq, Repr

namespace Buffer

def kCheapPrepend : Nat := 8
def kInitialSize : Nat := 1024

/-- The constructor.  Its parameter `initialSize` is not used by the code: the
vector always starts with `kCheapPrepend + kInitialSize` cells. -/
def new : Buffer where
  buffer_ := List.replicate (kCheapPrepend + kInitialSize) 0
  readerIndex_ := kCheapPrepend
  writerIndex_ := kCheapPrepend

def readableBytes (b : Buffer) : Nat := b.writerIndex_ - b.readerIndex_

def writableBytes (b : Buffer) : Nat := b.buffer_.length - b.writerIndex_

def prependableBytes (b : Buffer) : Nat := b.readerIndex_

/-- The `len` cells from `peek()` on. -/
def peek (b : Buffer) (len : Nat) : List UInt8 :=
  Region.slice b.buffer_ b.readerIndex_ (b.readerIndex_ + len)

def retrieveAll (b : Buffer) : Buffer :=
  { b with readerIndex_ := kCheapPrepend, writerIndex_ := kCheapPrepend }

def retrieve (b : Buffer) (len : Nat) : Buffer :=
  if len < b.readableBytes then
    { b with readerIndex_ := b.readerIndex_ + len }
  else
    b.retrieveAll

/-- `retrieveAsString`: the string returned, and the buffer. -/
def retrieveAsString (b : Buffer) (len : Nat) : List UInt8 × Buffer :=
  (b.peek len, b.retrieve len)

def retrieveAllAsString (b : Buffer) : List UInt8 × Buffer :=
  b.retrieveAsString b.readableBytes

def makeSpace (b : Buffer) (len : Nat) : Buffer :=
  if b.writableBytes + b.prependableBytes < len + kCheapPrepend then
    { b with buffer_ := Region.resize b.buffer_ (b.writerIndex_ + len) 0 }
  else
    -- slide the readable bytes down to `kCheapPrepend`
    { buffer_ := Region.overwrite b.buffer_ kCheapPrepend
        (Region.slice b.buffer_ b.readerIndex_ b.writerIndex_)
      readerIndex_ := kCheapPrepend
      writerIndex_ := kCheapPrepend + b.readableBytes }

def ensureWriteableBytes (b : Buffer) (len : Nat) : Buffer :=
  if b.writableBytes < len then b.makeSpace len else b

/-- The copy of `data` to `beginWrite()` and the move of `writerIndex_`. -/
def store (b : Buffer) (data : List UInt8) : Buffer :=
  { b with
    buffer_ := Region.overwrite b.buffer_ b.writerIndex_ data
    writerIndex_ := b.writerIndex_ + data.length }

def append (b : Buffer) (data : List UInt8) : Buffer :=
  (b.ensureWriteableBytes data.length).store data

/-- `sizeof(extrabuf)` in `readFd`. -/
def extrabufSize : Nat := 65536

/-- How many bytes the `readv` of `readFd` offers: the writable region, and the
stack buffer as well when the region is smaller than it. -/
def readCapacity (b : Buffer) : Nat :=
  if b.writableBytes < extrabufSize then b.writableBytes + extrabufSize else b.writableBytes

/-- `readFd`: the value returned (`*saveErrno` for an error) and the buffer.
`readv` fills the writable region first; what did not fit is in `extrabuf` and
is appended. -/
def readFd (b : Buffer) : ReadAnswer → Except Errno Nat × Buffer
  | .fail e => (.error e, b)
  | .data incoming =>
    let data := incoming.take b.readCapacity
    let writable := b.writableBytes
    if data.length ≤ writable then
      (.ok data.length, b.store data)
    else
      (.ok data.length, (b.store (data.take writable)).append (data.drop writable))

/-- `writeFd`: the region handed to the kernel starts at `peek()` and has
`writableBytes()` cells. -/
def writeFd (b : Buffer) (a : WriteAnswer) : Except Errno (List UInt8) :=
  write (b.peek b.writableBytes) a

/-! ## The representation invariant -/

/-- The picture at the head of `Buffer.h`. -/
structure Inv (b : Buffer) : Prop where
  cheap_le : kCheapPrepend ≤ b.readerIndex_
  reader_le : b.readerIndex_ ≤ b.writerIndex_
  writer_le : b.writerIndex_ ≤ b.buffer_.length

/-- The byte queue the buffer stands for. -/
def readable (b : Buffer) : List UInt8 :=
  Region.slice b.buffer_ b.readerIndex_ b.writerIndex_

variable {b : Buffer}

theorem new_inv : new.Inv := by
  constructor <;> simp [new]

theorem length_readable (h : b.Inv) : b.readable.length = b.readableBytes :=
  Region.length_slice h.writer_le

theorem retrieve_inv (h : b.Inv) (len : Nat) : (b.retrieve len).Inv := by
  have h1 := h.cheap_le
  have h2 := h.writer_le
  unfold retrieve
  split
  · rename_i hlt
    unfold readableBytes at hlt
    exact ⟨by simp only; omega, by simp only; omega, h2⟩
  · have h3 := h.reader_le
    exact ⟨Nat.le_refl _, Nat.le_refl _, by simp only [retrieveAll]; omega⟩

theorem readable_retrieve (h : b.Inv) (len : Nat) :
    (b.retrieve len).readable = b.readable.drop len := by
  unfold retrieve
  split
  · exact Region.drop_slice.symm
  · rename_i hge
    rw [List.drop_of_length_le (by rw [length_readable h]; omega)]
    exact Region.slice_self

/-- The readable bytes have their place behind `kCheapPrepend`. -/
theorem slide_fits (h : b.Inv) :
    kCheapPrepend + (Region.slice b.buffer_ b.readerIndex_ b.writerIndex_).length
      ≤ b.buffer_.length := by
  obtain ⟨h1, h2, h3⟩ := h
  rw [Region.length_slice h3]
  omega

/-- Either branch of `makeSpace` keeps the contents and makes room for `len`
bytes behind them. -/
theorem makeSpace_spec (h : b.Inv) {len : Nat} (hlen : b.writableBytes < len) :
    (b.makeSpace len).Inv ∧ (b.makeSpace len).readable = b.readable ∧
      len ≤ (b.makeSpace len).writableBytes := by
  have hfit := slide_fits h
  obtain ⟨h1, h2, h3⟩ := h
  unfold writableBytes at hlen
  unfold makeSpace
  split
  · refine ⟨⟨h1, h2, ?_⟩, ?_, ?_⟩
    · simp only [Region.length_resize]; omega
    · exact Region.slice_resize (Nat.le_add_right _ _) h3
    · simp only [writableBytes, Region.length_resize]; omega
  · rename_i hroom
    simp only [writableBytes, prependableBytes, kCheapPrepend] at hroom h1
    have hcopy : (Region.slice b.buffer_ b.readerIndex_ b.writerIndex_).length
        = b.readableBytes := Region.length_slice h3
    refine ⟨⟨Nat.le_refl _, Nat.le_add_right _ _, ?_⟩, ?_, ?_⟩
    · simp only [Region.length_overwrite hfit]
      rwa [hcopy] at hfit
    · simp only [readable]
      rw [← hcopy]
      exact Region.slice_overwrite_self (by omega)
    · simp only [writableBytes, Region.length_overwrite hfit]
      simp only [readableBytes, kCheapPrepend]
      omega

theorem ensureWriteableBytes_spec (h : b.Inv) (len : Nat) :
    (b.ensureWriteableBytes len).Inv ∧ (b.ensureWriteableBytes len).readable = b.readable ∧
      len ≤ (b.ensureWriteableBytes len).writableBytes := by
  unfold ensureWriteableBytes
  split
  · exact makeSpace_spec h ‹_›
  · exact ⟨h, rfl, Nat.le_of_not_lt ‹_›⟩

/-- Copying bytes that fit behind the readable ones appends them. -/
theorem store_spec (h : b.Inv) {data : List UInt8} (hfit : data.length ≤ b.writableBytes) :
    (b.store data).Inv ∧ (b.store data).readable = b.readable ++ data := by
  obtain ⟨h1, h2, h3⟩ := h
  unfold writableBytes at hfit
  refine ⟨⟨h1, ?_, ?_⟩, Region.slice_overwrite_append h2 h3⟩
  · simp only [store]; omega
  · simp only [store]
    rw [Region.length_overwrite (by omega)]
    omega

theorem append_spec (h : b.Inv) (data : List UInt8) :
    (b.append data).Inv ∧ (b.append data).readable = b.readable ++ data := by
  obtain ⟨hinv, hread, hroom⟩ := ensureWriteableBytes_spec h data.length
  rw [append, ← hread]
  exact store_spec hinv hroom

/-- `readFd` appends exactly the bytes it reports, or changes nothing. -/
theorem readFd_spec (h : b.Inv) (a : ReadAnswer) :
    (b.readFd a).2.Inv ∧ (b.readFd a).2.readable = b.readable ++
      match a with
      | .fail _ => []
      | .data incoming => incoming.take b.readCapacity := by
  cases a with
  | fail e => simpa [readFd] using h
  | data incoming =>
    simp only [readFd]
    split
    · rename_i hle
      exact store_spec h hle
    · obtain ⟨hinv, hread⟩ := store_spec h
        (List.length_take_le b.writableBytes (incoming.take b.readCapacity))
      obtain ⟨hinv', hread'⟩ := append_spec hinv
        ((incoming.take b.readCapacity).drop b.writableBytes)
      refine ⟨hinv', ?_⟩
      rw [hread', hread, List.append_assoc, List.take_append_drop]

/-- The region `writeFd` offers has `writableBytes()` cells, all inside the
vector. -/
theorem length_peek_writableBytes (h : b.Inv) :
    (b.peek b.writableBytes).length = b.writableBytes := by
  have h2 := h.reader_le
  have h3 := h.writer_le
  rw [peek, Region.length_slice (by rw [writableBytes]; omega), Nat.add_sub_cancel_left]

/-- As long as no more than the readable bytes are taken from the region offered,
what is taken is a prefix of the readable bytes. -/
theorem take_peek {n m : Nat} (h : b.Inv) (hn : n ≤ m) (hr : n ≤ b.readableBytes) :
    (b.peek m).take n = b.readable.take n := by
  have h2 := h.reader_le
  unfold readableBytes at hr
  rw [peek, readable, Region.take_slice (by omega), Region.take_slice (by omega)]

end Buffer

/-! ## Buffers that carry their invariant -/

/-- A buffer with its representation invariant. -/
structure SoundBuffer extends Buffer where
  inv : toBuffer.Inv
deriving DecidableEq, Repr

namespace SoundBuffer

def new : SoundBuffer := ⟨Buffer.new, Buffer.new_inv⟩

def append (b : SoundBuffer) (data : List UInt8) : SoundBuffer :=
  ⟨b.toBuffer.append data, (Buffer.append_spec b.inv data).1⟩

def retrieve (b : SoundBuffer) (len : Nat) : SoundBuffer :=
  ⟨b.toBuffer.retrieve len, Buffer.retrieve_inv b.inv len⟩

/-- The buffer `readFd` leaves. -/
def readFd (b : SoundBuffer) (a : ReadAnswer) : SoundBuffer :=
  ⟨(b.toBuffer.readFd a).2, (Buffer.readFd_spec b.inv a).1⟩

@[simp] theorem readable_new : new.readable = [] := Region.slice_self

@[simp] theorem readable_append (b : SoundBuffer) (data : List UInt8) :
    (b.append data).readable = b.readable ++ data :=
  (Buffer.append_spec b.inv data).2

@[simp] theorem readable_retrieve (b : SoundBuffer) (len : Nat) :
    (b.retrieve len).readable = b.readable.drop len :=
  Buffer.readable_retrieve b.inv len

theorem readableBytes_eq (b : SoundBuffer) : b.readableBytes = b.readable.length :=
  (Buffer.length_readable b.inv).symm

end SoundBuffer
end Mymuduo
