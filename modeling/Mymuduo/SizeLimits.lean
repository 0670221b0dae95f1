import Mymuduo.BufferMemory

/-! # Lengths near the end of `size_t`

The sums in `ensureWriteableBytes` and `makeSpace` are sums of `size_t`, modulo `2 ^ 64`,
and two of them have the caller's `len` in them.  The operations below are those of
`Buffer.lean` with that arithmetic, and with a `resize` that throws above the maximum size
of the vector.  As long as `writerIndex_ + len` does not wrap they are those of `Buffer.lean`,
or throw and change nothing (`ensureWriteableBytesSizeT_eq`).  Where it does, the call
returns without the room it was asked for: with `len + kCheapPrepend` wrapped as well, the
test takes any free cell for enough; and if only `writerIndex_ + len` wraps, the vector is
cut off in front of its own `writerIndex_`.
-/
namespace Mymuduo
open Transition

namespace SizeT

/-- `2 ^ 64`. -/
def modulus : Nat := UInt64.size

def add (m n : Nat) : Nat := (m + n) % modulus
def sub (m n : Nat) : Nat := (m + (modulus - n)) % modulus

variable {m n : Nat}

theorem add_of_lt (h : m + n < modulus) : add m n = m + n := Nat.mod_eq_of_lt h

/-- A sum that wraps falls below its terms. -/
theorem add_lt_left (hm : m < modulus) (hn : n < modulus) (h : modulus ≤ m + n) :
    add m n < m := by
  unfold add
  generalize modulus = k at hm hn h ⊢
  rw [Nat.mod_eq_sub_mod h, Nat.mod_eq_of_lt (by omega)]
  omega

theorem add_lt_right (hm : m < modulus) (hn : n < modulus) (h : modulus ≤ m + n) :
    add m n < n := by
  have hcomm : add m n = add n m := congrArg (· % modulus) (Nat.add_comm m n)
  rw [hcomm]
  exact add_lt_left hn hm (Nat.add_comm m n ▸ h)

theorem sub_of_le (hm : m < modulus) (h : n ≤ m) : sub m n = m - n := by
  have hsum : m + (modulus - n) = m - n + modulus := by omega
  rw [sub, hsum, Nat.add_mod_right, Nat.mod_eq_of_lt (by omega)]

end SizeT

/-- What `std::vector::resize` throws. -/
inductive LengthError where
  | length_error
deriving DecidableEq, Repr

/-- `std::vector<char>::max_size()`: the largest `ptrdiff_t`, `2 ^ 63 - 1`. -/
def maxSize : Nat := UInt64.size / 2 - 1

/-- The lengths the call asks `ensureWriteableBytes` for, from outside or in `append`. -/
def BufferCall.asked : BufferCall → Option Nat
  | .op (.append data) => some data.length
  | .op (.ensureWriteableBytes len) => some len
  | _ => none

/-- A length is a `size_t`. -/
def BufferCall.Sized (x : BufferCall) : Prop := ∀ len ∈ x.asked, len < SizeT.modulus

namespace Buffer

def writableBytesSizeT (b : Buffer) : Nat := SizeT.sub b.buffer_.length b.writerIndex_

/-- `makeSpace`: whether it throws, and the buffer. -/
def makeSpaceSizeT (b : Buffer) (len : Nat) : Except LengthError Unit × Buffer :=
  if SizeT.add b.writableBytesSizeT b.prependableBytes < SizeT.add len kCheapPrepend then
    if maxSize < SizeT.add b.writerIndex_ len then
      (.error .length_error, b)
    else
      (.ok (), { b with buffer_ := Region.resize b.buffer_ (SizeT.add b.writerIndex_ len) 0 })
  else
    -- the indices are in order here, so these sums and differences cannot wrap
    (.ok (), { buffer_ := Region.overwrite b.buffer_ kCheapPrepend
                 (Region.slice b.buffer_ b.readerIndex_ b.writerIndex_)
               readerIndex_ := kCheapPrepend
               writerIndex_ := kCheapPrepend + b.readableBytes })

def ensureWriteableBytesSizeT (b : Buffer) (len : Nat) : Except LengthError Unit × Buffer :=
  if b.writableBytesSizeT < len then b.makeSpaceSizeT len else (.ok (), b)

/-- `append`; an exception leaves it before the copy. -/
def appendSizeT (b : Buffer) (data : List UInt8) : Buffer :=
  match b.ensureWriteableBytesSizeT data.length with
  | (.ok _, b') => b'.store data
  | (.error _, b') => b'

def readFdSizeT (b : Buffer) : ReadAnswer → Buffer
  | .fail _ => b
  | .data incoming =>
    let data := incoming.take b.readCapacity
    let writable := b.writableBytes
    if data.length ≤ writable then
      b.store data
    else
      (b.store (data.take writable)).appendSizeT (data.drop writable)

def callSizeT (b : Buffer) : BufferCall → Buffer
  | .op (.append data) => b.appendSizeT data
  | .op (.ensureWriteableBytes len) => (b.ensureWriteableBytesSizeT len).2
  | .op op => b.step op
  | .readFd a => b.readFdSizeT a

/-- What `ensureWriteableBytes(len)` owes its caller: room, with the readable bytes as they
were and the indices in order; or an exception, with the buffer as it was. -/
def EnsuresRoom (b : Buffer) (len : Nat) : Prop :=
  let r := b.ensureWriteableBytesSizeT len
  (r.1 = .ok () ∧ len ≤ r.2.writableBytesSizeT ∧ r.2.readable = b.readable ∧
    r.2.readerIndex_ ≤ r.2.writerIndex_ ∧ r.2.writerIndex_ ≤ r.2.buffer_.length) ∨
  (r.1 = .error .length_error ∧ r.2 = b)

/-- The representation invariant of a buffer whose vector is no longer than vectors get. -/
structure Sound (b : Buffer) : Prop where
  inv : b.Inv
  length_le : b.buffer_.length ≤ maxSize

variable {b : Buffer} {len : Nat}

/-! ## One call -/

theorem Sound.lt_modulus (h : b.Sound) : b.buffer_.length < SizeT.modulus :=
  Nat.lt_of_le_of_lt h.length_le (by decide)

theorem writableBytesSizeT_eq (h : b.Inv) (hlt : b.buffer_.length < SizeT.modulus) :
    b.writableBytesSizeT = b.writableBytes :=
  SizeT.sub_of_le hlt h.writer_le

/-- The free cells are not so many that their sum wraps. -/
theorem free_eq (h : b.Sound) : SizeT.add b.writableBytesSizeT b.prependableBytes =
    b.writableBytes + b.prependableBytes := by
  obtain ⟨-, h2, h3⟩ := h.inv
  have hlt := h.lt_modulus
  rw [writableBytesSizeT_eq h.inv hlt]
  refine SizeT.add_of_lt ?_
  rw [writableBytes, prependableBytes]
  omega

/-- **Without a wrap the call is the one over natural numbers**, or throws because no vector
is that long. -/
theorem ensureWriteableBytesSizeT_eq (h : b.Sound) (hlen : b.writerIndex_ + len < SizeT.modulus) :
    b.ensureWriteableBytesSizeT len =
      if maxSize < (b.ensureWriteableBytes len).buffer_.length then (.error .length_error, b)
      else (.ok (), b.ensureWriteableBytes len) := by
  have hnot : ¬ maxSize < b.buffer_.length := Nat.not_lt.mpr h.length_le
  have hcheap : len + kCheapPrepend < SizeT.modulus := by
    have h1 := h.inv.cheap_le
    have h2 := h.inv.reader_le
    omega
  rw [ensureWriteableBytesSizeT, ensureWriteableBytes, writableBytesSizeT_eq h.inv h.lt_modulus]
  split
  · rw [makeSpaceSizeT, free_eq h, SizeT.add_of_lt hcheap, SizeT.add_of_lt hlen,
      length_makeSpace h.inv, makeSpace]
    split
    · rfl
    · rfl
  · rfl

/-- The room is there, or the exception is thrown. -/
theorem ensuresRoom_of_lt (h : b.Sound) (hlen : b.writerIndex_ + len < SizeT.modulus) :
    b.EnsuresRoom len := by
  obtain ⟨hinv, hread, hroom⟩ := ensureWriteableBytes_spec h.inv len
  rw [EnsuresRoom, ensureWriteableBytesSizeT_eq h hlen]
  split
  · exact Or.inr ⟨rfl, rfl⟩
  · rename_i hle
    have hsound : (b.ensureWriteableBytes len).Sound := ⟨hinv, Nat.not_lt.mp hle⟩
    refine Or.inl ⟨rfl, ?_, hread, hinv.reader_le, hinv.writer_le⟩
    rwa [writableBytesSizeT_eq hinv hsound.lt_modulus]

/-- With `writerIndex_ + len` wrapped, the call returns and the room is not there. -/
theorem not_ensuresRoom_of_le (h : b.Sound) (hsized : len < SizeT.modulus)
    (hlen : SizeT.modulus ≤ b.writerIndex_ + len) : ¬ b.EnsuresRoom len := by
  have hlt := h.lt_modulus
  have hmax : maxSize + maxSize < SizeT.modulus := by decide
  have hfit := slide_fits h.inv
  obtain ⟨⟨h1, h2, h3⟩, hle⟩ := h
  have hshort : b.writableBytesSizeT < len := by
    rw [writableBytesSizeT_eq ⟨h1, h2, h3⟩ hlt, writableBytes]
    omega
  rw [EnsuresRoom, ensureWriteableBytesSizeT, if_pos hshort, makeSpaceSizeT,
    free_eq ⟨⟨h1, h2, h3⟩, hle⟩]
  by_cases hcheap : len + kCheapPrepend < SizeT.modulus
  · -- the vector is cut off below `writerIndex_`
    have hwrap : SizeT.add b.writerIndex_ len < b.writerIndex_ :=
      SizeT.add_lt_left (by omega) hsized hlen
    rw [SizeT.add_of_lt hcheap, if_pos (by rw [writableBytes, prependableBytes]; omega),
      if_neg (by omega)]
    rintro (⟨-, -, -, -, hcut⟩ | ⟨herror, -⟩)
    · simp only [Region.length_resize] at hcut
      omega
    · cases herror
  · -- any free cell is taken for enough
    have hwrap : SizeT.add len kCheapPrepend < kCheapPrepend :=
      SizeT.add_lt_right hsized (by decide) (by omega)
    rw [if_neg (by rw [prependableBytes]; omega)]
    rintro (⟨-, hroom, -⟩ | ⟨herror, -⟩)
    · have hindex : kCheapPrepend + b.readableBytes ≤ b.buffer_.length := by
        rwa [Region.length_slice h3] at hfit
      simp only [writableBytesSizeT, Region.length_overwrite hfit] at hroom
      rw [SizeT.sub_of_le hlt hindex] at hroom
      omega
    · cases herror

/-- **One call**: `ensureWriteableBytes` meets its contract exactly if `writerIndex_ + len`
does not wrap. -/
theorem ensuresRoom_iff (h : b.Sound) (hsized : len < SizeT.modulus) :
    b.EnsuresRoom len ↔ b.writerIndex_ + len < SizeT.modulus := by
  refine ⟨fun hroom => ?_, ensuresRoom_of_lt h⟩
  by_contra hwrap
  exact not_ensuresRoom_of_le h hsized (Nat.not_lt.mp hwrap) hroom

/-! ## Runs -/

theorem new_sound : new.Sound :=
  ⟨new_inv, Nat.le_trans (Nat.le_of_eq List.length_replicate) (by decide)⟩

theorem sound_ensureWriteableBytesSizeT (h : b.Sound)
    (hlen : b.writerIndex_ + len < SizeT.modulus) : (b.ensureWriteableBytesSizeT len).2.Sound := by
  rw [ensureWriteableBytesSizeT_eq h hlen]
  split
  · exact h
  · exact ⟨(ensureWriteableBytes_spec h.inv len).1, Nat.not_lt.mp ‹_›⟩

theorem sound_store (h : b.Sound) {data : List UInt8} (hfit : data.length ≤ b.writableBytes) :
    (b.store data).Sound :=
  ⟨(store_spec h.inv hfit).1, Nat.le_trans (Nat.le_of_eq (length_store h.inv hfit)) h.length_le⟩

theorem sound_appendSizeT (h : b.Sound) {data : List UInt8}
    (hlen : b.writerIndex_ + data.length < SizeT.modulus) : (b.appendSizeT data).Sound := by
  rw [appendSizeT, ensureWriteableBytesSizeT_eq h hlen]
  by_cases hmax : maxSize < (b.ensureWriteableBytes data.length).buffer_.length
  · rw [if_pos hmax]
    exact h
  · obtain ⟨hinv, -, hroom⟩ := ensureWriteableBytes_spec h.inv data.length
    rw [if_neg hmax]
    exact sound_store ⟨hinv, Nat.not_lt.mp hmax⟩ hroom

theorem sound_retrieve (h : b.Sound) (len : Nat) : (b.retrieve len).Sound :=
  ⟨retrieve_inv h.inv len, Nat.le_trans (Nat.le_of_eq (length_retrieve len)) h.length_le⟩

theorem readCapacity_le (b : Buffer) : b.readCapacity ≤ b.writableBytes + extrabufSize := by
  unfold readCapacity
  split <;> omega

theorem sound_readFdSizeT (h : b.Sound) (a : ReadAnswer) : (b.readFdSizeT a).Sound := by
  cases a with
  | fail e => exact h
  | data incoming =>
    simp only [readFdSizeT]
    split
    · exact sound_store h ‹_›
    · have hsound := sound_store h
        (List.length_take_le b.writableBytes (incoming.take b.readCapacity))
      have hwriter := hsound.inv.writer_le
      have hmax := hsound.length_le
      have hextra : ((incoming.take b.readCapacity).drop b.writableBytes).length
          ≤ extrabufSize := by
        have hcapacity := b.readCapacity_le
        rw [List.length_drop, List.length_take]
        omega
      have hroom : maxSize + extrabufSize < SizeT.modulus := by decide
      exact sound_appendSizeT hsound (by omega)

/-- Each length the call asks `ensureWriteableBytes` for is treated by its contract. -/
def MeetsContract (b : Buffer) (x : BufferCall) : Prop := ∀ len ∈ x.asked, b.EnsuresRoom len

/-- No length the call asks for wraps behind `writerIndex_`. -/
def NoWrap (b : Buffer) (x : BufferCall) : Prop :=
  ∀ len ∈ x.asked, b.writerIndex_ + len < SizeT.modulus

theorem sound_callSizeT (h : b.Sound) {x : BufferCall} (hx : b.NoWrap x) :
    (b.callSizeT x).Sound := by
  cases x with
  | readFd a => exact sound_readFdSizeT h a
  | op op =>
    cases op with
    | append data => exact sound_appendSizeT h (hx _ rfl)
    | ensureWriteableBytes len => exact sound_ensureWriteableBytesSizeT h (hx _ rfl)
    | retrieve len | retrieveAsString len => exact sound_retrieve h len
    | retrieveAll =>
      have hall := sound_retrieve h b.readableBytes
      rwa [← retrieveAll_eq] at hall
    | retrieveAllAsString => exact sound_retrieve h _

/-- **`ensureWriteableBytes` for every `size_t`.**  In a run of calls on a fresh buffer every
length asked for is treated as it should be, exactly if none of them wraps when it is added
to `writerIndex_`. -/
theorem ensure_writeable_iff (xs : List BufferCall) (hxs : ∀ x ∈ xs, x.Sized) :
    Along callSizeT MeetsContract new xs ↔ Along callSizeT NoWrap new xs :=
  along_congr Sound BufferCall.Sized new_sound (fun _ _ _ h hx => sound_callSizeT h hx)
    (fun _ _ hx h => forall₂_congr fun len hlen => ensuresRoom_iff h (hx len hlen)) xs hxs

/-- The largest length that does not wrap behind a fresh buffer's `writerIndex_`: it is
refused. -/
theorem ensure_writeable_refused :
    Along callSizeT MeetsContract new [.op (.ensureWriteableBytes (SizeT.modulus - 9))] := by
  refine (ensure_writeable_iff _ ?_).mpr ?_
  · intro x hx len hlen
    rw [List.mem_singleton.mp hx] at hlen
    obtain rfl : SizeT.modulus - 9 = len := Option.some.inj hlen
    decide
  · refine (along_singleton _).mpr fun len hlen => ?_
    obtain rfl : SizeT.modulus - 9 = len := Option.some.inj hlen
    decide

/-- The largest `size_t`: `len + kCheapPrepend` wraps to `7`, and a fresh buffer is taken to
have the room.  And behind 100 bytes, a length that wraps to `8` with `writerIndex_`: the
vector is cut down to 8 cells. -/
theorem ensure_writeable_wraps :
    ¬ Along callSizeT MeetsContract new [.op (.ensureWriteableBytes (SizeT.modulus - 1))] ∧
    (new.ensureWriteableBytesSizeT (SizeT.modulus - 1)).1 = .ok () ∧
    (new.ensureWriteableBytesSizeT (SizeT.modulus - 1)).2.writableBytesSizeT = 1024 ∧
    ((new.append (List.replicate 100 1)).ensureWriteableBytesSizeT
      (SizeT.modulus - 100)).1 = .ok () ∧
    ((new.append (List.replicate 100 1)).ensureWriteableBytesSizeT
      (SizeT.modulus - 100)).2.buffer_.length = 8 := by
  refine ⟨fun h => ?_, by decide +kernel, by decide +kernel, by decide +kernel,
    by decide +kernel⟩
  have hroom := (along_singleton _).mp h (SizeT.modulus - 1) rfl
  rw [ensuresRoom_iff new_sound (by decide)] at hroom
  exact absurd hroom (by decide)

end Buffer
end Mymuduo
