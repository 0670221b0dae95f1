import Mymuduo.Buffer

/-! # Reading into two regions

`readFd` lets one `readv(2)` fill the writable cells of the buffer and, when they are fewer
than `sizeof(extrabuf)`, an array on the stack behind them, and then puts the two parts
together again: the first is in place and only `writerIndex_` moves, the second is appended,
which may grow the vector or slide what was just read.

`Buffer.readFdScatter` is the function with the two regions, the one of `Buffer.readFd`
without them; they agree on every buffer that has its representation invariant
(`readFdScatter_eq`).
-/
namespace Mymuduo

/-- `readv(fd, vec, iovcnt)`: the number of bytes read, and the regions they are in, filled in
order. -/
def readv (vec : List (List UInt8)) : ReadAnswer → Except Errno (Nat × List (List UInt8))
  | .fail e => .error e
  | .data incoming =>
    let bytes := incoming.take vec.flatten.length
    .ok (bytes.length, Region.scatter vec bytes)

namespace Buffer

/-- `readFd`: the value returned (`*saveErrno` for an error) and the buffer. -/
def readFdScatter (b : Buffer) (a : ReadAnswer) : Except Errno Nat × Buffer :=
  let extrabuf : List UInt8 := List.replicate extrabufSize 0
  let writable := b.writableBytes
  let vec := [b.buffer_.drop b.writerIndex_, extrabuf]
  let iovcnt := if writable < extrabuf.length then 2 else 1
  match readv (vec.take iovcnt) a with
  | .error e => (.error e, b)
  | .ok (n, filled) =>
    -- the first region is the tail of the vector, the second the array on the stack
    let b' := { b with buffer_ := b.buffer_.take b.writerIndex_ ++ filled.getD 0 [] }
    let extrabuf' := filled.getD 1 extrabuf
    if n ≤ writable then
      (.ok n, { b' with writerIndex_ := b'.writerIndex_ + n })
    else
      (.ok n, { b' with writerIndex_ := b'.buffer_.length }.append (extrabuf'.take (n - writable)))

variable {b : Buffer}

/-- The regions offered have `readCapacity` cells. -/
theorem length_regions (b : Buffer) (extrabuf : List UInt8)
    (h : extrabuf.length = extrabufSize) :
    ([b.buffer_.drop b.writerIndex_, extrabuf].take
      (if b.writableBytes < extrabuf.length then 2 else 1)).flatten.length = b.readCapacity := by
  rw [readCapacity, h, writableBytes]
  split <;> simp [h]

/-- The vector after the read: its tail is the first region. -/
theorem scatter_head (ls : List (List UInt8)) (data : List UInt8) :
    b.buffer_.take b.writerIndex_ ++
        (Region.scatter (b.buffer_.drop b.writerIndex_ :: ls) data).getD 0 [] =
      Region.overwrite b.buffer_ b.writerIndex_ (data.take b.writableBytes) := by
  rw [Region.scatter, List.getD_cons_zero, List.length_drop, Region.take_append_overwrite_drop,
    writableBytes]

/-- What did not fit is at the head of the second region. -/
theorem scatter_extra {l extrabuf data : List UInt8}
    (h : data.length ≤ l.length + extrabuf.length) :
    ((Region.scatter [l, extrabuf] data).getD 1 extrabuf).take (data.length - l.length) =
      data.drop l.length := by
  have hfits : (data.drop l.length).length ≤ extrabuf.length := by
    rw [List.length_drop]
    omega
  rw [Region.scatter, Region.scatter, List.getD_cons_succ, List.getD_cons_zero,
    List.take_of_length_le hfits, ← List.length_drop, Region.take_overwrite_zero]

/-- **The two regions are put together as one.** -/
theorem readFdScatter_eq (h : b.Inv) (a : ReadAnswer) : b.readFdScatter a = b.readFd a := by
  have hle := h.writer_le
  cases a with
  | fail e => rfl
  | data incoming =>
    have hextra := List.length_replicate (n := extrabufSize) (a := (0 : UInt8))
    have htail : (b.buffer_.drop b.writerIndex_).length = b.writableBytes := List.length_drop
    have hcapacity : (incoming.take b.readCapacity).length ≤ b.readCapacity := by
      rw [List.length_take]
      omega
    unfold readFdScatter readFd readv
    simp only [length_regions b _ hextra]
    generalize incoming.take b.readCapacity = data at hcapacity
    have hvector : ∀ k, b.buffer_.take b.writerIndex_ ++
        (Region.scatter ([b.buffer_.drop b.writerIndex_,
          List.replicate extrabufSize 0].take (k + 1)) data).getD 0 [] =
        Region.overwrite b.buffer_ b.writerIndex_ (data.take b.writableBytes) :=
      fun k => scatter_head _ data
    split
    · rename_i hfits
      rw [List.take_of_length_le hfits] at hvector
      split <;> rw [hvector, store]
    · rename_i hover
      have hboth : b.writableBytes < (List.replicate extrabufSize (0 : UInt8)).length := by
        rw [hextra]
        by_contra hnot
        rw [readCapacity, if_neg hnot] at hcapacity
        exact hover hcapacity
      rw [readCapacity, ← hextra, if_pos hboth, ← htail] at hcapacity
      have hlength : b.buffer_.length = b.writerIndex_ + (data.take b.writableBytes).length := by
        rw [List.length_take, Nat.min_eq_left (by omega), writableBytes]
        omega
      have hoverflow := scatter_extra hcapacity
      rw [htail] at hoverflow
      rw [if_pos hboth, hvector 1, store, ← hlength,
        Region.length_overwrite (Nat.le_of_eq hlength.symm)]
      rw [← hoverflow]
      rfl

/-- **`readFd` appends exactly what was read.**  Whatever number `n` of bytes of the stream
the read gets, up to what the two regions hold, they stand behind the readable ones
afterwards, in order, and the invariant is kept; an error leaves the buffer as it was. -/
theorem readFd_appends (h : b.Inv) (stream : List UInt8) (n : Nat) (hstream : n ≤ stream.length)
    (hcapacity : n ≤ b.readCapacity) :
    (b.readFdScatter (.data (stream.take n))).1 = .ok n ∧
      (b.readFdScatter (.data (stream.take n))).2.Inv ∧
      (b.readFdScatter (.data (stream.take n))).2.readable = b.readable ++ stream.take n ∧
      ∀ e, b.readFdScatter (.fail e) = (.error e, b) := by
  have htake : (stream.take n).take b.readCapacity = stream.take n := by
    rw [List.take_take, Nat.min_eq_right hcapacity]
  obtain ⟨hinv, hread⟩ := readFd_spec h (.data (stream.take n))
  simp only [htake] at hread
  simp only [readFdScatter_eq h]
  refine ⟨?_, hinv, hread, fun e => rfl⟩
  simp only [readFd, htake, List.length_take, Nat.min_eq_left hstream]
  split <;> rfl

/-- One byte more than the cells of a fresh buffer: the vector is filled and grows. -/
theorem readFd_appends_over : (new.readFdScatter (.data (List.replicate 1025 7))).1 = .ok 1025 ∧
    (new.readFdScatter (.data (List.replicate 1025 7))).2.readable = List.replicate 1025 7 := by
  have hstream : (List.replicate 2000 (7 : UInt8)).take 1025 = List.replicate 1025 7 := by
    rw [List.take_replicate]
    rfl
  obtain ⟨hn, -, hread, -⟩ := readFd_appends new_inv (List.replicate 2000 7) 1025
    (by rw [List.length_replicate]; decide) (by decide +kernel)
  rw [hstream] at hn hread
  exact ⟨hn, hread.trans (by rw [readable, new, Region.slice_self, List.nil_append])⟩

end Buffer
end Mymuduo
