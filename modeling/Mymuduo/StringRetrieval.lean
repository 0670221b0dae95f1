import Mymuduo.BufferMemory

/-! # Strings longer than what is readable

`retrieve(len)` takes a `len` above `readableBytes()` for all of it.  `retrieveAsString(len)`
copies `len` cells from `peek()` on before it calls `retrieve`: where more is asked for than
is readable, the string goes on with whatever the cells behind `writerIndex_` were left with
by earlier calls, and with memory outside the vector once it runs past its end.
-/
namespace Mymuduo
open Transition

namespace Buffer

/-- The string holds the bytes that the `retrieve` takes off the readable ones, no others. -/
def ReturnsRemoved (b : Buffer) (len : Nat) : Prop :=
  ∃ b' result, b.retrieveAsStringChecked len = some (b', result) ∧
    result = b.readable.take (min len b.readableBytes) ∧ result ++ b'.readable = b.readable

variable {b : Buffer} {len : Nat}

/-- A string that is returned at all is as long as was asked. -/
theorem length_returned {b' : Buffer} {result : List UInt8}
    (h : b.retrieveAsStringChecked len = some (b', result)) : result.length = len := by
  obtain ⟨cells, hcells, heq⟩ := Option.map_eq_some_iff.mp h
  obtain ⟨-, rfl⟩ := Prod.mk.inj heq
  exact Region.length_of_copyOut hcells

/-- **One call**: the string is what is removed exactly if no more is asked for than is
readable. -/
theorem returnsRemoved_iff (h : b.Inv) : b.ReturnsRemoved len ↔ len ≤ b.readableBytes := by
  constructor
  · rintro ⟨b', result, hcall, hresult, -⟩
    have hlength := length_returned hcall
    rw [hresult, List.length_take, length_readable h] at hlength
    omega
  · intro hlen
    refine ⟨_, _, retrieveAsStringChecked_eq h hlen, ?_, ?_⟩
    · rw [Nat.min_eq_left hlen]
      exact peek_of_le h hlen
    · change b.peek len ++ (b.retrieve len).readable = b.readable
      rw [peek_of_le h hlen, readable_retrieve h, List.take_append_drop]

/-- **`retrieveAsString` agrees with `retrieve`**, after any calls on a fresh buffer, exactly
for the lengths up to `readableBytes()`. -/
theorem string_retrieval_iff (xs : List BufferCall) (len : Nat) :
    (xs.foldl call new).ReturnsRemoved len ↔ len ≤ (xs.foldl call new).readableBytes :=
  returnsRemoved_iff (inv_of_calls xs)

/-- Three bytes received and retrieved, then one: a string of three is the one and two of
those retrieved before. -/
theorem string_retrieval_stale :
    let b := [BufferCall.op (.append [115, 107, 121]), .op .retrieveAll,
      .readFd (.data [104])].foldl call new
    b.retrieveAsStringChecked 3 = some (b.retrieveAll, [104, 107, 121]) ∧
      ¬ b.ReturnsRemoved 3 := by
  intro b
  refine ⟨by decide +kernel, ?_⟩
  rw [returnsRemoved_iff (inv_of_calls _)]
  decide +kernel

end Buffer
end Mymuduo
