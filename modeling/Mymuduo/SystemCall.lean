import Mathlib.Data.List.Basic

/-! # The system calls a connection makes

The kernel's side of `write(2)` and `readv(2)` on a non-blocking stream socket.
An answer is chosen by the environment before the call; whatever region the call
then offers, the answer determines the outcome, so quantifying over answers is
quantifying over every partial write and every failure.
-/
namespace Mymuduo

/-- The values of `errno` the library compares against, and all the others. -/
inductive Errno where
  | EWOULDBLOCK
  | EPIPE
  | ECONNRESET
  | other (code : Nat)
deriving DecidableEq, Repr

/-- What the kernel does with a `write(2)`.  `accept k` takes the first `k` bytes
of the region offered, or the whole region if it is shorter.  `fail e logged`
takes nothing and sets `errno` to `e`; `logged` is what `errno` reads once the
caller has made a logging call, which may overwrite it. -/
inductive WriteAnswer where
  | accept (k : Nat)
  | fail (e logged : Errno)
deriving DecidableEq, Repr

/-- `write(fd, region)`: the bytes taken, whose number is the value returned, or
the error. -/
def write (region : List UInt8) : WriteAnswer → Except Errno (List UInt8)
  | .accept k => .ok (region.take k)
  | .fail e _ => .error e

/-- What `errno` reads after the logging call that follows a failed write. -/
def WriteAnswer.logged : WriteAnswer → Option Errno
  | .accept _ => none
  | .fail _ logged => some logged

/-- The kernel takes some of the bytes or would block; nothing else goes wrong. -/
def WriteAnswer.Graceful : WriteAnswer → Prop
  | .accept _ => True
  | .fail e _ => e = .EWOULDBLOCK

/-- What a `readv(2)` finds: `data incoming` are the bytes that can be read
without blocking (none at the end of the stream), `fail e` an error. -/
inductive ReadAnswer where
  | data (incoming : List UInt8)
  | fail (e : Errno)
deriving DecidableEq, Repr

end Mymuduo
