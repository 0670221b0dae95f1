import Mymuduo.TcpConnection

/-! # What becomes of a message

Every way one call of `sendInLoop` can end: refused, handed over whole, handed over in
part, kept after an error that may pass, or dropped after one that does not.  As long as
the logging call between the failed `write(2)` and the second look at `errno` leaves
`errno` alone, no byte is lost but those of a message dropped over `EPIPE` or
`ECONNRESET` (`sendInLoop_conserves`).

`LOG_ERROR` formats and prints, and may overwrite `errno`.  Then it is the logger's `errno`
that decides between keeping the message and dropping it (`error_decision_iff`).
-/
namespace Mymuduo

namespace Errno

/-- The errors over which `sendInLoop` gives a message up. -/
def Fatal (e : Errno) : Prop := e = .EPIPE ∨ e = .ECONNRESET

instance (e : Errno) : Decidable e.Fatal := inferInstanceAs (Decidable (_ ∨ _))

end Errno

namespace WriteAnswer

/-- The write fails with an error over which the message is given up. -/
def Fatal : WriteAnswer → Prop
  | .accept _ => False
  | .fail e _ => e.Fatal

/-- The logging call that follows a failure leaves `errno` as it was. -/
def KeepsErrno : WriteAnswer → Prop
  | .accept _ => True
  | .fail e logged => logged = e

/-- The write fails, and the message is given up over what `errno` reads after the logging
call. -/
def GivesUp : WriteAnswer → Prop
  | .accept _ => False
  | .fail e logged => e ≠ .EWOULDBLOCK ∧ logged.Fatal

/-- Offered `n` bytes, the kernel does not take them all. -/
def Leaves (n : Nat) : WriteAnswer → Prop
  | .accept k => k < n
  | .fail .. => 0 < n

theorem Graceful.not_givesUp {a : WriteAnswer} (h : a.Graceful) : ¬ a.GivesUp := by
  cases a with
  | accept k => exact id
  | fail e logged => exact fun hgives => hgives.1 h

end WriteAnswer

/-- A `write(2)` is among the effects. -/
def WriteAttempted (es : List Effect) : Prop := ∃ n bs, Effect.write n bs ∈ es

namespace TcpConnection
variable (c : TcpConnection) (data : List UInt8) (a : WriteAnswer)

/-- Nothing sent before is under way. -/
def Idle : Prop := c.channel_.isWriting = false ∧ c.outputBuffer_.readableBytes = 0

instance : Decidable c.Idle := inferInstanceAs (Decidable (_ ∧ _))

/-- Where `sendInLoop` tries a direct write. -/
def WritesDirectly : Prop := c.state_ ≠ .kDisconnected ∧ c.Idle

instance : Decidable c.WritesDirectly := inferInstanceAs (Decidable (_ ∧ _))

/-! ## The direct write -/

/-- With output under way no write is tried. -/
theorem directWrite_of_busy (h : ¬ c.Idle) : c.directWrite data a = (0, false, []) := by
  rw [directWrite, if_neg]
  simpa [Idle] using h

/-- A write that is tried is the first effect. -/
theorem directWrite_of_idle (h : c.Idle) :
    ∃ bs rest, (c.directWrite data a).2.2 = .write data.length bs :: rest := by
  rw [directWrite, if_pos (by simpa [Idle] using h)]
  cases a with
  | accept k => exact ⟨_, _, rfl⟩
  | fail e logged =>
    simp only [write]
    split <;> exact ⟨_, _, rfl⟩

/-- The effects of the first half hold a write exactly where one is tried. -/
theorem attempted_directWrite : WriteAttempted (c.directWrite data a).2.2 ↔ c.Idle := by
  by_cases hidle : c.Idle
  · obtain ⟨bs, rest, h⟩ := c.directWrite_of_idle data a hidle
    refine iff_of_true ⟨data.length, bs, ?_⟩ hidle
    rw [h]
    exact List.mem_cons_self
  · rw [c.directWrite_of_busy data a hidle]
    refine iff_of_false ?_ hidle
    rintro ⟨n, bs, h⟩
    cases h

/-- A failed write takes nothing, and `faultError` is raised by the errno after the logging
call. -/
theorem directWrite_fail (e logged : Errno) :
    (c.directWrite data (.fail e logged)).1 = 0 ∧
      ((c.directWrite data (.fail e logged)).2.1 = true ↔
        c.Idle ∧ e ≠ .EWOULDBLOCK ∧ logged.Fatal) := by
  by_cases hidle : c.Idle
  · rw [and_iff_right hidle, directWrite, if_pos (by simpa [Idle] using hidle)]
    simp only [write]
    split
    · rename_i he
      simp [he, WriteAnswer.logged, Errno.Fatal]
    · rename_i he
      simp [he]
  · rw [c.directWrite_of_busy data _ hidle]
    exact ⟨rfl, iff_of_false Bool.false_ne_true fun h => hidle h.1⟩

theorem directWrite_accept_fault (k : Nat) : (c.directWrite data (.accept k)).2.1 = false := by
  unfold directWrite
  split <;> rfl

/-- **When a message is given up**: its write was tried, and failed that way. -/
theorem directWrite_fault_iff : (c.directWrite data a).2.1 = true ↔ c.Idle ∧ a.GivesUp := by
  cases a with
  | accept k =>
    rw [directWrite_accept_fault]
    exact iff_of_false Bool.false_ne_true fun h => h.2
  | fail e logged => exact (c.directWrite_fail data e logged).2

/-- When something of the message is left behind a write that was tried. -/
theorem directWrite_leaves_iff (h : c.Idle) :
    (c.directWrite data a).1 < data.length ↔ a.Leaves data.length := by
  rw [directWrite, if_pos (by simpa [Idle] using h)]
  cases a with
  | accept k =>
    simp only [write, WriteAnswer.Leaves, List.length_take]
    omega
  | fail e logged =>
    simp only [write]
    split <;> exact Iff.rfl

/-- With `errno` kept, the fault is that of the write. -/
theorem directWrite_fault_of_keeps (ha : a.KeepsErrno) :
    (c.directWrite data a).2.1 = true ↔ c.Idle ∧ a.Fatal := by
  rw [directWrite_fault_iff]
  cases a with
  | accept k => exact Iff.rfl
  | fail e logged =>
    obtain rfl : logged = e := ha
    refine and_congr_right fun _ => and_iff_right_of_imp ?_
    rintro (rfl | rfl) <;> decide

/-! ## The call -/

theorem attempted_sendInLoop :
    WriteAttempted (c.sendInLoop data a).2 ↔ c.WritesDirectly := by
  have hdirect := c.attempted_directWrite data a
  rcases c.sendInLoop_cases data a with ⟨hst, h⟩ | ⟨hst, -, h⟩ | ⟨hst, -, -, h⟩ <;>
    rw [h, WritesDirectly]
  · refine iff_of_false ?_ fun hw => hw.1 hst
    rintro ⟨n, bs, hmem⟩
    simp at hmem
  · rw [hdirect, and_iff_right hst]
  · rw [← hdirect, and_iff_right hst]
    constructor
    · rintro ⟨n, bs, hmem⟩
      rcases List.mem_append.mp hmem with hmem | hmem
      · exact ⟨n, bs, hmem⟩
      · rcases bufferRest_effects _ _ hmem with ⟨op, hop⟩ | ⟨m, hm⟩
        · cases hop
        · cases hm
    · rintro ⟨n, bs, hmem⟩
      exact ⟨n, bs, List.mem_append_left _ hmem⟩

theorem bufferRest_inputBuffer : (c.bufferRest data).1.inputBuffer_ = c.inputBuffer_ := by
  unfold bufferRest
  simp only
  split <;> rfl

theorem sendInLoop_inputBuffer : (c.sendInLoop data a).1.inputBuffer_ = c.inputBuffer_ := by
  rcases c.sendInLoop_cases data a with ⟨-, h⟩ | ⟨-, -, h⟩ | ⟨-, -, -, h⟩ <;> rw [h]
  exact bufferRest_inputBuffer _ _

/-- A fault leaves the connection as it was. -/
theorem sendInLoop_of_fault (h : (c.directWrite data a).2.1 = true) :
    (c.sendInLoop data a).1 = c := by
  rcases c.sendInLoop_cases data a with ⟨-, hs⟩ | ⟨-, -, hs⟩ | ⟨-, hf, -, -⟩
  · rw [hs]
  · rw [hs]
  · rw [hf] at h
    cases h

/-- A message that is neither refused nor dropped waits behind the others as far as the
kernel does not take it. -/
theorem sendInLoop_isWriting
    (h : (c.sendInLoop data a).1.outputBuffer_.readable ≠ c.outputBuffer_.readable) :
    (c.sendInLoop data a).1.channel_.isWriting = true := by
  obtain ⟨rest, hread, ⟨rfl, -⟩ | ⟨-, hw⟩⟩ := c.sendInLoop_readable data a
  · exact absurd (hread.trans (List.append_nil _)) h
  · exact hw

/-- **`sendInLoop` conserves bytes on every outcome.**  A connection that is down is left
as it is and nothing is written.  Otherwise what the kernel takes and what waits afterwards
is what waited before and the message, unless the write fails over `EPIPE` or `ECONNRESET`,
which leaves `outputBuffer_` and the channel alone.  A write is tried only when nothing
waits, and what is buffered leaves the channel in writing mode. -/
theorem sendInLoop_conserves (ha : a.KeepsErrno) :
    let r := c.sendInLoop data a
    (c.state_ = .kDisconnected → r.1 = c ∧ ¬ WriteAttempted r.2) ∧
    (c.state_ ≠ .kDisconnected →
      (WriteAttempted r.2 ∧ a.Fatal →
        r.1.outputBuffer_ = c.outputBuffer_ ∧ r.1.channel_ = c.channel_) ∧
      (¬ (WriteAttempted r.2 ∧ a.Fatal) →
        acceptedBytes r.2 ++ r.1.outputBuffer_.readable = c.outputBuffer_.readable ++ data)) ∧
    (WriteAttempted r.2 → c.outputBuffer_.readable = []) ∧
    (r.1.outputBuffer_.readable ≠ c.outputBuffer_.readable → r.1.channel_.isWriting = true) ∧
    r.1.inputBuffer_ = c.inputBuffer_ ∧ r.1.state_ = c.state_ := by
  intro r
  have hattempted : WriteAttempted r.2 ↔ c.WritesDirectly := c.attempted_sendInLoop data a
  have hfault := c.directWrite_fault_of_keeps data a ha
  refine ⟨fun hst => ⟨?_, ?_⟩, fun hst => ⟨?_, ?_⟩, ?_, c.sendInLoop_isWriting data a,
    c.sendInLoop_inputBuffer data a, c.sendInLoop_state data a⟩
  · exact congrArg Prod.fst (if_pos hst)
  · rw [hattempted]
    exact fun hw => hw.1 hst
  · rw [hattempted]
    rintro ⟨hw, hfatal⟩
    have hsame : r.1 = c := c.sendInLoop_of_fault data a (hfault.mpr ⟨hw.2, hfatal⟩)
    rw [hsame]
    exact ⟨rfl, rfl⟩
  · rw [hattempted]
    intro hkept
    refine c.sendInLoop_stream_of_no_fault data a hst ?_
    rw [← Bool.not_eq_true, hfault]
    exact fun h => hkept ⟨⟨hst, h.1⟩, h.2⟩
  · rw [hattempted]
    intro hw
    exact List.length_eq_zero_iff.mp (c.outputBuffer_.readableBytes_eq.symm.trans hw.2.2)

/-- A partial write: one byte taken, two kept for the next write-ready event. -/
theorem sendInLoop_conserves_partial :
    let c := (TcpConnection.new "c" 5 false false).connectEstablished.1
    let r := c.sendInLoop [1, 2, 3] (.accept 1)
    acceptedBytes r.2 = [1] ∧ r.1.outputBuffer_.readable = [2, 3] ∧
      r.1.channel_.isWriting = true := by
  intro c r
  obtain ⟨-, hup, -, hwriting, -⟩ := c.sendInLoop_conserves [1, 2, 3] (.accept 1) trivial
  have haccepted : acceptedBytes r.2 = [1] := by decide +kernel
  have hold : c.outputBuffer_.readable = [] := by decide +kernel
  have hstream := (hup (by decide +kernel)).2 fun h => h.2
  rw [haccepted, hold] at hstream
  have hread : r.1.outputBuffer_.readable = [2, 3] := List.cons.inj hstream |>.2
  refine ⟨haccepted, hread, hwriting ?_⟩
  rw [hread, hold]
  exact List.cons_ne_nil _ _

/-! ## Which `errno` decides -/

section Failing
variable (e logged logged' : Errno)

/-- The connection a failed direct write leaves. -/
theorem sendInLoop_fail (hw : c.WritesDirectly) :
    (c.sendInLoop data (.fail e logged)).1 =
      if data = [] ∨ e ≠ .EWOULDBLOCK ∧ logged.Fatal then c else (c.bufferRest data).1 := by
  obtain ⟨hnone, hfault⟩ := c.directWrite_fail data e logged
  rw [and_iff_right hw.2] at hfault
  rcases c.sendInLoop_cases data (.fail e logged) with ⟨hst, -⟩ | ⟨-, hdone, h⟩ | ⟨-, hf, hlt, h⟩
  · exact absurd hst hw.1
  · rw [h, if_pos]
    rcases hdone with hf | hle
    · exact Or.inr (hfault.mp hf)
    · exact Or.inl (List.length_eq_zero_iff.mp (by omega))
  · rw [h, hnone, List.drop_zero, if_neg]
    rintro (rfl | hfatal)
    · exact absurd hlt (Nat.not_lt_zero _)
    · rw [hfault.mpr hfatal] at hf
      cases hf

/-- What is kept shows in the buffer. -/
theorem bufferRest_outputBuffer_ne (hdata : data ≠ []) :
    (c.bufferRest data).1.outputBuffer_ ≠ c.outputBuffer_ := by
  intro h
  have hread := c.bufferRest_readable data
  rw [h] at hread
  exact hdata (List.self_eq_append_right.mp hread)

/-- If the write is tried and fails over `e`, the message is dropped or kept as `e` says. -/
def DecidesByErrno : Prop :=
  let r := c.sendInLoop data (.fail e logged)
  WriteAttempted r.2 →
    (e.Fatal → r.1.outputBuffer_ = c.outputBuffer_ ∧ r.1.channel_ = c.channel_) ∧
    (¬ e.Fatal → r.1.outputBuffer_.readable = c.outputBuffer_.readable ++ data ∧
      (data ≠ [] → r.1.channel_.isWriting = true))

/-- The two calls, between which only the logger's effect on `errno` differs, leave the same
`outputBuffer_` and the same interest. -/
def SameEnd : Prop :=
  let r := c.sendInLoop data (.fail e logged)
  let r' := c.sendInLoop data (.fail e logged')
  r.1.outputBuffer_ = r'.1.outputBuffer_ ∧ r.1.channel_ = r'.1.channel_

/-- The write is tried on a message that is not empty, and its error is logged before `errno`
is read again. -/
def LogMatters : Prop := c.WritesDirectly ∧ data ≠ [] ∧ e ≠ .EWOULDBLOCK

instance : Decidable (c.LogMatters data e) := inferInstanceAs (Decidable (_ ∧ _ ∧ _))

theorem sendInLoop_of_not_direct (hw : ¬ c.WritesDirectly) :
    c.sendInLoop data (.fail e logged) = c.sendInLoop data (.fail e logged') := by
  by_cases hst : c.state_ = .kDisconnected
  · rw [sendInLoop, sendInLoop, if_pos hst, if_pos hst]
  · have hbusy : ¬ c.Idle := fun h => hw ⟨hst, h⟩
    rw [sendInLoop, sendInLoop, c.directWrite_of_busy data _ hbusy,
      c.directWrite_of_busy data _ hbusy]

theorem decides_iff : c.DecidesByErrno data e logged ↔
    (c.LogMatters data e → (logged.Fatal ↔ e.Fatal)) := by
  unfold DecidesByErrno LogMatters
  simp only [attempted_sendInLoop, and_imp]
  refine imp_congr_right fun hw => ?_
  rw [sendInLoop_fail _ _ _ _ hw]
  by_cases hdata : data = []
  · subst hdata
    simp
  by_cases hblock : e = .EWOULDBLOCK
  · subst hblock
    simp [hdata, Errno.Fatal, bufferRest_readable, bufferRest_isWriting]
  by_cases hl : logged.Fatal <;> by_cases he : e.Fatal <;>
    simp [hdata, hblock, hl, he, bufferRest_outputBuffer_ne, bufferRest_readable,
      bufferRest_isWriting]

theorem sameEnd_iff : c.SameEnd data e logged logged' ↔
    (c.LogMatters data e → (logged.Fatal ↔ logged'.Fatal)) := by
  unfold SameEnd LogMatters
  by_cases hw : c.WritesDirectly
  · simp only [sendInLoop_fail _ _ _ _ hw, hw, true_and]
    by_cases hdata : data = []
    · simp [hdata]
    by_cases hblock : e = .EWOULDBLOCK
    · simp [hdata, hblock]
    have hne := c.bufferRest_outputBuffer_ne data hdata
    by_cases hl : logged.Fatal <;> by_cases hl' : logged'.Fatal <;>
      simp [hdata, hblock, hl, hl', hne, hne.symm]
  · rw [c.sendInLoop_of_not_direct data e logged logged' hw]
    simp [hw]

/-- **The second look at `errno` decides.**  A failed write drops or keeps its message as its
own `errno` says, and ends the same whatever the logger does to `errno`, exactly when the
logger does not change whether `errno` is one of the two fatal values; unless nothing is
left to keep or drop, or the write would only block, where nothing is logged. -/
theorem error_decision_iff :
    (c.DecidesByErrno data e logged ↔
      (c.LogMatters data e → (logged.Fatal ↔ e.Fatal))) ∧
    (c.SameEnd data e logged logged' ↔
      (c.LogMatters data e → (logged.Fatal ↔ logged'.Fatal))) :=
  ⟨c.decides_iff data e logged, c.sameEnd_iff data e logged logged'⟩

/-- A write that fails over `EPIPE`, behind a standard output that is not a terminal
(`ENOTTY`): the message is kept. -/
theorem error_decision_overwritten :
    let c := (TcpConnection.new "c" 5 false false).connectEstablished.1
    ¬ c.DecidesByErrno [1] .EPIPE (.other 25) ∧ ¬ c.SameEnd [1] .EPIPE .EPIPE (.other 25) := by
  intro c
  constructor
  · rw [decides_iff]
    decide +kernel
  · rw [sameEnd_iff]
    decide +kernel

end Failing
end TcpConnection
end Mymuduo
