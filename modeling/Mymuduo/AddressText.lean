import Mymuduo.InetAddress
import Mymuduo.Lib.Numeral

/-! # Addresses as text

The constructor of `InetAddress` reads its address from text, with `inet_addr`; `toIp` and
`toIpPort` write it.  `inet_addr` takes more than is ever written: the parts may be octal or
hexadecimal, the last part may stand for several bytes, and what follows a blank is ignored.
What is no address at all becomes `255.255.255.255`, and the constructor does not tell.  What
`toIp` has written is always read back as the address it came from (`text_round_trip`).
-/
namespace Mymuduo
open Numeral

/-- `strtoul` in base 0, of a text that begins with a digit. -/
def strtoul : List Char → Nat × List Char
  | '0' :: x :: c :: cs =>
    if (x = 'x' ∨ x = 'X') ∧ digitValue c < 16 then scan 16 0 (c :: cs)
    else scan 8 0 ('0' :: x :: c :: cs)
  | '0' :: cs => scan 8 0 ('0' :: cs)
  | cs => scan 10 0 cs

def isspace (c : Char) : Bool := c = ' ' || (9 ≤ c.toNat && c.toNat ≤ 13)

/-- The numbers-and-dots notation, with at most `k` dots: every part but the last one is a
byte, and the last one is all the bytes that are left. -/
def inet_aton (k : Nat) (cs : List Char) : Option Nat :=
  if cs.head?.any Char.isDigit then
    let (val, rest) := strtoul cs
    if rest.head? = some '.' then
      match k with
      | 0 => none
      | k + 1 =>
        if val ≤ 0xff then (inet_aton k rest.tail).map (val * 256 ^ (k + 1) + ·) else none
    else if val < 256 ^ (k + 1) ∧ rest.head?.all isspace then some val
    else none
  else none

def INADDR_NONE : Nat := 0xffffffff

/-- The bytes of an address, the most significant one first. -/
def htonl (val : Nat) : UInt8 × UInt8 × UInt8 × UInt8 :=
  (UInt8.ofNat (val / 256 ^ 3), UInt8.ofNat (val / 256 ^ 2), UInt8.ofNat (val / 256),
    UInt8.ofNat val)

def inet_addr (cp : List Char) : UInt8 × UInt8 × UInt8 × UInt8 :=
  htonl ((inet_aton 3 cp).getD INADDR_NONE)

def htons (port : UInt16) : UInt8 × UInt8 := ((port >>> 8).toUInt8, port.toUInt8)

/-- A string as C sees it, which ends at the first NUL. -/
def c_str (s : String) : List Char := s.toList.takeWhile fun c => c ≠ Char.ofNat 0

namespace InetAddress

/-- The constructor from a port and the text of an address. -/
def new (port : UInt16) (ip : String) : InetAddress where
  sin_addr := inet_addr (c_str ip)
  sin_port := htons port

/-! ## Reading what was written -/

theorem toNat_ntohs (port : UInt8 × UInt8) :
    (ntohs port).toNat = port.1.toNat * 256 + port.2.toNat := by
  have h₁ := port.1.toNat_lt
  have h₂ := port.2.toNat_lt
  have hor := Nat.shiftLeft_add_eq_or_of_lt (i := 8) h₂ port.1.toNat
  simp only [ntohs, UInt16.toNat_or, UInt16.toNat_shiftLeft, UInt8.toNat_toUInt16]
  rw [show (8 : UInt16).toNat % 16 = 8 from rfl, Nat.mod_eq_of_lt (by rw [Nat.shiftLeft_eq]; omega),
    ← hor, Nat.shiftLeft_eq]

theorem htons_ntohs (port : UInt8 × UInt8) : htons (ntohs port) = port := by
  have h₁ := port.1.toNat_lt
  have h₂ := port.2.toNat_lt
  refine Prod.ext (UInt8.toNat_inj.mp ?_) (UInt8.toNat_inj.mp ?_)
  · simp [htons, toNat_ntohs, Nat.shiftRight_eq_div_pow]
    omega
  · simp [htons, toNat_ntohs]

theorem ntohs_htons (port : UInt16) : ntohs (htons port) = port := by
  have h := port.toNat_lt
  refine UInt16.toNat_inj.mp ?_
  rw [toNat_ntohs]
  simp [htons, Nat.shiftRight_eq_div_pow]
  omega

/-- Four bytes make a number, from which they can be had again. -/
theorem htonl_bytes (b₁ b₂ b₃ b₄ : UInt8) :
    htonl (b₁.toNat * 256 ^ 3 + (b₂.toNat * 256 ^ 2 + (b₃.toNat * 256 ^ 1 + b₄.toNat))) =
      (b₁, b₂, b₃, b₄) := by
  have h₁ := b₁.toNat_lt
  have h₂ := b₂.toNat_lt
  have h₃ := b₃.toNat_lt
  have h₄ := b₄.toNat_lt
  simp only [htonl, Prod.mk.injEq, ← UInt8.toNat_inj, UInt8.toNat_ofNat']
  omega

/-- A decimal is read to its end, and so is zero, though as an octal. -/
theorem strtoul_toDigits (n : Nat) {cs : List Char} (h : ∀ c ∈ cs.head?, c = '.') :
    strtoul (Nat.toDigits 10 n ++ cs) = (n, cs) := by
  have hstop : ∀ b, b ≤ 16 → Stops b cs := fun b hb c hc => by
    rw [h c hc]
    exact hb
  rcases Nat.eq_zero_or_pos n with rfl | hpos
  · have hzero : scan 8 0 ('0' :: cs) = (0, cs) := by
      rw [← scan_stop (hstop 8 (by decide)) 0]
      rfl
    rcases cs with - | ⟨x, - | ⟨c, cs⟩⟩
    · exact hzero
    · exact hzero
    · obtain rfl : x = '.' := h x rfl
      exact hzero
  · have hten : scan 10 0 (Nat.toDigits 10 n ++ cs) = (n, cs) := by
      rw [scan_toDigits (by decide) (by decide), scan_stop (hstop 10 (by decide))]
    cases hds : Nat.toDigits 10 n with
    | nil => exact absurd hds Nat.toDigits_ne_nil
    | cons d ds =>
      -- no octal
      have hd : d ≠ '0' := by
        rintro rfl
        exact Nat.ne_of_gt hpos (toDigits_head (by decide) (by decide) hds).1
      rw [hds] at hten
      rw [List.cons_append, strtoul]
      · exact hten
      · intro x c rest heq
        exact hd (List.cons.inj heq).1
      · intro rest heq
        exact hd (List.cons.inj heq).1

theorem isDigit_head (n : Nat) (cs : List Char) :
    (Nat.toDigits 10 n ++ cs).head?.any Char.isDigit = true := by
  cases hds : Nat.toDigits 10 n with
  | nil => exact absurd hds Nat.toDigits_ne_nil
  | cons d ds =>
    exact Nat.isDigit_of_mem_toDigits (by decide) (by decide) (hds ▸ List.mem_cons_self)

/-- A byte and a dot. -/
theorem inet_aton_dot (b : UInt8) (k : Nat) (cs : List Char) :
    inet_aton (k + 1) (Nat.toDigits 10 b.toNat ++ '.' :: cs) =
      (inet_aton k cs).map (b.toNat * 256 ^ (k + 1) + ·) := by
  rw [inet_aton, if_pos (isDigit_head _ _), strtoul_toDigits _ (by simp)]
  have hbyte : b.toNat ≤ 0xff := Nat.le_of_lt_succ b.toNat_lt
  simp [hbyte]

/-- The last byte. -/
theorem inet_aton_last (b : UInt8) : inet_aton 0 (Nat.toDigits 10 b.toNat) = some b.toNat := by
  have hhead := isDigit_head b.toNat []
  have hread : strtoul (Nat.toDigits 10 b.toNat ++ []) = (b.toNat, []) :=
    strtoul_toDigits _ (by simp)
  rw [List.append_nil] at hhead hread
  rw [inet_aton, if_pos hhead, hread]
  simp [b.toNat_lt]

theorem toList_toIp (a : InetAddress) : a.toIp.toList =
    Nat.toDigits 10 a.sin_addr.1.toNat ++ '.' :: (Nat.toDigits 10 a.sin_addr.2.1.toNat ++
      '.' :: (Nat.toDigits 10 a.sin_addr.2.2.1.toNat ++
        '.' :: Nat.toDigits 10 a.sin_addr.2.2.2.toNat)) := by
  simp [toIp]

/-- Digits and dots. -/
theorem mem_toIp {a : InetAddress} {c : Char} (h : c ∈ a.toIp.toList) :
    c.isDigit = true ∨ c = '.' := by
  have hdigit : ∀ n, c ∈ Nat.toDigits 10 n → c.isDigit = true :=
    fun n => Nat.isDigit_of_mem_toDigits (by decide) (by decide)
  rw [toList_toIp] at h
  simp only [List.mem_append, List.mem_cons] at h
  rcases h with h | h | h | h | h | h | h
  · exact Or.inl (hdigit _ h)
  · exact Or.inr h
  · exact Or.inl (hdigit _ h)
  · exact Or.inr h
  · exact Or.inl (hdigit _ h)
  · exact Or.inr h
  · exact Or.inl (hdigit _ h)

theorem notMem_toIp (a : InetAddress) {c : Char} (hdigit : c.isDigit = false) (hdot : c ≠ '.') :
    c ∉ a.toIp.toList := by
  intro hmem
  rcases mem_toIp hmem with h | h
  · cases hdigit.symm.trans h
  · exact hdot h

theorem c_str_toIp (a : InetAddress) : c_str a.toIp = a.toIp.toList := by
  have hall : ∀ c ∈ a.toIp.toList, decide (c ≠ Char.ofNat 0) = true := by
    rintro c hc
    refine decide_eq_true fun hnul => ?_
    exact a.notMem_toIp (by decide) (by decide) (hnul ▸ hc)
  have h := @List.takeWhile_append_of_pos _ _ _ [] hall
  rwa [List.append_nil, List.takeWhile_nil, List.append_nil] at h

theorem inet_aton_toIp (a : InetAddress) : inet_aton 3 a.toIp.toList =
    some (a.sin_addr.1.toNat * 256 ^ 3 + (a.sin_addr.2.1.toNat * 256 ^ 2 +
      (a.sin_addr.2.2.1.toNat * 256 ^ 1 + a.sin_addr.2.2.2.toNat))) := by
  rw [toList_toIp, inet_aton_dot _ 2, inet_aton_dot _ 1, inet_aton_dot _ 0, inet_aton_last]
  simp only [Option.map_some]

theorem inet_addr_toIp (a : InetAddress) : inet_addr a.toIp.toList = a.sin_addr := by
  rw [inet_addr, inet_aton_toIp, Option.getD_some]
  exact htonl_bytes ..

theorem new_toIp (a : InetAddress) : new a.toPort a.toIp = a := by
  rw [new, c_str_toIp, inet_addr_toIp, toPort, htons_ntohs]

theorem toList_toIpPort (a : InetAddress) :
    a.toIpPort.toList = a.toIp.toList ++ ':' :: Nat.toDigits 10 a.toPort.toNat := by
  simp [toIpPort]

theorem toDigits_injective {m n : Nat} (h : Nat.toDigits 10 m = Nat.toDigits 10 n) : m = n := by
  calc m = Nat.ofDigitChars 10 (Nat.toDigits 10 m) 0 := Nat.ofDigitChars_ten_toDigits.symm
    _ = Nat.ofDigitChars 10 (Nat.toDigits 10 n) 0 := by rw [h]
    _ = n := Nat.ofDigitChars_ten_toDigits

/-- `toIpPort` tells any two addresses apart. -/
theorem toIpPort_inj {a b : InetAddress} (h : a.toIpPort = b.toIpPort) : a = b := by
  have hchars := congrArg String.toList h
  rw [toList_toIpPort, toList_toIpPort, append_cons_inj_first
    (a.notMem_toIp (by decide) (by decide)) (b.notMem_toIp (by decide) (by decide))] at hchars
  obtain ⟨hip, hport⟩ := hchars
  calc a = new a.toPort a.toIp := a.new_toIp.symm
    _ = new b.toPort b.toIp := by
      rw [String.toList_injective hip, UInt16.toNat_inj.mp (toDigits_injective hport)]
    _ = b := b.new_toIp

/-- **Addresses as text.**  The constructor undoes `toIp` and `toPort`, for every address; it
keeps the port, whatever it makes of the text; and `toIpPort` tells any two addresses apart. -/
theorem text_round_trip (a b : InetAddress) (port : UInt16) (ip : String) :
    new a.toPort a.toIp = a ∧ (new port ip).toPort = port ∧ (a.toIpPort = b.toIpPort ↔ a = b) :=
  ⟨a.new_toIp, ntohs_htons port, toIpPort_inj, fun h => h ▸ rfl⟩

/-- Leading zeros make an octal, and a name is no address. -/
example : (new 80 "010.0x10.258 eth0").toIp = "8.16.1.2" ∧
    (new 80 "localhost").toIp = "255.255.255.255" := by decide +kernel


end InetAddress
end Mymuduo
