import Mathlib.Data.Nat.Digits.Defs

/-! # Socket addresses

`InetAddress` wraps a `sockaddr_in`, whose address and port are in network byte
order, the most significant byte first.  `toIpPort` writes both into a buffer of 64
bytes; `length_toIpPort_le` is why it fits, there and in the name of a connection.
-/
namespace Mymuduo

structure InetAddress where
  sin_addr : UInt8 × UInt8 × UInt8 × UInt8
  sin_port : UInt8 × UInt8
deriving DecidableEq, Repr

/-- `ntohs` of a port. -/
def ntohs (port : UInt8 × UInt8) : UInt16 := port.1.toUInt16 <<< 8 ||| port.2.toUInt16

namespace InetAddress

/-- What `inet_ntop` writes for an `AF_INET` address. -/
def toIp (a : InetAddress) : String :=
  toString a.sin_addr.1.toNat ++ "." ++ toString a.sin_addr.2.1.toNat ++ "." ++
    toString a.sin_addr.2.2.1.toNat ++ "." ++ toString a.sin_addr.2.2.2.toNat

def toPort (a : InetAddress) : UInt16 := ntohs a.sin_port

def toIpPort (a : InetAddress) : String := a.toIp ++ ":" ++ toString a.toPort.toNat

theorem length_byte_le (b : UInt8) : (toString b.toNat).length ≤ 3 :=
  Nat.repr_length _ 3 (by decide) (Nat.lt_trans b.toNat_lt (by decide))

theorem length_toIp_le (a : InetAddress) : a.toIp.length ≤ 15 := by
  have h1 := length_byte_le a.sin_addr.1
  have h2 := length_byte_le a.sin_addr.2.1
  have h3 := length_byte_le a.sin_addr.2.2.1
  have h4 := length_byte_le a.sin_addr.2.2.2
  have hdot : ".".length = 1 := by decide
  simp only [toIp, String.length_append, hdot]
  omega

/-- `255.255.255.255:65535` is the longest there is. -/
theorem length_toIpPort_le (a : InetAddress) : a.toIpPort.length ≤ 21 := by
  have hip := a.length_toIp_le
  have hport : (toString a.toPort.toNat).length ≤ 5 :=
    Nat.repr_length _ 5 (by decide) (Nat.lt_trans a.toPort.toNat_lt (by decide))
  have hcolon : ":".length = 1 := by decide
  simp only [toIpPort, String.length_append, hcolon]
  omega

example : toIpPort ⟨(192, 168, 0, 7), (31, 144)⟩ = "192.168.0.7:8080" := by decide

end InetAddress
end Mymuduo
