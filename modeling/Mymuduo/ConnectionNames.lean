import Mymuduo.AddressText
import Mymuduo.ConnectionTable

/-! # The names of connections

A connection is named after its server, the address the server listens on and a number, with
`-` and `#` between them.  The name of the server may have any of these characters in it; the
address and the number have none, so that the name can be read from the end.  Two servers in
one process that differ in name or address never give the same name to two connections.
-/
namespace Mymuduo
open Transition Numeral

namespace InetAddress

theorem mem_toIpPort {a : InetAddress} {c : Char} (h : c ∈ a.toIpPort.toList) :
    c.isDigit = true ∨ c = '.' ∨ c = ':' := by
  rw [toList_toIpPort, List.mem_append, List.mem_cons] at h
  rcases h with h | h | h
  · exact (mem_toIp h).imp_right Or.inl
  · exact Or.inr (Or.inr h)
  · exact Or.inl (Nat.isDigit_of_mem_toDigits (by decide) (by decide) h)

end InetAddress

/-- A name, with all the digits of its number. -/
def nameOf (name : String) (addr : InetAddress) (id : Nat) : String :=
  name ++ "-" ++ addr.toIpPort ++ "#" ++ toString id

theorem toList_nameOf (name : String) (addr : InetAddress) (id : Nat) :
    (nameOf name addr id).toList =
      name.toList ++ '-' :: (addr.toIpPort.toList ++ '#' :: Nat.toDigits 10 id) := by
  simp [nameOf]

/-- **A name can be read from the end.** -/
theorem nameOf_inj {name name' : String} {addr addr' : InetAddress} {id id' : Nat} :
    nameOf name addr id = nameOf name' addr' id' ↔ name = name' ∧ addr = addr' ∧ id = id' := by
  have hhash : ∀ a : InetAddress, '#' ∉ a.toIpPort.toList := by
    intro a hmem
    rcases InetAddress.mem_toIpPort hmem with h | h | h <;> exact absurd h (by decide)
  have hdash : ∀ (a : InetAddress) (n : Nat),
      '-' ∉ a.toIpPort.toList ++ '#' :: Nat.toDigits 10 n := by
    intro a n hmem
    rcases List.mem_append.mp hmem with hmem | hmem
    · rcases InetAddress.mem_toIpPort hmem with h | h | h <;> exact absurd h (by decide)
    · rcases List.mem_cons.mp hmem with h | hmem
      · exact absurd h (by decide)
      · exact absurd (Nat.isDigit_of_mem_toDigits (by decide) (by decide) hmem) (by decide)
  constructor
  · intro h
    have hchars := congrArg String.toList h
    rw [toList_nameOf, toList_nameOf, append_cons_inj_last (hdash _ _) (hdash _ _),
      append_cons_inj_first (hhash _) (hhash _)] at hchars
    obtain ⟨hname, haddr, hid⟩ := hchars
    exact ⟨String.toList_injective hname, InetAddress.toIpPort_inj (String.toList_injective haddr),
      InetAddress.toDigits_injective hid⟩
  · rintro ⟨rfl, rfl, rfl⟩
    rfl

namespace ServerSystem

/-- The server of this name and address, and its connections named and numbered as they should
be. -/
structure NamedAfter (name : String) (addr : InetAddress) (s : ServerSystem) : Prop where
  name_ : s.server.name_ = name
  ipPort_ : s.server.ipPort_ = addr.toIpPort
  numbered : Numbered s

section Run
variable {name : String} {addr : InetAddress} {s : ServerSystem}

theorem NamedAfter.exec (h : NamedAfter name addr s) (op : TableOp)
    (hfew : op.accepts → s.conns.length < 2 ^ 31 - 2) : NamedAfter name addr (s.execTable op) := by
  obtain ⟨hnumbered, -⟩ := h.numbered.exec op hfew
  cases op with
  | newConnection sockfd ioLoop => exact ⟨h.name_, h.ipPort_, hnumbered⟩
  | removeConnectionInLoop thread conn =>
    refine ⟨?_, ?_, hnumbered⟩ <;> rw [execTable] <;> split
    · exact h.name_
    · exact h.name_
    · exact h.ipPort_
    · exact h.ipPort_

/-- **In every run** with fewer than `2 ^ 31 - 1` accepts. -/
theorem namedAfter_run (name : String) (addr : InetAddress) (numThreads : Int)
    (writeComplete : Bool) (ops : List TableOp)
    (hfew : ops.countP TableOp.accepts < 2 ^ 31 - 1) :
    let s := ops.foldl execTable
      (new (TcpServer.started name addr.toIpPort numThreads writeComplete))
    NamedAfter name addr s ∧ s.conns.length = ops.countP TableOp.accepts := by
  induction ops using List.reverseRecOn with
  | nil => exact ⟨⟨rfl, rfl, numbered_new addr name numThreads writeComplete⟩, rfl⟩
  | append_singleton ops op ih =>
    rw [List.countP_append] at hfew
    obtain ⟨hnamed, hlength⟩ := ih (by omega)
    rw [List.foldl_append, List.countP_append]
    refine ⟨hnamed.exec op fun hop => ?_, ?_⟩
    · rw [hlength]
      simp only [List.countP_singleton, hop, if_true] at hfew
      omega
    · show (execTable _ op).conns.length = _
      rw [length_conns_execTable, hlength]

theorem NamedAfter.name_eq (h : NamedAfter name addr s) {i : Nat} {c : ServedConnection}
    (hc : s.conns[i]? = some c) : c.name_ = nameOf name addr (i + 1) := by
  rw [h.numbered.exact.named i c hc, fullName, h.name_, h.ipPort_]
  rfl

end Run

/-- **Connections of all servers have names of their own.**  However many connections two
servers accept and remove: two of their connections have the same name only if the servers
agree in name and address and the connections in their number. -/
theorem names_apart {name name' : String} {addr addr' : InetAddress} {numThreads numThreads' : Int}
    {writeComplete writeComplete' : Bool} {ops ops' : List TableOp} {s s' : ServerSystem}
    (hfew : ops.countP TableOp.accepts < 2 ^ 31 - 1)
    (hfew' : ops'.countP TableOp.accepts < 2 ^ 31 - 1)
    (hs : s = ops.foldl execTable
      (new (TcpServer.started name addr.toIpPort numThreads writeComplete)))
    (hs' : s' = ops'.foldl execTable
      (new (TcpServer.started name' addr'.toIpPort numThreads' writeComplete')))
    {i j : Nat} {c d : ServedConnection} (hc : s.conns[i]? = some c) (hd : s'.conns[j]? = some d) :
    c.name_ = d.name_ ↔ name = name' ∧ addr = addr' ∧ i = j := by
  have hnamed : NamedAfter name addr s :=
    hs ▸ (namedAfter_run name addr numThreads writeComplete ops hfew).1
  have hnamed' : NamedAfter name' addr' s' :=
    hs' ▸ (namedAfter_run name' addr' numThreads' writeComplete' ops' hfew').1
  rw [hnamed.name_eq hc, hnamed'.name_eq hd, nameOf_inj, Nat.add_right_cancel_iff]

/-- A server called `a`, and one whose name ends like the name of a connection. -/
theorem names_apart_look_alike :
    let addr : InetAddress := ⟨(1, 2, 3, 4), (0, 80)⟩
    let s := execTable (new (TcpServer.started "a" addr.toIpPort 1 false)) (.newConnection 5 .base)
    let s' := execTable (new (TcpServer.started "a-1.2.3.4:80#1" addr.toIpPort 1 false))
      (.newConnection 6 .base)
    ∃ c d, s.conns[0]? = some c ∧ s'.conns[0]? = some d ∧ c.name_ ≠ d.name_ := by
  intro addr s s'
  refine ⟨_, _, rfl, rfl, fun hname => ?_⟩
  have hsame := (@names_apart "a" "a-1.2.3.4:80#1" addr addr 1 1 false false
    [.newConnection 5 .base] [.newConnection 6 .base] s s' (by decide) (by decide) rfl rfl 0 0 _ _
    rfl rfl).mp hname
  exact absurd hsame.1 (by decide)

end ServerSystem
end Mymuduo
