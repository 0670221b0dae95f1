import Mathlib.Data.List.Nodup
import Mymuduo.InetAddress
import Mymuduo.TcpServer

/-! # The connection table is exact

`newConnection` names a connection after the server, its address and a number, and
inserts it into `connections_` under that name; `removeConnectionInLoop` erases by
name.  The table stands for the set of connections accepted and not yet removed as
long as no two of them share a name, and that rests on the number: it never repeats,
and the buffer the name is printed into has room for all its digits.

Here the two functions run one at a time, in any order.
-/
namespace Mymuduo
open Transition

/-- A step on the table. -/
inductive TableOp where
  /-- `newConnection(sockfd)`, where `getNextLoop` has returned `ioLoop`. -/
  | newConnection (sockfd : Int) (ioLoop : LoopId)
  /-- `removeConnectionInLoop` for connection number `conn`, run by `thread`. -/
  | removeConnectionInLoop (thread : LoopId) (conn : Nat)
deriving DecidableEq, Repr

def TableOp.accepts : TableOp → Bool
  | .newConnection .. => true
  | .removeConnectionInLoop .. => false

namespace ServerSystem

def execTable (s : ServerSystem) : TableOp → ServerSystem
  | .newConnection sockfd ioLoop => s.newConnection sockfd ioLoop
  | .removeConnectionInLoop thread conn =>
    match s.conns[conn]? with
    | none => s
    | some c => s.removeConnectionInLoop thread conn c

/-- `removeConnectionInLoop` has run for connection number `conn`: it has submitted
`connectDestroyed`. -/
def Removed (s : ServerSystem) (conn : Nat) : Prop :=
  ∃ loop, (loop, .connectDestroyed conn) ∈ s.submitted

/-- The name of connection number `conn`, with all its digits. -/
def fullName (s : ServerSystem) (conn : Nat) : String :=
  s.server.name_ ++ "-" ++ s.server.ipPort_ ++ "#" ++ toString (conn + 1)

/-- The table maps the names of the connections accepted and not yet removed to these
connections, and nothing else. -/
structure TableExact (s : ServerSystem) : Prop where
  mem_iff : ∀ name conn, (name, conn) ∈ s.server.connections_ ↔
    ¬ s.Removed conn ∧ ∃ c, s.conns[conn]? = some c ∧ c.name_ = name
  /-- It is a map: no name has two entries. -/
  keys : (s.server.connections_.map Prod.fst).Nodup
  names : (s.conns.map ServedConnection.name_).Nodup
  named : ∀ conn c, s.conns[conn]? = some c → c.name_ = s.fullName conn

/-- An insertion overwrites nothing, and the counter behind the name does not
overflow; a repeated removal leaves the table as it is. -/
def StepExact (s : ServerSystem) : TableOp → Prop
  | .newConnection .. => s.server.connName ∉ s.server.connections_.map Prod.fst ∧
      s.server.nextConnId_ + 1 < 2 ^ 31
  | .removeConnectionInLoop thread conn => s.Removed conn →
      (s.execTable (.removeConnectionInLoop thread conn)).server.connections_ =
        s.server.connections_

/-! ## Names -/

theorem repr_injective : Function.Injective Nat.repr := by
  have hparse : Function.LeftInverse (fun s : String => Nat.ofDigitChars 10 s.toList 0) Nat.repr :=
    fun n => by simp
  exact hparse.injective

/-- Different numbers give different names. -/
theorem fullName_injective (s : ServerSystem) : Function.Injective s.fullName := by
  intro m n h
  have hnum : toString (m + 1) = toString (n + 1) := (String.append_right_inj _).mp h
  exact Nat.succ.inj (repr_injective hnum)

/-- The buffer has room for an address and ten digits. -/
theorem connName_eq {s : TcpServer} (hip : s.ipPort_.length ≤ 21)
    (hid : s.nextConnId_ < 10 ^ 10) : s.connName =
      s.name_ ++ "-" ++ s.ipPort_ ++ "#" ++ toString s.nextConnId_ := by
  have hnum : (toString s.nextConnId_).length ≤ 10 := Nat.repr_length _ 10 (by decide) hid
  have hdash : "-".length = 1 := by decide
  have hhash : "#".length = 1 := by decide
  have hfits : ("-" ++ s.ipPort_ ++ "#" ++ toString s.nextConnId_).toList.length ≤ 63 := by
    rw [String.length_toList]
    simp only [String.length_append, hdash, hhash]
    omega
  rw [TcpServer.connName, List.take_of_length_le hfits, String.ofList_toList]
  simp only [String.append_assoc]

/-! ## The invariant -/

/-- What the steps keep: the numbers given out are those of the connections made. -/
structure Numbered (s : ServerSystem) : Prop where
  ipPort : s.server.ipPort_.length ≤ 21
  nextConnId : s.server.nextConnId_ = s.conns.length + 1
  removed : ∀ conn, s.Removed conn → conn < s.conns.length
  exact : TableExact s

variable {s : ServerSystem}

theorem removed_newConnection (sockfd : Int) (ioLoop : LoopId) (conn : Nat) :
    (s.newConnection sockfd ioLoop).Removed conn ↔ s.Removed conn := by
  simp [Removed, newConnection]

theorem removed_removeConnectionInLoop (thread : LoopId) (c : ServedConnection) (conn i : Nat) :
    (s.removeConnectionInLoop thread conn c).Removed i ↔ s.Removed i ∨ i = conn := by
  simp only [Removed, removeConnectionInLoop, List.mem_append, List.mem_singleton, Prod.mk.injEq,
    ServerFunctor.connectDestroyed.injEq, exists_or, exists_and_right, exists_eq, true_and]

/-- The name of the next connection is not in use. -/
theorem Numbered.connName (h : Numbered s) (hfew : s.conns.length < 2 ^ 31 - 2) :
    s.server.connName = s.fullName s.conns.length := by
  have hid : s.server.nextConnId_ < 10 ^ 10 := by
    rw [h.nextConnId]
    omega
  rw [connName_eq h.ipPort hid, h.nextConnId, fullName]

theorem Numbered.fresh (h : Numbered s) (hfew : s.conns.length < 2 ^ 31 - 2) {conn : Nat}
    {c : ServedConnection} (hc : s.conns[conn]? = some c) : c.name_ ≠ s.server.connName := by
  rw [h.exact.named conn c hc, h.connName hfew]
  intro heq
  obtain ⟨hlt, -⟩ := List.getElem?_eq_some_iff.mp hc
  exact Nat.ne_of_lt hlt (s.fullName_injective heq)

theorem Numbered.connName_notMem (h : Numbered s) (hfew : s.conns.length < 2 ^ 31 - 2) :
    s.server.connName ∉ s.server.connections_.map Prod.fst := by
  intro hmem
  obtain ⟨⟨name, conn⟩, hentry, hname⟩ := List.mem_map.mp hmem
  obtain ⟨-, c, hc, rfl⟩ := (h.exact.mem_iff name conn).mp hentry
  exact h.fresh hfew hc hname

/-- An insertion under a fresh name only adds. -/
theorem connections_newConnection {server : TcpServer} (conn : Nat)
    (hnew : server.connName ∉ server.connections_.map Prod.fst) :
    (server.newConnection conn).connections_ =
      server.connections_ ++ [(server.connName, conn)] := by
  have hall : ∀ entry ∈ server.connections_, (entry.1 != server.connName) = true := by
    intro entry hentry
    rw [bne_iff_ne]
    rintro heq
    exact hnew (List.mem_map.mpr ⟨entry, hentry, heq⟩)
  rw [TcpServer.newConnection, TcpServer.eraseConnection, List.filter_eq_self.mpr hall]

/-- The connections after an accept are those before it and the new one. -/
theorem conns_newConnection (sockfd : Int) (ioLoop : LoopId) {conn : Nat} {c : ServedConnection} :
    (s.newConnection sockfd ioLoop).conns[conn]? = some c ↔ s.conns[conn]? = some c ∨
      conn = s.conns.length ∧ (s.newConnection sockfd ioLoop).conns.getLast? = some c := by
  simp only [ServerSystem.newConnection, List.getLast?_concat, List.getElem?_append]
  split
  · refine ⟨Or.inl, fun h => h.resolve_right fun h' => ?_⟩
    omega
  · have hnone : s.conns[conn]? = none := List.getElem?_eq_none (by omega)
    rw [hnone, List.getElem?_singleton]
    split
    · have hconn : conn = s.conns.length := by omega
      simp [hconn]
    · have hconn : conn ≠ s.conns.length := by omega
      simp [hconn]

theorem name_newConnection (sockfd : Int) (ioLoop : LoopId) {c : ServedConnection}
    (hc : (s.newConnection sockfd ioLoop).conns.getLast? = some c) :
    c.name_ = s.server.connName := by
  simp only [ServerSystem.newConnection, List.getLast?_concat, Option.some.injEq] at hc
  rw [← hc]

theorem Numbered.newConnection (h : Numbered s) (hfew : s.conns.length < 2 ^ 31 - 2)
    (sockfd : Int) (ioLoop : LoopId) : Numbered (s.newConnection sockfd ioLoop) := by
  have hnotMem := h.connName_notMem hfew
  have htable := connections_newConnection s.conns.length hnotMem
  refine ⟨h.ipPort, ?_, ?_, ⟨?_, ?_, ?_, ?_⟩⟩
  · show s.server.nextConnId_ + 1 = _
    rw [h.nextConnId]
    simp [ServerSystem.newConnection]
  · intro conn hconn
    have hlt := h.removed conn ((removed_newConnection _ _ _).mp hconn)
    simp only [ServerSystem.newConnection, List.length_append]
    omega
  · intro name conn
    rw [removed_newConnection]
    show (name, conn) ∈ (s.server.newConnection s.conns.length).connections_ ↔ _
    rw [htable, List.mem_append, List.mem_singleton, Prod.mk.injEq, h.exact.mem_iff]
    simp only [conns_newConnection]
    constructor
    · rintro (⟨hnot, c, hc, hname⟩ | ⟨rfl, rfl⟩)
      · exact ⟨hnot, c, Or.inl hc, hname⟩
      · exact ⟨fun hr => Nat.lt_irrefl _ (h.removed _ hr), _,
          Or.inr ⟨rfl, List.getLast?_concat⟩, rfl⟩
    · rintro ⟨hnot, c, hc | ⟨rfl, hc⟩, hname⟩
      · exact Or.inl ⟨hnot, c, hc, hname⟩
      · exact Or.inr ⟨hname.symm.trans (name_newConnection _ _ hc), rfl⟩
  · show ((s.server.newConnection s.conns.length).connections_.map Prod.fst).Nodup
    rw [htable, List.map_append, List.nodup_append]
    refine ⟨h.exact.keys, List.nodup_singleton _, ?_⟩
    rintro key hkey _ hnew rfl
    exact hnotMem (by rwa [List.mem_singleton.mp hnew] at hkey)
  · simp only [ServerSystem.newConnection, List.map_append, List.nodup_append]
    refine ⟨h.exact.names, List.nodup_singleton _, ?_⟩
    rintro key hkey _ hnew rfl
    obtain ⟨c, hc, hname⟩ := List.mem_map.mp hkey
    obtain ⟨conn, hconn⟩ := List.mem_iff_getElem?.mp hc
    exact h.fresh hfew hconn (hname.trans (List.mem_singleton.mp hnew))
  · intro conn c hc
    rcases (conns_newConnection _ _).mp hc with hc | ⟨rfl, hlast⟩
    · exact h.exact.named conn c hc
    · exact (name_newConnection _ _ hlast).trans (h.connName hfew)

/-- Erasing the name of a connection erases that connection and no other. -/
theorem Numbered.mem_erase (h : Numbered s) {conn : Nat} {c : ServedConnection}
    (hc : s.conns[conn]? = some c) (entry : String × Nat) :
    entry ∈ (s.server.eraseConnection c.name_).connections_ ↔
      entry ∈ s.server.connections_ ∧ entry.2 ≠ conn := by
  obtain ⟨name, i⟩ := entry
  rw [TcpServer.eraseConnection, List.mem_filter, bne_iff_ne]
  refine and_congr_right fun hentry => not_congr ?_
  obtain ⟨-, c', hc', rfl⟩ := (h.exact.mem_iff name i).mp hentry
  show c'.name_ = c.name_ ↔ i = conn
  rw [h.exact.named i c' hc', h.exact.named conn c hc]
  exact s.fullName_injective.eq_iff

theorem Numbered.removeConnectionInLoop (h : Numbered s) {conn : Nat} {c : ServedConnection}
    (hc : s.conns[conn]? = some c) (thread : LoopId) :
    Numbered (s.removeConnectionInLoop thread conn c) := by
  refine ⟨h.ipPort, h.nextConnId, ?_, ⟨?_, ?_, h.exact.names, h.exact.named⟩⟩
  · intro i hi
    rcases (removed_removeConnectionInLoop _ _ _ _).mp hi with hi | rfl
    · exact h.removed i hi
    · exact (List.getElem?_eq_some_iff.mp hc).1
  · intro name i
    rw [removed_removeConnectionInLoop, not_or]
    refine (h.mem_erase hc (name, i)).trans ?_
    rw [h.exact.mem_iff]
    exact and_right_comm
  · exact h.exact.keys.sublist ((List.filter_sublist).map _)

/-- What has been removed is not in the table, so nothing is erased. -/
theorem Numbered.erase_removed (h : Numbered s) {conn : Nat} {c : ServedConnection}
    (hc : s.conns[conn]? = some c) (hr : s.Removed conn) :
    (s.server.eraseConnection c.name_).connections_ = s.server.connections_ := by
  refine List.filter_eq_self.mpr fun entry hentry => ?_
  refine (List.mem_filter.mp ((h.mem_erase hc entry).mpr ⟨hentry, ?_⟩)).2
  rintro rfl
  exact ((h.exact.mem_iff entry.1 entry.2).mp hentry).1 hr

/-- **One step**, as long as there are fewer than `2 ^ 31 - 1` connections. -/
theorem Numbered.exec (h : Numbered s) (op : TableOp)
    (hfew : op.accepts → s.conns.length < 2 ^ 31 - 2) :
    Numbered (s.execTable op) ∧ s.StepExact op := by
  cases op with
  | newConnection sockfd ioLoop =>
    have hlt := hfew rfl
    refine ⟨h.newConnection hlt sockfd ioLoop, h.connName_notMem hlt, ?_⟩
    rw [h.nextConnId]
    omega
  | removeConnectionInLoop thread conn =>
    simp only [StepExact, execTable]
    cases hc : s.conns[conn]? with
    | none => exact ⟨h, fun _ => rfl⟩
    | some c => exact ⟨h.removeConnectionInLoop hc thread, h.erase_removed hc⟩

theorem length_conns_execTable (s : ServerSystem) (op : TableOp) :
    (s.execTable op).conns.length = s.conns.length + [op].countP TableOp.accepts := by
  cases op with
  | newConnection sockfd ioLoop => simp [execTable, newConnection, TableOp.accepts]
  | removeConnectionInLoop thread conn =>
    simp only [execTable]
    split <;> rfl

theorem numbered_new (addr : InetAddress) (name : String) (numThreads : Int)
    (writeComplete : Bool) :
    Numbered (new (TcpServer.started name addr.toIpPort numThreads writeComplete)) where
  ipPort := addr.length_toIpPort_le
  nextConnId := rfl
  removed := by simp [Removed, new]
  exact := ⟨by simp [new, TcpServer.started], List.nodup_nil, List.nodup_nil, by simp [new]⟩

/-- **The connection table is exact** in every state of a run with fewer than
`2 ^ 31 - 1` accepts, and in every step of it. -/
theorem connection_table_exact (addr : InetAddress) (name : String) (numThreads : Int)
    (writeComplete : Bool) (ops : List TableOp)
    (hfew : ops.countP TableOp.accepts < 2 ^ 31 - 1) :
    Always execTable TableExact
        (new (TcpServer.started name addr.toIpPort numThreads writeComplete)) ops ∧
      Along execTable StepExact
        (new (TcpServer.started name addr.toIpPort numThreads writeComplete)) ops := by
  -- the numbers given out count the accepts of the run so far
  have hrun : ∀ ops : List TableOp, ops.countP TableOp.accepts < 2 ^ 31 - 1 →
      let start := new (TcpServer.started name addr.toIpPort numThreads writeComplete)
      (Numbered (ops.foldl execTable start) ∧
        (ops.foldl execTable start).conns.length = ops.countP TableOp.accepts) ∧
      Always execTable TableExact start ops ∧ Along execTable StepExact start ops := by
    intro ops
    induction ops using List.reverseRecOn with
    | nil =>
      intro _ start
      have hstart := numbered_new addr name numThreads writeComplete
      exact ⟨⟨hstart, rfl⟩, always_nil.mpr hstart.exact, along_nil⟩
    | append_singleton ops op ih =>
      intro hfew start
      rw [List.countP_append] at hfew
      obtain ⟨⟨hnum, hlen⟩, halways, halong⟩ := ih (by omega)
      have hstep := hnum.exec op fun hop => by
        rw [hlen]
        simp only [List.countP_singleton, hop, if_true] at hfew
        omega
      rw [List.foldl_append, List.countP_append]
      refine ⟨⟨hstep.1, ?_⟩, (always_concat _ _).mpr ⟨halways, hstep.1.exact⟩,
        (along_concat _ _).mpr ⟨halong, hstep.2⟩⟩
      show ((ops.foldl execTable start).execTable op).conns.length = _
      rw [length_conns_execTable, hlen]
  exact (hrun ops hfew).2

/-- Two connections; the first is removed twice, by two threads. -/
theorem connection_table_exact_twice_removed :
    let start := new (TcpServer.started "srv" (InetAddress.toIpPort ⟨(1, 2, 3, 4), (0, 80)⟩) 1
      false)
    let ops : List TableOp := [.newConnection 5 .base, .newConnection 6 (.sub 0),
      .removeConnectionInLoop .base 0, .removeConnectionInLoop (.sub 0) 0]
    (Always execTable TableExact start ops ∧ Along execTable StepExact start ops) ∧
      (ops.foldl execTable start).server.connections_ = [("srv-1.2.3.4:80#2", 1)] :=
  ⟨connection_table_exact ⟨(1, 2, 3, 4), (0, 80)⟩ "srv" 1 false _ (by decide), by decide⟩

end ServerSystem
end Mymuduo
