import Mymuduo.ConnectionRun
import Mymuduo.EventLoopThreadPool

/-! # The server

`TcpServer` holds the members that `newConnection` and `removeConnectionInLoop`
use; its table `connections_` maps the name of a connection to the connection,
which is known here by its number in the order of the accepts.  One loop runs in
one thread, so a thread is named by its loop.

`ServerSystem` is a server among its loops: connections are accepted by the thread
of the base loop, and every activation on a connection runs in the thread of the
loop the connection was given to.  Any list of operations is a run, so every
interleaving of the loops is one of them.  The system logs who accessed the table
and what was submitted to which loop.
-/
namespace Mymuduo

structure TcpServer where
  loop_ : LoopId
  name_ : String
  ipPort_ : String
  threadPool_ : EventLoopThreadPool
  nextConnId_ : Nat
  /-- Whether `writeCompleteCallback_` is set. -/
  writeCompleteCallback_ : Bool
  connections_ : List (String × Nat)
deriving DecidableEq, Repr

/-- An access that changes `connections_`, and the thread that makes it. -/
structure TableAccess where
  thread : LoopId
  name : String
  inserts : Bool
deriving DecidableEq, Repr

/-- A functor a server submits, to the loop of connection `conn`. -/
inductive ServerFunctor where
  /-- Through `runInLoop`. -/
  | connectEstablished (conn : Nat)
  /-- Through `queueInLoop`. -/
  | connectDestroyed (conn : Nat)
deriving DecidableEq, Repr

namespace TcpServer

/-- The constructor, then `setThreadNum` and `start`. -/
def started (name ipPort : String) (numThreads : Int) (writeComplete : Bool) : TcpServer where
  loop_ := .base
  name_ := name
  ipPort_ := ipPort
  threadPool_ := (((EventLoopThreadPool.new .base name).setThreadNums numThreads).start false).1
  nextConnId_ := 1
  writeCompleteCallback_ := writeComplete
  connections_ := []

/-- The name of the next connection; `snprintf` writes into 64 bytes, the last of
which ends the string. -/
def connName (s : TcpServer) : String :=
  s.name_ ++ String.ofList
    (("-" ++ s.ipPort_ ++ "#" ++ toString s.nextConnId_).toList.take 63)

/-- `connections_.erase(name)`. -/
def eraseConnection (s : TcpServer) (name : String) : TcpServer :=
  { s with connections_ := s.connections_.filter fun entry => entry.1 != name }

/-- What `newConnection` does to the server, for connection number `conn`. -/
def newConnection (s : TcpServer) (conn : Nat) : TcpServer :=
  { s with
    nextConnId_ := s.nextConnId_ + 1
    connections_ := (s.eraseConnection s.connName).connections_ ++ [(s.connName, conn)] }

end TcpServer

/-- A connection a server has made, with the loop it was given to. -/
structure ServedConnection where
  name_ : String
  loop_ : LoopId
  run : ConnRun

structure ServerSystem where
  server : TcpServer
  /-- Every connection made so far. -/
  conns : List ServedConnection
  accesses : List TableAccess
  submitted : List (LoopId × ServerFunctor)

inductive ServerOp where
  /-- `newConnection(sockfd)`, where `getNextLoop` has returned `ioLoop`. -/
  | newConnection (sockfd : Int) (ioLoop : LoopId)
  /-- An activation on connection number `conn`. -/
  | activate (conn : Nat) (op : ConnOp)
deriving DecidableEq, Repr

namespace ServerSystem

def new (server : TcpServer) : ServerSystem := ⟨server, [], [], []⟩

/-- `removeConnectionInLoop` for connection number `conn`, run by `thread`. -/
def removeConnectionInLoop (s : ServerSystem) (thread : LoopId) (conn : Nat)
    (c : ServedConnection) : ServerSystem :=
  { s with
    server := s.server.eraseConnection c.name_
    accesses := s.accesses ++ [⟨thread, c.name_, false⟩]
    submitted := s.submitted ++ [(c.loop_, .connectDestroyed conn)] }

def newConnection (s : ServerSystem) (sockfd : Int) (ioLoop : LoopId) : ServerSystem where
  server := s.server.newConnection s.conns.length
  conns := s.conns ++ [⟨s.server.connName, ioLoop,
    ⟨TcpConnection.new s.server.connName sockfd s.server.writeCompleteCallback_ false, []⟩⟩]
  -- the acceptor's channel is on the base loop
  accesses := s.accesses ++ [⟨s.server.loop_, s.server.connName, true⟩]
  submitted := s.submitted ++ [(ioLoop, .connectEstablished s.conns.length)]

/-- An effect of an activation on connection number `conn`, as far as the server is
concerned: `closeCallback_` is bound to `removeConnectionInLoop` itself, which
therefore runs where `handleClose` runs. -/
def apply (conn : Nat) (c : ServedConnection) (s : ServerSystem) : Effect → ServerSystem
  | .closeCallback => s.removeConnectionInLoop c.loop_ conn c
  | _ => s

def exec (s : ServerSystem) : ServerOp → ServerSystem
  | .newConnection sockfd ioLoop => s.newConnection sockfd ioLoop
  | .activate conn op =>
    match s.conns[conn]? with
    | none => s
    | some c =>
      (c.run.conn.exec op).2.foldl (apply conn c)
        { s with conns := s.conns.set conn { c with run := c.run.exec op } }

end ServerSystem
end Mymuduo
