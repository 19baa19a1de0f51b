import Mathlib.Data.List.AList
import Kitex.Container.Slots

/-! # The long connection pool

The pool of idle connections of a client, with one peer for each address. A
peer keeps its idle connections in a list that is a stack for `Get` and `Put`
and a queue for `Evict`, and all peers count them in one counter with an upper
limit. Connections and peers are named by their position in the pool's lists
of all connections dialled and all peers made, so that those the pool has let
go of can still be spoken about.

The methods of `pool`, which the source runs under the mutex of a peer, and
those of the counter are the atomic steps. The methods of `peer` and
`LongPool` are composed from them here as when each of them is run to
completion.
-/

namespace Kitex.ConnPool

/-- `netAddr`, the key of the peer map. -/
structure NetAddr where
  network : String
  address : String
  deriving DecidableEq, Repr

structure IdleConfig where
  minIdlePerAddress : Int
  maxIdlePerAddress : Int
  maxIdleGlobal : Int
  maxIdleTimeout : Int
  deriving DecidableEq, Repr

/-- `MaxCounter`, whose fields are read and written by atomic additions. -/
structure MaxCounter where
  now : Int
  max : Int
  deriving DecidableEq, Repr

namespace MaxCounter

/-- `atomic.AddInt64(&cl.now, n)`. -/
def add (counter : MaxCounter) (n : Int) : MaxCounter := { counter with now := counter.now + n }

/-- `Inc`, which takes back its addition when the limit is passed. -/
def inc (counter : MaxCounter) : MaxCounter × Bool :=
  let added := counter.add 1
  if added.now > added.max then (added.add (-1), false) else (added, true)

def dec (counter : MaxCounter) : MaxCounter := counter.add (-1)

def decN (counter : MaxCounter) (n : Int) : MaxCounter := counter.add (-n)

end MaxCounter

/-- `longConn` around a dialled connection. The network is that of the
connection's remote address. How often the pool has closed the connection and
whether a caller holds it are recorded along with it. -/
structure LongConn where
  network : String
  address : String
  /-- The dialled connection implements `remote.IsActive`. -/
  isActiver : Bool
  deadline : Int := 0
  closes : Nat := 0
  held : Bool := false
  deriving DecidableEq, Repr

namespace LongConn

def close (conn : LongConn) : LongConn := { conn with closes := conn.closes + 1 }

/-- `IsActive`: the answer of the connection, or else a look at the clock. -/
def isActive (conn : LongConn) (alive : Bool) (now : Int) : Bool :=
  if conn.isActiver then alive else decide (now < conn.deadline)

def expired (conn : LongConn) (now : Int) : Bool := decide (conn.deadline < now)

end LongConn

/-- What an operation sees when it checks a connection: the connection's own
answer to `IsActive`, and the clock at that moment. Any connection may have
died since the last look. -/
structure Look where
  alive : Nat → Bool
  now : Nat → Int

/-- What a walk over an idle list leaves and takes out. -/
structure Walk where
  kept : List Nat
  dropped : List Nat
  deriving DecidableEq, Repr

/-- The loop of `pool.Get` from the top of the stack: it stops at the first
active connection and drops those above it. -/
def getLoop (isActive : Nat → Bool) : List Nat → Option Nat × Walk
  | [] => (none, ⟨[], []⟩)
  | conn :: rest =>
    if isActive conn then (some conn, ⟨rest, []⟩)
    else
      let (found, walk) := getLoop isActive rest
      (found, { walk with dropped := conn :: walk.dropped })

/-- The loop of `pool.Evict` from the front of the list, for as many rounds as
the list is longer than the minimum. A negative minimum lets it run past the
end of the list, where the index panics. -/
def evictLoop (expired : Nat → Bool) (nonIdle : Int) : List Nat → Option Walk
  | [] => if 0 < nonIdle then none else some ⟨[], []⟩
  | conn :: rest =>
    if 0 < nonIdle ∧ expired conn = true then
      (evictLoop expired (nonIdle - 1) rest).map fun walk =>
        { walk with dropped := conn :: walk.dropped }
    else some ⟨conn :: rest, []⟩

/-- `peer`, with the idle list of its `pool`. -/
structure Peer where
  addr : NetAddr
  idleList : List Nat := []
  deriving DecidableEq, Repr

structure LongPool where
  idleConfig : IdleConfig
  globalIdle : MaxCounter
  peerMap : AList (fun _ : NetAddr => Nat) := ∅
  closed : Bool := false
  /-- Every peer made so far, also those no longer in the map. -/
  peers : List Peer := []
  /-- Every connection dialled so far. -/
  conns : List LongConn := []

def newLongPool (idleConfig : IdleConfig) : LongPool where
  idleConfig
  globalIdle := { now := 0, max := idleConfig.maxIdleGlobal }

namespace LongPool

def idleList (pool : LongPool) (peer : Nat) : List Nat :=
  match pool.peers[peer]? with
  | some record => record.idleList
  | none => []

/-- The idle connections of all peers. -/
def idle (pool : LongPool) : List Nat := pool.peers.flatMap (·.idleList)

def setIdleList (pool : LongPool) (peer : Nat) (conns : List Nat) : LongPool :=
  { pool with peers := pool.peers.modify peer fun record => { record with idleList := conns } }

def closeConns (pool : LongPool) (conns : List Nat) : LongPool :=
  { pool with conns := Container.modifyEach LongConn.close conns pool.conns }

/-- A caller takes the connection, or gives it back. -/
def setHeld (pool : LongPool) (conn : Nat) (held : Bool) : LongPool :=
  { pool with conns := pool.conns.modify conn fun record => { record with held } }

def setDeadline (pool : LongPool) (conn : Nat) (deadline : Int) : LongPool :=
  { pool with conns := pool.conns.modify conn fun record => { record with deadline } }

def setGlobalIdle (pool : LongPool) (globalIdle : MaxCounter) : LongPool :=
  { pool with globalIdle }

def decN (pool : LongPool) (n : Int) : LongPool := pool.setGlobalIdle (pool.globalIdle.decN n)

def isActive (pool : LongPool) (look : Look) (conn : Nat) : Bool :=
  match pool.conns[conn]? with
  | some record => record.isActive (look.alive conn) (look.now conn)
  | none => false

def expired (pool : LongPool) (look : Look) (conn : Nat) : Bool :=
  match pool.conns[conn]? with
  | some record => record.expired (look.now conn)
  | none => false

/-! ## Methods of `pool`, each under the mutex of one peer -/

/-- `pool.Get`: the connection found, and how many were taken out of the list. -/
def poolGet (pool : LongPool) (peer : Nat) (look : Look) : LongPool × Option Nat × Int :=
  let idleList := pool.idleList peer
  let (found, walk) := getLoop (pool.isActive look) idleList.reverse
  ((pool.setIdleList peer walk.kept.reverse).closeConns walk.dropped, found,
    idleList.length - walk.kept.length)

/-- `pool.Put`, which starts the idle time of the connection if there is room. -/
def poolPut (pool : LongPool) (peer conn : Nat) (now : Int) : LongPool × Bool :=
  if ((pool.idleList peer).length : Int) < pool.idleConfig.maxIdlePerAddress then
    let dated := pool.setDeadline conn (now + pool.idleConfig.maxIdleTimeout)
    (dated.setIdleList peer (pool.idleList peer ++ [conn]), true)
  else (pool, false)

/-- `pool.Evict`: how many connections were evicted. -/
def poolEvict (pool : LongPool) (peer : Nat) (look : Look) : Option (LongPool × Int) :=
  let idleList := pool.idleList peer
  let nonIdle := idleList.length - pool.idleConfig.minIdlePerAddress
  (evictLoop (pool.expired look) nonIdle idleList).map fun walk =>
    ((pool.setIdleList peer walk.kept).closeConns walk.dropped, walk.dropped.length)

/-- `pool.Close`: how many connections were closed. -/
def poolClose (pool : LongPool) (peer : Nat) : LongPool × Int :=
  let idleList := pool.idleList peer
  ((pool.setIdleList peer []).closeConns idleList, idleList.length)

/-! ## Methods of `peer` -/

/-- The connection that a dialer returns. -/
structure Dialed where
  network : String
  isActiver : Bool
  deriving DecidableEq, Repr

/-- A dialled connection is wrapped and handed to the caller. -/
def addConn (pool : LongPool) (address : String) (dialed : Dialed) : LongPool :=
  { pool with
    conns := pool.conns ++
      [{ network := dialed.network, address, isActiver := dialed.isActiver, held := true }] }

/-- The end of `peer.Get`: the connection found is handed out, or one is
dialled, which may fail. -/
def handOut (pool : LongPool) (found : Option Nat) (address : String)
    (dialed : Option Dialed) : LongPool :=
  match found, dialed with
  | some conn, _ => pool.setHeld conn true
  | none, some dialed => pool.addConn address dialed
  | none, none => pool

/-- `peer.Get`. -/
def peerGet (pool : LongPool) (peer : Nat) (address : String) (look : Look)
    (dialed : Option Dialed) : LongPool :=
  let (pool, found, decNum) := pool.poolGet peer look
  (pool.decN decNum).handOut found address dialed

def peerPut (pool : LongPool) (peer conn : Nat) (now : Int) : LongPool :=
  let (counter, counted) := pool.globalIdle.inc
  let pool := pool.setGlobalIdle counter
  if counted then
    let (pool, recycled) := pool.poolPut peer conn now
    if recycled then pool
    else (pool.setGlobalIdle pool.globalIdle.dec).closeConns [conn]
  else pool.closeConns [conn]

def peerEvict (look : Look) (pool : LongPool) (peer : Nat) : Option LongPool :=
  (pool.poolEvict peer look).map fun (pool, n) => pool.decN n

def peerClose (pool : LongPool) (peer : Nat) : LongPool :=
  let (pool, n) := pool.poolClose peer
  pool.decN n

/-! ## Methods of `LongPool` -/

/-- `newPeer`, stored under its address. -/
def storePeer (pool : LongPool) (addr : NetAddr) : LongPool :=
  { pool with
    peers := pool.peers ++ [{ addr := addr }]
    peerMap := pool.peerMap.insert addr pool.peers.length }

/-- `getPeer`. The idle list of a new peer is made with the maximum as its
capacity, which panics when it is negative. -/
def getPeer (pool : LongPool) (addr : NetAddr) : Option (LongPool × Nat) :=
  match pool.peerMap.lookup addr with
  | some peer => some (pool, peer)
  | none =>
    if pool.idleConfig.maxIdlePerAddress < 0 then none
    else some (pool.storePeer addr, pool.peers.length)

def get (pool : LongPool) (addr : NetAddr) (look : Look) (dialed : Option Dialed) :
    Option LongPool :=
  (pool.getPeer addr).map fun (pool, peer) => pool.peerGet peer addr.address look dialed

/-- The address under which `Put` looks for the peer of a connection. -/
def putAddr (pool : LongPool) (conn : Nat) : NetAddr :=
  match pool.conns[conn]? with
  | some record => { network := record.network, address := record.address }
  | none => { network := "", address := "" }

def put (pool : LongPool) (conn : Nat) (now : Int) : LongPool :=
  match pool.peerMap.lookup (pool.putAddr conn) with
  | some peer => pool.peerPut peer conn now
  | none => pool.closeConns [conn]

def discard (pool : LongPool) (conn : Nat) : LongPool := pool.closeConns [conn]

def deletePeer (pool : LongPool) (addr : NetAddr) : LongPool :=
  { pool with peerMap := pool.peerMap.erase addr }

/-- `Clean`, with the goroutine that closes the peer. -/
def clean (pool : LongPool) (addr : NetAddr) : LongPool :=
  match pool.peerMap.lookup addr with
  | some peer => (pool.deletePeer addr).peerClose peer
  | none => pool

/-- `Evict`: an open pool walks over its peers. -/
def evict (pool : LongPool) (look : Look) : Option LongPool :=
  if pool.closed then some pool
  else (pool.peerMap.entries.map (·.2)).foldlM (peerEvict look) pool

/-- The visit of `Close` to one entry of the map. -/
def closeVisit (pool : LongPool) (entry : Sigma fun _ : NetAddr => Nat) : LongPool :=
  (pool.deletePeer entry.1).peerClose entry.2

/-- `Close`, which does nothing the second time. -/
def close (pool : LongPool) : LongPool :=
  if pool.closed then pool
  else pool.peerMap.entries.foldl closeVisit { pool with closed := true }

/-! ## Operations run to completion -/

inductive Op where
  | get (addr : NetAddr) (look : Look) (dialed : Option Dialed)
  | put (conn : Nat) (now : Int)
  | discard (conn : Nat)
  | evict (look : Look)
  | clean (addr : NetAddr)
  | close

def isHeld (pool : LongPool) (conn : Nat) : Bool :=
  match pool.conns[conn]? with
  | some record => record.held
  | none => false

/-- One operation. A caller returns a connection, by `Put` or `Discard`, only
while it holds it. An operation that panics does not complete. -/
def step (pool : LongPool) : Op → Option LongPool
  | .get addr look dialed => pool.get addr look dialed
  | .put conn now =>
    if pool.isHeld conn then some ((pool.setHeld conn false).put conn now) else none
  | .discard conn =>
    if pool.isHeld conn then some ((pool.setHeld conn false).discard conn) else none
  | .evict look => pool.evict look
  | .clean addr => some (pool.clean addr)
  | .close => some pool.close

end LongPool

end Kitex.ConnPool
