import Kitex.ConnPool.LongPool
import Kitex.Machine.Run

/-! # Interleaved calls on the long pool

The methods of `LongPool` as calls that take turns. A step of a call is one
access to the peer map, one addition to the counter, or one method of `pool`,
which runs under the mutex of its peer. The goroutine of `Clean` goes on in
the call that started it.
-/

namespace Kitex.ConnPool

/-- Where a call stands. -/
inductive Call where
  /-- `getPeer` found no peer in the map. -/
  | getMissed (addr : NetAddr)
  /-- `Get` has its peer. -/
  | getFound (addr : NetAddr) (peer : Nat)
  /-- `pool.Get` has returned, and the counter is to be decreased. -/
  | getTaken (addr : NetAddr) (found : Option Nat) (decNum : Int)
  /-- The connection found is to be handed out, or one dialled. -/
  | getCounted (addr : NetAddr) (found : Option Nat)
  /-- `Put` has loaded the peer of its connection. -/
  | putFound (conn peer : Nat)
  /-- The addition of `Inc` went over the limit, and is to be taken back. -/
  | putOver (conn : Nat)
  /-- `Inc` has succeeded. -/
  | putCounted (conn peer : Nat)
  /-- `pool.Put` had no room, and the counter is to be decreased. -/
  | putFull (conn : Nat)
  /-- The connection is to be closed. -/
  | dropping (conn : Nat)
  /-- `Clean` has loaded a peer. -/
  | cleanFound (addr : NetAddr) (peer : Nat)
  /-- `Evict` walks over the map, with the keys it has yet to visit. -/
  | evicting (rest : List NetAddr)
  | evictFound (peer : Nat) (rest : List NetAddr)
  | evicted (n : Int) (rest : List NetAddr)
  /-- `Close` walks over the map, with the keys it has yet to visit. -/
  | closing (rest : List NetAddr)
  | closeFound (addr : NetAddr) (peer : Nat) (rest : List NetAddr)
  /-- `pool.Close` of a peer taken out of the map is to be called, by `Clean`,
  or by `Close` with the rest of its walk. -/
  | draining (peer : Nat) (walk : Option (List NetAddr))
  | drained (n : Int) (walk : Option (List NetAddr))
  | done
  deriving DecidableEq, Repr

/-- What a step of a call sees: its looks at connections, the clock, the
result of dialling, and the key that a walk over the map comes to. -/
structure CallEnv where
  look : Look
  now : Int
  dialed : Option LongPool.Dialed
  next : Option NetAddr

structure PoolCalls where
  pool : LongPool
  calls : List Call := []

inductive CallEvent where
  | get (addr : NetAddr)
  | put (conn : Nat)
  | discard (conn : Nat)
  | clean (addr : NetAddr)
  | evict
  | close
  | advance (call : Nat) (env : CallEnv)

namespace LongPool

def addrs (pool : LongPool) : List NetAddr := pool.peerMap.entries.map (·.1)

/-! ## The first step of each method -/

/-- `Load` of `getPeer`. -/
def startGet (pool : LongPool) (addr : NetAddr) : Call :=
  match pool.peerMap.lookup addr with
  | some peer => .getFound addr peer
  | none => .getMissed addr

def startPut (pool : LongPool) (conn : Nat) : Call :=
  match pool.peerMap.lookup (pool.putAddr conn) with
  | some peer => .putFound conn peer
  | none => .dropping conn

def startClean (pool : LongPool) (addr : NetAddr) : Call :=
  match pool.peerMap.lookup addr with
  | some peer => .cleanFound addr peer
  | none => .done

def startEvict (pool : LongPool) : Call := if pool.closed then .done else .evicting pool.addrs

/-- The swap of `Close` and the start of its walk. -/
def startClose (pool : LongPool) : LongPool × Call :=
  if pool.closed then (pool, .done) else ({ pool with closed := true }, .closing pool.addrs)

/-! ## The further steps

A walk over a `sync.Map` comes to every key that stays in the map, and may
come to keys stored meanwhile. -/

/-- `LoadOrStore` of `getPeer`, with a new peer made before. -/
def loadOrStore (pool : LongPool) (addr : NetAddr) : Option (LongPool × Call) :=
  if pool.idleConfig.maxIdlePerAddress < 0 then none
  else match pool.peerMap.lookup addr with
    | some peer => some (pool, .getFound addr peer)
    | none => some (pool.storePeer addr, .getFound addr pool.peers.length)

/-- The first addition of `Inc`. -/
def addOne (pool : LongPool) (conn peer : Nat) : LongPool × Call :=
  let counter := pool.globalIdle.add 1
  (pool.setGlobalIdle counter,
    if counter.now > counter.max then .putOver conn else .putCounted conn peer)

def recycle (pool : LongPool) (conn peer : Nat) (now : Int) : LongPool × Call :=
  let (pool, recycled) := pool.poolPut peer conn now
  (pool, if recycled then .done else .putFull conn)

/-- `Close` comes to a key, or to the end of its walk. -/
def walkClose (pool : LongPool) (rest : List NetAddr) : Option NetAddr → Option Call
  | none => if rest = [] then some .done else none
  | some addr =>
    match pool.peerMap.lookup addr with
    | some peer => some (.closeFound addr peer (rest.erase addr))
    | none => some (.closing (rest.erase addr))

def walkEvict (pool : LongPool) (rest : List NetAddr) : Option NetAddr → Option Call
  | none => if rest = [] then some .done else none
  | some addr =>
    match pool.peerMap.lookup addr with
    | some peer => some (.evictFound peer (rest.erase addr))
    | none => some (.evicting (rest.erase addr))

def advance (pool : LongPool) (env : CallEnv) : Call → Option (LongPool × Call)
  | .getMissed addr => pool.loadOrStore addr
  | .getFound addr peer =>
    let (pool, found, decNum) := pool.poolGet peer env.look
    some (pool, .getTaken addr found decNum)
  | .getTaken addr found decNum => some (pool.decN decNum, .getCounted addr found)
  | .getCounted addr found => some (pool.handOut found addr.address env.dialed, .done)
  | .putFound conn peer => some (pool.addOne conn peer)
  | .putOver conn => some (pool.setGlobalIdle (pool.globalIdle.add (-1)), .dropping conn)
  | .putCounted conn peer => some (pool.recycle conn peer env.now)
  | .putFull conn => some (pool.setGlobalIdle pool.globalIdle.dec, .dropping conn)
  | .dropping conn => some (pool.closeConns [conn], .done)
  | .cleanFound addr peer => some (pool.deletePeer addr, .draining peer none)
  | .evicting rest => (pool.walkEvict rest env.next).map fun call => (pool, call)
  | .evictFound peer rest =>
    (pool.poolEvict peer env.look).map fun (pool, n) => (pool, .evicted n rest)
  | .evicted n rest => some (pool.decN n, .evicting rest)
  | .closing rest => (pool.walkClose rest env.next).map fun call => (pool, call)
  | .closeFound addr peer rest => some (pool.deletePeer addr, .draining peer (some rest))
  | .draining peer walk =>
    let (pool, n) := pool.poolClose peer
    some (pool, .drained n walk)
  | .drained n none => some (pool.decN n, .done)
  | .drained n (some rest) => some (pool.decN n, .closing rest)
  | .done => none

end LongPool

namespace PoolCalls

/-- A method is called, and takes its first step. -/
def started (s : PoolCalls) (pool : LongPool) (call : Call) : PoolCalls :=
  { pool, calls := s.calls ++ [call] }

def setCall (s : PoolCalls) (k : Nat) (pool : LongPool) (call : Call) : PoolCalls :=
  { pool, calls := s.calls.modify k fun _ => call }

def step (s : PoolCalls) : CallEvent → Option PoolCalls
  | .get addr => some (s.started s.pool (s.pool.startGet addr))
  | .put conn =>
    if s.pool.isHeld conn then
      let pool := s.pool.setHeld conn false
      some (s.started pool (pool.startPut conn))
    else none
  | .discard conn =>
    if s.pool.isHeld conn then some (s.started (s.pool.setHeld conn false) (.dropping conn))
    else none
  | .clean addr => some (s.started s.pool (s.pool.startClean addr))
  | .evict => some (s.started s.pool s.pool.startEvict)
  | .close => some (s.started s.pool.startClose.1 s.pool.startClose.2)
  | .advance k env =>
    match s.calls[k]? with
    | none => none
    | some call => (s.pool.advance env call).map fun (pool, call) => s.setCall k pool call

end PoolCalls

end Kitex.ConnPool
