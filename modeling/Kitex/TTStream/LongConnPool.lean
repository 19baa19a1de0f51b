import Mathlib.Data.List.AList
import Kitex.Container.Stack
import Kitex.TTStream.ClientTransport

/-! # The pool of long connections

A transport of the pool serves one stream at a time. `Get` pops a transport that was
handed back, or dials a new connection; `NewStream` then stores its stream on it, and
the call of `close` that wins the stream hands the transport back. A goroutine
closes the transports that were idle for too long. Transports are told apart by the
order in which they were dialed.
-/

namespace Kitex.TTStream

open Kitex.Container

structure ObjectItem where
  /-- the number of the transport -/
  object : Nat
  lastActive : Int
  deriving DecidableEq, Repr

structure LongConn where
  transport : ClientTransport
  remoteAddr : String
  /-- the connection's own `IsActive` -/
  connActive : Bool
  deriving DecidableEq, Repr

/-- Where a call of `NewStream` is, from its call of `Get` on. -/
inductive NewStreamCall where
  | popping (addr : String)
  /-- has popped a transport and not yet looked whether it is active -/
  | checking (addr : String) (ref : Nat)
  | dialing (addr : String)
  /-- `Get` has returned the transport -/
  | got (ref : Nat)
  /-- `WriteStream` has stored the stream -/
  | stored (ref stream : Nat)
  | failed
  deriving DecidableEq, Repr

/-- `DefaultLongConnConfig`, in nanoseconds. -/
def defaultMaxIdleTimeout : Int := 60000000000

structure LongConnTransPool where
  idleTimeout : Int
  objects : AList fun _ : String => List ObjectItem
  transports : List LongConn
  calls : List NewStreamCall
  deriving DecidableEq

inductive LongConnEvent where
  | get (addr : String)
  | pop (call : Nat)
  | check (call : Nat)
  /-- the connection is made, with its remote address, or is not -/
  | dial (call : Nat) (remoteAddr : Option String)
  | writeStream (call : Nat)
  /-- a step of a transport at a time -/
  | transport (ref : Nat) (event : TransportEvent) (now : Int)
  /-- the connection of a transport is lost -/
  | connDown (ref : Nat)
  /-- the cleaning goroutine goes through the stack of an address -/
  | clean (addr : String) (now : Int)
  deriving DecidableEq

def LongConn.isActive (c : LongConn) : Bool :=
  !c.transport.closed && c.connActive

/-- The step is the call of `Put` in `CloseStream`. -/
def ClientStream.puts (s : ClientStream) : StreamEvent → Bool
  | .closerStep k _ => s.closers[k]?.any (·.next == .put)
  | _ => false

def ClientTransport.puts (t : ClientTransport) : TransportEvent → Bool
  | .stream stream event _ => t.streams[stream]?.any (·.puts event)
  | _ => false

namespace LongConnTransPool

def newLongConnTransPool (maxIdleTimeout : Int) : LongConnTransPool where
  idleTimeout := if 0 < maxIdleTimeout then maxIdleTimeout else defaultMaxIdleTimeout
  objects := ∅
  transports := []
  calls := []

/-- The stack of an address; an address without one has nothing to pop. -/
def stack (p : LongConnTransPool) (addr : String) : List ObjectItem :=
  (p.objects.lookup addr).getD []

def setStack (p : LongConnTransPool) (addr : String) (items : List ObjectItem) :
    LongConnTransPool :=
  { p with objects := p.objects.insert addr items }

def setCall (p : LongConnTransPool) (call : Nat) (progress : NewStreamCall) :
    LongConnTransPool :=
  { p with calls := p.calls.modify call fun _ => progress }

def setTransport (p : LongConnTransPool) (ref : Nat) (t : ClientTransport) :
    LongConnTransPool :=
  { p with transports := p.transports.modify ref fun c => { c with transport := t } }

def put (p : LongConnTransPool) (addr : String) (ref : Nat) (now : Int) : LongConnTransPool :=
  p.setStack addr (Stack.push (p.stack addr) ⟨ref, now⟩)

/-- The check of the cleaning goroutine: whether to delete an item and to go on. -/
def expired (p : LongConnTransPool) (now : Int) (item : ObjectItem) : Bool × Bool :=
  if now - item.lastActive < p.idleTimeout then (false, false) else (true, true)

/-- `cleaning` for one stack, whose lock is held while the transports are closed. -/
def clean (p : LongConnTransPool) (addr : String) (now : Int) : LongConnTransPool :=
  let (deleted, kept) := Stack.rangeDelete (p.expired now) (p.stack addr)
  { p.setStack addr kept with
    transports := modifyEach (fun c => { c with transport := c.transport.close none })
      (deleted.map (·.object)) p.transports }

def step (codec : PayloadCodec) (p : LongConnTransPool) :
    LongConnEvent → Option LongConnTransPool
  | .get addr => some { p with calls := p.calls ++ [NewStreamCall.popping addr] }
  | .pop call =>
    match p.calls[call]? with
    | some (.popping addr) =>
      match Stack.pop (p.stack addr) with
      | none => some (p.setCall call (.dialing addr))
      | some (item, rest) =>
        some ((p.setStack addr rest).setCall call (.checking addr item.object))
    | _ => none
  | .check call =>
    match p.calls[call]? with
    | some (.checking addr ref) => p.transports[ref]?.map fun c =>
      -- a transport that is not active is dropped
      p.setCall call (if c.isActive then .got ref else .popping addr)
    | _ => none
  | .dial call remoteAddr =>
    match p.calls[call]?, remoteAddr with
    | some (.dialing _), none => some (p.setCall call .failed)
    | some (.dialing _), some remoteAddr =>
      some { p.setCall call (.got p.transports.length) with
        transports := p.transports ++ [⟨.newClientTransport, remoteAddr, true⟩] }
    | _, _ => none
  | .writeStream call =>
    match p.calls[call]? with
    | some (.got ref) => p.transports[ref]?.bind fun c =>
      (c.transport.step codec .storeStream).map fun t =>
        (p.setTransport ref t).setCall call (.stored ref c.transport.streams.length)
    | _ => none
  | .transport ref event now => p.transports[ref]?.bind fun c =>
    if event = .storeStream then none
    else (c.transport.step codec event).map fun t =>
      if c.transport.puts event then (p.setTransport ref t).put c.remoteAddr ref now
      else p.setTransport ref t
  | .connDown ref => some { p with
      transports := p.transports.modify ref fun c => { c with connActive := false } }
  | .clean addr now => some (p.clean addr now)

/-- Runs of a new pool. -/
def run (codec : PayloadCodec) (maxIdleTimeout : Int) (events : List LongConnEvent) :
    Option LongConnTransPool :=
  Machine.run (step codec) (newLongConnTransPool maxIdleTimeout) events

end LongConnTransPool

end Kitex.TTStream
