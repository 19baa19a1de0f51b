import Kitex.Http2.ControlItems
import Kitex.Machine.Run
import Mathlib.Data.List.Count

/-! # The control buffer

Producers put items into the control buffer and one consumer, the loopy writer,
takes them out. The buffer has three more duties: to wake the consumer through a
channel with one slot, to hold back the reader while too many responses to the
peer are queued, and to run the callbacks of the header frames that are left when
it is finished. An event below is one critical section of the buffer's lock, or
one operation on a channel outside of it.
-/

namespace Kitex.Http2

/-- Items that answer an action of the peer. -/
def CbItem.isTransportResponseFrame : CbItem → Bool
  | .registerStream _ => false
  | .headerFrame h => h.cleanup.any CleanupStream.rst
  | .cleanupStream c => c.rst
  | .dataFrame _ => false
  | .incomingWindowUpdate _ _ => false
  | .outgoingWindowUpdate _ _ => false
  | .incomingSettings _ => true
  | .outgoingSettings _ => false
  | .incomingGoAway => false
  | .goAway _ => false
  | .ping _ => true
  | .outFlowControlSizeRequest => false

def maxQueuedTransportResponseFrames : Int := 50

/-- The errors that a control buffer is finished with; they are not nil. -/
inductive FinishErr (Err : Type) where
  | connClosing
  | given (e : Err)
  deriving DecidableEq, Repr

/-- The control buffer, and the throttling channels that it has made. A channel
is named by the number of those made before it. -/
structure ControlBuffer (Err : Type) where
  /-- whether the one slot of `ch` is taken -/
  ch : Bool
  /-- the `done` channel is closed -/
  done : Bool
  consumerWaiting : Bool
  list : List CbItem
  err : Option (FinishErr Err)
  transportResponseFrames : Int
  trfChan : Option Nat
  channels : Nat
  /-- the channels in the order in which they were closed -/
  closed : List Nat
  /-- a nil channel was closed -/
  panicked : Bool

namespace ControlBuffer

variable {Err : Type}

def newControlBuffer : ControlBuffer Err where
  ch := false
  done := false
  consumerWaiting := false
  list := []
  err := none
  transportResponseFrames := 0
  trfChan := none
  channels := 0
  closed := []
  panicked := false

/-! ## Producers -/

def makeTrfChan (c : ControlBuffer Err) : ControlBuffer Err :=
  { c with trfChan := some c.channels, channels := c.channels + 1 }

def enqueue (c : ControlBuffer Err) (it : CbItem) : ControlBuffer Err :=
  let c := { c with list := c.list ++ [it] }
  if it.isTransportResponseFrame then
    let c := { c with transportResponseFrames := c.transportResponseFrames + 1 }
    if c.transportResponseFrames = maxQueuedTransportResponseFrames then c.makeTrfChan else c
  else c

inductive PutResult (Err : Type) where
  | failed (e : FinishErr Err)
  /-- the callback was not successful -/
  | rejected
  /-- the producer has to wake the consumer if told so -/
  | accepted (wakeUp : Bool)

/-- `executeAndPut` up to the release of the lock. The callback answers
`success`; `put` has none, which is a success. -/
def executeAndPut (c : ControlBuffer Err) (success : Bool) (it : CbItem) :
    ControlBuffer Err × PutResult Err :=
  match c.err with
  | some e => (c, .failed e)
  | none =>
    if success then
      ({ c with consumerWaiting := false }.enqueue it, .accepted c.consumerWaiting)
    else (c, .rejected)

/-! ## The consumer -/

/-- Closing a nil channel panics. -/
def closeTrfChan (c : ControlBuffer Err) : ControlBuffer Err :=
  match c.trfChan with
  | some ch => { c with closed := c.closed ++ [ch], trfChan := none }
  | none => { c with panicked := true }

def dequeue (c : ControlBuffer Err) (it : CbItem) (rest : List CbItem) : ControlBuffer Err :=
  let c := { c with list := rest }
  if it.isTransportResponseFrame then
    let c := if c.transportResponseFrames = maxQueuedTransportResponseFrames then c.closeTrfChan
      else c
    { c with transportResponseFrames := c.transportResponseFrames - 1 }
  else c

inductive GetResult (Err : Type) where
  | failed (e : FinishErr Err)
  | item (it : CbItem)
  | nothing
  /-- the consumer goes on to wait on `ch` and `done` -/
  | wait

/-- One round of the loop in `get`, up to the release of the lock. -/
def get (c : ControlBuffer Err) (block : Bool) : ControlBuffer Err × GetResult Err :=
  match c.err with
  | some e => (c, .failed e)
  | none =>
    match c.list with
    | it :: rest => (c.dequeue it rest, .item it)
    | [] => if block then ({ c with consumerWaiting := true }, .wait) else (c, .nothing)

/-! ## Finishing -/

/-- The calls of `onOrphaned` for items that nobody will take out. Only the header
frames of a client have that callback. -/
def orphans (side : Side) (items : List CbItem) (e : FinishErr Err) :
    List (HeaderFrame × FinishErr Err) :=
  match side with
  | .clientSide => items.filterMap fun
      | .headerFrame h => some (h, e)
      | _ => none
  | .serverSide => []

/-- The buffer after `finish`, and the items that were left in it. -/
def finish (c : ControlBuffer Err) (e : FinishErr Err) : ControlBuffer Err × List CbItem :=
  match c.err with
  | some _ => (c, [])
  | none => ({ c with err := some e, list := [] }, c.list)

end ControlBuffer

/-! ## Producers, consumer and reader together -/

inductive Consumer where
  /-- outside of `get` -/
  | idle
  /-- in `get`, waiting on `ch` and `done` -/
  | waiting
  /-- in `get`, having received from `ch` -/
  | woken
  deriving DecidableEq, Repr

/-- The buffer with the goroutines that use it, and what has happened so far. -/
structure BufferState (Err : Type) where
  buf : ControlBuffer Err
  consumer : Consumer
  /-- producers that have released the lock and have yet to wake the consumer -/
  wakers : Nat
  /-- the channel that the reader waits on in `throttle` -/
  reader : Option Nat
  accepted : List CbItem
  got : List CbItem
  /-- what `finish` has taken out of the buffer -/
  discarded : List CbItem
  /-- the calls of `onOrphaned` -/
  orphaned : List (HeaderFrame × FinishErr Err)

inductive BufferEvent (Err : Type) where
  | executeAndPut (success : Bool) (it : CbItem)
  | execute (success : Bool)
  /-- a producer sends to `ch`, if its slot is free -/
  | wakeUp
  | get (block : Bool)
  /-- the waiting consumer receives from `ch` -/
  | receive
  /-- the waiting consumer finds `done` closed -/
  | connDone
  /-- the reader enters `throttle` -/
  | throttle
  /-- the reader leaves `throttle` -/
  | released
  | finish (e : Err)
  /-- the `done` channel is closed -/
  | close

namespace BufferState

open ControlBuffer

variable {Err : Type}

def start : BufferState Err where
  buf := newControlBuffer
  consumer := .idle
  wakers := 0
  reader := none
  accepted := []
  got := []
  discarded := []
  orphaned := []

def put (s : BufferState Err) (success : Bool) (it : CbItem) : BufferState Err :=
  match s.buf.executeAndPut success it with
  | (buf, .accepted wakeUp) =>
    { s with buf := buf, accepted := s.accepted ++ [it], wakers := s.wakers + wakeUp.toNat }
  | (buf, _) => { s with buf := buf }

def get (s : BufferState Err) (block : Bool) : BufferState Err :=
  match s.buf.get block with
  | (buf, .item it) => { s with buf := buf, got := s.got ++ [it], consumer := .idle }
  | (buf, .wait) => { s with buf := buf, consumer := .waiting }
  | (buf, _) => { s with buf := buf, consumer := .idle }

def finish (side : Side) (s : BufferState Err) (e : FinishErr Err) : BufferState Err :=
  let (buf, left) := s.buf.finish e
  { s with
    buf := buf
    discarded := s.discarded ++ left
    orphaned := s.orphaned ++ orphans side left e }

def step (side : Side) (s : BufferState Err) : BufferEvent Err → Option (BufferState Err)
  | .executeAndPut success it => some (s.put success it)
  | .execute _ => some s
  | .wakeUp =>
    if 0 < s.wakers then
      some { s with buf := { s.buf with ch := true }, wakers := s.wakers - 1 }
    else none
  | .get block =>
    match s.consumer with
    | .idle => some (s.get block)
    | .woken => if block then some (s.get true) else none
    | .waiting => none
  | .receive =>
    if s.consumer = .waiting ∧ s.buf.ch = true then
      some { s with buf := { s.buf with ch := false }, consumer := .woken }
    else none
  | .connDone =>
    if s.consumer = .waiting ∧ s.buf.done = true then
      some { s.finish side .connClosing with consumer := .idle }
    else none
  | .throttle => if s.reader = none then some { s with reader := s.buf.trfChan } else none
  | .released =>
    match s.reader with
    | some ch =>
      if ch ∈ s.buf.closed ∨ s.buf.done = true then some { s with reader := none } else none
    | none => none
  | .finish e => some (s.finish side (.given e))
  | .close => some { s with buf := { s.buf with done := true } }

/-- Runs of a new control buffer. -/
def run (side : Side) (events : List (BufferEvent Err)) : Option (BufferState Err) :=
  Machine.run (step side) start events

end BufferState

end Kitex.Http2
