import Kitex.Container.Slots
import Kitex.Http2.ControlItems
import Kitex.Machine.Run

/-! # The client transport's streams

Callers of `NewStream`, closers of streams, the reader and the writer of one
connection act on the transport under two locks. An event below is one critical
section, or one step of a caller between them: the callback of `executeAndPut`
runs under the lock of the control buffer, and takes the transport's own lock
inside. A caller of `NewStream` and the stream that it creates are one record.
-/

namespace Kitex.Http2

open Kitex.Container

/-- The errors of `NewStream`. -/
inductive NewStreamErr where
  /-- the error that the control buffer was finished with -/
  | controlBuf
  | hdrListSize (max : UInt32)
  /-- the error of the stream's context -/
  | ctx
  | streamDrain
  | connClosing
  deriving DecidableEq, Repr

/-- The text of an error that `NewStream` makes itself. -/
def NewStreamErr.message : NewStreamErr → Option String
  | .hdrListSize max => some
      s!"header list size to send violates the maximum size ({max} bytes) set by server"
  | .streamDrain => some "the connection is draining"
  | .connClosing => some "transport is closing"
  | .controlBuf => none
  | .ctx => none

/-- Where a caller of `NewStream` is. A channel is named by its generation, and
a nil channel by `none`. -/
inductive Progress where
  | start
  | waiting (ch : Option Nat)
  | woken (ch : Nat)
  | admitted
  | failed (e : NewStreamErr)
  deriving DecidableEq, Repr

/-- The variables `firstTry` and `ch` of a caller that is about to try. -/
def Progress.round : Progress → Option (Bool × Option Nat)
  | .start => some (true, none)
  | .woken ch => some (false, some ch)
  | _ => none

structure Call where
  hf : List HeaderField
  progress : Progress
  id : UInt32
  /-- the stream's state is `streamDone` -/
  streamDone : Bool
  /-- closers that won `casStreamDone` and have not run `doCloseStream` yet -/
  winners : Nat
  /-- the stream's `done` channel is closed -/
  finished : Bool
  unprocessed : Bool
  /-- how often the stream has given its quota back -/
  returns : Nat
  deriving DecidableEq, Repr

def Call.new (hf : List HeaderField) : Call where
  hf := hf
  progress := .start
  id := 0
  streamDone := false
  winners := 0
  finished := false
  unprocessed := false
  returns := 0

namespace Call

/-- The swap of `casStreamDone`: whoever finds the stream not done has won. -/
def casStreamDone (call : Call) : Call :=
  if call.streamDone then call
  else { call with streamDone := true, winners := call.winners + 1 }

/-- The closure `cleanup` of `NewStream`, for headers that are not written. -/
def cleanup (call : Call) : Call :=
  if call.streamDone then call
  else { call with streamDone := true, finished := true, unprocessed := true }

def markUnprocessed (call : Call) : Call :=
  { call with unprocessed := true }

end Call

/-- The items of the control buffer that a stream or the reader's settings are in. -/
inductive QueueItem where
  | headerFrame (ref : Nat)
  | cleanupStream (ref : Nat)
  | incomingSettings (ss : List Setting)
  deriving DecidableEq, Repr

structure ClientTransport where
  calls : List Call
  items : List QueueItem
  /-- the control buffer has been finished with an error -/
  bufErr : Bool
  streamQuota : Int
  maxConcurrentStreams : UInt32
  waitingStreams : UInt32
  nextID : UInt32
  maxSendHeaderListSize : Option UInt32
  /-- the generation of `streamsQuotaAvailable`; older ones are closed -/
  quotaChan : Nat
  /-- whether the one slot of `streamsQuotaAvailable` is taken -/
  quotaToken : Bool
  state : TransportState
  /-- nil after `Close` -/
  activeStreams : Option (AList fun _ : UInt32 => Nat)
  /-- the `goAway` channel is closed -/
  goAway : Bool
  prevGoAwayID : UInt32
  /-- the transport's context is done -/
  ctxDone : Bool
  /-- the reader has taken the first frame, which holds the server's settings -/
  prefaceRead : Bool
  /-- streams that the reader has yet to see closed before it reads on -/
  unprocessedStreams : List Nat
  /-- the writer has returned -/
  writerDone : Bool

def defaultMaxStreamsClient : UInt32 := 100

def newHTTP2Client : ClientTransport where
  calls := []
  items := []
  bufErr := false
  streamQuota := defaultMaxStreamsClient.toNat
  maxConcurrentStreams := defaultMaxStreamsClient
  waitingStreams := 0
  nextID := 1
  maxSendHeaderListSize := none
  quotaChan := 0
  quotaToken := false
  state := .reachable
  activeStreams := some ∅
  goAway := false
  prevGoAwayID := 0
  ctxDone := false
  prefaceRead := false
  unprocessedStreams := []
  writerDone := false

/-- The value of the last setting with an identifier. -/
def lastSetting (id : UInt16) (ss : List Setting) : Option UInt32 :=
  ss.foldl (fun found s => if s.id = id then some s.val else found) none

namespace ClientTransport

def modifyCall (t : ClientTransport) (ref : Nat) (change : Call → Call) : ClientTransport :=
  { t with calls := t.calls.modify ref change }

def enqueue (t : ClientTransport) (item : QueueItem) : ClientTransport :=
  { t with items := t.items ++ [item] }

/-! ## Creating a stream -/

/-- Wake one waiting caller, if there is quota for it; the channel has one slot. -/
def notifyQuota (t : ClientTransport) : ClientTransport :=
  { t with quotaToken := t.quotaToken || decide (t.streamQuota > 0 ∧ t.waitingStreams > 0) }

def checkForHeaderListSize (t : ClientTransport) (hf : List HeaderField) : Option NewStreamErr :=
  match t.maxSendHeaderListSize with
  | none => none
  | some max => if exceedsHeaderListSize max.toNat 0 hf then some (.hdrListSize max) else none

/-- The part of `checkForStreamQuota` that has found quota, before it looks at
the state of the transport. -/
def takeQuota (t : ClientTransport) (firstTry : Bool) : ClientTransport :=
  { t with
    waitingStreams := if firstTry then t.waitingStreams else t.waitingStreams - 1
    streamQuota := t.streamQuota - 1
    nextID := t.nextID + 2 }

def checkForStreamQuota (t : ClientTransport) (ref : Nat) (firstTry : Bool) (ch : Option Nat) :
    ClientTransport :=
  if t.streamQuota ≤ 0 then
    { t with
      waitingStreams := if firstTry then t.waitingStreams + 1 else t.waitingStreams }.modifyCall
        ref fun call => { call with progress := .waiting (some t.quotaChan) }
  else
    match t.activeStreams with
    | some streams =>
      if t.state = .draining then
        (t.takeQuota firstTry).modifyCall ref
          fun call => { call with id := t.nextID, progress := .waiting ch }
      else
        ({ t.takeQuota firstTry with
          activeStreams := some (streams.insert t.nextID ref) }.notifyQuota.enqueue
            (.headerFrame ref)).modifyCall ref
              fun call => { call with id := t.nextID, progress := .admitted }
    | none =>
      (t.takeQuota firstTry).modifyCall ref
        fun call => { call with id := t.nextID, progress := .waiting ch }

def fail (t : ClientTransport) (ref : Nat) (e : NewStreamErr) : ClientTransport :=
  t.modifyCall ref fun call => { call with progress := .failed e }

/-- One round of the loop in `NewStream`, up to the wait. -/
def tryNewStream (t : ClientTransport) (ref : Nat) (hf : List HeaderField) (firstTry : Bool)
    (ch : Option Nat) : ClientTransport :=
  if t.bufErr then t.fail ref .controlBuf
  else match t.checkForHeaderListSize hf with
    | some e => t.fail ref e
    | none => t.checkForStreamQuota ref firstTry ch

/-- A receive from a channel succeeds: it is closed, or its slot is taken. -/
def canReceive (t : ClientTransport) (ch : Nat) : Bool :=
  decide (ch < t.quotaChan) || (decide (ch = t.quotaChan) && t.quotaToken)

def receive (t : ClientTransport) (ch : Nat) : ClientTransport :=
  if ch < t.quotaChan then t else { t with quotaToken := false }

/-- A waiting caller leaves when its context is done, or the transport drains
or closes. -/
def mayGiveUp (t : ClientTransport) : NewStreamErr → Bool
  | .ctx => true
  | .streamDrain => t.goAway
  | .connClosing => t.ctxDone
  | _ => false

/-! ## Closing a stream -/

/-- A winner gives the quota back together with the cleanup item, unless the
control buffer is finished, and closes the `done` channel. -/
def doCloseStream (t : ClientTransport) (ref : Nat) : ClientTransport :=
  if t.bufErr then
    t.modifyCall ref fun call => { call with winners := call.winners - 1, finished := true }
  else
    ({ t with streamQuota := t.streamQuota + 1 }.notifyQuota.enqueue
      (.cleanupStream ref)).modifyCall ref fun call =>
        { call with winners := call.winners - 1, finished := true, returns := call.returns + 1 }

/-! ## The writer -/

/-- The closure `initStream` of a header frame. -/
def initStream (t : ClientTransport) (ref : Nat) : ClientTransport :=
  match t.state with
  | .reachable => t
  | .draining => t.modifyCall ref Call.cleanup
  -- `ErrConnClosing` makes the writer return
  | .closing => { t.modifyCall ref Call.cleanup with writerDone := true }

def loopyHandle (t : ClientTransport) : QueueItem → ClientTransport
  | .headerFrame ref => t.initStream ref
  | .cleanupStream ref =>
    match t.calls[ref]? with
    | some call => { t with activeStreams := t.activeStreams.map (AList.erase call.id) }
    | none => t
  | .incomingSettings _ => t

/-! ## The reader -/

/-- The new limit changes the quota by the difference; when it grows, every
waiting caller is woken by closing the channel. -/
def updateStreamQuota (t : ClientTransport) (maxStreams : UInt32) : ClientTransport :=
  let delta := (maxStreams.toNat : Int) - t.maxConcurrentStreams.toNat
  let wakeAll := decide (delta > 0 ∧ t.waitingStreams > 0)
  { t with
    maxConcurrentStreams := maxStreams
    streamQuota := t.streamQuota + delta
    quotaChan := if wakeAll then t.quotaChan + 1 else t.quotaChan
    quotaToken := if wakeAll then false else t.quotaToken }

/-- The limit that a SETTINGS frame sets: the first frame always sets one. -/
def maxStreamsOf (isFirst : Bool) (ss : List Setting) : Option UInt32 :=
  match lastSetting Setting.maxConcurrentStreams ss with
  | some max => some max
  | none => if isFirst then some 4294967295 else none

def handleSettings (t : ClientTransport) (ack : Bool) (ss : List Setting) : ClientTransport :=
  let isFirst := !t.prefaceRead
  let t := { t with prefaceRead := true }
  if ack || t.bufErr then t
  else
    let t := { t with
      maxSendHeaderListSize :=
        (lastSetting Setting.maxHeaderListSize ss).or t.maxSendHeaderListSize }
    let t := match maxStreamsOf isFirst ss with
      | some max => t.updateStreamQuota max
      | none => t
    t.enqueue (.incomingSettings (ss.filter Side.clientSide.forwards))

/-- A GOAWAY frame that does not make the client close the connection. -/
def acceptsGoAway (t : ClientTransport) (id : UInt32) : Bool :=
  decide (t.state ≠ .closing ∧ ¬(id > 0 ∧ id % 2 ≠ 1) ∧
    ¬(t.goAway = true ∧ id > t.prevGoAwayID))

/-- The streams that a GOAWAY frame declares unprocessed. -/
def unprocessedBy (t : ClientTransport) (id : UInt32) : List Nat :=
  let upperLimit := if t.prevGoAwayID = 0 then 4294967295 else t.prevGoAwayID
  match t.activeStreams with
  | some streams => (streams.entries.filter fun entry =>
    decide (entry.1 > id ∧ entry.1 ≤ upperLimit)).map Sigma.snd
  | none => []

/-- `handleGoAway` up to the release of the transport's lock; it goes on to
close `unprocessedStreams`. Where the source calls `Close`, that is an event of
its own. -/
def handleGoAway (t : ClientTransport) (id : UInt32) : ClientTransport :=
  if t.acceptsGoAway id then
    { t with
      goAway := true
      state := if t.goAway then t.state else .draining
      prevGoAwayID := id
      calls := modifyEach Call.markUnprocessed (t.unprocessedBy id) t.calls
      unprocessedStreams := t.unprocessedBy id }
  else t

/-- `handleRSTStream` up to the call of `closeStream`. -/
def handleRSTStream (t : ClientTransport) (id : UInt32) (errCode : ErrCode) : ClientTransport :=
  match t.activeStreams.bind (AList.lookup id) with
  | some ref =>
    if errCode = ErrCode.refusedStream then t.modifyCall ref Call.markUnprocessed else t
  | none => t

/-! ## Shutting down -/

/-- The streams whose header frames wait in the control buffer. -/
def queuedHeaders (items : List QueueItem) : List Nat :=
  items.filterMap fun
    | .headerFrame ref => some ref
    | _ => none

/-- `controlBuf.finish`: headers that the writer will not see are orphaned. -/
def finish (t : ClientTransport) : ClientTransport :=
  if t.bufErr then t
  else { t with
    calls := modifyEach Call.cleanup (queuedHeaders t.items) t.calls
    bufErr := true
    items := [] }

end ClientTransport

inductive ClientEvent where
  /-- a caller enters `NewStream` -/
  | newStream (hf : List HeaderField)
  | tryNewStream (ref : Nat)
  /-- a waiting caller receives from its channel -/
  | wake (ref : Nat)
  /-- a waiting caller leaves `NewStream` with an error -/
  | giveUp (ref : Nat) (e : NewStreamErr)
  /-- someone starts to close a stream -/
  | casStreamDone (ref : Nat)
  | doCloseStream (ref : Nat)
  /-- the writer takes an item out of the control buffer and handles it -/
  | loopyHandle
  /-- the writer returns, on an error or with nothing left to drain -/
  | loopyReturn
  | handleSettings (ack : Bool) (ss : List Setting)
  | handleGoAway (id : UInt32)
  | handleRSTStream (id : UInt32) (errCode : ErrCode)
  /-- the reader starts to close an unprocessed stream -/
  | closeUnprocessed (ref : Nat)
  /-- the reader has seen an unprocessed stream finished -/
  | unprocessedDone (ref : Nat)
  | gracefulClose
  /-- `Close` up to the release of the transport's lock -/
  | close
  /-- `Close` or the writer finishes the control buffer -/
  | finish
  /-- the transport's context is cancelled -/
  | cancel
  deriving DecidableEq, Repr

namespace ClientTransport

def step (t : ClientTransport) : ClientEvent → Option ClientTransport
  | .newStream hf => some { t with calls := t.calls ++ [Call.new hf] }
  | .tryNewStream ref => t.calls[ref]?.bind fun call =>
    call.progress.round.map fun (firstTry, ch) => t.tryNewStream ref call.hf firstTry ch
  | .wake ref => t.calls[ref]?.bind fun call =>
    match call.progress with
    | .waiting (some ch) =>
      if t.canReceive ch then
        some ((t.receive ch).modifyCall ref fun call => { call with progress := .woken ch })
      else none
    | _ => none
  | .giveUp ref e => t.calls[ref]?.bind fun call =>
    match call.progress with
    | .waiting _ => if t.mayGiveUp e then some (t.fail ref e) else none
    | _ => none
  | .casStreamDone ref => t.calls[ref]?.bind fun call =>
    if call.progress = .admitted then some (t.modifyCall ref Call.casStreamDone) else none
  | .doCloseStream ref => t.calls[ref]?.bind fun call =>
    if call.winners > 0 then some (t.doCloseStream ref) else none
  | .loopyHandle =>
    match t.items with
    | item :: items =>
      if t.writerDone then none else some ({ t with items := items }.loopyHandle item)
    | [] => none
  | .loopyReturn => some { t with writerDone := true }
  | .handleSettings ack ss =>
    if t.unprocessedStreams = [] then some (t.handleSettings ack ss) else none
  | .handleGoAway id =>
    if t.prefaceRead ∧ t.unprocessedStreams = [] then some (t.handleGoAway id) else none
  | .handleRSTStream id errCode =>
    if t.prefaceRead ∧ t.unprocessedStreams = [] then some (t.handleRSTStream id errCode)
    else none
  | .closeUnprocessed ref =>
    if ref ∈ t.unprocessedStreams then some (t.modifyCall ref Call.casStreamDone) else none
  | .unprocessedDone ref => t.calls[ref]?.bind fun call =>
    if call.finished ∧ ref ∈ t.unprocessedStreams then
      some { t with unprocessedStreams := t.unprocessedStreams.erase ref }
    else none
  | .gracefulClose =>
    some { t with state := if t.state = .reachable then .draining else t.state }
  | .close => some { t with state := .closing, activeStreams := none }
  -- `get` finishes the control buffer when the context of the transport is done
  | .finish => if t.state = .closing ∨ t.ctxDone then some t.finish else none
  | .cancel => some { t with ctxDone := true }

def run (events : List ClientEvent) : Option ClientTransport :=
  Machine.run step newHTTP2Client events

end ClientTransport

end Kitex.Http2
