import Kitex.Http2.ControlItems
import Kitex.Container.IntrusiveList
import Kitex.Machine.Run

/-! # The loopy writer

The writer takes control items from the control buffer one at a time and, in
between, sends data of one active stream at a time. `handle` and `processData`
are the two operations of its loop; a run is any interleaving of them that
stops at the first error.
-/

namespace Kitex.Http2

open Kitex.Container

/-- The framer: which of its write calls fail, and how many were made. -/
structure Framer where
  fails : Nat → Bool
  calls : Nat

/-- A framer none of whose writes fails. -/
def Framer.reliable : Framer := ⟨fun _ => false, 0⟩

inductive LoopyErr where
  /-- `ErrConnClosing` -/
  | connClosing
  /-- a framer call returned an error -/
  | framer
  /-- the connection is closed behind a GOAWAY frame -/
  | goAwaySent
  /-- a nil dereference or a failed type assertion -/
  | panicked
  deriving DecidableEq, Repr

/-- The errors of a header frame's `initStream`. -/
inductive InitStreamErr where
  | connClosing
  | streamDrain
  deriving DecidableEq, Repr

/-- What the writer reads outside of its own state while it handles an item:
the order in which `range` visits the established streams, the answer of a
header's `initStream`, and the fields of the server transport. -/
structure Surroundings where
  range : EstdStreams → List UInt32
  range_perm : ∀ streams : EstdStreams, (range streams).Perm streams.keys
  initStream : Option InitStreamErr
  transportClosing : Bool
  maxStreamID : UInt32
  noActiveStreams : Bool

/-- Surroundings in which nothing is closing, for fixed runs. -/
def Surroundings.quiet : Surroundings where
  range := AList.keys
  range_perm _ := List.Perm.refl _
  initStream := none
  transportClosing := false
  maxStreamID := 0
  noActiveStreams := false

structure LoopyWriter (hpack : Hpack) where
  side : Side
  sendQuota : UInt32
  /-- outbound initial window size -/
  oiws : UInt32
  estdStreams : EstdStreams
  activeStreams : Links UInt32
  framer : Framer
  hEnc : hpack.State
  draining : Bool
  effects : List Effect

/-- A call's result: the writer it leaves and the value or error it returns. -/
abbrev Outcome (hpack : Hpack) (α : Type) := LoopyWriter hpack × Except LoopyErr α

variable {hpack : Hpack}

/-- Continue unless the call returned an error. -/
def Outcome.andThen {α β : Type} (outcome : Outcome hpack α)
    (next : LoopyWriter hpack → α → Outcome hpack β) : Outcome hpack β :=
  match outcome with
  | (l, .ok a) => next l a
  | (l, .error e) => (l, .error e)

theorem Outcome.andThen_ok {α β : Type} (l : LoopyWriter hpack) (a : α)
    (next : LoopyWriter hpack → α → Outcome hpack β) :
    Outcome.andThen (l, .ok a) next = next l a := rfl

def newLoopyWriter (hpack : Hpack) (side : Side) (framer : Framer) : LoopyWriter hpack where
  side := side
  sendQuota := defaultWindowSize
  oiws := defaultWindowSize
  estdStreams := ∅
  activeStreams := Links.empty
  framer := framer
  hEnc := hpack.init
  draining := false
  effects := []

namespace LoopyWriter

def record (l : LoopyWriter hpack) (effect : Effect) : LoopyWriter hpack :=
  { l with effects := l.effects ++ [effect] }

/-- Run a closure unless it is nil. -/
def call (l : LoopyWriter hpack) : Option Callback → LoopyWriter hpack
  | some callback => l.record (.called callback)
  | none => l

/-- Write through the pointer to an established stream. -/
def setStream (l : LoopyWriter hpack) (str : OutStream) : LoopyWriter hpack :=
  { l with estdStreams := l.estdStreams.insert str.id str }

/-- `activeStreams.enqueue`. -/
def activate (l : LoopyWriter hpack) (streamID : UInt32) : LoopyWriter hpack :=
  { l with activeStreams := l.activeStreams.pushBack streamID }

/-- The stream's window: the initial window less what the peer has not returned. -/
def strQuota (l : LoopyWriter hpack) (str : OutStream) : Int :=
  l.oiws.toNat - str.bytesOutStanding

/-- One call of the framer. -/
def writeFrame (l : LoopyWriter hpack) (frame : Frame) : Outcome hpack Unit :=
  let called := { l with framer := { l.framer with calls := l.framer.calls + 1 } }
  if l.framer.fails l.framer.calls then (called, .error .framer)
  else (called.record (.wrote frame), .ok ())

/-- The bytes of a header list in the HPACK buffer, and the encoder after it. -/
def encodeHeaders (hpack : Hpack) (hEnc : hpack.State) : List HeaderField → hpack.State × Bytes
  | [] => (hEnc, [])
  | f :: hf =>
    let (hEnc, written) := hpack.writeField hEnc f
    let (hEnc, rest) := encodeHeaders hpack hEnc hf
    (hEnc, written ++ rest)

/-- The loop of `writeHeader` over what is left in the buffer. Every round but
the last takes `http2MaxFrameLen` bytes, so one unit of fuel for each byte and
one more are enough. -/
def writeHeaderBlocks (streamID : UInt32) (endStream : Bool) :
    Nat → Bool → Bytes → LoopyWriter hpack → Outcome hpack Unit
  | 0, _, _, l => (l, .ok ())
  | fuel + 1, first, hBuf, l =>
    let endHeaders := decide (hBuf.length ≤ http2MaxFrameLen)
    let size := min hBuf.length http2MaxFrameLen
    let frame :=
      if first then Frame.headers streamID endStream endHeaders (hBuf.take size)
      else Frame.continuation streamID endHeaders (hBuf.take size)
    (l.writeFrame frame).andThen fun l _ =>
      if endHeaders then (l, .ok ())
      else writeHeaderBlocks streamID endStream fuel false (hBuf.drop size) l

def writeHeader (l : LoopyWriter hpack) (streamID : UInt32) (endStream : Bool)
    (hf : List HeaderField) (onWrite : Option Callback) : Outcome hpack Unit :=
  let l := l.call onWrite
  let encoded := encodeHeaders hpack l.hEnc hf
  writeHeaderBlocks streamID endStream (encoded.2.length + 1) true encoded.2
    { l with hEnc := encoded.1 }

def outgoingWindowUpdateHandler (l : LoopyWriter hpack) (streamID increment : UInt32) :
    Outcome hpack Unit :=
  l.writeFrame (.windowUpdate streamID increment)

def incomingWindowUpdateHandler (l : LoopyWriter hpack) (streamID increment : UInt32) :
    Outcome hpack Unit :=
  if streamID = 0 then ({ l with sendQuota := l.sendQuota + increment }, .ok ())
  else match l.estdStreams.lookup streamID with
    | none => (l, .ok ())
    | some str =>
      let str := { str with bytesOutStanding := str.bytesOutStanding - increment.toNat }
      if l.strQuota str > 0 ∧ str.state = .waitingOnStreamQuota then
        ((l.setStream { str with state := .active }).activate str.id, .ok ())
      else (l.setStream str, .ok ())

def outgoingSettingsHandler (l : LoopyWriter hpack) (ss : List Setting) : Outcome hpack Unit :=
  l.writeFrame (.settings ss)

/-- Make one depleted stream active. -/
def activateDepleted (l : LoopyWriter hpack) (streamID : UInt32) : LoopyWriter hpack :=
  match l.estdStreams.lookup streamID with
  | none => l
  | some str =>
    if str.state = .waitingOnStreamQuota then
      (l.setStream { str with state := .active }).activate str.id
    else l

def applySetting (env : Surroundings) (l : LoopyWriter hpack) (s : Setting) : LoopyWriter hpack :=
  if s.id = Setting.initialWindowSize then
    let o := l.oiws
    let l := { l with oiws := s.val }
    if o < l.oiws then (env.range l.estdStreams).foldl activateDepleted l else l
  else if s.id = Setting.headerTableSize then
    { l with hEnc := hpack.setMaxDynamicTableSizeLimit l.hEnc s.val }
  else l

def applySettings (env : Surroundings) (l : LoopyWriter hpack) (ss : List Setting) :
    LoopyWriter hpack :=
  ss.foldl (applySetting env) l

def incomingSettingsHandler (env : Surroundings) (l : LoopyWriter hpack) (ss : List Setting) :
    Outcome hpack Unit :=
  (l.applySettings env ss).writeFrame .settingsAck

/-- A stream that has nothing to send yet. -/
def newOutStream (streamID : UInt32) : OutStream where
  id := streamID
  state := .empty
  itl := []
  bytesOutStanding := 0

def registerStreamHandler (l : LoopyWriter hpack) (streamID : UInt32) : Outcome hpack Unit :=
  (l.setStream (newOutStream streamID), .ok ())

/-- `delete(l.estdStreams, id)` and `str.deleteSelf()`. -/
def forget (l : LoopyWriter hpack) (streamID : UInt32) : LoopyWriter hpack :=
  match l.estdStreams.lookup streamID with
  | none => l
  | some _ =>
    { l with
      estdStreams := l.estdStreams.erase streamID
      activeStreams := l.activeStreams.unlink (.elem streamID) }

def cleanupStreamHandler (l : LoopyWriter hpack) (c : CleanupStream) : Outcome hpack Unit :=
  let l := (l.record (.called c.onWrite)).forget c.streamID
  let reset : Outcome hpack Unit :=
    if c.rst then l.writeFrame (.rstStream c.streamID c.rstCode) else (l, .ok ())
  let outcome := reset.andThen fun l _ =>
    if l.side = .clientSide ∧ l.draining = true ∧ l.estdStreams.keys = [] then
      (l, .error .connClosing)
    else (l, .ok ())
  -- the deferred call runs whatever is returned
  (outcome.1.call c.onFinishWrite, outcome.2)

/-- Cleanup through the pointer stored in a header frame, nil on frames that
do not end their stream. -/
def cleanupTrailers (l : LoopyWriter hpack) (cleanup : Option CleanupStream) :
    Outcome hpack Unit :=
  match cleanup with
  | some c => l.cleanupStreamHandler c
  | none => (l, .error .panicked)

def originateStream (env : Surroundings) (l : LoopyWriter hpack) (str : OutStream)
    (hdr : HeaderFrame) : Outcome hpack Unit :=
  match env.initStream with
  | some .connClosing => (l, .error .connClosing)
  -- a draining transport drops the stream but goes on
  | some .streamDrain => (l, .ok ())
  | none =>
    (l.writeHeader str.id hdr.endStream hdr.hf hdr.onWrite).andThen fun l _ =>
      (l.setStream str, .ok ())

def headerHandler (env : Surroundings) (l : LoopyWriter hpack) (h : HeaderFrame) :
    Outcome hpack Unit :=
  match l.side with
  | .serverSide =>
    match l.estdStreams.lookup h.streamID with
    | none => (l, .ok ())
    | some str =>
      if h.endStream = false then
        l.writeHeader h.streamID h.endStream h.hf h.onWrite
      else if str.state ≠ .empty then
        (l.setStream { str with itl := str.itl ++ [.header h] }, .ok ())
      else
        (l.writeHeader h.streamID h.endStream h.hf h.onWrite).andThen fun l _ =>
          l.cleanupTrailers h.cleanup
  | .clientSide => l.originateStream env (newOutStream h.streamID) h

def preprocessData (l : LoopyWriter hpack) (df : DataFrame) : Outcome hpack Unit :=
  match l.estdStreams.lookup df.streamID with
  | none => (l, .ok ())
  | some str =>
    let str := { str with itl := str.itl ++ [.data df] }
    if str.state = .empty then
      ((l.setStream { str with state := .active }).activate str.id, .ok ())
    else (l.setStream str, .ok ())

def pingHandler (l : LoopyWriter hpack) (p : Ping) : Outcome hpack Unit :=
  l.writeFrame (.ping p.ack p.data)

def outFlowControlSizeRequestHandler (l : LoopyWriter hpack) : Outcome hpack Unit :=
  (l.record (.replied l.sendQuota), .ok ())

def incomingGoAwayHandler (l : LoopyWriter hpack) : Outcome hpack Unit :=
  match l.side with
  | .clientSide =>
    let l := { l with draining := true }
    if l.estdStreams.keys = [] then (l, .error .connClosing) else (l, .ok ())
  | .serverSide => (l, .ok ())

/-- The server's handler for outgoing GOAWAY items, with the frames it writes;
it returns whether the writer starts draining. -/
def outgoingGoAwayHandler (env : Surroundings) (l : LoopyWriter hpack) (g : GoAway) :
    Outcome hpack Bool :=
  if env.transportClosing then (l, .error .connClosing)
  else if g.headsUp = false then
    (l.writeFrame (.goAway env.maxStreamID g.code g.debugData)).andThen fun l _ =>
      if g.closeConn ∨ env.noActiveStreams then (l, .error .goAwaySent) else (l, .ok true)
  else
    (l.writeFrame (.goAway 4294967295 ErrCode.no g.debugData)).andThen fun l _ =>
      (l.writeFrame (.ping false goAwayPing)).andThen fun l _ => (l, .ok false)

def goAwayHandler (env : Surroundings) (l : LoopyWriter hpack) (g : GoAway) :
    Outcome hpack Unit :=
  match l.side with
  | .clientSide => (l, .ok ())
  | .serverSide => (l.outgoingGoAwayHandler env g).andThen fun l draining =>
    ({ l with draining := draining }, .ok ())

def handle (env : Surroundings) (l : LoopyWriter hpack) : CbItem → Outcome hpack Unit
  | .incomingWindowUpdate streamID increment => l.incomingWindowUpdateHandler streamID increment
  | .outgoingWindowUpdate streamID increment => l.outgoingWindowUpdateHandler streamID increment
  | .incomingSettings ss => l.incomingSettingsHandler env ss
  | .outgoingSettings ss => l.outgoingSettingsHandler ss
  | .headerFrame h => l.headerHandler env h
  | .registerStream streamID => l.registerStreamHandler streamID
  | .cleanupStream c => l.cleanupStreamHandler c
  | .incomingGoAway => l.incomingGoAwayHandler
  | .dataFrame df => l.preprocessData df
  | .ping p => l.pingHandler p
  | .goAway g => l.goAwayHandler env g
  | .outFlowControlSizeRequest => l.outFlowControlSizeRequestHandler

/-- The largest payload that the frame size and both windows allow. -/
def maxSize (l : LoopyWriter hpack) (str : OutStream) : Nat :=
  let size := if (http2MaxFrameLen : Int) > l.strQuota str then (l.strQuota str).toNat
    else http2MaxFrameLen
  if size > l.sendQuota.toNat then l.sendQuota.toNat else size

/-- Write the trailers that have come to the head of a stream's list. -/
def writeTrailers (l : LoopyWriter hpack) (trailer : HeaderFrame) : Outcome hpack Unit :=
  (l.writeHeader trailer.streamID trailer.endStream trailer.hf trailer.onWrite).andThen fun l _ =>
    l.cleanupTrailers trailer.cleanup

/-- `processData` on an empty data frame at the head of the stream's list. -/
def processEmpty (l : LoopyWriter hpack) (str : OutStream) (dataItem : DataFrame)
    (rest : List StreamItem) : Outcome hpack Bool :=
  (l.writeFrame (.data dataItem.streamID dataItem.endStream [])).andThen fun l _ =>
    let str := { str with itl := rest }
    match rest with
    | [] => (l.setStream { str with state := .empty }, .ok false)
    | .header trailer :: _ =>
      let l := l.setStream str
      (l.writeHeader trailer.streamID trailer.endStream trailer.hf trailer.onWrite).andThen
        fun l _ =>
          match l.cleanupTrailers trailer.cleanup with
          | (l, .error .panicked) => (l, .error .panicked)
          -- an error of the cleanup is not returned on this path
          | (l, _) => (l, .ok false)
    | .data _ :: _ => ((l.setStream str).activate str.id, .ok false)

/-- The end of `processData`: what to do with a stream part of whose data has
been written. -/
def settle (l : LoopyWriter hpack) (str : OutStream) : Outcome hpack Bool :=
  match str.itl with
  | [] => (l.setStream { str with state := .empty }, .ok false)
  | .header trailer :: _ =>
    ((l.setStream str).writeTrailers trailer).andThen fun l _ => (l, .ok false)
  | .data _ :: _ =>
    if l.strQuota str ≤ 0 then
      (l.setStream { str with state := .waitingOnStreamQuota }, .ok false)
    else ((l.setStream str).activate str.id, .ok false)

/-- `processData` on a data frame with bytes left. -/
def processPayload (l : LoopyWriter hpack) (str : OutStream) (dataItem : DataFrame)
    (rest : List StreamItem) : Outcome hpack Bool :=
  if l.strQuota str ≤ 0 then
    (l.setStream { str with state := .waitingOnStreamQuota }, .ok false)
  else
    let maxSize := l.maxSize str
    let hSize := min maxSize dataItem.h.length
    let dSize := min (maxSize - hSize) dataItem.d.length
    let buf :=
      if hSize ≠ 0 then
        if dSize = 0 then dataItem.h else dataItem.h.take hSize ++ dataItem.d.take dSize
      else dataItem.d
    let size := hSize + dSize
    let l := l.record (.replenished str.id size)
    let endStream :=
      dataItem.endStream && decide (dataItem.h.length + dataItem.d.length ≤ size)
    let l := if dataItem.resetPingStrikes then l.record .storedResetPingStrikes else l
    (l.writeFrame (.data dataItem.streamID endStream (buf.take size))).andThen fun l _ =>
      let l := { l with sendQuota := l.sendQuota - UInt32.ofNat size }
      let dataItem := { dataItem with h := dataItem.h.drop hSize, d := dataItem.d.drop dSize }
      l.settle { str with
        bytesOutStanding := str.bytesOutStanding + (size : Int)
        itl := if dataItem.h = [] ∧ dataItem.d = [] then rest else .data dataItem :: rest }

/-- Remove the first stream from the active streams, write at most one frame of
its data, and put it back if it can send more. The result tells whether there was nothing to do. -/
def processData (l : LoopyWriter hpack) : Outcome hpack Bool :=
  if l.sendQuota = 0 then (l, .ok true)
  else match l.activeStreams.popFront with
    | none => (l, .ok true)
    | some (streamID, activeStreams) =>
      let l := { l with activeStreams := activeStreams }
      match l.estdStreams.lookup streamID with
      | none => (l, .error .panicked)
      | some str =>
        match str.itl with
        | .data dataItem :: rest =>
          if dataItem.h = [] ∧ dataItem.d = [] then l.processEmpty str dataItem rest
          else l.processPayload str dataItem rest
        | _ => (l, .error .panicked)

end LoopyWriter

/-- One turn of the writer's loop. -/
inductive LoopyEvent where
  | handle (env : Surroundings) (item : CbItem)
  | processData

/-- The writer and the error that ended its loop, if any. -/
structure LoopyState (hpack : Hpack) where
  writer : LoopyWriter hpack
  stopped : Option LoopyErr

def Outcome.toState {α : Type} : Outcome hpack α → LoopyState hpack
  | (l, .ok _) => ⟨l, none⟩
  | (l, .error e) => ⟨l, some e⟩

/-- The loop goes on until a call returns an error. -/
def loopyStep (state : LoopyState hpack) (event : LoopyEvent) : Option (LoopyState hpack) :=
  match state.stopped with
  | some _ => none
  | none =>
    match event with
    | .handle env item => some (Outcome.toState (state.writer.handle env item))
    | .processData => some (Outcome.toState state.writer.processData)

/-- Runs of a new writer on a framer. -/
def loopyRunOn (hpack : Hpack) (side : Side) (framer : Framer) (events : List LoopyEvent) :
    Option (LoopyState hpack) :=
  Machine.run loopyStep ⟨newLoopyWriter hpack side framer, none⟩ events

/-- Runs of a new writer whose framer never fails. -/
def loopyRun (hpack : Hpack) (side : Side) (events : List LoopyEvent) :
    Option (LoopyState hpack) :=
  loopyRunOn hpack side Framer.reliable events

/-- The stream that handling an item establishes: the server's reader registers
it explicitly, the client's header frame originates it. -/
def CbItem.registers (side : Side) : CbItem → Option UInt32
  | .registerStream streamID => some streamID
  | .headerFrame h => match side with
      | .clientSide => some h.streamID
      | .serverSide => none
  | _ => none

def LoopyEvent.registers (side : Side) : LoopyEvent → Option UInt32
  | .handle _ item => item.registers side
  | .processData => none

/-- No stream identifier is registered twice. -/
def RegisteredOnce (side : Side) (events : List LoopyEvent) : Prop :=
  (events.filterMap (LoopyEvent.registers side)).Nodup

instance (side : Side) (events : List LoopyEvent) : Decidable (RegisteredOnce side events) :=
  inferInstanceAs (Decidable (List.Nodup _))

end Kitex.Http2
