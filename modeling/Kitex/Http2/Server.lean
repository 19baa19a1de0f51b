import Kitex.Http2.ControlItems
import Kitex.Machine.Run

/-! # The server transport

The streams of one connection, its PING handling and its shutdown, as the
reader, the writer, the stream handlers and the keepalive routine change them
under the transport's lock. Items go to the control buffer, from which the
writer takes them. Times and durations are in nanoseconds, times counted from
Go's zero time.
-/

namespace Kitex.Http2

/-! ## Configuration -/

structure EnforcementPolicy where
  minTime : Int
  permitWithoutStream : Bool
  deriving DecidableEq, Repr

structure ServerConfig where
  maxStreams : UInt32
  initialWindowSize : UInt32
  maxHeaderListSize : Option UInt32
  keepaliveEnforcementPolicy : EnforcementPolicy
  deriving DecidableEq, Repr

/-- The settings that the server sends as connection preface. -/
def ServerConfig.isettings (config : ServerConfig) : List Setting :=
  [⟨Setting.maxFrameSize, UInt32.ofNat http2MaxFrameLen⟩] ++
  (if config.maxStreams = 0 then [] else [⟨Setting.maxConcurrentStreams, config.maxStreams⟩]) ++
  (if config.initialWindowSize ≥ defaultWindowSize then
    [⟨Setting.initialWindowSize, config.initialWindowSize⟩] else []) ++
  (config.maxHeaderListSize.map (Setting.mk Setting.maxHeaderListSize)).toList

def defaultKeepalivePolicyMinTime : Int := 5 * 60 * 1000000000

def defaultPingTimeout : Int := 2 * 60 * 60 * 1000000000

def maxPingStrikes : UInt8 := 2

def gracefulShutdownCode : ErrCode := 1000

/-! ## State -/

/-- A HEADERS frame with its decoded header list. The reader of frames masks the
reserved bit of the identifier. A header list that cannot be decoded has a code
to reset the stream with, if the error is a status. -/
structure MetaHeadersFrame where
  streamID : UInt32
  decoded : Except (Option ErrCode) Unit
  masked : streamID.toNat < 2 ^ 31

/-- The channel that `drain` makes. -/
inductive DrainChan where
  | unmade
  | made
  | closed
  deriving DecidableEq, Repr

/-- The panics of Go's `close`. -/
inductive ChanPanic where
  | closeOfNil
  | closeOfClosed
  deriving DecidableEq, Repr

structure Http2Server where
  maxStreams : UInt32
  maxStreamID : UInt32
  kep : EnforcementPolicy
  lastPingAt : Int
  pingStrikes : UInt8
  resetPingStrikes : Bool
  drainChan : DrainChan
  drainChanClosed : Bool
  state : TransportState
  /-- nil once the transport closes; a stream maps to whether it is done -/
  activeStreams : Option (AList fun _ : UInt32 => Bool)
  items : List CbItem
  /-- the control buffer has been finished with an error -/
  bufErr : Bool
  /-- routines that wait to send the second GOAWAY frame of a shutdown -/
  notifiers : List (ErrCode × Bytes)
  /-- the panic of a goroutine that holds the transport's lock -/
  panicked : Option ChanPanic

def newHTTP2Server (config : ServerConfig) : Http2Server where
  -- not the limit that is advertised
  maxStreams := 4294967295
  maxStreamID := 0
  kep :=
    { config.keepaliveEnforcementPolicy with
      minTime :=
        if config.keepaliveEnforcementPolicy.minTime = 0 then defaultKeepalivePolicyMinTime
        else config.keepaliveEnforcementPolicy.minTime }
  lastPingAt := 0
  pingStrikes := 0
  resetPingStrikes := false
  drainChan := .unmade
  drainChanClosed := false
  state := .reachable
  activeStreams := some ∅
  items := []
  bufErr := false
  notifiers := []
  panicked := none

namespace Http2Server

/-- `controlBuf.put`, which fails once the control buffer is finished. -/
def put (t : Http2Server) (item : CbItem) : Http2Server :=
  { t with items := if t.bufErr then t.items else t.items ++ [item] }

/-- `len(t.activeStreams)`. -/
def numStreams (t : Http2Server) : Nat :=
  t.activeStreams.elim 0 fun streams => streams.keys.length

/-! ## Streams -/

/-- Make the writer forget a stream that the transport does not keep. -/
def putCleanup (t : Http2Server) (streamID : UInt32) (rst : Bool) (rstCode : ErrCode) :
    Http2Server :=
  t.put (.cleanupStream ⟨streamID, rst, rstCode, .noop, none⟩)

def closeWithErr (t : Http2Server) : Http2Server :=
  if t.state = .closing then t
  else { t with state := .closing, activeStreams := none, bufErr := true, items := [] }

/-- `operateHeaders`, and the closing of the transport after a fatal error. -/
def operateHeaders (t : Http2Server) (frame : MetaHeadersFrame) : Http2Server :=
  match frame.decoded with
  | .error (some rstCode) => t.putCleanup frame.streamID true rstCode
  | .error none => t
  | .ok () =>
    if t.state ≠ .reachable then t
    else if UInt32.ofNat t.numStreams ≥ t.maxStreams then
      t.putCleanup frame.streamID true ErrCode.refusedStream
    else if frame.streamID % 2 ≠ 1 ∨ frame.streamID ≤ t.maxStreamID then t.closeWithErr
    else
      { t with
        maxStreamID := frame.streamID
        activeStreams := t.activeStreams.map (AList.insert frame.streamID false) }.put
          (.registerStream frame.streamID)

def deleteStream (t : Http2Server) (streamID : UInt32) : Http2Server :=
  { t with activeStreams := t.activeStreams.map (AList.erase streamID) }

def closeStream (t : Http2Server) (streamID : UInt32) (rst : Bool) (rstCode : ErrCode) :
    Http2Server :=
  (t.deleteStream streamID).putCleanup streamID rst rstCode

/-- A stream that is not kept any more is cleaned up in the writer only, which
is what closing it comes to. -/
def handleRSTStream (t : Http2Server) (streamID : UInt32) : Http2Server :=
  match t.activeStreams.bind (AList.lookup streamID) with
  | some _ => t.closeStream streamID false ErrCode.no
  | none => t.putCleanup streamID false ErrCode.no

/-- `finishStream` with the trailers that `WriteStatus` has made. -/
def finishStream (t : Http2Server) (streamID : UInt32) (hf : List HeaderField) (rst : Bool)
    (rstCode : ErrCode) : Http2Server :=
  match t.activeStreams with
  | some streams =>
    match streams.lookup streamID with
    | some false =>
      { t with activeStreams := some (streams.insert streamID true) }.put
        (.headerFrame
          { streamID := streamID, hf := hf, endStream := true
            onWrite := some .setResetPingStrikes
            cleanup := some ⟨streamID, rst, rstCode, .deleteStream streamID, none⟩
            endStream_eq := rfl
            cleanup_streamID := by rintro _ ⟨⟩; rfl })
    | _ => t
  | none => t

/-! ## Pings -/

/-- Go's `close` of the drain channel. -/
def closeDrainChan (t : Http2Server) : Http2Server :=
  match t.drainChan with
  | .unmade => { t with panicked := some .closeOfNil }
  | .made => { t with drainChan := .closed, drainChanClosed := true }
  | .closed => { t with panicked := some .closeOfClosed }

/-- How long a client has to wait between two pings. -/
def pingInterval (t : Http2Server) : Int :=
  if t.numStreams < 1 ∧ t.kep.permitWithoutStream = false then defaultPingTimeout
  else t.kep.minTime

/-- Count a ping that comes too early. -/
def strike (t : Http2Server) (now : Int) : Http2Server :=
  { t with
    pingStrikes :=
      if t.lastPingAt + t.pingInterval > now then t.pingStrikes + 1 else t.pingStrikes }

/-- Close the connection after too many pings. -/
def punish (t : Http2Server) : Http2Server :=
  if t.pingStrikes > maxPingStrikes then
    t.put (.goAway ⟨ErrCode.enhanceYourCalm, "too_many_pings".toUTF8.toList, false, true⟩)
  else t

def countPing (t : Http2Server) (now : Int) : Http2Server :=
  if t.resetPingStrikes then { t with resetPingStrikes := false, pingStrikes := 0 }
  else (t.strike now).punish

def handlePing (t : Http2Server) (f : Ping) (now : Int) : Http2Server :=
  if f.ack then
    if f.data = goAwayPing ∧ t.drainChanClosed = false then t.closeDrainChan else t
  else
    { (t.put (.ping ⟨true, f.data⟩)).countPing now with lastPingAt := now }

/-! ## Shutdown -/

def drain (t : Http2Server) (code : ErrCode) (debugData : Bytes) : Http2Server :=
  if t.drainChan ≠ .unmade then t
  else { t with drainChan := .made }.put (.goAway ⟨code, debugData, true, false⟩)

/-- `outgoingGoAwayHandler`, run by the writer. The first GOAWAY frame of a
shutdown starts a routine that sends the second one. -/
def outgoingGoAwayHandler (t : Http2Server) (g : GoAway) : Http2Server :=
  if t.state = .closing then t
  else if g.headsUp then { t with notifiers := t.notifiers ++ [(g.code, g.debugData)] }
  else { t with state := .draining }

/-- The resets that `Close` sends for the streams that are not done. -/
def resets (t : Http2Server) : List CbItem :=
  t.activeStreams.elim [] fun streams =>
    (streams.entries.filter fun entry => !entry.2).map fun entry => .cleanupStream
      ⟨entry.1, true, gracefulShutdownCode, .noop, some (.finishWritten entry.1)⟩

/-- `Close` up to the wait for its RST_STREAM frames to be written. -/
def close (t : Http2Server) : Http2Server :=
  if t.state = .closing then t
  else { t with
    state := .closing
    activeStreams := none
    items := if t.bufErr then t.items else t.items ++ t.resets }

end Http2Server

inductive ServerEvent where
  | operateHeaders (frame : MetaHeadersFrame)
  | handleRSTStream (streamID : UInt32)
  | handlePing (f : Ping) (now : Int)
  /-- a stream error, or a handler that fails to write -/
  | closeStream (streamID : UInt32) (rst : Bool) (rstCode : ErrCode)
  /-- a handler returns -/
  | finishStream (streamID : UInt32) (hf : List HeaderField) (rst : Bool) (rstCode : ErrCode)
  /-- the writer takes an item out of the control buffer -/
  | loopyGet
  /-- the writer has written the trailers of a stream -/
  | deleteStream (streamID : UInt32)
  /-- the writer has written headers or data -/
  | setResetPingStrikes
  | drain (code : ErrCode) (debugData : Bytes)
  /-- the wait for the client's PING is over, by its acknowledgement or by a timer -/
  | notify
  | close
  | closeWithErr
  /-- `closeLoopyWriter` after `Close` -/
  | closeLoopyWriter

namespace Http2Server

/-- A step of the transport. A panic leaves its lock held for good. -/
def step (t : Http2Server) (event : ServerEvent) : Option Http2Server :=
  if t.panicked.isSome then none
  else match event with
    | .operateHeaders frame => some (t.operateHeaders frame)
    | .handleRSTStream streamID => some (t.handleRSTStream streamID)
    | .handlePing f now => some (t.handlePing f now)
    | .closeStream streamID rst rstCode => some (t.closeStream streamID rst rstCode)
    | .finishStream streamID hf rst rstCode => some (t.finishStream streamID hf rst rstCode)
    | .loopyGet =>
      match t.items with
      | .goAway g :: items => some ({ t with items := items }.outgoingGoAwayHandler g)
      | _ :: items => some { t with items := items }
      | [] => none
    | .deleteStream streamID =>
      if t.activeStreams.bind (AList.lookup streamID) = some true then
        some (t.deleteStream streamID)
      else none
    | .setResetPingStrikes => some { t with resetPingStrikes := true }
    | .drain code debugData => some (t.drain code debugData)
    | .notify =>
      match t.notifiers with
      | (code, debugData) :: notifiers =>
        some ({ t with notifiers := notifiers }.put (.goAway ⟨code, debugData, false, false⟩))
      | [] => none
    | .close => some t.close
    | .closeWithErr => some t.closeWithErr
    | .closeLoopyWriter =>
      if t.state = .closing then some { t with bufErr := true, items := [] } else none

/-- Runs of a new connection. -/
def run (config : ServerConfig) (events : List ServerEvent) : Option Http2Server :=
  Machine.run step (newHTTP2Server config) events

end Http2Server

end Kitex.Http2
