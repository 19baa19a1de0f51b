import Mathlib.Algebra.Ring.Nat
import Mathlib.Data.List.AList

/-! # Control items and outgoing frames

The items that flow through the control buffer to the loopy writer, the
outbound stream they are queued on, and the frames the writer hands to the
framer. Closures stored in an item are named after what the transports put
there; their effect on the transport is not part of the writer's state. What
both transports share stands here too.
-/

namespace Kitex.Http2

/-- Go's `[]byte` and `string`. -/
abbrev Bytes := List UInt8

inductive Side where
  | clientSide
  | serverSide
  deriving DecidableEq, Repr

inductive TransportState where
  | reachable
  | draining
  | closing
  deriving DecidableEq, Repr

abbrev ErrCode := UInt32

namespace ErrCode

def no : ErrCode := 0
def protocol : ErrCode := 1
def flowControl : ErrCode := 3
def frameSize : ErrCode := 6
def refusedStream : ErrCode := 7
def cancel : ErrCode := 8
def enhanceYourCalm : ErrCode := 11

end ErrCode

/-- An HTTP/2 setting: a 16-bit identifier and a 32-bit value. -/
structure Setting where
  id : UInt16
  val : UInt32
  deriving DecidableEq, Repr

namespace Setting

def headerTableSize : UInt16 := 1
def maxConcurrentStreams : UInt16 := 3
def initialWindowSize : UInt16 := 4
def maxFrameSize : UInt16 := 5
def maxHeaderListSize : UInt16 := 6

end Setting

/-- The settings that `handleSettings` leaves to the writer. -/
def Side.forwards : Side → Setting → Bool
  | .clientSide, s =>
    decide (s.id ≠ Setting.maxConcurrentStreams ∧ s.id ≠ Setting.maxHeaderListSize)
  | .serverSide, s => decide (s.id ≠ Setting.maxHeaderListSize)

/-- The default flow-control window of the HTTP/2 specification. -/
def defaultWindowSize : UInt32 := 65535

/-- The largest flow-control window the HTTP/2 specification allows. -/
def maxWindowSize : UInt32 := 2147483647

/-- The largest frame payload either side reads or writes. -/
def http2MaxFrameLen : Nat := 16384

structure HeaderField where
  name : Bytes
  value : Bytes
  deriving DecidableEq, Repr

/-- `hpack.HeaderField.Size`. -/
def HeaderField.size (f : HeaderField) : Nat :=
  f.name.length + f.value.length + 32

/-- The loop of `checkForHeaderListSize`. -/
def exceedsHeaderListSize (max : Nat) : Nat → List HeaderField → Bool
  | _, [] => false
  | sz, f :: hf =>
    let sz := sz + f.size
    if sz > max then true else exceedsHeaderListSize max sz hf

/-- The HPACK encoder of `golang.org/x/net`, which is not part of the
repository: a state, and the bytes that each field adds to the buffer. -/
structure Hpack where
  State : Type
  init : State
  writeField : State → HeaderField → State × Bytes
  setMaxDynamicTableSizeLimit : State → UInt32 → State

/-- An encoder that writes every field as it is, for fixed runs. -/
def Hpack.verbatim : Hpack where
  State := Unit
  init := ()
  writeField _ f := ((), f.name ++ f.value)
  setMaxDynamicTableSizeLimit _ _ := ()

/-- The closures that the transports store in control items. -/
inductive Callback where
  | noop
  | setResetPingStrikes
  | deleteStream (streamID : UInt32)
  | finishWritten (streamID : UInt32)
  deriving DecidableEq, Repr

structure CleanupStream where
  streamID : UInt32
  rst : Bool
  rstCode : ErrCode
  onWrite : Callback
  onFinishWrite : Option Callback
  deriving DecidableEq, Repr

/-- Headers on their way to the peer. A header frame ends its stream exactly
when it carries the cleanup of that same stream, as `finishStream` builds it. -/
structure HeaderFrame where
  streamID : UInt32
  hf : List HeaderField
  endStream : Bool
  onWrite : Option Callback
  cleanup : Option CleanupStream
  endStream_eq : endStream = cleanup.isSome
  cleanup_streamID : ∀ c, cleanup = some c → c.streamID = streamID

/-- Headers that leave their stream open. -/
def HeaderFrame.opening (streamID : UInt32) (hf : List HeaderField) : HeaderFrame where
  streamID := streamID
  hf := hf
  endStream := false
  onWrite := none
  cleanup := none
  endStream_eq := rfl
  cleanup_streamID := by simp

/-- A gRPC message on its way to the peer, as a header part and a data part
that move forward while the message is written. -/
structure DataFrame where
  streamID : UInt32
  endStream : Bool
  h : Bytes
  d : Bytes
  resetPingStrikes : Bool
  deriving DecidableEq, Repr

structure GoAway where
  code : ErrCode
  debugData : Bytes
  headsUp : Bool
  closeConn : Bool
  deriving DecidableEq, Repr

structure Ping where
  ack : Bool
  data : Bytes
  deriving DecidableEq, Repr

/-- The data of the ping that follows the first GOAWAY of a graceful close. -/
def goAwayPing : Bytes := [1, 6, 1, 8, 0, 3, 3, 9]

/-- The items that the loopy writer takes out of the control buffer. -/
inductive CbItem where
  | registerStream (streamID : UInt32)
  | headerFrame (h : HeaderFrame)
  | cleanupStream (c : CleanupStream)
  | dataFrame (df : DataFrame)
  | incomingWindowUpdate (streamID increment : UInt32)
  | outgoingWindowUpdate (streamID increment : UInt32)
  | incomingSettings (ss : List Setting)
  | outgoingSettings (ss : List Setting)
  | incomingGoAway
  | goAway (g : GoAway)
  | ping (p : Ping)
  | outFlowControlSizeRequest

inductive OutStreamState where
  | active
  | empty
  | waitingOnStreamQuota
  deriving DecidableEq, Repr

/-- What may stand in a stream's item list: data, or trailers behind it. -/
inductive StreamItem where
  | data (df : DataFrame)
  | header (h : HeaderFrame)

/-- An established outbound stream. Its links in the list of active streams
are kept by that list. Go's `int` is unbounded here: `bytesOutStanding` moves by less
than `2 ^ 32` a step. -/
structure OutStream where
  id : UInt32
  state : OutStreamState
  itl : List StreamItem
  bytesOutStanding : Int

/-- The `estdStreams` map. -/
abbrev EstdStreams := AList fun _ : UInt32 => OutStream

/-- The frames that the writer asks the framer to write. -/
inductive Frame where
  | data (streamID : UInt32) (endStream : Bool) (payload : Bytes)
  | headers (streamID : UInt32) (endStream endHeaders : Bool) (fragment : Bytes)
  | continuation (streamID : UInt32) (endHeaders : Bool) (fragment : Bytes)
  | rstStream (streamID : UInt32) (code : ErrCode)
  | settings (ss : List Setting)
  | settingsAck
  | ping (ack : Bool) (data : Bytes)
  | goAway (maxStreamID : UInt32) (code : ErrCode) (debugData : Bytes)
  | windowUpdate (streamID increment : UInt32)
  deriving DecidableEq, Repr

/-- What the writer does besides changing its own state, in order. -/
inductive Effect where
  | wrote (frame : Frame)
  | replenished (streamID : UInt32) (size : Nat)
  | storedResetPingStrikes
  | called (callback : Callback)
  | replied (sendQuota : UInt32)

end Kitex.Http2
