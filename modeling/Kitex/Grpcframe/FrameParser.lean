import Kitex.Http2.SettingsFrame

/-! # Frames and their parsers

`frame_parser.go` of package `grpcframe`, with the header of a frame from `frame_reader.go`.
-/

namespace Kitex.Grpcframe

open Kitex.Http2 (Bytes ErrCode SettingsFrame bigEndian)

/-! ## Errors -/

/-- What is wrong with the fields of a header block. -/
inductive HeaderErr where
  | fieldName (name : Bytes)
  | fieldValue (value : Bytes)
  | pseudoHeader (name : Bytes)
  | duplicatePseudoHeader (name : Bytes)
  | mixPseudoHeaderTypes
  | pseudoAfterRegular
  deriving DecidableEq, Repr

/-- The errors of `ReadFrame`. -/
inductive ReadErr where
  /-- an error of the connection's reader -/
  | reader
  | unexpectedEOF
  | frameTooLarge (first4Bytes second4Bytes : Bytes)
  /-- `http2.ConnectionError`, with `ErrorDetail` -/
  | connection (code : ErrCode) (detail : Option String)
  /-- `http2.StreamError` -/
  | stream (streamID : UInt32) (code : ErrCode) (cause : Option HeaderErr)
  deriving DecidableEq, Repr

/-- After the error of a stream the connection goes on. -/
def ReadErr.isStream : ReadErr → Bool
  | .stream .. => true
  | _ => false

/-! ## Frames -/

inductive FrameType where
  | data
  | headers
  | priority
  | rstStream
  | settings
  | pushPromise
  | ping
  | goAway
  | windowUpdate
  | continuation
  | unknown (type : UInt8)
  deriving DecidableEq, Repr

namespace FrameType

def ofByte (b : UInt8) : FrameType :=
  match b.toNat with
  | 0 => data
  | 1 => headers
  | 2 => priority
  | 3 => rstStream
  | 4 => settings
  | 5 => pushPromise
  | 6 => ping
  | 7 => goAway
  | 8 => windowUpdate
  | 9 => continuation
  | _ => unknown b

protected def toString : FrameType → String
  | data => "DATA"
  | headers => "HEADERS"
  | priority => "PRIORITY"
  | rstStream => "RST_STREAM"
  | settings => "SETTINGS"
  | pushPromise => "PUSH_PROMISE"
  | ping => "PING"
  | goAway => "GOAWAY"
  | windowUpdate => "WINDOW_UPDATE"
  | continuation => "CONTINUATION"
  | unknown type => s!"UNKNOWN_FRAME_TYPE_{type.toNat}"

end FrameType

structure FrameHeader extends Kitex.Http2.FrameHeader where
  type : FrameType
  deriving DecidableEq, Repr

/-- `FlagHeadersEndHeaders`, `FlagContinuationEndHeaders`. -/
def flagEndHeaders : UInt8 := 0x4

/-- `FlagDataPadded`, `FlagHeadersPadded`, `FlagPushPromisePadded`. -/
def flagPadded : UInt8 := 0x8

def flagHeadersPriority : UInt8 := 0x20

structure PriorityParam where
  streamDep : Nat
  exclusive : Bool
  weight : UInt8
  deriving DecidableEq, Repr

structure HeadersFrame where
  header : FrameHeader
  priority : PriorityParam
  headerFragBuf : Bytes
  deriving DecidableEq, Repr

structure ContinuationFrame where
  header : FrameHeader
  headerFragBuf : Bytes
  deriving DecidableEq, Repr

inductive Frame where
  | data (header : FrameHeader) (data : Bytes)
  | headers (f : HeadersFrame)
  | priority (header : FrameHeader) (param : PriorityParam)
  | rstStream (header : FrameHeader) (errCode : Nat)
  | settings (header : FrameHeader) (f : SettingsFrame)
  | pushPromise (header : FrameHeader) (promiseID : Nat) (headerFragBuf : Bytes)
  | ping (header : FrameHeader) (data : Bytes)
  | goAway (header : FrameHeader) (lastStreamID errCode : Nat) (debugData : Bytes)
  | windowUpdate (header : FrameHeader) (increment : Nat)
  | continuation (f : ContinuationFrame)
  | unknown (header : FrameHeader) (p : Bytes)
  deriving DecidableEq, Repr

def Frame.header : Frame → FrameHeader
  | data header _ => header
  | headers f => f.header
  | priority header _ => header
  | rstStream header _ => header
  | settings header _ => header
  | pushPromise header _ _ => header
  | ping header _ => header
  | goAway header _ _ _ => header
  | windowUpdate header _ => header
  | continuation f => f.header
  | unknown header _ => header

def HeadersFrame.headersEnded (f : HeadersFrame) : Bool := f.header.has flagEndHeaders

def ContinuationFrame.headersEnded (f : ContinuationFrame) : Bool := f.header.has flagEndHeaders

/-! ## Parsers -/

/-- `readByte`: what remains, and the byte. -/
def readByte (p : Bytes) : Except ReadErr (Bytes × UInt8) :=
  match p with
  | [] => .error .unexpectedEOF
  | b :: remain => .ok (remain, b)

def readUint32 (p : Bytes) : Except ReadErr (Bytes × Nat) :=
  if p.length < 4 then .error .unexpectedEOF else .ok (p.drop 4, bigEndian (p.take 4))

/-- The byte of a padded frame that says how long the padding is. -/
def readPadLength (fh : FrameHeader) (p : Bytes) : Except ReadErr (Bytes × UInt8) :=
  if fh.has flagPadded then readByte p else .ok (p, 0)

/-- Without the high bit, which is for something else. -/
def low31 (v : Nat) : Nat := v % 2 ^ 31

/-- The priority fields of a HEADERS frame. -/
def readPriority (fh : FrameHeader) (p : Bytes) : Except ReadErr (Bytes × PriorityParam) := do
  if fh.has flagHeadersPriority then
    let (p, v) ← readUint32 p
    let (p, weight) ← readByte p
    return (p, ⟨low31 v, v ≠ low31 v, weight⟩)
  else return (p, ⟨0, false, 0⟩)

def parseHeadersFrame (fh : FrameHeader) (p : Bytes) : Except ReadErr Frame := do
  if fh.streamID = 0 then
    throw (.connection ErrCode.protocol (some "HEADERS frame with stream ID 0"))
  let (p, padLength) ← readPadLength fh p
  let (p, priority) ← readPriority fh p
  if (p.length : Int) - padLength.toNat < 0 then
    throw (.stream fh.streamID ErrCode.protocol none)
  return .headers ⟨fh, priority, p.take (p.length - padLength.toNat)⟩

def parsePriorityFrame (fh : FrameHeader) (payload : Bytes) : Except ReadErr Frame := do
  if fh.streamID = 0 then
    throw (.connection ErrCode.protocol (some "PRIORITY frame with stream ID 0"))
  if payload.length ≠ 5 then
    throw (.connection ErrCode.frameSize
      (some s!"PRIORITY frame payload size was {payload.length}; want 5"))
  let v := bigEndian (payload.take 4)
  return .priority fh ⟨low31 v, low31 v ≠ v, payload.getD 4 0⟩

def parseRSTStreamFrame (fh : FrameHeader) (p : Bytes) : Except ReadErr Frame := do
  if p.length ≠ 4 then throw (.connection ErrCode.frameSize none)
  if fh.streamID = 0 then throw (.connection ErrCode.protocol none)
  return .rstStream fh (bigEndian p)

def parseSettingsFrame (fh : FrameHeader) (p : Bytes) : Except ReadErr Frame :=
  match Kitex.Http2.parseSettingsFrame fh.toFrameHeader p with
  | .error code => .error (.connection code none)
  | .ok f => .ok (.settings fh f)

def parsePushPromise (fh : FrameHeader) (p : Bytes) : Except ReadErr Frame := do
  if fh.streamID = 0 then throw (.connection ErrCode.protocol none)
  let (p, padLength) ← readPadLength fh p
  let (p, promiseID) ← readUint32 p
  if p.length < padLength.toNat then throw (.connection ErrCode.protocol none)
  return .pushPromise fh (low31 promiseID) (p.take (p.length - padLength.toNat))

def parsePingFrame (fh : FrameHeader) (payload : Bytes) : Except ReadErr Frame := do
  if payload.length ≠ 8 then throw (.connection ErrCode.frameSize none)
  if fh.streamID ≠ 0 then throw (.connection ErrCode.protocol none)
  return .ping fh payload

def parseGoAwayFrame (fh : FrameHeader) (p : Bytes) : Except ReadErr Frame := do
  if fh.streamID ≠ 0 then throw (.connection ErrCode.protocol none)
  if p.length < 8 then throw (.connection ErrCode.frameSize none)
  return .goAway fh (low31 (bigEndian (p.take 4))) (bigEndian ((p.drop 4).take 4))
    (p.drop 8)

def parseWindowUpdateFrame (fh : FrameHeader) (p : Bytes) : Except ReadErr Frame := do
  if p.length ≠ 4 then throw (.connection ErrCode.frameSize none)
  let inc := low31 (bigEndian p)
  if inc = 0 then
    if fh.streamID = 0 then throw (.connection ErrCode.protocol none)
    throw (.stream fh.streamID ErrCode.protocol none)
  return .windowUpdate fh inc

def parseContinuationFrame (fh : FrameHeader) (p : Bytes) : Except ReadErr Frame := do
  if fh.streamID = 0 then
    throw (.connection ErrCode.protocol (some "CONTINUATION frame with stream ID 0"))
  return .continuation ⟨fh, p⟩

def parseUnknownFrame (fh : FrameHeader) (p : Bytes) : Except ReadErr Frame := .ok (.unknown fh p)

/-- `typeFrameParser`, for frames other than DATA. -/
def typeFrameParser : FrameType → FrameHeader → Bytes → Except ReadErr Frame
  | .headers => parseHeadersFrame
  | .priority => parsePriorityFrame
  | .rstStream => parseRSTStreamFrame
  | .settings => parseSettingsFrame
  | .pushPromise => parsePushPromise
  | .ping => parsePingFrame
  | .goAway => parseGoAwayFrame
  | .windowUpdate => parseWindowUpdateFrame
  | .continuation => parseContinuationFrame
  | _ => parseUnknownFrame

/-! ## Reading one frame -/

/-- What reads from a connection: an error leaves the bytes that have not been read. -/
abbrev Read := EStateM ReadErr Bytes

/-- `reader.Next`. -/
def next (n : Nat) : Read Bytes := fun input =>
  if n ≤ input.length then .ok (input.take n) (input.drop n) else .error .reader input

def parseDataFrame (fh : FrameHeader) : Read Frame := do
  if fh.streamID = 0 then
    throw (.connection ErrCode.protocol (some "DATA frame with stream ID 0"))
  let length := fh.length.toNat
  if fh.has flagPadded then
    let padSize := ((← next 1).getD 0 0).toNat
    if (length : Int) - 1 < padSize then
      throw (.connection ErrCode.protocol (some "pad size larger than data payload"))
    let data ← next (length - 1)
    return .data fh (data.take (length - 1 - padSize))
  else
    let data ← next length
    return .data fh data

/-- The header in the first nine bytes of a frame. -/
def frameHeader (buf : Bytes) : FrameHeader where
  length := UInt32.ofNat (bigEndian (buf.take 3))
  type := FrameType.ofByte (buf.getD 3 0)
  flags := buf.getD 4 0
  streamID := UInt32.ofNat (low31 (bigEndian (buf.drop 5)))

def readAndCheckFrameHeader (maxReadSize : Nat) : Read FrameHeader := do
  let buf ← next 9
  let fh := frameHeader buf
  if maxReadSize < fh.length.toNat then
    throw (.frameTooLarge (buf.take 4) ((buf.drop 4).take 4))
  return fh

/-- The payload of a frame is read and parsed. -/
def readPayload (fh : FrameHeader) : Read Frame := do
  if fh.type = .data then parseDataFrame fh
  else
    let payload ← next fh.length.toNat
    match typeFrameParser fh.type fh payload with
    | .error err => throw err
    | .ok f => return f

/-- The first part of `ReadFrame`. -/
def readAndParse (maxReadSize : Nat) : Read Frame := do
  let fh ← readAndCheckFrameHeader maxReadSize
  readPayload fh

end Kitex.Grpcframe
