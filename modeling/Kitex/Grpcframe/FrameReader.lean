import Kitex.Grpcframe.FrameParser
import Mathlib.Logic.Function.Iterate

/-! # Reading frames and header blocks

`frame_reader.go`: `ReadFrame` checks the order of frames and hands a HEADERS frame to
`readMetaFrame`, which reads the frames of its block by `ReadFrame` again. The calls of
`readMetaFrame` in progress are a stack of the state, so that a step reads one frame of the
connection. The step includes the loop that calls `ReadFrame`, `HandleStreams` of the server or
`reader` of the client, as far as errors go: it reads on after the error of a stream.
-/

namespace Kitex.Grpcframe

open Kitex.Http2 (Bytes ErrCode HeaderField)

def ErrCode.compression : ErrCode := 0x9

/-- `hpack.Decoder`. A field of which only a part was written is in the state, and `Close` fails
if there is one. -/
structure Decoder where
  State : Type
  write : State → Bytes → Option (List HeaderField × State)
  close : State → Option State

/-- What `ReadFrame` works with. -/
structure Config where
  decoder : Decoder
  /-- `httpguts.ValidHeaderFieldValue` -/
  validHeaderFieldValue : Bytes → Bool
  /-- `httpguts.IsTokenRune`, which holds of ASCII characters only -/
  isTokenRune : UInt8 → Bool
  maxReadSize : Nat
  maxHeaderListSize : Nat

namespace Config

/-- `maxHeaderListSize`. -/
def headerListSize (cfg : Config) : Nat :=
  if cfg.maxHeaderListSize = 0 then 16 * 2 ^ 20 else cfg.maxHeaderListSize

def validWireHeaderFieldName (cfg : Config) (v : Bytes) : Bool :=
  !v.isEmpty && v.all fun r => cfg.isTokenRune r && !(0x41 ≤ r && r ≤ 0x5a)

end Config

/-! ## The fields of a block -/

/-- `HeaderField.IsPseudo`: the name starts with a colon. -/
def isPseudo (hf : HeaderField) : Bool := hf.name.head? == some 0x3a

/-- `MetaHeadersFrame`, with the variables of `readMetaFrame`. -/
structure MetaHeadersFrame where
  headersFrame : HeadersFrame
  fields : List HeaderField := []
  truncated : Bool := false
  remainSize : Nat
  sawRegular : Bool := false
  invalid : Option HeaderErr := none
  /-- `SetEmitEnabled` of the decoder -/
  emitEnabled : Bool := true
  deriving DecidableEq, Repr

namespace MetaHeadersFrame

/-- The validity of a field, the later checks last. -/
def fieldInvalid (cfg : Config) (mh : MetaHeadersFrame) (hf : HeaderField) : Option HeaderErr :=
  let invalid :=
    if cfg.validHeaderFieldValue hf.value then mh.invalid else some (.fieldValue hf.value)
  if isPseudo hf then
    if mh.sawRegular then some .pseudoAfterRegular else invalid
  else if cfg.validWireHeaderFieldName hf.name then invalid
  else some (.fieldName hf.name)

/-- The function of `SetEmitFunc`. -/
def emit (cfg : Config) (mh : MetaHeadersFrame) (hf : HeaderField) : MetaHeadersFrame :=
  if mh.emitEnabled then
    let mh' := { mh with
      invalid := mh.fieldInvalid cfg hf
      sawRegular := mh.sawRegular || !isPseudo hf }
    if mh'.invalid.isSome then { mh' with emitEnabled := false }
    else if mh'.remainSize < hf.size then { mh' with emitEnabled := false, truncated := true }
    else { mh' with remainSize := mh'.remainSize - hf.size, fields := mh'.fields ++ [hf] }
  else mh

def pseudoFields (mh : MetaHeadersFrame) : List HeaderField := mh.fields.takeWhile isPseudo

/-- The bytes of an ASCII text. -/
def ascii (s : String) : Bytes := s.toList.map fun c => UInt8.ofNat c.toNat

def requestPseudos : List Bytes :=
  [ascii ":method", ascii ":path", ascii ":scheme", ascii ":authority"]

/-- The loop of `checkPseudos`, with the fields before. -/
def checkPseudosFrom (before : List HeaderField) (isRequest isResponse : Bool) :
    List HeaderField → Option HeaderErr
  | [] => if isRequest && isResponse then some .mixPseudoHeaderTypes else none
  | hf :: rest =>
    let request := requestPseudos.contains hf.name
    let response := hf.name == ascii ":status"
    if !request && !response then some (.pseudoHeader hf.name)
    else if before.any fun hf2 => hf.name == hf2.name then
      some (.duplicatePseudoHeader hf.name)
    else checkPseudosFrom (before ++ [hf]) (isRequest || request) (isResponse || response) rest

def checkPseudos (mh : MetaHeadersFrame) : Option HeaderErr :=
  checkPseudosFrom [] false false mh.pseudoFields

end MetaHeadersFrame

/-! ## The connection -/

inductive HeadersOrContinuation where
  | headers (f : HeadersFrame)
  | continuation (f : ContinuationFrame)
  deriving DecidableEq, Repr

namespace HeadersOrContinuation

def header : HeadersOrContinuation → FrameHeader
  | headers f => f.header
  | continuation f => f.header

def headerBlockFragment : HeadersOrContinuation → Bytes
  | headers f => f.headerFragBuf
  | continuation f => f.headerFragBuf

def headersEnded : HeadersOrContinuation → Bool
  | headers f => f.headersEnded
  | continuation f => f.headersEnded

end HeadersOrContinuation

/-- A successful call of the HPACK decoder. A fragment is recorded with the number of its frame
among the frames of the connection. -/
inductive DecoderCall where
  | write (frameNo : Nat) (hc : HeadersOrContinuation)
  | close
  deriving DecidableEq, Repr

/-- What `ReadFrame` returns to the loop of the transport. -/
inductive Received where
  | frame (f : Frame)
  | metaHeaders (mh : MetaHeadersFrame)
  deriving DecidableEq, Repr

inductive Status where
  | reading
  | stopped (err : ReadErr)
  | panicked
  deriving DecidableEq, Repr

structure Conn (cfg : Config) where
  input : Bytes
  lastHeaderStream : UInt32 := 0
  /-- the header of `lastFrame` -/
  lastFrame : Option FrameHeader := none
  hdec : cfg.decoder.State
  /-- the calls of `readMetaFrame` in progress, the innermost first -/
  calls : List MetaHeadersFrame := []
  status : Status := .reading
  received : List Received := []
  framesRead : Nat := 0
  decoderCalls : List DecoderCall := []

namespace Conn

variable {cfg : Config}

/-- An error goes through all the calls in progress to the loop of the transport, which goes on
if it is the error of a stream. -/
def fail (c : Conn cfg) (err : ReadErr) : Conn cfg :=
  { c with calls := [], status := if err.isStream then .reading else .stopped err }

def connError (code : ErrCode) (reason : String) : ReadErr := .connection code (some reason)

/-- What `checkFrameOrder` finds. -/
inductive Order where
  | inOrder
  | outOfOrder (err : ReadErr)
  /-- there is no last frame to name in the error -/
  | noLastFrame
  deriving DecidableEq, Repr

def checkFrameOrder (c : Conn cfg) (fh : FrameHeader) : Order :=
  if c.lastHeaderStream ≠ 0 then
    if fh.type ≠ .continuation then
      match c.lastFrame with
      | none => .noLastFrame
      | some last =>
        .outOfOrder (connError ErrCode.protocol
          (s!"got {fh.type.toString} for stream {fh.streamID}; expected CONTINUATION following " ++
            s!"{last.type.toString} for stream {c.lastHeaderStream}"))
    else if fh.streamID ≠ c.lastHeaderStream then
      .outOfOrder (connError ErrCode.protocol
        s!"got CONTINUATION for stream {fh.streamID}; expected stream {c.lastHeaderStream}")
    else .inOrder
  else if fh.type = .continuation then
    .outOfOrder (connError ErrCode.protocol s!"unexpected CONTINUATION for stream {fh.streamID}")
  else .inOrder

/-- `lastHeaderStream` after a frame that is in order. -/
def afterFrame (c : Conn cfg) (fh : FrameHeader) : UInt32 :=
  match fh.type with
  | .headers | .continuation => if fh.has flagEndHeaders then 0 else fh.streamID
  | _ => c.lastHeaderStream

/-- A frame is returned to the innermost `readMetaFrame`, or to the loop of the transport. Only a
CONTINUATION frame passes the type assertion of `readMetaFrame`. -/
def deliver (c : Conn cfg) (r : Received) : Conn cfg :=
  if c.calls.isEmpty then { c with received := c.received ++ [r] }
  else { c with status := .panicked }

/-- `readMetaFrame` after its loop. -/
def finishBlock (c : Conn cfg) (mh : MetaHeadersFrame) (outer : List MetaHeadersFrame) : Conn cfg :=
  match cfg.decoder.close c.hdec with
  | none => c.fail (.connection ErrCode.compression none)
  | some hdec =>
    let c := { c with hdec, decoderCalls := c.decoderCalls ++ [DecoderCall.close] }
    let mh := { mh with headersFrame := { mh.headersFrame with headerFragBuf := [] } }
    match mh.invalid, mh.checkPseudos with
    | some err, _ | none, some err =>
      c.fail (.stream mh.headersFrame.header.streamID ErrCode.protocol (some err))
    | none, none => deliver { c with calls := outer } (.metaHeaders mh)

/-- One round of the loop of `readMetaFrame`, for the innermost call `mh`. -/
def writeFragment (c : Conn cfg) (mh : MetaHeadersFrame) (outer : List MetaHeadersFrame)
    (frameNo : Nat) (hc : HeadersOrContinuation) : Conn cfg :=
  match cfg.decoder.write c.hdec hc.headerBlockFragment with
  | none => c.fail (.connection ErrCode.compression none)
  | some (fields, hdec) =>
    let mh := fields.foldl (MetaHeadersFrame.emit cfg) mh
    let c := { c with hdec, calls := mh :: outer
                      decoderCalls := c.decoderCalls ++ [.write frameNo hc] }
    if hc.headersEnded then c.finishBlock mh outer else c

/-- The rest of `ReadFrame`, with a frame that is in order. -/
def handleFrame (c : Conn cfg) (frameNo : Nat) (f : Frame) : Conn cfg :=
  match f with
  | .headers hf =>
    c.writeFragment { headersFrame := hf, remainSize := cfg.headerListSize } c.calls frameNo
      (.headers hf)
  | .continuation cf =>
    match c.calls with
    | [] => c.deliver (.frame f)
    | mh :: outer => c.writeFragment mh outer frameNo (.continuation cf)
  | _ => c.deliver (.frame f)

/-- One frame is read. -/
def step (c : Conn cfg) : Conn cfg :=
  match c.status with
  | .reading =>
    match readAndParse cfg.maxReadSize c.input with
    | .error err input => fail { c with input, framesRead := c.framesRead + 1 } err
    | .ok f input =>
      let c' := { c with input, framesRead := c.framesRead + 1, lastFrame := some f.header }
      match c.checkFrameOrder f.header with
      | .noLastFrame => { c' with status := .panicked }
      | .outOfOrder err => c'.fail err
      | .inOrder => handleFrame { c' with lastHeaderStream := c.afterFrame f.header } c.framesRead f
  | _ => c

/-- After a number of frames. -/
def after (c : Conn cfg) (n : Nat) : Conn cfg := Nat.iterate step n c

end Conn

end Kitex.Grpcframe
