import Kitex.Container.Lookup
import Kitex.Http2.Server

/-! # A stream of the server and its handler

The handler of a stream calls `WriteHeader`, `Write` and `WriteStatus` one after another, while the
reader resets the stream or the transport closes. A step is one access to the flag for sent headers,
to the state of the stream, or to the control buffer. The items that were put on the control buffer
for the stream are kept in order.
-/

namespace Kitex.Http2

open Kitex.Container

inductive StreamState where
  | active
  | writeDone
  | readDone
  | done
  deriving DecidableEq, Repr

/-- `metadata.MD`, with its keys in the order in which a loop visits them. -/
abbrev MD := List (Bytes × List Bytes)

def appendMD (md other : MD) : MD :=
  other.foldl (fun md entry =>
    assign (· == ·) entry.1 ((md.lookup entry.1).getD [] ++ entry.2) md) md

def text (s : String) : Bytes := s.toUTF8.toList

def isReservedHeader (hdr : Bytes) : Bool :=
  hdr.head? = some 58 ||
    (["content-type", "user-agent", "grpc-message-type", "grpc-encoding", "grpc-message",
      "grpc-status", "grpc-timeout", "grpc-status-details-bin", "te"].map text).contains hdr

/-- `status.Status`. A status with details is marshalled. -/
structure RpcStatus where
  code : UInt32
  message : Bytes
  details : Option Bytes
  deriving DecidableEq, Repr

/-- `BizStatusErrorIface`, with the JSON text of its extra information. -/
structure BizStatusErr where
  code : Int
  message : Bytes
  extra : Option Bytes
  deriving DecidableEq, Repr

/-- How numbers, messages and binary values are written in header fields. -/
structure HeaderText where
  itoa : Int → Bytes
  encodeGrpcMessage : Bytes → Bytes
  encodeBinHeader : Bytes → Bytes

/-- Values as they are and no numbers, for fixed runs. -/
def HeaderText.verbatim : HeaderText := ⟨fun _ => [], id, id⟩

/-- A message with its prefix. -/
structure Message where
  hdr : Bytes
  data : Bytes
  deriving DecidableEq, Repr

/-- What the handler does next in the transport. -/
inductive HandlerCall where
  /-- nothing: the last call has returned, with an error or without -/
  | idle (ok : Bool)
  -- `WriteHeader`, by the handler or for the message of a `Write`
  | writeHeader (md : MD) (msg : Option Message)
  | headerState (md : MD) (msg : Option Message)
  | headerLocked (md : MD) (msg : Option Message)
  -- `Write`
  | write (msg : Message)
  | writeState (msg : Message)
  | quota (msg : Message)
  | putData (msg : Message)
  -- `WriteStatus`
  | writeStatus (st : RpcStatus)
  | statusHeader (st : RpcStatus)
  | statusLocked (st : RpcStatus)
  | check (hf : List HeaderField)
  | rst (hf : List HeaderField)
  -- `finishStream`
  | finishStream (hf : List HeaderField) (rst : Bool)
  | putTrailer (hf : List HeaderField) (rst : Bool)
  -- `closeStream` after the list of headers was too large
  | closeStream
  | putCleanup
  deriving DecidableEq, Repr

structure ServerStream where
  streamID : UInt32
  state : StreamState
  headerSent : Bool
  header : MD
  trailer : MD
  contentSubtype : Bytes
  /-- the name of a compressor that is registered, or empty -/
  sendCompress : Bytes
  bizStatusErr : Option BizStatusErr
  /-- `t.maxSendHeaderListSize` -/
  maxSendHeaderListSize : Option UInt32
  /-- the control buffer has been finished -/
  bufErr : Bool
  /-- what was put on the control buffer for the stream -/
  items : List CbItem
  call : HandlerCall
  /-- other goroutines in `closeStream` that have not put their item yet -/
  closers : List CleanupStream

inductive StreamEvent where
  -- the handler calls
  | writeHeader (md : MD)
  | write (msg : Message)
  | writeStatus (st : RpcStatus)
  | setHeader (md : MD)
  | setTrailer (md : MD)
  | setBizStatusErr (err : BizStatusErr)
  /-- the next step of the call; `ok` is the outcome of the wait for quota -/
  | step (ok : Bool)
  /-- `closeStream` for a reset by the peer or for an error of the stream -/
  | closeStream (rst : Bool) (rstCode : ErrCode)
  /-- `Close` of the transport resets the stream -/
  | rstActiveStream
  /-- a goroutine in `closeStream` puts its item -/
  | putCleanup
  /-- a reset comes for a stream that the transport has deleted -/
  | rstDeleted
  /-- the peer ends its side -/
  | endStream
  | settings (maxHeaderListSize : UInt32)
  /-- the control buffer is finished -/
  | finish
  deriving DecidableEq

/-- A call on the stream by the code of its handler. -/
def StreamEvent.byHandler : StreamEvent → Bool
  | .writeHeader _ | .write _ | .writeStatus _ | .setHeader _ | .setTrailer _
  | .setBizStatusErr _ => true
  | _ => false

def ErrCode.internal : ErrCode := 2

namespace ServerStream

variable (enc : HeaderText) (s : ServerStream)

/-- `controlBuf.put`. -/
def put (item : CbItem) : ServerStream :=
  { s with items := if s.bufErr then s.items else s.items ++ [item] }

def returns (ok : Bool) : ServerStream := { s with call := .idle ok }

def goto (call : HandlerCall) : ServerStream := { s with call }

def checkForHeaderListSize (hf : List HeaderField) : Bool :=
  s.maxSendHeaderListSize.all fun max => !exceedsHeaderListSize max.toNat 0 hf

/-- `appendHeaderFieldsFromMD`. -/
def fieldsFromMD (md : MD) : List HeaderField :=
  md.flatMap fun entry =>
    if isReservedHeader entry.1 then []
    else entry.2.map fun v =>
      ⟨entry.1, if (text "-bin").isSuffixOf entry.1 then enc.encodeBinHeader v else v⟩

def contentType : Bytes :=
  text "application/grpc" ++ if s.contentSubtype = [] then [] else text "+" ++ s.contentSubtype

/-- The fields that begin a response. -/
def openingFields : List HeaderField :=
  [⟨text ":status", text "200"⟩, ⟨text "content-type", s.contentType⟩]

def headerFields : List HeaderField :=
  s.openingFields ++
    (if s.sendCompress = [] then [] else [⟨text "grpc-encoding", s.sendCompress⟩]) ++
    fieldsFromMD enc s.header

/-- The fields of the trailer, but for those that begin a response. -/
def statusFields (st : RpcStatus) : List HeaderField :=
  [⟨text "grpc-status", enc.itoa st.code.toNat⟩,
    ⟨text "grpc-message", enc.encodeGrpcMessage st.message⟩] ++
    (s.bizStatusErr.elim [] fun err =>
      ⟨text "biz-status", enc.itoa err.code⟩ ::
        (err.extra.map (HeaderField.mk (text "biz-extra"))).toList) ++
    (st.details.map fun details =>
      ⟨text "grpc-status-details-bin", enc.encodeBinHeader details⟩).toList ++
    fieldsFromMD enc s.trailer

def headerItem : CbItem :=
  .headerFrame
    { streamID := s.streamID, hf := headerFields enc s, endStream := false
      onWrite := some .setResetPingStrikes, cleanup := none
      endStream_eq := rfl
      cleanup_streamID := nofun }

def trailerItem (hf : List HeaderField) (rst : Bool) : CbItem :=
  .headerFrame
    { streamID := s.streamID, hf := hf, endStream := true
      onWrite := some .setResetPingStrikes
      cleanup := some ⟨s.streamID, rst, ErrCode.no, .deleteStream s.streamID, none⟩
      endStream_eq := rfl
      cleanup_streamID := by rintro _ ⟨⟩; rfl }

def dataItem (msg : Message) : CbItem := .dataFrame ⟨s.streamID, false, msg.hdr, msg.data, true⟩

def cleanup (rst : Bool) (rstCode : ErrCode) : CleanupStream :=
  ⟨s.streamID, rst, rstCode, .noop, none⟩

/-- `writeHeaderLocked`, and where the call goes when the headers are put. -/
def writeHeaderLocked (next : HandlerCall) : ServerStream :=
  if s.bufErr then s.returns false
  else if s.checkForHeaderListSize (headerFields enc s) then (s.put (s.headerItem enc)).goto next
  else s.goto .closeStream

/-- The next step of the call. -/
def stepCall (ok : Bool) : HandlerCall → Option ServerStream
  | .idle _ => none
  | .writeHeader md msg =>
    if s.headerSent then some (s.returns false)
    else some { s with headerSent := true, call := .headerState md msg }
  | .headerState md msg =>
    if s.state = .done then some (s.returns false) else some (s.goto (.headerLocked md msg))
  | .headerLocked md msg =>
    let header :=
      if md = [] then s.header else if s.header = [] then md else appendMD s.header md
    some ({ s with header }.writeHeaderLocked enc (msg.elim (.idle true) .quota))
  | .write msg =>
    if s.headerSent then some (s.goto (.writeState msg))
    else some (s.goto (.writeHeader [] (some msg)))
  | .writeState msg =>
    if s.state = .done then some (s.returns false) else some (s.goto (.quota msg))
  | .quota msg => if ok then some (s.goto (.putData msg)) else some (s.returns false)
  | .putData msg => some ((s.put (s.dataItem msg)).returns !s.bufErr)
  | .writeStatus st =>
    if s.state = .done then some (s.returns true) else some (s.goto (.statusHeader st))
  | .statusHeader st =>
    if s.headerSent then some (s.goto (.check (statusFields enc s st)))
    else if s.header = [] then
      some { s with
        headerSent := true, call := .check (s.openingFields ++ statusFields enc s st) }
    else some { s with headerSent := true, call := .statusLocked st }
  | .statusLocked st => some (s.writeHeaderLocked enc (.check (statusFields enc s st)))
  | .check hf =>
    if s.bufErr then some (s.returns false)
    else if s.checkForHeaderListSize hf then some (s.goto (.rst hf))
    else some (s.goto .closeStream)
  | .rst hf => some (s.goto (.finishStream hf (s.state = .active)))
  | .finishStream hf rst =>
    if s.state = .done then some (s.returns true)
    else some { s with state := .done, call := .putTrailer hf rst }
  | .putTrailer hf rst => some ((s.put (s.trailerItem hf rst)).returns true)
  | .closeStream => some { s with state := .done, call := .putCleanup }
  | .putCleanup => some ((s.put (.cleanupStream (s.cleanup true ErrCode.internal))).returns false)

/-- The handler begins a call when the last one has returned. -/
def begin (call : HandlerCall) : Option ServerStream :=
  match s.call with
  | .idle _ => some (s.goto call)
  | _ => none

def step (s : ServerStream) : StreamEvent → Option ServerStream
  | .writeHeader md => s.begin (.writeHeader md none)
  | .write msg => s.begin (.write msg)
  | .writeStatus st => s.begin (.writeStatus st)
  | .setHeader md =>
    (s.begin s.call).map fun s =>
      if md = [] ∨ s.headerSent ∨ s.state = .done then s
      else { s with header := appendMD s.header md }
  | .setTrailer md =>
    (s.begin s.call).map fun s =>
      if md = [] ∨ s.state = .done then s else { s with trailer := appendMD s.trailer md }
  | .setBizStatusErr err => (s.begin s.call).map fun s => { s with bizStatusErr := some err }
  | .step ok => s.stepCall enc ok s.call
  | .closeStream rst rstCode =>
    some { s with state := .done, closers := s.closers ++ [s.cleanup rst rstCode] }
  | .rstActiveStream =>
    if s.state = .done then some s
    else some { s with
      state := .done
      closers := s.closers ++ [{ s.cleanup true gracefulShutdownCode with
        onFinishWrite := some (.finishWritten s.streamID) }] }
  | .putCleanup =>
    match s.closers with
    | cleanup :: closers => some ({ s with closers }.put (.cleanupStream cleanup))
    | [] => none
  | .rstDeleted => some (s.put (.cleanupStream (s.cleanup false ErrCode.no)))
  | .endStream => some { s with state := if s.state = .active then .readDone else s.state }
  | .settings maxHeaderListSize =>
    some (if s.bufErr then s else { s with maxSendHeaderListSize := some maxHeaderListSize })
  | .finish => some { s with bufErr := true }

/-- A stream that was just accepted. -/
def newStream (streamID : UInt32) (contentSubtype sendCompress : Bytes) (ended : Bool)
    (maxSendHeaderListSize : Option UInt32) : ServerStream where
  streamID := streamID
  state := if ended then .readDone else .active
  headerSent := false
  header := []
  trailer := []
  contentSubtype := contentSubtype
  sendCompress := sendCompress
  bizStatusErr := none
  maxSendHeaderListSize := maxSendHeaderListSize
  bufErr := false
  items := []
  call := .idle true
  closers := []

end ServerStream

end Kitex.Http2
