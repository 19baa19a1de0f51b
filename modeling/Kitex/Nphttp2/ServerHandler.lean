import Kitex.Http2.ServerResponse

/-! # The serving of a stream

`handleFunc` of `server_handler.go`, which serves one stream of a gRPC connection: it finds the
method, runs the handlers of metadata and then the user's code, and ends the stream with a status.
User code may fail or panic. While it runs it writes to the stream; the peer and the transport act
on the stream at any time.
-/

namespace Kitex.Nphttp2

open Kitex.Http2

/-- The position of the last occurrence. -/
def lastIndex (c : UInt8) (s : Bytes) : Option Nat :=
  (s.reverse.idxOf? c).map fun i => s.length - 1 - i

structure MethodName where
  packageName : Bytes
  serviceName : Bytes
  methodName : Bytes
  deriving DecidableEq, Repr

/-- The parts of `/package.Service/method`. -/
def parseMethod (method : Bytes) : Option MethodName :=
  let sm := if method.head? = some 47 then method.tail else method
  (lastIndex 47 sm).map fun pos =>
    match lastIndex 46 (sm.take pos) with
    | none => ⟨[], sm.take pos, sm.drop (pos + 1)⟩
    | some idx => ⟨sm.take idx, (sm.take pos).drop (idx + 1), sm.drop (pos + 1)⟩

inductive StreamingMode where
  | none
  | unary
  | client
  | server
  | bidirectional
  deriving DecidableEq, Repr

/-- The errors that end a stream. Those of user code and of the codec are numbered. -/
inductive ServeErr where
  | metaHandler (err : Nat)
  | unknownService (serviceName : Bytes)
  | unknownMethod (methodName : Bytes)
  | errBiz (err : Nat)
  | errPanic
  | recvMsg (err : Nat)
  | sendMsg
  | middleware (err : Nat)
  deriving DecidableEq, Repr

/-- What the server is made of. -/
structure ServeOptions where
  enc : HeaderText
  /-- the verb `%q` -/
  quote : Bytes → Bytes
  convertStatus : ServeErr → RpcStatus
  /-- the status that a business error carries itself -/
  grpcStatus : BizStatusErr → Option RpcStatus
  metaHandlers : Nat
  setMethodErr : Bytes → Option Bytes
  /-- `SearchService`, which is strict here, and the methods of what it finds -/
  searchService : Bytes → Bytes → Option (Bytes → Option StreamingMode)
  hasUnknownServiceHandler : Bool
  compatibleMiddlewareForUnary : Bool

/-- What `implHandlerFunc` does. -/
inductive HandlerOutcome where
  | ok
  | error (err : Nat)
  | biz (err : BizStatusErr)
  | panicked
  deriving DecidableEq, Repr

/-- How a function of the user ends. -/
inductive Outcome where
  | returned (err : Option ServeErr)
  | panicked
  deriving DecidableEq, Repr

/-- `invokeHandleEndpoint` and `streamHandleEndpoint`: a panic of the handler is recovered here. -/
def handleEndpoint : HandlerOutcome → Option ServeErr × Option BizStatusErr
  | .ok => (none, none)
  | .error err => (some (.errBiz err), none)
  | .biz err => (none, some err)
  | .panicked => (some .errPanic, none)

inductive ServePc where
  | start
  | metaHandlers (left : Nat)
  | search
  | unknownServiceHandler
  -- `invokeStreamUnaryHandler`
  | recvMsg
  | sendMsg
  | sending
  /-- `inkHdlFunc`, the middlewares around the handler -/
  | inkHdlFunc (unary : Bool)
  /-- behind the user's code -/
  | answer (err : Option ServeErr)
  | writeStatus
  | returned
  /-- a panic was recovered, here or by the pool of goroutines -/
  | recovered
  deriving DecidableEq, Repr

structure Serving where
  method : Bytes
  name : MethodName
  /-- `ri.Invocation().BizStatusErr()` -/
  bizStatusErr : Option BizStatusErr
  stream : ServerStream
  pc : ServePc

inductive ServeEvent where
  /-- `handleFunc` goes on -/
  | next
  | metaHandler (outcome : Except Unit (Option Nat))
  | unknownServiceHandler (outcome : Except Unit (Option Nat))
  | recvMsg (err : Option Nat)
  /-- the response cannot be encoded -/
  | encodeErr
  /-- the handler ends, and what the middlewares make of its error -/
  | inkHdlFunc (handler : HandlerOutcome) (middlewares : Option ServeErr → Outcome)
  | stream (event : StreamEvent)

namespace Serving

variable (opt : ServeOptions) (v : Serving)

/-- `codes.Internal`. -/
def codeInternal : UInt32 := 13

/-- `tr.WriteStatus`. -/
def writeStatus (st : RpcStatus) : Option Serving :=
  (v.stream.begin (.writeStatus st)).map fun stream => { v with stream, pc := .writeStatus }

/-- User code runs with the stream in its hands. -/
def inUserCode : Bool :=
  match v.pc with
  | .unknownServiceHandler | .inkHdlFunc _ => true
  | _ => false

/-- The transport is not in a call of this goroutine. -/
def isIdle : Bool :=
  match v.stream.call with
  | .idle _ => true
  | _ => false

/-- The steps of `handleFunc` that do not depend on user code. -/
def next : Option Serving :=
  match v.pc with
  | .start =>
    match parseMethod v.method with
    | none => v.writeStatus ⟨codeInternal,
        text "malformed method name, method=" ++ opt.quote v.method, none⟩
    | some name =>
      match opt.setMethodErr name.methodName with
      | some err => v.writeStatus ⟨codeInternal,
          text "setMethod failed in streaming, method=" ++ name.methodName ++
            text ", error=" ++ err, none⟩
      | none => some { v with name, pc := .metaHandlers opt.metaHandlers }
  | .metaHandlers 0 => some { v with pc := .search }
  | .search =>
    let svcInfo := opt.searchService v.name.serviceName v.name.methodName
    match svcInfo.bind (· v.name.methodName) with
    | none =>
      if opt.hasUnknownServiceHandler then some { v with pc := .unknownServiceHandler }
      else if svcInfo.isNone then
        some { v with pc := .answer (some (.unknownService v.name.serviceName)) }
      else some { v with pc := .answer (some (.unknownMethod v.name.methodName)) }
    | some mode =>
      if opt.compatibleMiddlewareForUnary && (mode == .unary || mode == .none) then
        some { v with pc := .recvMsg }
      else some { v with pc := .inkHdlFunc false }
  | .sending =>
    match v.stream.call with
    | .idle ok => some { v with pc := .answer (if ok then none else some .sendMsg) }
    | _ => none
  | .answer (some err) => v.writeStatus (opt.convertStatus err)
  | .answer none =>
    match v.bizStatusErr with
    | some err =>
      { v with stream := { v.stream with bizStatusErr := some err } }.writeStatus
        ((opt.grpcStatus err).getD ⟨codeInternal, err.message, none⟩)
    | none => v.writeStatus ⟨0, [], none⟩
  | .writeStatus => if v.isIdle then some { v with pc := .returned } else none
  | _ => none

def step : ServeEvent → Option Serving
  | .next => v.next opt
  | .metaHandler outcome =>
    match v.pc, outcome with
    | .metaHandlers (left + 1), .ok none => some { v with pc := .metaHandlers left }
    | .metaHandlers (_ + 1), .ok (some err) =>
      v.writeStatus (opt.convertStatus (.metaHandler err))
    | .metaHandlers (_ + 1), .error () => some { v with pc := .recovered }
    | _, _ => none
  | .unknownServiceHandler outcome =>
    if v.pc = .unknownServiceHandler ∧ v.isIdle then
      match outcome with
      | .ok err => some { v with pc := .answer (err.map .errBiz) }
      | .error () => some { v with pc := .recovered }
    else none
  | .recvMsg err =>
    if v.pc = .recvMsg then
      match err with
      | some err => some { v with pc := .answer (some (.recvMsg err)) }
      | none => some { v with pc := .inkHdlFunc true }
    else none
  | .encodeErr =>
    if v.pc = .sendMsg then some { v with pc := .answer (some .sendMsg) } else none
  | .inkHdlFunc handler middlewares =>
    match v.pc with
    | .inkHdlFunc unary =>
      if v.isIdle then
        let (err, biz) := handleEndpoint handler
        let v := { v with bizStatusErr := biz.or v.bizStatusErr }
        match middlewares err with
        | .panicked => some { v with pc := .recovered }
        | .returned (some err) => some { v with pc := .answer (some err) }
        | .returned none =>
          if unary && v.bizStatusErr.isNone then some { v with pc := .sendMsg }
          else some { v with pc := .answer none }
      else none
    | _ => none
  | .stream event =>
    match v.pc, event with
    | .sendMsg, .write msg =>
      (v.stream.begin (.write msg)).map fun stream => { v with stream, pc := .sending }
    | _, event =>
      if event.byHandler && !v.inUserCode then none
      else (v.stream.step opt.enc event).map fun stream => { v with stream }

/-- A stream that was handed to `handleFunc`. -/
def start (method : Bytes) (stream : ServerStream) : Serving :=
  ⟨method, ⟨[], [], []⟩, none, stream, .start⟩

end Serving

end Kitex.Nphttp2
