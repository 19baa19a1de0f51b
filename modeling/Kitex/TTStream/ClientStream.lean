import Kitex.Container.Slots
import Kitex.Machine.Run

/-! # Client streams

A client stream is used by its caller (`SendMsg`, `RecvMsg`, `CloseSend`, `Header`
and `Trailer`), by the read loop of its transport, and by everybody who closes it:
a trailer or a reset that arrives, the context of the stream, and the transport.
The goroutines in these functions are kept with the stream, each with the place in
the code where it is. An event is one step of one of them up to the next operation
on shared state.
-/

namespace Kitex.TTStream

open Kitex.Container

abbrev Payload := List UInt8

/-! ## Errors -/

/-- A ttstream exception, with the message that is shown. -/
structure Exception where
  typeId : Int
  message : String
  canRetry : Bool
  deriving DecidableEq, Repr

/-- Errors as far as the streams tell them apart. -/
inductive Err where
  /-- `io.EOF` -/
  | eof
  | exception (ex : Exception)
  /-- a business error, or an error of the connection -/
  | other (message : String)
  deriving DecidableEq, Repr

/-- What a trailer frame may carry: an application exception, or an illegal frame
or business error in its place, or a business error. -/
inductive TrailerErr where
  | exception (ex : Exception)
  | bizErr (message : String)
  deriving DecidableEq, Repr

def TrailerErr.toErr : TrailerErr → Err
  | .exception ex => .exception ex
  | .bizErr message => .other message

/-- `SendMsg` on a stream that is closed for sending, without a close reason. -/
def errClosedSend : Err := .exception ⟨12005, "stream is closed send", false⟩

/-- The reason of a stream whose context was cancelled by the caller. -/
def errBizCancel : Err := .exception ⟨12007,
  "user code invoking stream RPC with context processed by context.WithCancel or " ++
    "context.WithTimeout, then invoking cancel() actively", false⟩

/-- `DecodePayload` calls the codec of the message, which is not part of the
package and does not report the end of a stream. -/
structure PayloadCodec where
  decode : Payload → Option Err
  decode_ne_eof : ∀ payload, decode payload ≠ some .eof

/-- A codec that accepts every payload, for fixed runs. -/
def PayloadCodec.accepting : PayloadCodec := ⟨fun _ => none, nofun⟩

/-! ## The pipe to the receiver -/

structure Pipe (Item : Type) where
  queue : List Item
  closed : Bool
  /-- whether the one slot of `trigger` is taken -/
  trigger : Bool
  deriving DecidableEq, Repr

namespace Pipe

variable {Item : Type}

def newPipe : Pipe Item := ⟨[], false, false⟩

def write (p : Pipe Item) (item : Item) : Pipe Item :=
  { p with queue := p.queue ++ [item], trigger := true }

def close (p : Pipe Item) : Pipe Item :=
  if p.closed then p else { p with closed := true, trigger := true }

@[simp] theorem queue_close (p : Pipe Item) : p.close.queue = p.queue := by
  unfold close
  split <;> rfl

@[simp] theorem closed_close (p : Pipe Item) : p.close.closed = true := by
  unfold close
  split
  next hclosed => exact hclosed
  next => rfl

end Pipe

inductive StreamMsg where
  | payload (bytes : Payload)
  | exception (e : Err)
  deriving DecidableEq, Repr

/-- The exception that ends the stream for the receiver. -/
def StreamMsg.exception? : StreamMsg → Option Err
  | .payload _ => none
  | .exception e => some e

/-- The error that `RecvMsg` returns for a message. -/
def StreamMsg.error (codec : PayloadCodec) : StreamMsg → Option Err
  | .payload bytes => codec.decode bytes
  | .exception e => some e

/-! ## The goroutines of a stream -/

inductive StreamState where
  | active
  | halfCloseLocal
  | inactive
  deriving DecidableEq, Repr

inductive Signal where
  | none
  | active
  | inactive
  | cancel
  deriving DecidableEq, Repr

inductive FrameType where
  | metaFrame
  | headerFrame
  | dataFrame
  | trailerFrame
  | rstFrame
  deriving DecidableEq, Repr

/-- Where a call of `close` is: the next thing that it does. -/
inductive CloseStep where
  | store
  | swap
  | signalHeader
  | signalTrailer
  | readerWrite
  | readerClose
  | rst
  | trailer
  | callbacks
  | delete
  | put
  | returned
  deriving DecidableEq, Repr

structure Closer where
  exception : Option Err
  sendRst : Bool
  /-- the `trailer` argument is not nil -/
  trailer : Bool
  /-- the state that the call has replaced, once it has won -/
  old : Option StreamState
  next : CloseStep
  deriving DecidableEq, Repr

inductive SendCall where
  | start
  /-- found the stream active -/
  | writing
  /-- found the stream in another state -/
  | refused (state : StreamState)
  | returned (state : StreamState) (result : Option Err)
  deriving DecidableEq, Repr

inductive CloseSendCall where
  | start
  /-- changed the state -/
  | sending
  | returned
  deriving DecidableEq, Repr

/-- Where `RecvMsg` is; it is called by one goroutine at a time. -/
inductive RecvCall where
  | idle
  | reading
  /-- the queue was empty -/
  | checking
  /-- the pipe was closed after the queue was empty -/
  | draining
  | waiting
  /-- in the callback of a context that is done, which closes the stream -/
  | callback (closer : Nat) (ex : Exception)
  deriving DecidableEq, Repr

structure ClientStream where
  state : StreamState
  closeStreamException : Option Err
  headerSig : Option Signal
  trailerSig : Option Signal
  /-- `header` is not nil -/
  header : Bool
  /-- `wtrailer` is not nil -/
  wtrailer : Bool
  pipe : Pipe StreamMsg
  /-- the `exception` of the stream reader -/
  exception : Option Err
  /-- the stream is in the map of its transport -/
  registered : Bool
  closers : List Closer
  sends : List SendCall
  closeSends : List CloseSendCall
  recv : RecvCall
  /-- the call of `close` that the read loop is in -/
  reading : Option Nat
  /-- the frames given to `WriteFrame` -/
  frames : List FrameType
  /-- how often `sendTrailer` was called -/
  trailerCalls : Nat
  /-- how often the close callbacks were run -/
  callbacks : Nat
  removals : Nat
  handBacks : Nat
  /-- a header frame was received -/
  headerRead : Bool
  /-- a trailer frame without an exception was received -/
  finished : Bool
  /-- the close reason of the call of `close` that has won -/
  closedWith : Option (Option Err)
  /-- the errors that `RecvMsg` has returned -/
  reported : List Err
  deriving DecidableEq, Repr

inductive StreamEvent where
  /-- somebody calls `close` without a trailer -/
  | close (exception : Option Err) (sendRst : Bool)
  /-- a call of `close` goes on; the exception may fail to be encoded for a reset -/
  | closerStep (closer : Nat) (encoded : Bool)
  | sendMsg
  /-- `SendMsg` goes on; the message may fail to be encoded, and `write` is the
  result of `WriteFrame` -/
  | sendStep (call : Nat) (encode write : Option Err)
  | closeSend
  | closeSendStep (call : Nat)
  | recv
  /-- the receiver reads the queue -/
  | recvRead
  /-- the receiver looks whether the pipe is closed -/
  | recvCheck
  | recvWake
  /-- the receiver finds the context of the stream done -/
  | recvCtxDone (ex : Exception) (sendRst : Bool)
  /-- the receiver's own timeout -/
  | recvTimeout (ex : Exception)
  /-- the callback of the receiver has closed the stream -/
  | recvReturn
  | readHeader (set : Bool)
  | readData (payload : Payload)
  | readTrailer (exception : Option TrailerErr) (trailer : Bool)
  | readRst (ex : Exception)
  /-- the read loop has closed the stream -/
  | readDone
  /-- a call of `Header` receives the signal -/
  | takeHeader
  /-- a call of `Trailer` receives the signal -/
  | takeTrailer
  deriving DecidableEq, Repr

namespace ClientStream

/-- A stream that its transport has just stored. -/
def newClientStream : ClientStream where
  state := .active
  closeStreamException := none
  headerSig := none
  trailerSig := none
  header := false
  wtrailer := true
  pipe := .newPipe
  exception := none
  registered := true
  closers := []
  sends := []
  closeSends := []
  recv := .idle
  reading := none
  frames := []
  trailerCalls := 0
  callbacks := 0
  removals := 0
  handBacks := 0
  headerRead := false
  finished := false
  closedWith := none
  reported := []

/-! ## Closing -/

def addCloser (s : ClientStream) (exception : Option Err) (sendRst trailer : Bool) :
    ClientStream :=
  { s with closers := s.closers ++ [⟨exception, sendRst, trailer, none, .store⟩] }

def advance (s : ClientStream) (k : Nat) (next : CloseStep) : ClientStream :=
  { s with closers := s.closers.modify k fun closer => { closer with next := next } }

/-- `sendTrailer` without an exception. -/
def sendTrailer (s : ClientStream) : ClientStream :=
  { s with
    wtrailer := false
    trailerCalls := s.trailerCalls + 1
    frames := if s.wtrailer then s.frames ++ [FrameType.trailerFrame] else s.frames }

/-- The swap of the state: whoever finds the stream not inactive has won. -/
def swapState (s : ClientStream) (k : Nat) (closer : Closer) : ClientStream :=
  if s.state = .inactive then s.advance k .returned
  else { s with
    state := .inactive
    closedWith := some closer.exception
    closers := s.closers.modify k fun closer =>
      { closer with old := some s.state, next := .signalHeader } }

/-- One step of `close`. -/
def closerStep (s : ClientStream) (k : Nat) (closer : Closer) (encoded : Bool) :
    Option ClientStream :=
  match closer.next with
  -- only the first exception is stored
  | .store => some ({ s with
      closeStreamException := s.closeStreamException.or closer.exception }.advance k .swap)
  | .swap => some (s.swapState k closer)
  -- a signal is dropped if the slot of its channel is taken
  | .signalHeader => some ({ s with
      headerSig := s.headerSig.or (some (if closer.trailer then .inactive else .none)) }.advance
        k .signalTrailer)
  | .signalTrailer => some ({ s with
      trailerSig := s.trailerSig.or
        (some (if closer.trailer then .active else .inactive)) }.advance k .readerWrite)
  | .readerWrite =>
    match closer.exception with
    | some e => some ({ s with pipe := s.pipe.write (.exception e) }.advance k .readerClose)
    | none => some (s.advance k .readerClose)
  | .readerClose => some ({ s with pipe := s.pipe.close }.advance k .rst)
  | .rst =>
    -- an exception that cannot be encoded is logged, and no frame is sent
    if closer.sendRst && encoded then
      some ({ s with frames := s.frames ++ [FrameType.rstFrame] }.advance k .trailer)
    else some (s.advance k .trailer)
  | .trailer =>
    -- in this state `CloseSend` sends the trailer
    if closer.old = some .halfCloseLocal then some (s.advance k .callbacks)
    else some (s.sendTrailer.advance k .callbacks)
  -- the transport's own callback takes the stream out of its map and tells the pool
  | .callbacks => some ({ s with callbacks := s.callbacks + 1 }.advance k .delete)
  | .delete => some ({ s with
      registered := false, removals := s.removals + 1 }.advance k .put)
  | .put => some ({ s with handBacks := s.handBacks + 1 }.advance k .returned)
  | .returned => none

/-! ## Sending -/

def setSend (s : ClientStream) (call : Nat) (progress : SendCall) : ClientStream :=
  { s with sends := s.sends.modify call fun _ => progress }

def sendStep (s : ClientStream) (call : Nat) (progress : SendCall) (encode write : Option Err) :
    Option ClientStream :=
  match progress with
  | .start =>
    if s.state = .active then some (s.setSend call .writing)
    else some (s.setSend call (.refused s.state))
  -- the reason is loaded after the state, in a step of its own
  | .refused state => some (s.setSend call
      (.returned state (some (s.closeStreamException.getD errClosedSend))))
  | .writing =>
    match encode with
    | some e => some (s.setSend call (.returned .active (some e)))
    | none => some ({ s with frames := s.frames ++ [FrameType.dataFrame] }.setSend call
        (.returned .active write))
  | .returned _ _ => none

def setCloseSend (s : ClientStream) (call : Nat) (progress : CloseSendCall) : ClientStream :=
  { s with closeSends := s.closeSends.modify call fun _ => progress }

def closeSendStep (s : ClientStream) (call : Nat) (progress : CloseSendCall) :
    Option ClientStream :=
  match progress with
  | .start =>
    if s.state = .active then
      some ({ s with state := .halfCloseLocal }.setCloseSend call .sending)
    else some (s.setCloseSend call .returned)
  | .sending => some (s.sendTrailer.setCloseSend call .returned)
  | .returned => none

/-! ## Receiving -/

/-- `RecvMsg` returns an error that is not kept. -/
def report (s : ClientStream) (e : Err) : ClientStream :=
  { s with recv := .idle, reported := s.reported ++ [e] }

/-- `RecvMsg` returns an error, and will return it again. -/
def fail (s : ClientStream) (e : Err) : ClientStream :=
  { s with exception := some e }.report e

/-- `handleReadResult` on a message, and `DecodePayload` on its payload. -/
def deliver (codec : PayloadCodec) (s : ClientStream) (rest : List StreamMsg) (msg : StreamMsg) :
    ClientStream :=
  { s with
    pipe := { s.pipe with queue := rest }
    recv := .idle
    exception := msg.exception?.or s.exception
    reported := s.reported ++ (msg.error codec).toList }

def recvRead (codec : PayloadCodec) (s : ClientStream) : Option ClientStream :=
  match s.recv, s.pipe.queue with
  | .reading, msg :: rest => some (s.deliver codec rest msg)
  | .reading, [] => some { s with recv := .checking }
  -- what was written before the pipe was closed is still read
  | .draining, msg :: rest => some (s.deliver codec rest msg)
  | .draining, [] => some (s.fail .eof)
  | _, _ => none

/-- `handleReadResult` on the error of a callback. -/
def recvReturn (s : ClientStream) : Option ClientStream :=
  match s.recv with
  | .callback k ex => s.closers[k]?.bind fun closer =>
    if closer.next = .returned then
      if ex.canRetry then some (s.report (.exception ex)) else some (s.fail (.exception ex))
    else none
  | _ => none

/-! ## The read loop -/

/-- `onReadHeaderFrame` returns an error: the header is set, or the slot of the
signal is taken. -/
def rejectsHeader (s : ClientStream) : Bool := s.header || s.headerSig.isSome

def readHeader (s : ClientStream) (set : Bool) : ClientStream :=
  { s with
    header := s.header || set
    headerSig := if s.header then s.headerSig else s.headerSig.or (some .active)
    headerRead := true }

def cancelSignalMeta (s : ClientStream) : ClientStream :=
  { s with
    trailerSig := s.trailerSig.or (some .cancel), headerSig := s.headerSig.or (some .cancel) }

/-- The read loop closes the stream before it reads on. -/
def readClose (s : ClientStream) (exception : Option Err) (trailer : Bool) : ClientStream :=
  { s.addCloser exception false trailer with reading := some s.closers.length }

/-- A step of the read loop, which handles one frame after another. -/
def read (s t : ClientStream) : Option ClientStream :=
  if s.reading = none then some t else none

def readDone (s : ClientStream) : Option ClientStream :=
  s.reading.bind fun k => s.closers[k]?.bind fun closer =>
    if closer.next = .returned then some { s with reading := none } else none

def step (codec : PayloadCodec) (s : ClientStream) : StreamEvent → Option ClientStream
  | .close exception sendRst => some (s.addCloser exception sendRst false)
  | .closerStep k encoded => s.closers[k]?.bind fun closer => s.closerStep k closer encoded
  | .sendMsg => some { s with sends := s.sends ++ [SendCall.start] }
  | .sendStep call encode write => s.sends[call]?.bind fun progress =>
    s.sendStep call progress encode write
  | .closeSend => some { s with closeSends := s.closeSends ++ [CloseSendCall.start] }
  | .closeSendStep call => s.closeSends[call]?.bind fun progress => s.closeSendStep call progress
  | .recv =>
    if s.recv = .idle then
      match s.exception with
      | some e => some (s.report e)
      | none => some { s with recv := .reading }
    else none
  | .recvRead => s.recvRead codec
  | .recvCheck =>
    if s.recv = .checking then
      some { s with recv := if s.pipe.closed then .draining else .waiting }
    else none
  | .recvWake =>
    if s.recv = .waiting ∧ s.pipe.trigger = true then
      some { s with pipe := { s.pipe with trigger := false }, recv := .reading }
    else none
  | .recvCtxDone ex sendRst =>
    if s.recv = .waiting then
      some { s.addCloser (some (.exception ex)) sendRst false with
        recv := .callback s.closers.length ex }
    else none
  | .recvTimeout ex =>
    if s.recv = .waiting then
      -- with `DisableCancelRemote` the stream is left open, and the exception of the
      -- timeout says that a receive may be tried again
      if ex.canRetry then some (s.report (.exception ex))
      else some { s.addCloser (some (.exception ex)) true false with
        recv := .callback s.closers.length ex }
    else none
  | .recvReturn => s.recvReturn
  | .readHeader set => s.read (s.readHeader set)
  | .readData payload => s.read { s with pipe := s.pipe.write (.payload payload) }
  | .readTrailer exception trailer =>
    s.read { s.readClose (exception.map TrailerErr.toErr) trailer with
      finished := s.finished || exception.isNone }
  | .readRst ex => s.read (s.cancelSignalMeta.readClose (some (.exception ex)) false)
  | .readDone => s.readDone
  | .takeHeader => if s.headerSig.isSome then some { s with headerSig := none } else none
  | .takeTrailer => if s.trailerSig.isSome then some { s with trailerSig := none } else none

def run (codec : PayloadCodec) (events : List StreamEvent) : Option ClientStream :=
  Machine.run (step codec) newClientStream events

/-! ## What a step does -/

/-- The steps of a call of `close`. -/
inductive CloserStepped (s : ClientStream) (k : Nat) (closer : Closer) : ClientStream → Prop
  | store (hnext : closer.next = .store) : CloserStepped s k closer
      ({ s with
        closeStreamException := s.closeStreamException.or closer.exception }.advance k .swap)
  | swapLost (hnext : closer.next = .swap) (hstate : s.state = .inactive) :
      CloserStepped s k closer (s.advance k .returned)
  | swapWon (hnext : closer.next = .swap) (hstate : s.state ≠ .inactive) :
      CloserStepped s k closer { s with
        state := .inactive
        closedWith := some closer.exception
        closers := s.closers.modify k fun closer =>
          { closer with old := some s.state, next := .signalHeader } }
  | signalHeader (signal : Signal) (hnext : closer.next = .signalHeader) :
      CloserStepped s k closer
        ({ s with headerSig := s.headerSig.or (some signal) }.advance k .signalTrailer)
  | signalTrailer (signal : Signal) (hnext : closer.next = .signalTrailer) :
      CloserStepped s k closer
        ({ s with trailerSig := s.trailerSig.or (some signal) }.advance k .readerWrite)
  | readerWrite (e : Err) (hnext : closer.next = .readerWrite)
      (hexception : closer.exception = some e) : CloserStepped s k closer
        ({ s with pipe := s.pipe.write (.exception e) }.advance k .readerClose)
  | readerSkip (hnext : closer.next = .readerWrite) (hexception : closer.exception = none) :
      CloserStepped s k closer (s.advance k .readerClose)
  | readerClose (hnext : closer.next = .readerClose) :
      CloserStepped s k closer ({ s with pipe := s.pipe.close }.advance k .rst)
  | sendRst (hnext : closer.next = .rst) : CloserStepped s k closer
      ({ s with frames := s.frames ++ [FrameType.rstFrame] }.advance k .trailer)
  | skipRst (hnext : closer.next = .rst) : CloserStepped s k closer (s.advance k .trailer)
  | sendTrailer (hnext : closer.next = .trailer) (hold : closer.old ≠ some .halfCloseLocal) :
      CloserStepped s k closer (s.sendTrailer.advance k .callbacks)
  | skipTrailer (hnext : closer.next = .trailer) (hold : closer.old = some .halfCloseLocal) :
      CloserStepped s k closer (s.advance k .callbacks)
  | callbacks (hnext : closer.next = .callbacks) : CloserStepped s k closer
      ({ s with callbacks := s.callbacks + 1 }.advance k .delete)
  | delete (hnext : closer.next = .delete) : CloserStepped s k closer
      ({ s with registered := false, removals := s.removals + 1 }.advance k .put)
  | put (hnext : closer.next = .put) : CloserStepped s k closer
      ({ s with handBacks := s.handBacks + 1 }.advance k .returned)

theorem closerStepped_of_closerStep {s t : ClientStream} {k : Nat} {closer : Closer}
    {encoded : Bool} (hstep : s.closerStep k closer encoded = some t) :
    CloserStepped s k closer t := by
  unfold closerStep at hstep
  split at hstep
  next hnext => cases hstep; exact .store hnext
  next hnext =>
    cases hstep
    unfold swapState
    split
    next hstate => exact .swapLost hnext hstate
    next hstate => exact .swapWon hnext hstate
  next hnext => cases hstep; exact .signalHeader _ hnext
  next hnext => cases hstep; exact .signalTrailer _ hnext
  next hnext =>
    split at hstep
    next e hexception => cases hstep; exact .readerWrite e hnext hexception
    next hexception => cases hstep; exact .readerSkip hnext hexception
  next hnext => cases hstep; exact .readerClose hnext
  next hnext =>
    split at hstep
    next => cases hstep; exact .sendRst hnext
    next => cases hstep; exact .skipRst hnext
  next hnext =>
    split at hstep
    next hold => cases hstep; exact .skipTrailer hnext hold
    next hold => cases hstep; exact .sendTrailer hnext hold
  next hnext => cases hstep; exact .callbacks hnext
  next hnext => cases hstep; exact .delete hnext
  next hnext => cases hstep; exact .put hnext
  next => nomatch hstep

/-- The steps of a client stream, by the goroutine that takes them. -/
inductive Stepped (codec : PayloadCodec) (s : ClientStream) : StreamEvent → ClientStream → Prop
  | close (exception : Option Err) (sendRst : Bool) :
      Stepped codec s (.close exception sendRst) (s.addCloser exception sendRst false)
  | closer {k : Nat} {closer : Closer} {encoded : Bool} {t : ClientStream}
      (hcloser : s.closers[k]? = some closer) (hstep : CloserStepped s k closer t) :
      Stepped codec s (.closerStep k encoded) t
  | sendMsg : Stepped codec s .sendMsg { s with sends := s.sends ++ [SendCall.start] }
  | sendLoad {call : Nat} {encode write : Option Err} (hcall : s.sends[call]? = some .start) :
      Stepped codec s (.sendStep call encode write)
        (s.setSend call (if s.state = .active then .writing else .refused s.state))
  | sendRefused {call : Nat} {state : StreamState} {encode write : Option Err}
      (hcall : s.sends[call]? = some (.refused state)) :
      Stepped codec s (.sendStep call encode write) (s.setSend call
        (.returned state (some (s.closeStreamException.getD errClosedSend))))
  | sendEncode {call : Nat} {e : Err} {write : Option Err}
      (hcall : s.sends[call]? = some .writing) :
      Stepped codec s (.sendStep call (some e) write)
        (s.setSend call (.returned .active (some e)))
  | sendWrite {call : Nat} {write : Option Err} (hcall : s.sends[call]? = some .writing) :
      Stepped codec s (.sendStep call none write)
        ({ s with frames := s.frames ++ [FrameType.dataFrame] }.setSend call
          (.returned .active write))
  | closeSend : Stepped codec s .closeSend
      { s with closeSends := s.closeSends ++ [CloseSendCall.start] }
  | closeSendWon {call : Nat} (hcall : s.closeSends[call]? = some .start)
      (hstate : s.state = .active) : Stepped codec s (.closeSendStep call)
        ({ s with state := .halfCloseLocal }.setCloseSend call .sending)
  | closeSendLost {call : Nat} (hcall : s.closeSends[call]? = some .start)
      (hstate : s.state ≠ .active) :
      Stepped codec s (.closeSendStep call) (s.setCloseSend call .returned)
  | closeSendTrailer {call : Nat} (hcall : s.closeSends[call]? = some .sending) :
      Stepped codec s (.closeSendStep call) (s.sendTrailer.setCloseSend call .returned)
  | recvAgain {e : Err} (hrecv : s.recv = .idle) (hexception : s.exception = some e) :
      Stepped codec s .recv (s.report e)
  | recvStart (hrecv : s.recv = .idle) (hexception : s.exception = none) :
      Stepped codec s .recv { s with recv := .reading }
  | recvMsg {msg : StreamMsg} {rest : List StreamMsg}
      (hrecv : s.recv = .reading ∨ s.recv = .draining) (hqueue : s.pipe.queue = msg :: rest) :
      Stepped codec s .recvRead (s.deliver codec rest msg)
  | recvEmpty (hrecv : s.recv = .reading) (hqueue : s.pipe.queue = []) :
      Stepped codec s .recvRead { s with recv := .checking }
  | recvEof (hrecv : s.recv = .draining) (hqueue : s.pipe.queue = []) :
      Stepped codec s .recvRead (s.fail .eof)
  | recvCheck (hrecv : s.recv = .checking) : Stepped codec s .recvCheck
      { s with recv := if s.pipe.closed then .draining else .waiting }
  | recvWake (hrecv : s.recv = .waiting) : Stepped codec s .recvWake
      { s with pipe := { s.pipe with trigger := false }, recv := .reading }
  | recvCtxDone {ex : Exception} {sendRst : Bool} (hrecv : s.recv = .waiting) :
      Stepped codec s (.recvCtxDone ex sendRst)
        { s.addCloser (some (.exception ex)) sendRst false with
          recv := .callback s.closers.length ex }
  | recvTimeout {ex : Exception} (hrecv : s.recv = .waiting) (hretry : ex.canRetry = true) :
      Stepped codec s (.recvTimeout ex) (s.report (.exception ex))
  | recvTimeoutClose {ex : Exception} (hrecv : s.recv = .waiting)
      (hretry : ex.canRetry = false) : Stepped codec s (.recvTimeout ex)
        { s.addCloser (some (.exception ex)) true false with
          recv := .callback s.closers.length ex }
  | recvReturn {k : Nat} {ex : Exception} {closer : Closer} (hrecv : s.recv = .callback k ex)
      (hcloser : s.closers[k]? = some closer) (hnext : closer.next = .returned)
      (hretry : ex.canRetry = true) : Stepped codec s .recvReturn (s.report (.exception ex))
  | recvFail {k : Nat} {ex : Exception} {closer : Closer} (hrecv : s.recv = .callback k ex)
      (hcloser : s.closers[k]? = some closer) (hnext : closer.next = .returned)
      (hretry : ex.canRetry = false) : Stepped codec s .recvReturn (s.fail (.exception ex))
  | readHeader {set : Bool} (hreading : s.reading = none) :
      Stepped codec s (.readHeader set) (s.readHeader set)
  | readData {payload : Payload} (hreading : s.reading = none) :
      Stepped codec s (.readData payload) { s with pipe := s.pipe.write (.payload payload) }
  | readTrailer {exception : Option TrailerErr} {trailer : Bool} (hreading : s.reading = none) :
      Stepped codec s (.readTrailer exception trailer)
        { s.readClose (exception.map TrailerErr.toErr) trailer with
          finished := s.finished || exception.isNone }
  | readRst {ex : Exception} (hreading : s.reading = none) :
      Stepped codec s (.readRst ex)
        (s.cancelSignalMeta.readClose (some (.exception ex)) false)
  | readDone {k : Nat} {closer : Closer} (hreading : s.reading = some k)
      (hcloser : s.closers[k]? = some closer) (hnext : closer.next = .returned) :
      Stepped codec s .readDone { s with reading := none }
  | takeHeader : Stepped codec s .takeHeader { s with headerSig := none }
  | takeTrailer : Stepped codec s .takeTrailer { s with trailerSig := none }

section Inversion

variable {codec : PayloadCodec} {s t : ClientStream}

private theorem stepped_of_sendStep {call : Nat} {progress : SendCall} {encode write : Option Err}
    (hcall : s.sends[call]? = some progress)
    (hstep : s.sendStep call progress encode write = some t) :
    Stepped codec s (.sendStep call encode write) t := by
  unfold sendStep at hstep
  split at hstep
  next =>
    rw [← apply_ite some, ← apply_ite (s.setSend call)] at hstep
    cases hstep
    exact .sendLoad hcall
  next => cases hstep; exact .sendRefused hcall
  next =>
    split at hstep
    next => cases hstep; exact .sendEncode hcall
    next => cases hstep; exact .sendWrite hcall
  next => nomatch hstep

private theorem stepped_of_closeSendStep {call : Nat} {progress : CloseSendCall}
    (hcall : s.closeSends[call]? = some progress) (hstep : s.closeSendStep call progress = some t) :
    Stepped codec s (.closeSendStep call) t := by
  unfold closeSendStep at hstep
  split at hstep
  next =>
    split at hstep
    next hstate => cases hstep; exact .closeSendWon hcall hstate
    next hstate => cases hstep; exact .closeSendLost hcall hstate
  next => cases hstep; exact .closeSendTrailer hcall
  next => nomatch hstep

private theorem stepped_of_recvRead (hstep : s.recvRead codec = some t) :
    Stepped codec s .recvRead t := by
  unfold recvRead at hstep
  split at hstep
  next hrecv hqueue => cases hstep; exact .recvMsg (.inl hrecv) hqueue
  next hrecv hqueue => cases hstep; exact .recvEmpty hrecv hqueue
  next hrecv hqueue => cases hstep; exact .recvMsg (.inr hrecv) hqueue
  next hrecv hqueue => cases hstep; exact .recvEof hrecv hqueue
  next => nomatch hstep

private theorem stepped_of_recvReturn (hstep : s.recvReturn = some t) :
    Stepped codec s .recvReturn t := by
  unfold recvReturn at hstep
  split at hstep
  next k ex hrecv =>
    obtain ⟨closer, hcloser, hstep⟩ := Option.bind_eq_some_iff.mp hstep
    obtain ⟨hnext, hstep⟩ := Option.ite_none_right_eq_some.mp hstep
    split at hstep
    next hretry => cases hstep; exact .recvReturn hrecv hcloser hnext hretry
    next hretry => cases hstep; exact .recvFail hrecv hcloser hnext (by simpa using hretry)
  next => nomatch hstep

private theorem read_eq_some {u : ClientStream} (hstep : s.read u = some t) :
    s.reading = none ∧ u = t := by
  obtain ⟨hreading, hstep⟩ := Option.ite_none_right_eq_some.mp hstep
  exact ⟨hreading, Option.some.inj hstep⟩

theorem stepped_of_step {event : StreamEvent} (hstep : s.step codec event = some t) :
    Stepped codec s event t := by
  cases event with
  | close exception sendRst => cases hstep; exact .close exception sendRst
  | closerStep k encoded =>
    obtain ⟨closer, hcloser, hstep⟩ := Option.bind_eq_some_iff.mp hstep
    exact .closer hcloser (closerStepped_of_closerStep hstep)
  | sendMsg => cases hstep; exact .sendMsg
  | sendStep call encode write =>
    obtain ⟨progress, hcall, hstep⟩ := Option.bind_eq_some_iff.mp hstep
    exact stepped_of_sendStep hcall hstep
  | closeSend => cases hstep; exact .closeSend
  | closeSendStep call =>
    obtain ⟨progress, hcall, hstep⟩ := Option.bind_eq_some_iff.mp hstep
    exact stepped_of_closeSendStep hcall hstep
  | recv =>
    obtain ⟨hrecv, hstep⟩ := Option.ite_none_right_eq_some.mp hstep
    split at hstep
    next e hexception => cases hstep; exact .recvAgain hrecv hexception
    next hexception => cases hstep; exact .recvStart hrecv hexception
  | recvRead => exact stepped_of_recvRead hstep
  | recvCheck =>
    obtain ⟨hrecv, ⟨⟩⟩ := Option.ite_none_right_eq_some.mp hstep
    exact .recvCheck hrecv
  | recvWake =>
    obtain ⟨⟨hrecv, -⟩, ⟨⟩⟩ := Option.ite_none_right_eq_some.mp hstep
    exact .recvWake hrecv
  | recvCtxDone ex sendRst =>
    obtain ⟨hrecv, ⟨⟩⟩ := Option.ite_none_right_eq_some.mp hstep
    exact .recvCtxDone hrecv
  | recvTimeout ex =>
    obtain ⟨hrecv, hstep⟩ := Option.ite_none_right_eq_some.mp hstep
    split at hstep
    next hretry => cases hstep; exact .recvTimeout hrecv hretry
    next hretry => cases hstep; exact .recvTimeoutClose hrecv (by simpa using hretry)
  | recvReturn => exact stepped_of_recvReturn hstep
  | readHeader set =>
    obtain ⟨hreading, rfl⟩ := read_eq_some hstep
    exact .readHeader hreading
  | readData payload =>
    obtain ⟨hreading, rfl⟩ := read_eq_some hstep
    exact .readData hreading
  | readTrailer exception trailer =>
    obtain ⟨hreading, rfl⟩ := read_eq_some hstep
    exact .readTrailer hreading
  | readRst ex =>
    obtain ⟨hreading, rfl⟩ := read_eq_some hstep
    exact .readRst hreading
  | readDone =>
    obtain ⟨k, hreading, hstep⟩ := Option.bind_eq_some_iff.mp hstep
    obtain ⟨closer, hcloser, hstep⟩ := Option.bind_eq_some_iff.mp hstep
    obtain ⟨hnext, ⟨⟩⟩ := Option.ite_none_right_eq_some.mp hstep
    exact .readDone hreading hcloser hnext
  | takeHeader =>
    obtain ⟨-, ⟨⟩⟩ := Option.ite_none_right_eq_some.mp hstep
    exact .takeHeader
  | takeTrailer =>
    obtain ⟨-, ⟨⟩⟩ := Option.ite_none_right_eq_some.mp hstep
    exact .takeTrailer

end Inversion

end ClientStream

end Kitex.TTStream
