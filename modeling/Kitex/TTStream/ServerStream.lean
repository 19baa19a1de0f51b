import Kitex.TTStream.ClientStream
import Mathlib.Data.List.AList

/-! # Server streams

A server stream is used by the handler, one operation after another, and it is
closed by the handler's return, by a reset of the peer and by its transport. The
stream knows whether its transport was closed: `WriteFrame` gives a frame to the
connection only before, and a frame that fails closes the transport. An event is one
step of the handler or of a call of `close`, or a change by the peer or the
transport.
-/

namespace Kitex.TTStream

open Kitex.Container

/-- Headers and trailers. -/
abbrev StrMap := AList fun _ : String => String

inductive ServerState where
  | active
  | halfCloseRemote
  | inactive
  deriving DecidableEq, Repr

inductive ServerFrame where
  | header (header : StrMap)
  | data (payload : Payload)
  | trailer (trailer : StrMap) (payload : Payload)
  deriving DecidableEq

/-- Where a call of `close` is: the next thing that it does. -/
inductive ServerCloseStep where
  /-- cancel the context -/
  | cancel
  | swap
  | readerClose
  /-- run the callbacks and take the stream out of its transport -/
  | callbacks
  | returned
  deriving DecidableEq, Repr

structure ServerCloser where
  exception : Exception
  next : ServerCloseStep
  deriving DecidableEq, Repr

/-- What follows after the header that an operation sends. -/
inductive AfterHeader where
  | done
  | data (msg : Except Err Payload)
  | trailer (payload : Except Err Payload)
  deriving DecidableEq

/-- Where the operation of the handler is. A message, and the exception of
`CloseSend`, is there as it is encoded. -/
inductive HandlerOp where
  | idle
  /-- `SendMsg` looks at the state -/
  | load (msg : Except Err Payload)
  /-- `sendHeader` -/
  | header (after : AfterHeader)
  | data (msg : Except Err Payload)
  /-- `CloseSend` waits for its call of `close` -/
  | close (closer : Nat) (payload : Except Err Payload)
  /-- `sendTrailer` -/
  | trailer (payload : Except Err Payload)
  deriving DecidableEq

structure ServerStream where
  sid : Int
  state : ServerState
  /-- the reason with which the context was cancelled -/
  ctxErr : Option Exception
  /-- nil once the header was sent -/
  wheader : Option StrMap
  /-- nil once the trailer was sent -/
  wtrailer : Option StrMap
  readerClosed : Bool
  closers : List ServerCloser
  op : HandlerOp
  /-- the transport was closed -/
  closed : Bool
  closedErr : Option Err
  /-- the frames given to the connection -/
  frames : List ServerFrame
  /-- what the operations of the handler have returned -/
  results : List (Option Err)
  deriving DecidableEq

inductive ServerStreamEvent where
  | setHeader (hd : StrMap)
  | sendHeader (hd : StrMap)
  | setTrailer (tl : StrMap)
  | sendMsg (msg : Except Err Payload)
  | closeSend (payload : Except Err Payload)
  /-- the operation goes on; `flush` is the result of the connection if a frame is
  written -/
  | proceed (flush : Option Err)
  /-- `close` is called by the read loop or the transport -/
  | close (ex : Exception)
  | closerStep (closer : Nat)
  /-- a trailer of the peer arrives -/
  | closeRecv
  /-- the transport is closed -/
  | closeTransport (err : Option Err)
  deriving DecidableEq

def errHeaderSent : Err := .other "stream header already sent"

def errTrailerSent : Err := .other "stream trailer already sent"

/-- The reason of a stream whose handler has returned. -/
def errBizHandlerReturnCancel : Exception :=
  ⟨12012, "canceled by business handler returning", false⟩

namespace ServerStream

/-- A stream of a transport that may be closed. -/
def newServerStream (sid : Int) (closed : Bool) (closedErr : Option Err) : ServerStream where
  sid := sid
  state := .active
  ctxErr := none
  wheader := some ∅
  wtrailer := some ∅
  readerClosed := false
  closers := []
  op := .idle
  closed := closed
  closedErr := closedErr
  frames := []
  results := []

/-- `WriteFrame`, with its result. -/
def writeFrame (s : ServerStream) (frame : ServerFrame) (flush : Option Err) :
    ServerStream × Option Err :=
  if s.closed then (s, s.closedErr)
  else ({ s with
    closed := flush.isSome, closedErr := flush, frames := s.frames ++ [frame] }, flush)

theorem writeFrame_fst (s : ServerStream) (frame : ServerFrame) (flush : Option Err) :
    (s.writeFrame frame flush).1 = { s with
      closed := s.closed || flush.isSome
      closedErr := if s.closed then s.closedErr else flush
      frames := if s.closed then s.frames else s.frames ++ [frame] } := by
  unfold writeFrame
  split
  next hclosed => cases s; cases hclosed; rfl
  next hopen => simp [hopen]

/-- The operation of the handler returns. -/
def endOp (s : ServerStream) (result : Option Err) : ServerStream :=
  { s with op := .idle, results := s.results ++ [result] }

def addCloser (s : ServerStream) (ex : Exception) : ServerStream :=
  { s with closers := s.closers ++ [⟨ex, .cancel⟩] }

def advance (s : ServerStream) (k : Nat) (next : ServerCloseStep) : ServerStream :=
  { s with closers := s.closers.modify k fun closer => { closer with next := next } }

/-- One step of `close`. -/
def closerStep (s : ServerStream) (k : Nat) (closer : ServerCloser) : Option ServerStream :=
  match closer.next with
  -- a context keeps the first reason
  | .cancel => some ({ s with ctxErr := s.ctxErr.or (some closer.exception) }.advance k .swap)
  | .swap =>
    if s.state = .inactive then some (s.advance k .returned)
    else some ({ s with state := .inactive }.advance k .readerClose)
  | .readerClose => some ({ s with readerClosed := true }.advance k .callbacks)
  | .callbacks => some (s.advance k .returned)
  | .returned => none

/-- `SendMsg` and `CloseSend` send a header that was not sent before they go on. -/
def afterHeader (s : ServerStream) (after : AfterHeader) (op : HandlerOp) : ServerStream :=
  { s with op := if s.wheader.isSome then .header after else op }

/-- What an operation does after `sendHeader` has returned. -/
def resume (s : ServerStream) (after : AfterHeader) (result : Option Err) : ServerStream :=
  match result, after with
  | none, .data msg => { s with op := .data msg }
  | none, .trailer payload => { s with op := .trailer payload }
  | result, _ => s.endOp result

/-- The operation returns, or it goes on to what follows the header. -/
theorem resume_cases (s : ServerStream) (after : AfterHeader) (result : Option Err) :
    s.resume after result = s.endOp result ∨
      (∃ msg, after = .data msg ∧ s.resume after result = { s with op := .data msg }) ∨
      ∃ payload, after = .trailer payload ∧
        s.resume after result = { s with op := .trailer payload } := by
  cases result with
  | some e => exact .inl rfl
  | none =>
    cases after with
    | done => exact .inl rfl
    | data msg => exact .inr (.inl ⟨msg, rfl, rfl⟩)
    | trailer payload => exact .inr (.inr ⟨payload, rfl, rfl⟩)

/-- Only the operation and its result are touched. -/
theorem resume_eq (s : ServerStream) (after : AfterHeader) (result : Option Err) :
    s.resume after result = { s with
      op := (s.resume after result).op, results := (s.resume after result).results } := by
  rcases s.resume_cases after result with h | ⟨msg, -, h⟩ | ⟨payload, -, h⟩
  · rw [h]
    rfl
  · rw [h]
  · rw [h]

def sendHeader (s : ServerStream) (after : AfterHeader) (flush : Option Err) : ServerStream :=
  match s.wheader with
  | none => s.endOp (some errHeaderSent)
  | some hd =>
    -- the header counts as sent even if the write fails
    let written := { s with wheader := none }.writeFrame (.header hd) flush
    written.1.resume after written.2

/-- `stream.SendMsg`. -/
def sendData (s : ServerStream) (msg : Except Err Payload) (flush : Option Err) :
    ServerStream :=
  match msg with
  | .error e => s.endOp (some e)
  | .ok payload =>
    let written := s.writeFrame (.data payload) flush
    written.1.endOp written.2

def sendTrailer (s : ServerStream) (payload : Except Err Payload) (flush : Option Err) :
    ServerStream :=
  match s.wtrailer, payload with
  | none, _ => s.endOp (some errTrailerSent)
  -- an exception that cannot be encoded uses the trailer up
  | some _, .error e => { s with wtrailer := none }.endOp (some e)
  | some tl, .ok payload =>
    let written := { s with wtrailer := none }.writeFrame (.trailer tl payload) flush
    written.1.endOp written.2

def proceed (s : ServerStream) (flush : Option Err) : Option ServerStream :=
  match s.op with
  | .idle => none
  | .load msg =>
    if s.state = .inactive then some (s.endOp (s.ctxErr.map .exception))
    else some (s.afterHeader (.data msg) (.data msg))
  | .header after => some (s.sendHeader after flush)
  | .data msg => some (s.sendData msg flush)
  | .close k payload => s.closers[k]?.bind fun closer =>
    if closer.next = .returned then
      some (s.afterHeader (.trailer payload) (.trailer payload))
    else none
  | .trailer payload => some (s.sendTrailer payload flush)

/-- The transport of the stream is closed; only the first reason is kept. -/
def closeTransport (s : ServerStream) (err : Option Err) : ServerStream :=
  if s.closed then s else { s with closed := true, closedErr := err }

theorem closeTransport_eq (s : ServerStream) (err : Option Err) : s.closeTransport err = { s with
      closed := true, closedErr := if s.closed then s.closedErr else err } := by
  unfold closeTransport
  split
  next hclosed => cases s; cases hclosed; rfl
  next => rfl

def step (s : ServerStream) : ServerStreamEvent → Option ServerStream
  | .setHeader hd =>
    if s.op = .idle then
      match s.wheader with
      | none => some (s.endOp (some errHeaderSent))
      -- the new value of a key replaces the old one
      | some wheader => some ({ s with wheader := some (hd ∪ wheader) }.endOp none)
    else none
  | .sendHeader hd =>
    if s.op = .idle then
      match s.wheader with
      | none => some (s.endOp (some errHeaderSent))
      | some wheader => some { s with wheader := some (hd ∪ wheader), op := .header .done }
    else none
  | .setTrailer tl =>
    if s.op = .idle then
      match s.wtrailer with
      | none => some (s.endOp (some errTrailerSent))
      | some wtrailer => some ({ s with wtrailer := some (tl ∪ wtrailer) }.endOp none)
    else none
  | .sendMsg msg => if s.op = .idle then some { s with op := .load msg } else none
  | .closeSend payload =>
    -- the handler may call it again; the stream is then closed already
    if s.op = .idle then
      some { s.addCloser errBizHandlerReturnCancel with op := .close s.closers.length payload }
    else none
  | .proceed flush => s.proceed flush
  | .close ex => some (s.addCloser ex)
  | .closerStep k => s.closers[k]?.bind (s.closerStep k)
  | .closeRecv => some { s with
      state := if s.state = .active then .halfCloseRemote else s.state, readerClosed := true }
  | .closeTransport err => some (s.closeTransport err)

/-- Runs of a new server stream. -/
def run (sid : Int) (closed : Bool) (closedErr : Option Err)
    (events : List ServerStreamEvent) : Option ServerStream :=
  Machine.run step (newServerStream sid closed closedErr) events

/-! ## What a step does -/

inductive CloserStepped (s : ServerStream) (k : Nat) (closer : ServerCloser) :
    ServerStream → Prop
  | cancel (hnext : closer.next = .cancel) : CloserStepped s k closer
      ({ s with ctxErr := s.ctxErr.or (some closer.exception) }.advance k .swap)
  | swapLost (hnext : closer.next = .swap) (hstate : s.state = .inactive) :
      CloserStepped s k closer (s.advance k .returned)
  | swapWon (hnext : closer.next = .swap) (hstate : s.state ≠ .inactive) :
      CloserStepped s k closer ({ s with state := .inactive }.advance k .readerClose)
  | readerClose (hnext : closer.next = .readerClose) : CloserStepped s k closer
      ({ s with readerClosed := true }.advance k .callbacks)
  | callbacks (hnext : closer.next = .callbacks) :
      CloserStepped s k closer (s.advance k .returned)

/-- The steps of a server stream; an operation that comes too late returns at once. -/
inductive Stepped (s : ServerStream) : ServerStreamEvent → ServerStream → Prop
  | setHeader {hd wheader : StrMap} (hop : s.op = .idle) (hheader : s.wheader = some wheader) :
      Stepped s (.setHeader hd) ({ s with wheader := some (hd ∪ wheader) }.endOp none)
  | sendHeader {hd wheader : StrMap} (hop : s.op = .idle) (hheader : s.wheader = some wheader) :
      Stepped s (.sendHeader hd)
        { s with wheader := some (hd ∪ wheader), op := .header .done }
  | setTrailer {tl wtrailer : StrMap} (hop : s.op = .idle)
      (htrailer : s.wtrailer = some wtrailer) :
      Stepped s (.setTrailer tl) ({ s with wtrailer := some (tl ∪ wtrailer) }.endOp none)
  | late {event : ServerStreamEvent} (e : Err) (hevent : ∀ k, event ≠ .closerStep k) :
      Stepped s event (s.endOp (some e))
  | sendMsg {msg : Except Err Payload} (hop : s.op = .idle) :
      Stepped s (.sendMsg msg) { s with op := .load msg }
  | closeSend {payload : Except Err Payload} (hop : s.op = .idle) :
      Stepped s (.closeSend payload)
        { s.addCloser errBizHandlerReturnCancel with op := .close s.closers.length payload }
  | sendMsgClosed {msg : Except Err Payload} {flush : Option Err} (hop : s.op = .load msg)
      (hstate : s.state = .inactive) :
      Stepped s (.proceed flush) (s.endOp (s.ctxErr.map .exception))
  | sendMsgOpen {msg : Except Err Payload} {flush : Option Err} (hop : s.op = .load msg)
      (hstate : s.state ≠ .inactive) :
      Stepped s (.proceed flush) (s.afterHeader (.data msg) (.data msg))
  | writeHeader {after : AfterHeader} {flush : Option Err} {hd : StrMap}
      (hop : s.op = .header after) (hheader : s.wheader = some hd) :
      Stepped s (.proceed flush)
        (({ s with wheader := none }.writeFrame (.header hd) flush).1.resume after
          ({ s with wheader := none }.writeFrame (.header hd) flush).2)
  | writeData {payload : Payload} {flush : Option Err} (hop : s.op = .data (.ok payload)) :
      Stepped s (.proceed flush)
        ((s.writeFrame (.data payload) flush).1.endOp (s.writeFrame (.data payload) flush).2)
  | closed {k : Nat} {payload : Except Err Payload} {flush : Option Err} {closer : ServerCloser}
      (hop : s.op = .close k payload) (hcloser : s.closers[k]? = some closer)
      (hnext : closer.next = .returned) :
      Stepped s (.proceed flush) (s.afterHeader (.trailer payload) (.trailer payload))
  | encodeTrailer {e : Err} {tl : StrMap} {flush : Option Err}
      (hop : s.op = .trailer (.error e)) (htrailer : s.wtrailer = some tl) :
      Stepped s (.proceed flush) ({ s with wtrailer := none }.endOp (some e))
  | writeTrailer {payload : Payload} {tl : StrMap} {flush : Option Err}
      (hop : s.op = .trailer (.ok payload)) (htrailer : s.wtrailer = some tl) :
      Stepped s (.proceed flush)
        (({ s with wtrailer := none }.writeFrame (.trailer tl payload) flush).1.endOp
          ({ s with wtrailer := none }.writeFrame (.trailer tl payload) flush).2)
  | close (ex : Exception) : Stepped s (.close ex) (s.addCloser ex)
  | closer {k : Nat} {closer : ServerCloser} {s' : ServerStream}
      (hcloser : s.closers[k]? = some closer) (hstep : CloserStepped s k closer s') :
      Stepped s (.closerStep k) s'
  | closeRecv : Stepped s .closeRecv { s with
      state := if s.state = .active then .halfCloseRemote else s.state, readerClosed := true }
  | closeTransport (err : Option Err) (hopen : s.closed = false) :
      Stepped s (.closeTransport err) { s with closed := true, closedErr := err }
  | closeAgain (err : Option Err) : Stepped s (.closeTransport err) s

variable {s s' : ServerStream}

variable {closer : ServerCloser} {event : ServerStreamEvent} {k : Nat}

theorem CloserStepped.sid_eq (hstep : CloserStepped s k closer s') : s'.sid = s.sid := by
  cases hstep <;> rfl

theorem Stepped.sid_eq (hstep : Stepped s event s') : s'.sid = s.sid := by
  cases hstep with
  | writeHeader => rw [resume_eq, writeFrame_fst]
  | writeData | writeTrailer => rw [writeFrame_fst]; rfl
  | closer hcloser hstep => exact hstep.sid_eq
  | _ => rfl

theorem closerStepped_of_closerStep (hstep : s.closerStep k closer = some s') :
    CloserStepped s k closer s' := by
  unfold closerStep at hstep
  split at hstep
  next hnext => cases hstep; exact .cancel hnext
  next hnext =>
    split at hstep
    next hstate => cases hstep; exact .swapLost hnext hstate
    next hstate => cases hstep; exact .swapWon hnext hstate
  next hnext => cases hstep; exact .readerClose hnext
  next hnext => cases hstep; exact .callbacks hnext
  next => nomatch hstep

theorem stepped_of_proceed {flush : Option Err} (hstep : s.proceed flush = some s') :
    Stepped s (.proceed flush) s' := by
  unfold proceed at hstep
  split at hstep
  next => nomatch hstep
  next msg hop =>
    split at hstep
    next hstate => cases hstep; exact .sendMsgClosed hop hstate
    next hstate => cases hstep; exact .sendMsgOpen hop hstate
  next after hop =>
    cases hstep
    unfold sendHeader
    split
    next => exact .late _ nofun
    next hd hheader => exact .writeHeader hop hheader
  next msg hop =>
    cases hstep
    cases msg with
    | error e => exact .late e nofun
    | ok payload => exact .writeData hop
  next k payload hop =>
    obtain ⟨closer, hcloser, hstep⟩ := Option.bind_eq_some_iff.mp hstep
    obtain ⟨hnext, ⟨⟩⟩ := Option.ite_none_right_eq_some.mp hstep
    exact .closed hop hcloser hnext
  next payload hop =>
    cases hstep
    unfold sendTrailer
    split
    next => exact .late _ nofun
    next e htrailer => exact .encodeTrailer hop htrailer
    next tl payload htrailer => exact .writeTrailer hop htrailer

theorem stepped_of_step (hstep : s.step event = some s') : Stepped s event s' := by
  cases event with
  | setHeader hd =>
    obtain ⟨hop, hstep⟩ := Option.ite_none_right_eq_some.mp hstep
    split at hstep
    next => cases hstep; exact .late _ nofun
    next hheader => cases hstep; exact .setHeader hop hheader
  | sendHeader hd =>
    obtain ⟨hop, hstep⟩ := Option.ite_none_right_eq_some.mp hstep
    split at hstep
    next => cases hstep; exact .late _ nofun
    next hheader => cases hstep; exact .sendHeader hop hheader
  | setTrailer tl =>
    obtain ⟨hop, hstep⟩ := Option.ite_none_right_eq_some.mp hstep
    split at hstep
    next => cases hstep; exact .late _ nofun
    next htrailer => cases hstep; exact .setTrailer hop htrailer
  | sendMsg msg =>
    obtain ⟨hop, ⟨⟩⟩ := Option.ite_none_right_eq_some.mp hstep
    exact .sendMsg hop
  | closeSend payload =>
    obtain ⟨hop, ⟨⟩⟩ := Option.ite_none_right_eq_some.mp hstep
    exact .closeSend hop
  | proceed flush => exact stepped_of_proceed hstep
  | close ex => cases hstep; exact .close ex
  | closerStep k =>
    obtain ⟨closer, hcloser, hstep⟩ := Option.bind_eq_some_iff.mp hstep
    exact .closer hcloser (closerStepped_of_closerStep hstep)
  | closeRecv => cases hstep; exact .closeRecv
  | closeTransport err =>
    cases hstep
    unfold closeTransport
    split
    next => exact .closeAgain err
    next hopen => exact .closeTransport err (by simpa using hopen)

/-! ## Closed streams -/

/-- A call of `close` that is past the swap has left the stream inactive. -/
def ClosersSound (state : ServerState) (closers : List ServerCloser) : Prop :=
  ∀ (k : Nat) closer, closers[k]? = some closer →
    closer.next = .cancel ∨ closer.next = .swap ∨ state = .inactive

namespace ClosersSound

variable {state : ServerState} {closers : List ServerCloser}

theorem concat (hsound : ClosersSound state closers) (ex : Exception) :
    ClosersSound state (closers ++ [⟨ex, .cancel⟩]) :=
  forall_getElem?_concat hsound (.inl rfl)

theorem advance (hsound : ClosersSound state closers) (k : Nat) {next : ServerCloseStep}
    (hnext : next = .swap ∨ state = .inactive) :
    ClosersSound state (closers.modify k fun closer => { closer with next := next }) :=
  forall_getElem?_modify (fun other found _ => hsound other found) fun _ _ => .inr hnext

theorem closerStep (hsound : ClosersSound s.state s.closers) {closer : ServerCloser}
    (hcloser : s.closers[k]? = some closer) (hstep : CloserStepped s k closer s') :
    ClosersSound s'.state s'.closers := by
  have hself := hsound k closer hcloser
  cases hstep with
  | cancel => exact hsound.advance k (.inl rfl)
  | swapLost hnext hstate => exact hsound.advance k (.inr hstate)
  | swapWon hnext hstate =>
    exact forall_getElem?_modify (fun _ _ _ _ => .inr (.inr rfl)) fun _ _ => .inr (.inr rfl)
  | readerClose hnext | callbacks hnext =>
    rw [hnext] at hself
    exact hsound.advance k (.inr (by simpa using hself))

theorem step {event : ServerStreamEvent} (hsound : ClosersSound s.state s.closers)
    (hstep : Stepped s event s') : ClosersSound s'.state s'.closers := by
  cases hstep with
  | closeSend => exact hsound.concat _
  | writeHeader =>
    rw [resume_eq, writeFrame_fst]
    exact hsound
  | writeData | writeTrailer =>
    rw [writeFrame_fst]
    exact hsound
  | close ex => exact hsound.concat ex
  | closer hcloser hstep => exact hsound.closerStep hcloser hstep
  | closeRecv =>
    intro k closer hcloser
    rcases hsound k closer hcloser with h | h | h
    · exact .inl h
    · exact .inr (.inl h)
    · exact .inr (.inr (by simp [h]))
  | _ => exact hsound

end ClosersSound

theorem run_closersSound {sid : Int} {closed : Bool} {closedErr : Option Err}
    {events : List ServerStreamEvent} (hrun : run sid closed closedErr events = some s) :
    ClosersSound s.state s.closers :=
  Machine.run_invariant (fun _ s => ClosersSound s.state s.closers)
    (by simp [ClosersSound, newServerStream])
    (fun _ _ _ _ _ hsound hnext => hsound.step (stepped_of_step hnext)) hrun

end ServerStream

end Kitex.TTStream
