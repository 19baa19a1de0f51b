import Kitex.TTStream.ClientStreamReader

/-! # Client transports

A client transport shares one connection among its streams. Streams are numbered
in the order in which they were stored; the stream ids of the connection are told
apart by these numbers. The transport is closed by its pool, by a write that fails
and by the read loop; whoever closes it goes through the streams that are still
stored and closes them. The read loop handles one frame after another.
-/

namespace Kitex.TTStream

open Kitex.Container

/-- A frame of the peer for a stream that the transport knows. -/
inductive Frame where
  | metaFrame
  | header (set : Bool)
  | data (payload : Payload)
  | trailer (exception : Option TrailerErr) (set : Bool)
  | rst (ex : Exception)
  deriving DecidableEq, Repr

/-- Where the read loop is. -/
inductive ReadLoop where
  | idle
  /-- found the stream of a frame -/
  | loaded (stream : Nat) (frame : Frame)
  /-- in a call of `close` for a stream -/
  | closing (stream : Nat)
  | failed (e : Err)
  /-- has closed the transport -/
  | done
  deriving DecidableEq, Repr

structure ClientTransport where
  streams : List ClientStream
  /-- the streams whose header frame was not written yet -/
  opening : List Nat
  /-- `state` is `connStateClosed` -/
  closed : Bool
  closedErr : Option Err
  /-- the reasons of the calls of `releaseResources` -/
  sweeps : List (Option Err)
  reader : ReadLoop
  deriving DecidableEq, Repr

inductive TransportEvent where
  /-- `WriteStream` stores a new stream -/
  | storeStream
  /-- `WriteStream` writes the header frame of a stream -/
  | writeHeader (stream : Nat) (flush : Option Exception)
  /-- a step of the caller of a stream, or of a goroutine that closes it; `flush` is
  the result of the connection if a frame is written -/
  | stream (stream : Nat) (event : StreamEvent) (flush : Option Exception)
  | close (exception : Option Err)
  /-- a call of `releaseResources` closes a stream that it finds -/
  | sweep (sweep stream : Nat)
  /-- `DecodeFrame` returns an error -/
  | decodeErr (e : Err)
  /-- the read loop finds the stream of a frame -/
  | load (stream : Nat) (frame : Frame)
  /-- the read loop handles the frame; `handler` is the result of the meta frame
  handler -/
  | handle (handler : Option Err)
  /-- the read loop has closed the stream -/
  | handled
  /-- the read loop closes the transport -/
  | readerClose
  deriving DecidableEq, Repr

/-- The steps that are not the read loop's. A stream is closed from outside by the
transport, or by the ticker that finds its context done. -/
def StreamEvent.isLocal : StreamEvent → Bool
  | .close (some (.exception _)) _ => true
  | .close _ _ => false
  | .readHeader _ | .readData _ | .readTrailer _ _ | .readRst _ | .readDone => false
  | _ => true

/-- The step goes with the result of `WriteFrame`. -/
def StreamEvent.hasResult (result : Option Err) : StreamEvent → Bool
  | .sendStep _ _ write => write == result
  | _ => true

/-- The step gives a frame to `WriteFrame`. -/
def ClientStream.writes (s : ClientStream) : StreamEvent → Bool
  | .closerStep k encoded => s.closers[k]?.any fun closer =>
    match closer.next with
    | .rst => closer.sendRst && encoded
    | .trailer => closer.old != some .halfCloseLocal && s.wtrailer
    | _ => false
  | .sendStep call encode _ => s.sends[call]? == some .writing && encode.isNone
  | .closeSendStep call => s.closeSends[call]? == some .sending && s.wtrailer
  | _ => false

/-- What the frame does to its stream. -/
def Frame.event : Frame → Option StreamEvent
  | .metaFrame => none
  | .header set => some (.readHeader set)
  | .data payload => some (.readData payload)
  | .trailer exception set => some (.readTrailer exception set)
  | .rst ex => some (.readRst ex)

/-- The error of a header frame that the stream did not expect. -/
def errUnexpectedHeader (stream : Nat) : Err :=
  .exception ⟨12002, "stream[" ++ toString stream ++ "] already set header", false⟩

/-- Where the read loop is after it has handled a frame of a stream. -/
def Frame.outcome (stream : Nat) (s : ClientStream) (handler : Option Err) : Frame → ReadLoop
  | .metaFrame => handler.elim .idle .failed
  | .header _ => if s.rejectsHeader then .failed (errUnexpectedHeader stream) else .idle
  | .data _ => .idle
  | .trailer _ _ => .closing stream
  | .rst _ => .closing stream

namespace ClientTransport

def newClientTransport : ClientTransport where
  streams := []
  opening := []
  closed := false
  closedErr := none
  sweeps := []
  reader := .idle

/-- `Close`; the streams are closed by the sweep that it starts. -/
def close (t : ClientTransport) (exception : Option Err) : ClientTransport :=
  if t.closed then t
  else { t with closed := true, closedErr := exception, sweeps := t.sweeps ++ [exception] }

/-- `WriteFrame`, with its result. A connection that fails closes the transport. -/
def writeFrame (t : ClientTransport) (flush : Option Exception) :
    ClientTransport × Option Err :=
  if t.closed then (t, t.closedErr)
  else match flush with
    | none => (t, none)
    | some ex => (t.close (some (.exception ex)), some (.exception ex))

section

variable (t : ClientTransport)
include t

@[simp] theorem streams_close (exception : Option Err) :
    (t.close exception).streams = t.streams := by
  unfold close
  split <;> rfl

@[simp] theorem reader_close (exception : Option Err) : (t.close exception).reader = t.reader := by
  unfold close
  split <;> rfl

/-- A write closes the transport with the error of the connection, or leaves it. -/
theorem writeFrame_fst (flush : Option Exception) : (t.writeFrame flush).1 = t ∨
      ∃ ex : Exception, (t.writeFrame flush).1 = t.close (some (.exception ex)) := by
  unfold writeFrame
  split
  next => exact .inl rfl
  next =>
    cases flush with
    | none => exact .inl rfl
    | some ex => exact .inr ⟨ex, rfl⟩

@[simp] theorem streams_writeFrame (flush : Option Exception) :
    (t.writeFrame flush).1.streams = t.streams := by
  rcases t.writeFrame_fst flush with h | ⟨ex, h⟩ <;> simp [h]

@[simp] theorem reader_writeFrame (flush : Option Exception) :
    (t.writeFrame flush).1.reader = t.reader := by
  rcases t.writeFrame_fst flush with h | ⟨ex, h⟩ <;> simp [h]

end

def setStream (t : ClientTransport) (stream : Nat) (s : ClientStream) : ClientTransport :=
  { t with streams := t.streams.modify stream fun _ => s }

def step (codec : PayloadCodec) (t : ClientTransport) : TransportEvent → Option ClientTransport
  | .storeStream => some { t with
      streams := t.streams ++ [ClientStream.newClientStream]
      opening := t.opening ++ [t.streams.length] }
  | .writeHeader stream flush =>
    if stream ∈ t.opening then
      some { (t.writeFrame flush).1 with opening := t.opening.erase stream }
    else none
  | .stream stream event flush => t.streams[stream]?.bind fun s =>
    if event.isLocal then (s.step codec event).bind fun s' =>
      if s.writes event then
        -- a send returns what `WriteFrame` returns
        if event.hasResult (t.writeFrame flush).2 then
          some ((t.writeFrame flush).1.setStream stream s')
        else none
      else some (t.setStream stream s')
    else none
  | .close exception => some (t.close exception)
  -- `Range` may meet a stream that was stored after the transport was closed
  | .sweep sweep stream => t.sweeps[sweep]?.bind fun reason => t.streams[stream]?.bind fun s =>
    if s.registered then
      (s.step codec (.close reason false)).map (t.setStream stream)
    else none
  | .decodeErr e => if t.reader = .idle then some { t with reader := .failed e } else none
  -- a frame for a stream that is not stored is dropped
  | .load stream frame => t.streams[stream]?.bind fun s =>
    if t.reader = .idle ∧ s.registered then
      some { t with reader := .loaded stream frame }
    else none
  | .handle handler =>
    match t.reader with
    | .loaded stream frame => t.streams[stream]?.bind fun s =>
      match frame.event with
      | none => some { t with reader := frame.outcome stream s handler }
      | some event => (s.step codec event).map fun s' =>
        { t.setStream stream s' with reader := frame.outcome stream s handler }
    | _ => none
  | .handled =>
    match t.reader with
    | .closing stream => t.streams[stream]?.bind fun s =>
      (s.step codec .readDone).map fun s' => { t.setStream stream s' with reader := .idle }
    | _ => none
  | .readerClose =>
    match t.reader with
    | .failed e => some { t.close (some e) with reader := .done }
    | _ => none

def run (codec : PayloadCodec) (events : List TransportEvent) : Option ClientTransport :=
  Machine.run (step codec) newClientTransport events

/-! ## What a step does -/

inductive Stepped (codec : PayloadCodec) (t : ClientTransport) :
    TransportEvent → ClientTransport → Prop
  | storeStream : Stepped codec t .storeStream { t with
      streams := t.streams ++ [ClientStream.newClientStream]
      opening := t.opening ++ [t.streams.length] }
  | writeHeader {stream : Nat} {flush : Option Exception} :
      Stepped codec t (.writeHeader stream flush)
        { (t.writeFrame flush).1 with opening := t.opening.erase stream }
  | streamWrite {stream : Nat} {event : StreamEvent} {flush : Option Exception}
      {s s' : ClientStream} (hstream : t.streams[stream]? = some s)
      (hlocal : event.isLocal = true) (hstep : s.step codec event = some s') :
      Stepped codec t (.stream stream event flush) ((t.writeFrame flush).1.setStream stream s')
  | streamStep {stream : Nat} {event : StreamEvent} {flush : Option Exception}
      {s s' : ClientStream} (hstream : t.streams[stream]? = some s)
      (hlocal : event.isLocal = true) (hstep : s.step codec event = some s') :
      Stepped codec t (.stream stream event flush) (t.setStream stream s')
  | close (exception : Option Err) : Stepped codec t (.close exception) (t.close exception)
  | sweep {sweep stream : Nat} {reason : Option Err} {s s' : ClientStream}
      (hsweep : t.sweeps[sweep]? = some reason) (hstream : t.streams[stream]? = some s)
      (hstep : s.step codec (.close reason false) = some s') :
      Stepped codec t (.sweep sweep stream) (t.setStream stream s')
  | decodeErr {e : Err} (hreader : t.reader = .idle) :
      Stepped codec t (.decodeErr e) { t with reader := .failed e }
  | load {stream : Nat} {frame : Frame} (hreader : t.reader = .idle) :
      Stepped codec t (.load stream frame) { t with reader := .loaded stream frame }
  | handleMeta {handler : Option Err} {stream : Nat} {frame : Frame} {s : ClientStream}
      (hreader : t.reader = .loaded stream frame) (hstream : t.streams[stream]? = some s)
      (hevent : frame.event = none) : Stepped codec t (.handle handler)
        { t with reader := frame.outcome stream s handler }
  | handle {handler : Option Err} {stream : Nat} {frame : Frame} {event : StreamEvent}
      {s s' : ClientStream} (hreader : t.reader = .loaded stream frame)
      (hstream : t.streams[stream]? = some s) (hevent : frame.event = some event)
      (hstep : s.step codec event = some s') : Stepped codec t (.handle handler)
        { t.setStream stream s' with reader := frame.outcome stream s handler }
  | handled {stream : Nat} {s s' : ClientStream} (hreader : t.reader = .closing stream)
      (hstream : t.streams[stream]? = some s) (hstep : s.step codec .readDone = some s') :
      Stepped codec t .handled { t.setStream stream s' with reader := .idle }
  | readerClose {e : Err} (hreader : t.reader = .failed e) :
      Stepped codec t .readerClose { t.close (some e) with reader := .done }

variable {codec : PayloadCodec} {t next : ClientTransport} {event : TransportEvent}

theorem stepped_of_step (hstep : t.step codec event = some next) : Stepped codec t event next := by
  cases event with
  | storeStream => cases hstep; exact .storeStream
  | writeHeader stream flush =>
    obtain ⟨-, ⟨⟩⟩ := Option.ite_none_right_eq_some.mp hstep
    exact .writeHeader
  | stream stream event flush =>
    obtain ⟨s, hstream, hstep⟩ := Option.bind_eq_some_iff.mp hstep
    obtain ⟨hlocal, hstep⟩ := Option.ite_none_right_eq_some.mp hstep
    obtain ⟨s', hs', hstep⟩ := Option.bind_eq_some_iff.mp hstep
    split at hstep
    next =>
      obtain ⟨-, ⟨⟩⟩ := Option.ite_none_right_eq_some.mp hstep
      exact .streamWrite hstream hlocal hs'
    next =>
      cases hstep
      exact .streamStep hstream hlocal hs'
  | close exception => cases hstep; exact .close exception
  | sweep sweep stream =>
    obtain ⟨reason, hsweep, hstep⟩ := Option.bind_eq_some_iff.mp hstep
    obtain ⟨s, hstream, hstep⟩ := Option.bind_eq_some_iff.mp hstep
    obtain ⟨-, hstep⟩ := Option.ite_none_right_eq_some.mp hstep
    obtain ⟨s', hs', rfl⟩ := Option.map_eq_some_iff.mp hstep
    exact .sweep hsweep hstream hs'
  | decodeErr e =>
    obtain ⟨hreader, ⟨⟩⟩ := Option.ite_none_right_eq_some.mp hstep
    exact .decodeErr hreader
  | load stream frame =>
    obtain ⟨s, hstream, hstep⟩ := Option.bind_eq_some_iff.mp hstep
    obtain ⟨⟨hreader, -⟩, ⟨⟩⟩ := Option.ite_none_right_eq_some.mp hstep
    exact .load hreader
  | handle handler =>
    simp only [step] at hstep
    split at hstep
    next stream frame hreader =>
      obtain ⟨s, hstream, hstep⟩ := Option.bind_eq_some_iff.mp hstep
      split at hstep
      next hevent => cases hstep; exact .handleMeta hreader hstream hevent
      next event hevent =>
        obtain ⟨s', hs', rfl⟩ := Option.map_eq_some_iff.mp hstep
        exact .handle hreader hstream hevent hs'
    next => nomatch hstep
  | handled =>
    simp only [step] at hstep
    split at hstep
    next stream hreader =>
      obtain ⟨s, hstream, hstep⟩ := Option.bind_eq_some_iff.mp hstep
      obtain ⟨s', hs', rfl⟩ := Option.map_eq_some_iff.mp hstep
      exact .handled hreader hstream hs'
    next => nomatch hstep
  | readerClose =>
    simp only [step] at hstep
    split at hstep
    next e hreader => cases hstep; exact .readerClose hreader
    next => nomatch hstep

/-! ## The streams of a transport -/

end ClientTransport

/-- A run of a client stream whose events all have a property ends in the stream. -/
def ClientStream.Reached (codec : PayloadCodec) (property : StreamEvent → Prop)
    (s : ClientStream) : Prop :=
  ∃ events, ClientStream.run codec events = some s ∧ ∀ event ∈ events, property event

theorem ClientStream.Reached.step {codec : PayloadCodec} {property : StreamEvent → Prop}
    {s s' : ClientStream} {event : StreamEvent} (hreached : s.Reached codec property)
    (hstep : s.step codec event = some s') (hproperty : property event) :
    s'.Reached codec property := by
  obtain ⟨events, hrun, hall⟩ := hreached
  refine ⟨events ++ [event], Machine.run_append_singleton_eq_some.mpr ⟨s, hrun, hstep⟩, ?_⟩
  intro other hother
  rcases List.mem_append.mp hother with hold | hnew
  · exact hall other hold
  · exact List.mem_singleton.mp hnew ▸ hproperty

namespace ClientTransport

variable {codec : PayloadCodec} {t next : ClientTransport} {event : TransportEvent}

/-- Every stream of the transport was reached by steps of its own. -/
def StreamsReached (codec : PayloadCodec) (property : StreamEvent → Prop)
    (t : ClientTransport) : Prop :=
  ∀ (stream : Nat) s, t.streams[stream]? = some s → s.Reached codec property

variable {property : StreamEvent → Prop}

theorem StreamsReached.setStream (hreached : t.StreamsReached codec property) (stream : Nat)
    {s : ClientStream} (hs : s.Reached codec property) :
    (t.setStream stream s).StreamsReached codec property :=
  forall_getElem?_modify (fun other found _ => hreached other found) fun _ _ => hs

theorem StreamsReached.of_streams_eq (hreached : t.StreamsReached codec property)
    (hstreams : next.streams = t.streams) : next.StreamsReached codec property := by
  intro stream s hs
  rw [hstreams] at hs
  exact hreached stream s hs

/-- The steps of a transport are steps of its streams: of their callers, of the read
loop, and of those who close the transport. -/
theorem StreamsReached.step (hlocal : ∀ event, event.isLocal = true → property event)
    (hframe : ∀ (frame : Frame) event, frame.event = some event → property event)
    (hdone : property .readDone) (hsweeps : ∀ reason ∈ t.sweeps, property (.close reason false))
    (hreached : t.StreamsReached codec property) (hstep : Stepped codec t event next) :
    next.StreamsReached codec property := by
  cases hstep with
  | storeStream => exact forall_getElem?_concat hreached ⟨[], rfl, by simp⟩
  | writeHeader => exact hreached.of_streams_eq (t.streams_writeFrame _)
  | streamWrite hstream hisLocal hs' =>
    apply (hreached.of_streams_eq (t.streams_writeFrame _)).setStream
    exact (hreached _ _ hstream).step hs' (hlocal _ hisLocal)
  | streamStep hstream hisLocal hs' =>
    exact hreached.setStream _ ((hreached _ _ hstream).step hs' (hlocal _ hisLocal))
  | close exception => exact hreached.of_streams_eq (t.streams_close exception)
  | sweep hsweep hstream hs' =>
    exact hreached.setStream _
      ((hreached _ _ hstream).step hs' (hsweeps _ (List.mem_of_getElem? hsweep)))
  | decodeErr | load | handleMeta => exact hreached
  | handle hreader hstream hevent hs' =>
    exact hreached.setStream _ ((hreached _ _ hstream).step hs' (hframe _ _ hevent))
  | handled hreader hstream hs' =>
    exact hreached.setStream _ ((hreached _ _ hstream).step hs' hdone)
  | readerClose => exact hreached.of_streams_eq (t.streams_close _)

end ClientTransport

end Kitex.TTStream
