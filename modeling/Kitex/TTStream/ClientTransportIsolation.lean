import Kitex.TTStream.ClientTransport

/-! # The read loop and the streams of a connection

An error that the read loop meets in one frame closes the transport with all its
streams. A header frame is such an error if the header of the stream was signalled
before. Closing a stream signals its header while the stream can still be found, so
the header frame of a stream that was just cancelled fails the read loop. It handles
all other frames of a well-behaved peer.
-/

namespace Kitex.TTStream

open Kitex.Container

namespace ClientStream

variable {codec : PayloadCodec} {s s' : ClientStream} {event : StreamEvent}

/-- The header is signalled by a header frame, by a call of `close` after the swap,
or by a reset that the read loop is still handling. -/
structure SignalSound (s : ClientStream) : Prop where
  header : s.header = true → s.headerRead = true
  signal : s.headerSig ≠ none → s.headerRead = true ∨ s.state = .inactive ∨ s.reading ≠ none

namespace SignalSound

theorem closerStep (hsignal : SignalSound s) (hsound : ClosersSound s.state s.closers)
    {k : Nat} {closer : Closer} (hcloser : s.closers[k]? = some closer)
    (hstep : CloserStepped s k closer s') : SignalSound s' := by
  cases hstep with
  | swapWon => exact { hsignal with signal := fun _ => .inr (.inl rfl) }
  | signalHeader signal hnext =>
    have hinactive := (hsound.each k closer hcloser).inactive (by rw [hnext]; decide)
    exact { hsignal with signal := fun _ => .inr (.inl hinactive) }
  | _ => exact { hsignal with }

theorem step (hsignal : SignalSound s) (hsound : ClosersSound s.state s.closers)
    (hstep : Stepped codec s event s') : SignalSound s' := by
  cases hstep with
  | closer hcloser hstep => exact hsignal.closerStep hsound hcloser hstep
  | closeSendWon hcall hstate =>
    refine { hsignal with signal := fun hset => ?_ }
    rcases hsignal.signal hset with hread | hinactive | hreading
    · exact .inl hread
    · nomatch hstate.symm.trans hinactive
    · exact .inr (.inr hreading)
  | readHeader => exact ⟨fun _ => rfl, fun _ => .inl rfl⟩
  | readTrailer | readRst => exact { hsignal with signal := fun _ => .inr (.inr nofun) }
  | readDone hreading hcloser hnext =>
    -- the reset has made the stream inactive by now
    have hinactive := (hsound.each _ _ hcloser).inactive (by rw [hnext]; decide)
    exact { hsignal with signal := fun _ => .inr (.inl hinactive) }
  | takeHeader => exact { hsignal with signal := fun hset => absurd rfl hset }
  | _ => exact { hsignal with }

/-- The first header frame of a stream that is open, or whose signal was taken, is
expected. -/
theorem rejectsHeader_eq_false (hsignal : SignalSound s) (hreading : s.reading = none)
    (hread : s.headerRead = false) (hopen : s.state ≠ .inactive ∨ s.headerSig = none) :
    s.rejectsHeader = false := by
  have hheader : s.header = false := by
    by_contra hset
    rw [hsignal.header (by simpa using hset)] at hread
    nomatch hread
  have hnone : s.headerSig = none := by
    by_contra hset
    rcases hsignal.signal hset with h | h | h
    · rw [h] at hread
      nomatch hread
    · exact hset (hopen.resolve_left (absurd h))
    · exact h hreading
  rw [rejectsHeader, hheader, hnone]
  rfl

end SignalSound

theorem run_signalSound {events : List StreamEvent} (hrun : run codec events = some s) :
    SignalSound s := by
  apply Machine.run_invariant (fun _ s => SignalSound s) _ _ hrun
  · exact ⟨by simp [newClientStream], fun hset => absurd rfl hset⟩
  · intro past s event s' hpast hsignal hnext
    exact hsignal.step (run_closersSound hpast) (stepped_of_step hnext)

end ClientStream

/-- The read loop has not failed. -/
def ReadLoop.isAlive : ReadLoop → Bool
  | .failed _ => false
  | .done => false
  | _ => true

namespace ClientTransport

variable {codec : PayloadCodec} {t next : ClientTransport} {event : TransportEvent}

/-- The frames of the peer are well formed, and it sends at most one header frame for
a stream. -/
def peerConforms (t : ClientTransport) : TransportEvent → Bool
  | .decodeErr _ => false
  | .handle _ =>
    match t.reader with
    | .loaded stream (.header _) => t.streams[stream]?.all (!·.headerRead)
    | _ => true
  | _ => true

/-- The stream of a header frame is open, or nobody has signalled its header; the
meta frame handler of the caller returns no error. -/
def acceptsFrame (t : ClientTransport) : TransportEvent → Bool
  | .handle handler =>
    match t.reader with
    | .loaded _ .metaFrame => handler.isNone
    | .loaded stream (.header _) =>
      t.streams[stream]?.all fun s => s.state != .inactive || s.headerSig.isNone
    | _ => true
  | _ => true

/-- The read loop goes on, and the transport was not closed by it. -/
structure Isolated (events : List TransportEvent) (t : ClientTransport) : Prop where
  reader : t.reader.isAlive = true
  closed : .readerClose ∉ events

/-- A frame of a well-behaved peer does not fail the read loop. -/
theorem outcome_isAlive {stream : Nat} {frame : Frame} {s : ClientStream} {handler : Option Err}
    (hmeta : frame = .metaFrame → handler = none)
    (hheader : ∀ set, frame = .header set → s.rejectsHeader = false) :
    (frame.outcome stream s handler).isAlive := by
  cases frame with
  | metaFrame => rw [hmeta rfl]; rfl
  | header set => simp [Frame.outcome, hheader set rfl, ReadLoop.isAlive]
  | _ => rfl

theorem reader_isAlive_step (halive : t.reader.isAlive)
    (hreached : t.StreamsReached codec fun _ => True) (hpeer : t.peerConforms event)
    (haccepts : t.acceptsFrame event) (hstep : Stepped codec t event next) :
    next.reader.isAlive = true ∧ event ≠ .readerClose := by
  cases hstep with
  | storeStream | streamStep | sweep => exact ⟨halive, nofun⟩
  | writeHeader => exact ⟨by rw [reader_writeFrame]; exact halive, nofun⟩
  | streamWrite => exact ⟨by rw [setStream, reader_writeFrame]; exact halive, nofun⟩
  | close => exact ⟨by rw [reader_close]; exact halive, nofun⟩
  | decodeErr => nomatch hpeer
  | load | handled => exact ⟨rfl, nofun⟩
  | @handleMeta handler stream frame s hreader hstream hevent =>
    refine ⟨outcome_isAlive ?_ ?_, nofun⟩
    · rintro rfl
      simpa [acceptsFrame, hreader] using haccepts
    · rintro set rfl
      nomatch hevent
  | @handle handler stream frame event s s' hreader hstream hevent hs' =>
    refine ⟨outcome_isAlive ?_ ?_, nofun⟩
    · rintro rfl
      nomatch hevent
    · rintro set rfl
      cases hevent
      -- the stream has a run of its own, so the invariant of single streams applies
      obtain ⟨events, hrun, -⟩ := hreached stream s hstream
      cases ClientStream.stepped_of_step hs' with
      | readHeader hreading =>
        apply (ClientStream.run_signalSound hrun).rejectsHeader_eq_false hreading
        · simpa [peerConforms, hreader, hstream] using hpeer
        · simpa [acceptsFrame, hreader, hstream] using haccepts
  | readerClose hreader =>
    rw [hreader] at halive
    nomatch halive

theorem run_isolated {events : List TransportEvent}
    (hpeer : Machine.Meets (step codec) (peerConforms · · = true) newClientTransport events)
    (haccepts : Machine.Meets (step codec) (acceptsFrame · · = true) newClientTransport events)
    (hrun : run codec events = some t) : Isolated events t := by
  have hinvariant : Isolated events t ∧ t.StreamsReached codec fun _ => True := by
    apply Machine.run_invariant_of_meets
      (fun events t => Isolated events t ∧ t.StreamsReached codec fun _ => True) _ _ _
      (hpeer.and haccepts) hrun
    · exact ⟨⟨rfl, nofun⟩, by simp [StreamsReached, newClientTransport]⟩
    · rintro past t event next hpast ⟨hisolated, hreached⟩ ⟨hpeer, haccepts⟩ hnext
      have hstep := stepped_of_step hnext
      obtain ⟨halive, hevent⟩ :=
        reader_isAlive_step hisolated.reader hreached hpeer haccepts hstep
      refine ⟨⟨halive, ?_⟩, hreached.step (fun _ _ => trivial) (fun _ _ _ => trivial) trivial
        (fun _ _ => trivial) hstep⟩
      intro hmem
      rcases List.mem_append.mp hmem with hold | hnew
      · exact hisolated.closed hold
      · exact hevent (List.mem_singleton.mp hnew).symm
  exact hinvariant.1

/-- Two streams are open; a header frame for the second and a reset for the first
arrive while the first is cancelled. -/
def cancelDuringRead : List TransportEvent :=
  [.storeStream, .writeHeader 0 none, .storeStream, .writeHeader 1 none,
    .stream 0 (.close (some errBizCancel) true) none, .load 1 (.header true),
    .stream 0 (.closerStep 0 true) none, .handle none, .load 0 (.rst ⟨13, "rst", false⟩),
    .stream 0 (.closerStep 0 true) none, .handle none]

theorem run_isolated_cancel :
    ∃ t, run .accepting cancelDuringRead = some t ∧ t.reader = .closing 0 ∧
      Isolated cancelDuringRead t := by
  obtain ⟨t, hrun, hreader⟩ : ∃ t, run .accepting cancelDuringRead = some t ∧
      t.reader = .closing 0 := ⟨_, rfl, rfl⟩
  exact ⟨t, hrun, hreader, run_isolated (by decide) (by decide) hrun⟩

/-- Two streams are open. The first is cancelled and has signalled its header when
its header frame arrives. -/
def headerAfterCancel : List TransportEvent :=
  [TransportEvent.storeStream, .writeHeader 0 none, .storeStream, .writeHeader 1 none,
    .stream 0 (.close (some errBizCancel) true) none] ++
  List.replicate 3 (TransportEvent.stream 0 (.closerStep 0 true) none) ++
  [TransportEvent.load 0 (.header true), .handle none, .readerClose, .sweep 0 1,
    .stream 1 (.closerStep 0 true) none, .stream 1 (.closerStep 0 true) none]

/-- The header frame of the cancelled stream fails the read loop, which closes the
transport and the other stream. -/
theorem cancelled_stream_fails_readLoop :
    Machine.Meets (step .accepting) (peerConforms · · = true) newClientTransport
      headerAfterCancel ∧
    ∃ t, run .accepting headerAfterCancel = some t ∧ t.reader = .done ∧ t.closed = true ∧
      t.streams.map (·.state) = [.inactive, .inactive] ∧ ¬ Isolated headerAfterCancel t := by
  refine ⟨by decide, _, rfl, rfl, rfl, rfl, ?_⟩
  intro hisolated
  nomatch hisolated.reader

end ClientTransport

end Kitex.TTStream
