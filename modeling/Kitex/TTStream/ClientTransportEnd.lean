import Kitex.TTStream.ClientTransport

/-! # The end of a stream and the end of its connection

`RecvMsg` reports `io.EOF` when the stream was closed without an exception, and
`WriteFrame` on a closed transport returns the reason of the close. A transport that
is closed without a reason, or with `io.EOF` itself, closes its streams the same
way, and its receivers take the end of the connection for the end of the stream.
Every other reason is told to receivers and senders.
-/

namespace Kitex.TTStream

open Kitex.Container

/-- A close from outside has a reason other than the end of a stream. -/
def StreamEvent.Reasoned : StreamEvent → Prop
  | .close exception _ => exception ≠ none ∧ exception ≠ some .eof
  | _ => True

namespace ClientStream

variable {codec : PayloadCodec} {s s' : ClientStream} {event : StreamEvent} {e : Err}

/-- A close reason is nil only after a trailer frame without an exception. -/
def Ends (finished : Bool) (reason : Option Err) : Prop :=
  reason ≠ some .eof ∧ (reason = none → finished = true)

theorem ends_exception (finished : Bool) (ex : Exception) :
    Ends finished (some (.exception ex)) := ⟨nofun, nofun⟩

/-- Whatever ends the stream for the receiver, `io.EOF` is a trailer frame. -/
structure EndSound (s : ClientStream) : Prop where
  closers : ∀ (k : Nat) closer, s.closers[k]? = some closer → Ends s.finished closer.exception
  closedWith : ∀ reason, s.closedWith = some reason → Ends s.finished reason
  exception : s.exception = some .eof → s.finished = true
  reported : .eof ∈ s.reported → s.finished = true

namespace EndSound

variable (hend : EndSound s)
include hend

theorem concat {exception : Option Err} (hreason : Ends s.finished exception)
    (sendRst trailer : Bool) : EndSound (s.addCloser exception sendRst trailer) :=
  { hend with
    closers := forall_getElem?_concat hend.closers hreason }

theorem mono {finished : Bool} (hfinished : s.finished = true → finished = true) :
    EndSound { s with finished := finished } where
  closers k closer hcloser := (hend.closers k closer hcloser).imp_right (hfinished ∘ ·)
  closedWith reason hclosed := (hend.closedWith reason hclosed).imp_right (hfinished ∘ ·)
  exception := hfinished ∘ hend.exception
  reported := hfinished ∘ hend.reported

theorem advance (k : Nat) (next : CloseStep) : EndSound (s.advance k next) :=
  { hend with
    closers := forall_getElem?_modify (fun other found _ => hend.closers other found)
      (hend.closers k) }

theorem closerStep {k : Nat} {closer : Closer}
    (hcloser : s.closers[k]? = some closer) (hstep : CloserStepped s k closer s') :
    EndSound s' := by
  cases hstep with
  | swapWon =>
    refine { hend with closers := ?_, closedWith := ?_ }
    · exact forall_getElem?_modify (fun other found _ => hend.closers other found)
        (hend.closers k)
    · intro reason hclosed
      cases hclosed
      exact hend.closers k closer hcloser
  | _ => exact { hend.advance k _ with }

/-- `RecvMsg` returns an error. -/
theorem report (he : e = .eof → s.finished = true) : EndSound (s.report e) :=
  { hend with
    reported heof := by
      rcases List.mem_append.mp heof with hold | hnew
      · exact hend.reported hold
      · exact he (List.mem_singleton.mp hnew).symm }

theorem fail (he : e = .eof → s.finished = true) : EndSound (s.fail e) :=
  { hend with
    exception heof := he (Option.some.inj heof)
    reported := (hend.report he).reported }

theorem deliver (hmessages : MessagesSound s) {msg : StreamMsg}
    {rest : List StreamMsg} (hqueue : s.pipe.queue = msg :: rest) :
    EndSound (s.deliver codec rest msg) := by
  cases msg with
  | payload bytes =>
    refine { hend with reported := ?_ }
    intro heof
    rcases List.mem_append.mp heof with hold | hnew
    · exact hend.reported hold
    · exact absurd (Option.mem_toList.mp hnew) (codec.decode_ne_eof bytes)
  | exception e =>
    -- an exception in the queue is the winner's reason
    have hclosed := hmessages.message e (by rw [hqueue]; exact List.mem_cons_self)
    have he : e = .eof → s.finished = true := by
      rintro rfl
      exact absurd rfl (hend.closedWith _ hclosed).1
    exact { hend.fail he with }

theorem step (hmessages : MessagesSound s) (hreceiver : ReceiverSound s)
    (hreasoned : event.Reasoned) (hstep : Stepped codec s event s') : EndSound s' := by
  have hexception := ends_exception s.finished
  cases hstep with
  | close exception sendRst =>
    exact hend.concat ⟨hreasoned.2, fun hnone => absurd hnone hreasoned.1⟩ _ _
  | closer hcloser hstep => exact hend.closerStep hcloser hstep
  | recvAgain hrecv hagain =>
    exact hend.report fun heof => hend.exception (heof ▸ hagain)
  | recvMsg hrecv hqueue => exact hend.deliver hmessages hqueue
  | recvEof hrecv hqueue =>
    -- a reason would be in the queue, so the winner had none
    have hclosed := hmessages.closedWith_of_draining hreceiver hrecv hqueue
    exact hend.fail fun _ => (hend.closedWith _ hclosed).2 rfl
  | recvCtxDone | recvTimeoutClose | readRst => exact { hend.concat (hexception _) _ _ with }
  | recvTimeout | recvReturn => exact hend.report nofun
  | recvFail => exact hend.fail nofun
  | @readTrailer exception trailer hreading =>
    have hends : Ends (s.finished || exception.isNone) (exception.map TrailerErr.toErr) := by
      cases exception with
      | none => exact ⟨nofun, fun _ => Bool.or_true _⟩
      | some e => cases e <;> exact ⟨nofun, nofun⟩
    have hfinished : s.finished = true → (s.finished || exception.isNone) = true := by
      intro h
      rw [h, Bool.true_or]
    exact { (hend.mono hfinished).concat hends false trailer with }
  | _ => exact { hend with }

end EndSound

/-- A stream whose closes from outside have a reason reports its end only after a
trailer frame. -/
theorem Reached.endSound (hreached : s.Reached codec StreamEvent.Reasoned) : EndSound s := by
  obtain ⟨events, hrun, hall⟩ := hreached
  have hinvariant : (∀ event ∈ events, event.Reasoned) → EndSound s := by
    apply Machine.run_invariant (fun events s => (∀ event ∈ events, event.Reasoned) → EndSound s)
      _ _ hrun
    · exact fun _ => ⟨by simp [newClientStream], nofun, nofun, by simp [newClientStream]⟩
    · intro past s event s' hpast hend hnext hall
      have hpastEnd := hend fun other hother => hall other (List.mem_append_left _ hother)
      exact hpastEnd.step (run_messagesSound hpast) (run_receiverSound hpast)
        (hall event (by simp)) (stepped_of_step hnext)
  exact hinvariant hall

end ClientStream

namespace ClientTransport

variable {codec : PayloadCodec} {t next : ClientTransport} {event : TransportEvent}

/-- A close that takes effect has a reason, which is not the end of a stream. -/
def givesReason (t : ClientTransport) : TransportEvent → Bool
  | .close exception => t.closed || (exception.isSome && exception != some .eof)
  | .readerClose => t.closed || t.reader != .failed .eof
  | _ => true

/-- The end of the connection is not taken for the end of a stream. -/
structure EndReported (t : ClientTransport) : Prop where
  recvMsg : ∀ s ∈ t.streams, .eof ∈ s.reported → s.finished = true
  writeFrame : t.closed = true → ∀ flush, (t.writeFrame flush).2 ≠ none

/-- The ticker closes a stream with an exception. -/
theorem reasoned_of_isLocal {event : StreamEvent} (hlocal : event.isLocal) :
    event.Reasoned := by
  cases event with
  | close exception sendRst =>
    match exception with
    | some (.exception ex) => exact ⟨nofun, nofun⟩
  | _ => trivial

theorem reasoned_of_event {frame : Frame} {event : StreamEvent}
    (hevent : frame.event = some event) : event.Reasoned := by
  cases frame <;> cases hevent <;> trivial

/-- The reasons with which the transport was closed. -/
structure ReasonsSound (t : ClientTransport) : Prop where
  sweeps : ∀ reason ∈ t.sweeps, reason ≠ none ∧ reason ≠ some .eof
  closedErr : t.closed = true → t.closedErr ≠ none

namespace ReasonsSound

theorem close (hreasons : ReasonsSound t) {exception : Option Err}
    (hreason : t.closed = true ∨ (exception ≠ none ∧ exception ≠ some .eof)) :
    ReasonsSound (t.close exception) := by
  unfold ClientTransport.close
  split
  next => exact hreasons
  next hopen =>
    have hreason := hreason.resolve_left hopen
    refine ⟨?_, fun _ => hreason.1⟩
    intro reason hmem
    rcases List.mem_append.mp hmem with hold | hnew
    · exact hreasons.sweeps reason hold
    · exact List.mem_singleton.mp hnew ▸ hreason

theorem writeFrame (hreasons : ReasonsSound t) (flush : Option Exception) :
    ReasonsSound (t.writeFrame flush).1 := by
  rcases t.writeFrame_fst flush with h | ⟨ex, h⟩
  · rw [h]
    exact hreasons
  · rw [h]
    exact hreasons.close (.inr ⟨nofun, nofun⟩)

theorem step (hreasons : ReasonsSound t) (hgives : t.givesReason event)
    (hstep : Stepped codec t event next) : ReasonsSound next := by
  cases hstep with
  | writeHeader | streamWrite => exact { hreasons.writeFrame _ with }
  | close exception =>
    apply hreasons.close
    simpa [givesReason, Option.isSome_iff_ne_none] using hgives
  | @readerClose e hreader =>
    have hclose : ReasonsSound (t.close (some e)) := by
      apply hreasons.close
      simpa [givesReason, hreader] using hgives
    exact { hclose with }
  | _ => exact { hreasons with }

end ReasonsSound

theorem EndReported.of_sound (hreasons : ReasonsSound t)
    (hreached : t.StreamsReached codec StreamEvent.Reasoned) : EndReported t where
  recvMsg s hmem := by
    obtain ⟨stream, hstream⟩ := List.mem_iff_getElem?.mp hmem
    exact (hreached stream s hstream).endSound.reported
  writeFrame hclosed flush := by
    unfold ClientTransport.writeFrame
    rw [if_pos hclosed]
    exact hreasons.closedErr hclosed

theorem run_endReported {events : List TransportEvent}
    (hgives : Machine.Meets (step codec) (givesReason · · = true) newClientTransport events)
    (hrun : run codec events = some t) : EndReported t := by
  have hsound : ReasonsSound t ∧ t.StreamsReached codec StreamEvent.Reasoned := by
    apply Machine.run_invariant_of_meets
      (fun _ t => ReasonsSound t ∧ t.StreamsReached codec StreamEvent.Reasoned) _ _ _ hgives hrun
    · exact ⟨⟨by simp [newClientTransport], nofun⟩,
        by simp [StreamsReached, newClientTransport]⟩
    · rintro past t event next hpast ⟨hreasons, hreached⟩ hgives hnext
      have hstep := stepped_of_step hnext
      exact ⟨hreasons.step hgives hstep, hreached.step (fun _ => reasoned_of_isLocal)
        (fun _ _ => reasoned_of_event) trivial hreasons.sweeps hstep⟩
  exact .of_sound hsound.1 hsound.2

/-- Call number `k` of `close` on a stream runs to its end, having won. -/
def closeStream (stream k : Nat) : List TransportEvent :=
  List.replicate 11 (.stream stream (.closerStep k true) none)

/-- The caller of a stream calls `RecvMsg` and finds the pipe closed and empty. -/
def recvEnd (stream : Nat) : List TransportEvent :=
  [.stream stream .recv none, .stream stream .recvRead none, .stream stream .recvCheck none,
    .stream stream .recvRead none]

/-- A trailer frame ends a stream, and then the connection breaks. -/
def trailerThenClose : List TransportEvent :=
  [TransportEvent.storeStream, .writeHeader 0 none, .load 0 (.trailer none true),
    .handle none] ++ closeStream 0 0 ++ [TransportEvent.handled] ++ recvEnd 0 ++
    [TransportEvent.close (some (.other "connection has been closed"))]

theorem run_endReported_trailer :
    ∃ t, run .accepting trailerThenClose = some t ∧ t.streams.map (·.reported) = [[.eof]] ∧
      t.closed = true ∧ EndReported t := by
  obtain ⟨t, hrun, hreported, hclosed⟩ : ∃ t, run .accepting trailerThenClose = some t ∧
      t.streams.map (·.reported) = [[.eof]] ∧ t.closed = true := ⟨_, rfl, rfl, rfl⟩
  exact ⟨t, hrun, hreported, hclosed, run_endReported (by decide) hrun⟩

/-- The pool closes a transport without a reason. -/
def closeWithoutReason : List TransportEvent :=
  [TransportEvent.storeStream, .writeHeader 0 none, .close none, .sweep 0 0] ++
    closeStream 0 0 ++ recvEnd 0

/-- The receiver of the stream is told that the stream has ended, and `WriteFrame`
succeeds. -/
theorem close_without_reason_reports_eof :
    ∃ t, run .accepting closeWithoutReason = some t ∧ t.streams.map (·.reported) = [[.eof]] ∧
      t.streams.map (·.finished) = [false] ∧ t.closed = true ∧
      (t.writeFrame none).2 = none ∧ ¬ EndReported t := by
  refine ⟨_, rfl, rfl, rfl, rfl, rfl, ?_⟩
  intro hend
  exact hend.writeFrame rfl none rfl

end ClientTransport

end Kitex.TTStream
