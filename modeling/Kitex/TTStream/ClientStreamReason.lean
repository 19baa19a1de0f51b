import Kitex.TTStream.ClientStreamReader

/-! # The close reason of a client stream

`closeStreamException` is there so that `SendMsg` returns the exception that
`RecvMsg` returns. A call of `close` stores its exception and takes the stream to
the inactive state in two steps, so the stored exception need not be the winner's.
The two agree in every run in which each winner finds its own exception stored, the
call that the receiver waits for does so too, and no exception is stored after the
stream was closed.
-/

namespace Kitex.TTStream

open Kitex.Container CloseStep

/-- What a send on a closed stream has returned is the stored reason. -/
def SendCall.Sound (state : StreamState) (stored : Option Err) : SendCall → Prop
  | .refused .inactive => state = .inactive
  | .returned .inactive result =>
    state = .inactive ∧ result = some (stored.getD errClosedSend)
  | _ => True

/-- A send finds the stream closed only if it is. -/
theorem SendCall.Sound.of_ne_inactive {state state' : StreamState} {stored stored' : Option Err}
    {call : SendCall} (hsound : call.Sound state stored) (hstate : state ≠ .inactive) :
    call.Sound state' stored' := by
  cases call with
  | start | writing => trivial
  | refused found =>
    cases found with
    | active => trivial
    | halfCloseLocal => trivial
    | inactive => exact absurd hsound hstate
  | returned found result =>
    cases found with
    | active => trivial
    | halfCloseLocal => trivial
    | inactive => exact absurd hsound.1 hstate

/-- The receiver waits for a call of `close`. -/
def RecvCall.awaits (k : Nat) : RecvCall → Bool
  | .callback closer _ => closer == k
  | _ => false

namespace ClientStream

variable {codec : PayloadCodec} {s t : ClientStream} {event : StreamEvent}

/-- The event does not part the stored reason from the winner's: an exception is
stored only while the stream is open, and the winner and the call that the receiver
waits for find their own exception stored. -/
def keepsReason (s : ClientStream) : StreamEvent → Bool
  | .closerStep k _ =>
    match s.closers[k]? with
    | none => true
    | some closer =>
      match closer.next with
      | .store =>
        s.state != .inactive || closer.exception.isNone || s.closeStreamException.isSome
      | .swap =>
        (s.state == .inactive && !s.recv.awaits k) ||
          s.closeStreamException == closer.exception
      | _ => true
  | _ => true

/-- Every send on the closed stream has returned what the receiver was given. At
the end of a stream without an exception it says that the stream is closed. -/
def SameReason (s : ClientStream) : Prop :=
  ∀ received, s.exception = some received → ∀ result, .returned .inactive result ∈ s.sends →
    result = some received ∨ (received = .eof ∧ result = some errClosedSend)

/-- The stored reason is the winner's, and senders and receiver get it. -/
structure ReasonSound (s : ClientStream) : Prop where
  stored : ∀ reason, s.closedWith = some reason → s.closeStreamException = reason
  received : ∀ e, s.exception = some e → s.state = .inactive ∧
    (s.closeStreamException = some e ∨ (e = .eof ∧ s.closeStreamException = none))
  sends : ∀ (call : Nat) progress, s.sends[call]? = some progress →
    progress.Sound s.state s.closeStreamException
  awaited : ∀ (k : Nat) closer, s.closers[k]? = some closer → ∀ ex, s.recv = .callback k ex →
    CloseStep.swap.rank < closer.next.rank → s.closeStreamException = some (.exception ex)

theorem ReasonSound.sameReason (hreason : ReasonSound s) : SameReason s := by
  intro received hreceived result hresult
  obtain ⟨call, hcall⟩ := List.mem_iff_getElem?.mp hresult
  obtain ⟨-, rfl⟩ := hreason.sends call _ hcall
  rcases (hreason.received received hreceived).2 with hstored | ⟨heof, hstored⟩
  · exact .inl (by rw [hstored]; rfl)
  · exact .inr ⟨heof, by rw [hstored]; rfl⟩

namespace ReasonSound

theorem concat (hreason : ReasonSound s) (exception : Option Err) (sendRst trailer : Bool) :
    ReasonSound (s.addCloser exception sendRst trailer) :=
  { hreason with
    awaited := forall_getElem?_concat hreason.awaited fun ex _ hlate =>
      absurd hlate (by simp [rank]) }

/-- The receiver starts to wait for a call that has not got to the swap. -/
theorem await (hreason : ReasonSound s) (ex : Exception) (sendRst : Bool) :
    ReasonSound { s.addCloser (some (.exception ex)) sendRst false with
      recv := .callback s.closers.length ex } := by
  refine { hreason with awaited := forall_getElem?_concat ?_ ?_ }
  · intro k closer hcloser ex' hcallback
    obtain ⟨rfl, -⟩ := RecvCall.callback.inj hcallback
    simp at hcloser
  · intro ex' _ hlate
    simp [rank] at hlate

variable {closer : Closer} {k : Nat}

variable (hreason : ReasonSound s)
include hreason

/-- A call goes on; at the swap the receiver that waits for it finds its reason. -/
theorem advance (hcloser : s.closers[k]? = some closer)
    {next : CloseStep} (hself : ∀ ex, s.recv = .callback k ex → swap.rank < next.rank →
      ¬ swap.rank < closer.next.rank →
      s.closeStreamException = some (.exception ex)) : ReasonSound (s.advance k next) := by
  refine { hreason with awaited := forall_getElem?_modify (fun k c _ => hreason.awaited k c) ?_ }
  intro found hfound ex hcallback hlate
  cases hcloser.symm.trans hfound
  by_cases hbefore : swap.rank < closer.next.rank
  · exact hreason.awaited k closer hcloser ex hcallback hbefore
  · exact hself ex hcallback hlate hbefore

theorem store (hwinner : WinnerSound s) (hsound : ClosersSound s.state s.closers)
    (hcloser : s.closers[k]? = some closer)
    (hkeeps : s.state = .inactive → closer.exception = none ∨ s.closeStreamException ≠ none) :
    ReasonSound ({ s with
      closeStreamException := s.closeStreamException.or closer.exception }.advance k .swap) := by
  by_cases hstate : s.state = .inactive
  · -- the stream is closed, and the stored reason stays
    have hsame : s.closeStreamException.or closer.exception = s.closeStreamException := by
      rcases hkeeps hstate with hnone | hsome
      · rw [hnone, Option.or_none]
      · obtain ⟨e, he⟩ := Option.ne_none_iff_exists'.mp hsome
        rw [he, Option.some_or]
    rw [hsame]
    exact hreason.advance hcloser fun ex _ hlate => absurd hlate (by decide)
  · -- nobody has looked at the stored reason yet
    refine ⟨?_, ?_, ?_, ?_⟩
    · intro reason hclosed
      nomatch (hwinner.closedWith_eq_none hstate).symm.trans hclosed
    · exact fun e he => absurd (hreason.received e he).1 hstate
    · exact fun call progress hcall => (hreason.sends call progress hcall).of_ne_inactive hstate
    · apply forall_getElem?_modify
      · intro other found _ hfound ex _ hlate
        exact absurd ((hsound.each other found hfound).inactive hlate) hstate
      · exact fun found _ ex _ hlate => absurd hlate (by simp [rank])

theorem win (hreceiver : ReceiverSound s) (hsound : ClosersSound s.state s.closers)
    (hcloser : s.closers[k]? = some closer) (hstate : s.state ≠ .inactive)
    (hkeeps : s.closeStreamException = closer.exception) :
    ReasonSound { s with
      state := .inactive
      closedWith := some closer.exception
      closers := s.closers.modify k fun closer =>
        { closer with old := some s.state, next := .signalHeader } } where
  stored reason hclosed := hkeeps.trans (Option.some.inj hclosed)
  received e he := absurd (hreason.received e he).1 hstate
  sends call progress hcall := (hreason.sends call progress hcall).of_ne_inactive hstate
  awaited := by
    apply forall_getElem?_modify
    · intro other found _ hfound ex _ hlate
      exact absurd ((hsound.each other found hfound).inactive hlate) hstate
    · intro found hfound ex hcallback _
      obtain ⟨closer', hcloser', hexception⟩ := hreceiver.callback k ex hcallback
      cases hcloser.symm.trans hcloser'
      exact hkeeps.trans hexception

theorem closerStep (hwinner : WinnerSound s) (hreceiver : ReceiverSound s)
    (hsound : ClosersSound s.state s.closers) {encoded : Bool}
    (hcloser : s.closers[k]? = some closer) (hkeeps : s.keepsReason (.closerStep k encoded))
    (hstep : CloserStepped s k closer t) : ReasonSound t := by
  simp only [keepsReason, hcloser] at hkeeps
  -- after the swap nothing is looked at any more
  have honward : ∀ next, swap.rank < closer.next.rank →
      ReasonSound (s.advance k next) :=
    fun next hlate => hreason.advance hcloser fun ex _ _ hearly => absurd hlate hearly
  cases hstep with
  | store hnext =>
    rw [hnext] at hkeeps
    apply hreason.store hwinner hsound hcloser
    intro hstate
    simpa [hstate, Option.isSome_iff_ne_none] using hkeeps
  | swapLost hnext hstate =>
    rw [hnext] at hkeeps
    apply hreason.advance hcloser
    intro ex hcallback _ _
    obtain ⟨closer', hcloser', hexception⟩ := hreceiver.callback k ex hcallback
    cases hcloser.symm.trans hcloser'
    rw [← hexception]
    simpa [hstate, hcallback, RecvCall.awaits] using hkeeps
  | swapWon hnext hstate =>
    rw [hnext] at hkeeps
    exact hreason.win hreceiver hsound hcloser hstate (by simpa [hstate] using hkeeps)
  | signalHeader _ hnext | signalTrailer _ hnext | readerWrite _ hnext _ | readerSkip hnext _
  | readerClose hnext | sendRst hnext | skipRst hnext | sendTrailer hnext _
  | skipTrailer hnext _ | callbacks hnext | delete hnext | put hnext =>
    exact { honward _ (by rw [hnext]; decide) with }

/-- A send has got on. -/
theorem setSend (call : Nat) {progress : SendCall}
    (hprogress : progress.Sound s.state s.closeStreamException) :
    ReasonSound (s.setSend call progress) :=
  { hreason with
    sends := forall_getElem?_modify (fun other found _ => hreason.sends other found)
      fun _ _ => hprogress }

/-- The receiver is not waiting for a call. -/
theorem settle (recv : RecvCall)
    (hrecv : ∀ k, recv.awaits k = false) : ReasonSound { s with recv := recv } := by
  refine { hreason with awaited := fun k _ _ ex hcallback => ?_ }
  have hawaits := hrecv k
  rw [show recv = .callback k ex from hcallback] at hawaits
  simp [RecvCall.awaits] at hawaits

/-- The receiver gets the stored reason. -/
theorem fail {e : Err} (hstate : s.state = .inactive) (hstored : s.closeStreamException = some e ∨
      (e = .eof ∧ s.closeStreamException = none)) : ReasonSound (s.fail e) := by
  refine { hreason.settle .idle fun _ => rfl with received := ?_ }
  intro e' he'
  cases he'
  exact ⟨hstate, hstored⟩

theorem deliver (hwinner : WinnerSound s)
    (hmessages : MessagesSound s) {msg : StreamMsg} {rest : List StreamMsg}
    (hqueue : s.pipe.queue = msg :: rest) : ReasonSound (s.deliver codec rest msg) := by
  cases msg with
  | payload bytes => exact { hreason.settle .idle fun _ => rfl with }
  | exception e =>
    have hclosed := hmessages.message e (by rw [hqueue]; exact List.mem_cons_self)
    have hstate := hwinner.closed.mp (by rw [hclosed]; rfl)
    exact { hreason.fail hstate (.inl (hreason.stored _ hclosed)) with }

/-- The receiver finds the end of the stream only if there is no reason. -/
theorem recvEof (hwinner : WinnerSound s)
    (hmessages : MessagesSound s) (hreceiver : ReceiverSound s) (hrecv : s.recv = .draining)
    (hqueue : s.pipe.queue = []) : ReasonSound (s.fail .eof) := by
  have hclosed := hmessages.closedWith_of_draining hreceiver hrecv hqueue
  have hstate := hwinner.closed.mp (by rw [hclosed]; rfl)
  exact hreason.fail hstate (.inr ⟨rfl, hreason.stored _ hclosed⟩)

theorem step (hwinner : WinnerSound s) (hmessages : MessagesSound s)
    (hreceiver : ReceiverSound s) (hsound : ClosersSound s.state s.closers)
    (hkeeps : s.keepsReason event) (hstep : Stepped codec s event t) : ReasonSound t := by
  cases hstep with
  | close => exact hreason.concat _ _ _
  | closer hcloser hstep =>
    exact hreason.closerStep hwinner hreceiver hsound hcloser hkeeps hstep
  | sendMsg =>
    exact { hreason with sends := forall_getElem?_concat hreason.sends trivial }
  | sendLoad hcall =>
    apply hreason.setSend
    split
    next => trivial
    next => cases hstate : s.state <;> trivial
  | @sendRefused call state _ _ hcall =>
    apply hreason.setSend
    cases state with
    | active => trivial
    | halfCloseLocal => trivial
    | inactive => exact ⟨hreason.sends call _ hcall, rfl⟩
  | sendEncode => exact hreason.setSend _ (by trivial)
  | @sendWrite call write hcall =>
    have hsend : SendCall.Sound s.state s.closeStreamException (.returned .active write) :=
      trivial
    exact { hreason.setSend call hsend with }
  | closeSendWon hcall hstate =>
    have hopen : s.state ≠ .inactive := by rw [hstate]; exact nofun
    refine { hreason with received := ?_, sends := ?_ }
    · exact fun e he => absurd (hreason.received e he).1 hopen
    · exact fun call progress hcall => (hreason.sends call progress hcall).of_ne_inactive hopen
  | recvAgain | recvTimeout | recvReturn => exact { hreason.settle .idle fun _ => rfl with }
  | recvStart => exact hreason.settle .reading fun _ => rfl
  | recvMsg hrecv hqueue => exact hreason.deliver hwinner hmessages hqueue
  | recvEmpty => exact hreason.settle .checking fun _ => rfl
  | recvEof hrecv hqueue => exact hreason.recvEof hwinner hmessages hreceiver hrecv hqueue
  | recvCheck =>
    apply hreason.settle
    split <;> exact fun _ => rfl
  | recvWake => exact { hreason.settle .reading fun _ => rfl with }
  | recvCtxDone | recvTimeoutClose => exact hreason.await _ _
  | @recvFail k ex closer hrecv hcloser hnext =>
    have hlate : swap.rank < closer.next.rank := by rw [hnext]; decide
    exact hreason.fail ((hsound.each _ _ hcloser).inactive hlate)
      (.inl (hreason.awaited _ _ hcloser _ hrecv hlate))
  | readTrailer | readRst => exact { hreason.concat _ _ _ with }
  | _ => exact { hreason with }

end ReasonSound

theorem run_sameReason {events : List StreamEvent}
    (hkeeps : Machine.Meets (step codec) (keepsReason · · = true) newClientStream events)
    (hrun : run codec events = some s) : SameReason s := by
  have hreason : ReasonSound s := by
    apply Machine.run_invariant_of_meets (fun _ s => ReasonSound s) _ _ _ hkeeps hrun
    · refine ⟨?_, ?_, ?_, ?_⟩ <;> simp [newClientStream]
    · intro past s event t hpast hreason hkeeps hnext
      exact hreason.step (run_winnerSound hpast) (run_messagesSound hpast)
        (run_receiverSound hpast) (run_closersSound hpast) hkeeps (stepped_of_step hnext)
  exact hreason.sameReason

/-- The caller receives and then sends on a closed stream. -/
def recvThenSend : List StreamEvent :=
  [.recv, .recvRead, .sendMsg, .sendStep 0 none none, .sendStep 0 none none]

/-- The peer resets the stream. -/
def resetStream : List StreamEvent :=
  [StreamEvent.readRst ⟨13, "rst", false⟩] ++ closeThrough 0 ++ recvThenSend

/-- The receiver and the send get the reset. -/
theorem run_sameReason_rst : ∃ s, run .accepting resetStream = some s ∧
      s.exception = some (.exception ⟨13, "rst", false⟩) ∧
      s.sends = [.returned .inactive (some (.exception ⟨13, "rst", false⟩))] ∧
      SameReason s := by
  obtain ⟨s, hrun, hexception, hsends⟩ : ∃ s, run .accepting resetStream = some s ∧
      s.exception = some (.exception ⟨13, "rst", false⟩) ∧
      s.sends = [.returned .inactive (some (.exception ⟨13, "rst", false⟩))] :=
    ⟨_, rfl, rfl, rfl⟩
  exact ⟨s, hrun, hexception, hsends, run_sameReason (by decide) hrun⟩

/-- The caller cancels the stream and stores its exception first, but the reset that
arrives wins. -/
def resetDuringCancel : List StreamEvent :=
  [StreamEvent.close (some errBizCancel) true, .closerStep 0 true,
    .readRst ⟨13, "rst", false⟩] ++ closeThrough 1 ++ [StreamEvent.closerStep 0 true] ++
    recvThenSend

/-- The receiver gets the reset, and the send the cancellation. -/
theorem stored_reason_differs : ∃ s, run .accepting resetDuringCancel = some s ∧
      s.exception = some (.exception ⟨13, "rst", false⟩) ∧
      s.sends = [.returned .inactive (some errBizCancel)] ∧ ¬ SameReason s := by
  refine ⟨_, rfl, rfl, rfl, ?_⟩
  intro hsame
  rcases hsame _ rfl _ (List.mem_singleton_self _) with h | h
  · cases h
  · cases h.1

end ClientStream

end Kitex.TTStream
