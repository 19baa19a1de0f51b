import Kitex.TTStream.ClientStreamClose

/-! # What the receiver of a client stream gets

The winner among the calls of `close` writes its exception to the pipe before it
closes the pipe. So a receiver that finds the pipe closed and the queue empty has
met the exception before, or there was none.
-/

namespace Kitex.TTStream

open Kitex.Container

namespace ClientStream

variable {codec : PayloadCodec} {s t : ClientStream} {event : StreamEvent}
  {events : List StreamEvent} {closer : Closer} {rest : List StreamMsg} {k : Nat} {msg : StreamMsg}

/-! ## The reason of the winner -/

/-- The close reason is known from the swap on, and it is the winner's. -/
structure WinnerSound (s : ClientStream) : Prop where
  closed : s.closedWith.isSome = true ↔ s.state = .inactive
  reason : ∀ (k : Nat) closer, s.closers[k]? = some closer → closer.old ≠ none →
    s.closedWith = some closer.exception

namespace WinnerSound

variable (hwinner : WinnerSound s)
include hwinner

theorem concat (exception : Option Err) (sendRst trailer : Bool) :
    WinnerSound (s.addCloser exception sendRst trailer) where
  closed := hwinner.closed
  reason := forall_getElem?_concat hwinner.reason fun hold => absurd rfl hold

/-- A call that goes on keeps what it was called with. -/
theorem advance (k : Nat) (next : CloseStep) : WinnerSound (s.advance k next) where
  closed := hwinner.closed
  reason := forall_getElem?_modify (fun other found _ => hwinner.reason other found)
    (hwinner.reason k)

theorem closedWith_eq_none (hstate : s.state ≠ .inactive) : s.closedWith = none := by
  cases hclosed : s.closedWith with
  | none => rfl
  | some reason => exact absurd (hwinner.closed.mp (by rw [hclosed]; rfl)) hstate

theorem closerStep (hcloser : s.closers[k]? = some closer) (hstep : CloserStepped s k closer t) :
    WinnerSound t := by
  cases hstep with
  | swapWon hnext hstate =>
    refine ⟨iff_of_true rfl rfl, forall_getElem?_modify ?_ ?_⟩
    · -- nobody had won before
      intro other found _ hfound hold
      have hnone := hwinner.closedWith_eq_none hstate
      nomatch hnone.symm.trans (hwinner.reason other found hfound hold)
    · intro found hfound _
      cases hcloser.symm.trans hfound
      rfl
  | _ => exact { hwinner.advance k _ with }

theorem step (hstep : Stepped codec s event t) : WinnerSound t := by
  cases hstep with
  | close => exact hwinner.concat _ _ _
  | closer hcloser hstep => exact hwinner.closerStep hcloser hstep
  | closeSendWon hcall hstate =>
    refine { hwinner with closed := ?_ }
    change s.closedWith.isSome = true ↔ _
    rw [hwinner.closed, hstate]
    exact iff_of_false nofun nofun
  | recvCtxDone | recvTimeoutClose | readTrailer | readRst => exact { hwinner.concat _ _ _ with }
  | _ => exact { hwinner with }

end WinnerSound

theorem run_winnerSound (hrun : run codec events = some s) : WinnerSound s :=
  Machine.run_invariant (fun _ s => WinnerSound s)
    ⟨by simp [newClientStream], by simp [newClientStream]⟩
    (fun _ _ _ _ _ hwinner hnext => hwinner.step (stepped_of_step hnext)) hrun

/-! ## The messages -/

/-- The end of the stream is known to the receiver: there was no exception, or it
is in the queue, or the receiver has got one. -/
def Delivered (s : ClientStream) : Prop :=
  s.closedWith = some none ∨ (∃ e, .exception e ∈ s.pipe.queue) ∨ s.exception ≠ none

/-- Only the winner writes an exception, and it does so before it closes the pipe. -/
structure MessagesSound (s : ClientStream) : Prop where
  message : ∀ e, .exception e ∈ s.pipe.queue → s.closedWith = some (some e)
  written : passed .readerWrite s.closers ≠ 0 → s.Delivered
  closed : s.pipe.closed = true → s.Delivered

/-- What the receiver takes out of the queue it gets. -/
theorem Delivered.deliver (hdelivered : s.Delivered) (hqueue : s.pipe.queue = msg :: rest) :
    (s.deliver codec rest msg).Delivered := by
  rcases hdelivered with hnone | ⟨e, hmem⟩ | hexception
  · exact .inl hnone
  · rw [hqueue] at hmem
    cases hmem with
    | head => exact .inr (.inr nofun)
    | tail _ hmem => exact .inr (.inl ⟨e, hmem⟩)
  · refine .inr (.inr ?_)
    cases msg with
    | payload bytes => exact hexception
    | exception e => exact nofun

namespace MessagesSound

variable (hmessages : MessagesSound s)
include hmessages

theorem concat (exception : Option Err) (sendRst trailer : Bool) :
    MessagesSound (s.addCloser exception sendRst trailer) :=
  { hmessages with
    written := (passed_concat CloseStep.readerWrite exception sendRst trailer).symm ▸
      hmessages.written }

theorem closerStep (hwinner : WinnerSound s) (hsound : ClosersSound s.state s.closers)
    (hcloser : s.closers[k]? = some closer) (hstep : CloserStepped s k closer t) :
    MessagesSound t := by
  have hwon := (hsound.each k closer hcloser).old_ne_none
  have hpassed : passed .readerWrite t.closers = _ :=
    hstep.moved.passed_eq hsound hcloser (by decide)
  -- only the write and the close of the reader, and the swap, change what is stated
  cases hstep with
  | swapWon hnext hstate =>
    have hnone := hwinner.closedWith_eq_none hstate
    have hkeep : s.Delivered → s.exception ≠ none := by
      rintro (hclosed | ⟨e, hmem⟩ | hexception)
      · nomatch hnone.symm.trans hclosed
      · nomatch hnone.symm.trans (hmessages.message e hmem)
      · exact hexception
    refine ⟨?_, ?_, ?_⟩
    · intro e hmem
      nomatch hnone.symm.trans (hmessages.message e hmem)
    · rw [hpassed, hnext]
      exact fun hwritten => .inr (.inr (hkeep (hmessages.written hwritten)))
    · exact fun hclosed => .inr (.inr (hkeep (hmessages.closed hclosed)))
  | readerWrite e hnext hexception =>
    have hmem : StreamMsg.exception e ∈ (s.pipe.write (.exception e)).queue := by
      simp [Pipe.write]
    refine ⟨?_, fun _ => .inr (.inl ⟨e, hmem⟩), fun _ => .inr (.inl ⟨e, hmem⟩)⟩
    intro e' hmem'
    rcases List.mem_append.mp hmem' with hold | hnew
    · exact hmessages.message e' hold
    · obtain ⟨⟩ := List.mem_singleton.mp hnew
      rw [← hexception]
      exact hwinner.reason k closer hcloser (hwon (by rw [hnext]; decide) (by simp [hnext]))
  | readerSkip hnext hexception =>
    have hreason := hwinner.reason k closer hcloser
      (hwon (by rw [hnext]; decide) (by simp [hnext]))
    rw [hexception] at hreason
    exact ⟨hmessages.message, fun _ => .inl hreason, fun _ => .inl hreason⟩
  | readerClose hnext =>
    have hdelivered : s.Delivered := by
      apply hmessages.written
      apply passed_ne_zero hcloser (hwon (by rw [hnext]; decide) (by simp [hnext]))
      rw [hnext]
      decide
    have hclosed : Delivered ({ s with pipe := s.pipe.close }.advance k .rst) := by
      unfold Delivered at hdelivered ⊢
      simpa [ClientStream.advance] using hdelivered
    refine ⟨?_, fun _ => hclosed, fun _ => hclosed⟩
    intro e hmem
    exact hmessages.message e (s.pipe.queue_close ▸ hmem)
  | store hnext | swapLost hnext _ | signalHeader _ hnext | signalTrailer _ hnext
  | sendRst hnext | skipRst hnext | sendTrailer hnext _ | skipTrailer hnext _
  | callbacks hnext | delete hnext | put hnext =>
    refine ⟨hmessages.message, ?_, hmessages.closed⟩
    rw [hpassed, hnext]
    exact hmessages.written

theorem deliver (hqueue : s.pipe.queue = msg :: rest) :
    MessagesSound (s.deliver codec rest msg) where
  message e hmem := hmessages.message e (hqueue ▸ List.mem_cons_of_mem msg hmem)
  written hwritten := (hmessages.written hwritten).deliver hqueue
  closed hclosed := (hmessages.closed hclosed).deliver hqueue

/-- An exception of the receiver ends the stream for it. -/
theorem fail (e : Err) : MessagesSound (s.fail e) where
  message := hmessages.message
  written _ := .inr (.inr nofun)
  closed _ := .inr (.inr nofun)

theorem readData (payload : Payload) :
    MessagesSound { s with pipe := s.pipe.write (.payload payload) } := by
  have hmem : ∀ e, .exception e ∈ (s.pipe.write (.payload payload)).queue ↔
      .exception e ∈ s.pipe.queue := by simp [Pipe.write]
  refine ⟨fun e he => hmessages.message e ((hmem e).mp he), fun hwritten => ?_, fun hclosed => ?_⟩
  · simpa only [Delivered, hmem] using hmessages.written hwritten
  · simpa only [Delivered, hmem] using hmessages.closed hclosed

theorem step (hwinner : WinnerSound s)
    (hsound : ClosersSound s.state s.closers) (hstep : Stepped codec s event t) :
    MessagesSound t := by
  cases hstep with
  | close => exact hmessages.concat _ _ _
  | closer hcloser hstep => exact hmessages.closerStep hwinner hsound hcloser hstep
  | recvMsg hrecv hqueue => exact hmessages.deliver hqueue
  | recvEof | recvFail => exact hmessages.fail _
  | readData => exact hmessages.readData _
  | recvCtxDone | recvTimeoutClose | readTrailer | readRst => exact { hmessages.concat _ _ _ with }
  | _ => exact { hmessages with }

end MessagesSound

theorem run_messagesSound (hrun : run codec events = some s) : MessagesSound s := by
  apply Machine.run_invariant (fun _ s => MessagesSound s) _ _ hrun
  · exact ⟨by simp [newClientStream, Pipe.newPipe], nofun, nofun⟩
  · intro past s event t hpast hmessages hnext
    exact hmessages.step (run_winnerSound hpast) (run_closersSound hpast) (stepped_of_step hnext)

/-! ## The receiver -/

/-- Where the receiver may be. -/
structure ReceiverSound (s : ClientStream) : Prop where
  exception : s.recv ≠ .idle → s.exception = none
  draining : s.recv = .draining → s.pipe.closed = true
  callback : ∀ k ex, s.recv = .callback k ex →
    ∃ closer, s.closers[k]? = some closer ∧ closer.exception = some (.exception ex)

namespace ReceiverSound

/-- A receiver that has returned is nowhere. -/
theorem idle (hrecv : s.recv = .idle) : ReceiverSound s where
  exception hne := absurd hrecv hne
  draining hdraining := nomatch hrecv.symm.trans hdraining
  callback _ _ hcallback := nomatch hrecv.symm.trans hcallback

variable (hreceiver : ReceiverSound s)
include hreceiver

/-- The receiver waits for the call that it has made. -/
theorem close (hrecv : s.recv = .waiting) (ex : Exception)
    (sendRst : Bool) : ReceiverSound { s.addCloser (some (.exception ex)) sendRst false with
      recv := .callback s.closers.length ex } where
  exception _ := hreceiver.exception (by rw [hrecv]; exact nofun)
  draining := nofun
  callback k ex' hcallback := by
    obtain ⟨rfl, rfl⟩ := RecvCall.callback.inj hcallback
    exact ⟨_, List.getElem?_concat_length, rfl⟩

theorem concat (exception : Option Err) (sendRst trailer : Bool) :
    ReceiverSound (s.addCloser exception sendRst trailer) :=
  { hreceiver with
    callback k ex hcallback := by
      obtain ⟨closer, hcloser, hexception⟩ := hreceiver.callback k ex hcallback
      exact ⟨closer, List.getElem?_append_left (List.getElem?_eq_some_iff.mp hcloser).1 ▸ hcloser,
        hexception⟩ }

theorem modify (k : Nat) (change : Closer → Closer)
    (hchange : ∀ closer, (change closer).exception = closer.exception) :
    ReceiverSound { s with closers := s.closers.modify k change } :=
  { hreceiver with
    callback k' ex hcallback := by
      obtain ⟨closer, hcloser, hexception⟩ := hreceiver.callback k' ex hcallback
      refine ⟨if k = k' then change closer else closer, ?_, ?_⟩
      · simp [List.getElem?_modify, hcloser]
      · split
        next => rw [hchange, hexception]
        next => exact hexception }

theorem closerStep (hstep : CloserStepped s k closer t) : ReceiverSound t := by
  have hadvance := fun next => hreceiver.modify k (fun closer => { closer with next := next })
    fun _ => rfl
  cases hstep with
  | swapWon =>
    have hwin := hreceiver.modify k
      (fun closer => { closer with old := some s.state, next := .signalHeader }) fun _ => rfl
    exact { hwin with }
  | readerClose => exact { hadvance _ with draining := fun _ => s.pipe.closed_close }
  | _ => exact { hadvance _ with }

theorem step (hstep : Stepped codec s event t) : ReceiverSound t := by
  cases hstep with
  | close => exact hreceiver.concat _ _ _
  | closer hcloser hstep => exact hreceiver.closerStep hstep
  | recvAgain | recvMsg | recvEof | recvTimeout | recvReturn | recvFail => exact idle rfl
  | recvStart hrecv hexception => exact ⟨fun _ => hexception, nofun, nofun⟩
  | recvEmpty hrecv | recvWake hrecv =>
    exact ⟨fun _ => hreceiver.exception (by rw [hrecv]; exact nofun), nofun, nofun⟩
  | recvCheck hrecv =>
    refine ⟨fun _ => hreceiver.exception (by rw [hrecv]; exact nofun), ?_, ?_⟩
    · intro hdraining
      by_contra hopen
      simp [hopen] at hdraining
    · intro k ex hcallback
      split at hcallback <;> nomatch hcallback
  | recvCtxDone hrecv | recvTimeoutClose hrecv => exact hreceiver.close hrecv _ _
  | readTrailer | readRst => exact { hreceiver.concat _ _ _ with }
  | _ => exact { hreceiver with }

end ReceiverSound

/-- A receiver that finds the pipe closed and nothing in it was not owed an exception. -/
theorem MessagesSound.closedWith_of_draining (hmessages : MessagesSound s)
    (hreceiver : ReceiverSound s) (hrecv : s.recv = .draining) (hqueue : s.pipe.queue = []) :
    s.closedWith = some none := by
  rcases hmessages.closed (hreceiver.draining hrecv) with hnone | ⟨e, hmem⟩ | hexception
  · exact hnone
  · rw [hqueue] at hmem
    nomatch hmem
  · exact absurd (hreceiver.exception (by rw [hrecv]; exact nofun)) hexception

theorem run_receiverSound (hrun : run codec events = some s) : ReceiverSound s :=
  Machine.run_invariant (fun _ s => ReceiverSound s) (.idle rfl)
    (fun _ _ _ _ _ hreceiver hnext => hreceiver.step (stepped_of_step hnext)) hrun

end ClientStream

end Kitex.TTStream
