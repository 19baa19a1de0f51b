import Kitex.Http2.Client

/-! # What a step of the client transport does

`Stepped` lists the outcomes of the events with the branch conditions of the
source, so that invariants are proved by cases on it and do not unfold the step
function. References to streams, in the map, in the control buffer and in the
reader's list, are to callers that have been admitted, and what is known about
an admitted stream is never lost.
-/

namespace Kitex.Http2.ClientTransport

open Kitex.Container

/-! ## Outcomes -/

inductive Stepped (t : ClientTransport) : ClientEvent → ClientTransport → Prop
  /-- nothing that the model keeps has changed -/
  | idle (event : ClientEvent) : Stepped t event t
  | newStream (hf : List HeaderField) :
      Stepped t (.newStream hf) { t with calls := t.calls ++ [Call.new hf] }
  /-- the control buffer is finished, or the header list is too large -/
  | rejected {ref : Nat} {call : Call} {firstTry : Bool} {ch : Option Nat} (e : NewStreamErr)
      (hcall : t.calls[ref]? = some call) (hround : call.progress.round = some (firstTry, ch))
      (hcheck : t.bufErr = true ∨ t.checkForHeaderListSize call.hf = some e) :
      Stepped t (.tryNewStream ref) (t.fail ref e)
  | blocked {ref : Nat} {call : Call} {firstTry : Bool} {ch : Option Nat}
      (hcall : t.calls[ref]? = some call) (hround : call.progress.round = some (firstTry, ch))
      (hquota : t.streamQuota ≤ 0) :
      Stepped t (.tryNewStream ref) ({ t with
        waitingStreams := if firstTry then t.waitingStreams + 1 else t.waitingStreams }.modifyCall
          ref fun call => { call with progress := .waiting (some t.quotaChan) })
  /-- there is quota, and the transport takes no more streams -/
  | stranded {ref : Nat} {call : Call} {firstTry : Bool} {ch : Option Nat}
      (hcall : t.calls[ref]? = some call) (hround : call.progress.round = some (firstTry, ch))
      (hquota : 0 < t.streamQuota) (hstate : t.state = .draining ∨ t.activeStreams = none) :
      Stepped t (.tryNewStream ref) ((t.takeQuota firstTry).modifyCall ref
        fun call => { call with id := t.nextID, progress := .waiting ch })
  | admitted {ref : Nat} {call : Call} {firstTry : Bool} {ch : Option Nat}
      {streams : AList fun _ : UInt32 => Nat}
      (hcall : t.calls[ref]? = some call) (hround : call.progress.round = some (firstTry, ch))
      (hbuf : t.bufErr = false) (hquota : 0 < t.streamQuota)
      (hstreams : t.activeStreams = some streams) (hstate : t.state ≠ .draining) :
      Stepped t (.tryNewStream ref) (({ t.takeQuota firstTry with
        activeStreams := some (streams.insert t.nextID ref) }.notifyQuota.enqueue
          (.headerFrame ref)).modifyCall ref
            fun call => { call with id := t.nextID, progress := .admitted })
  | woken {ref ch : Nat} {call : Call} (hcall : t.calls[ref]? = some call)
      (hprogress : call.progress = .waiting (some ch)) (hreceive : t.canReceive ch = true) :
      Stepped t (.wake ref)
        ((t.receive ch).modifyCall ref fun call => { call with progress := .woken ch })
  | gaveUp {ref : Nat} {ch : Option Nat} {call : Call} (e : NewStreamErr)
      (hcall : t.calls[ref]? = some call) (hprogress : call.progress = .waiting ch) :
      Stepped t (.giveUp ref e) (t.fail ref e)
  | swapped {event : ClientEvent} {ref : Nat}
      (hstream : (∃ call, t.calls[ref]? = some call ∧ call.progress = .admitted) ∨
        ref ∈ t.unprocessedStreams) :
      Stepped t event (t.modifyCall ref Call.casStreamDone)
  /-- a winner returns the quota -/
  | returned {ref : Nat} {call : Call} (hcall : t.calls[ref]? = some call)
      (hwinners : 0 < call.winners) (hbuf : t.bufErr = false) :
      Stepped t (.doCloseStream ref)
        (({ t with streamQuota := t.streamQuota + 1 }.notifyQuota.enqueue
          (.cleanupStream ref)).modifyCall ref fun call => { call with
            winners := call.winners - 1, finished := true, returns := call.returns + 1 })
  /-- a winner finds the control buffer finished -/
  | dropped {ref : Nat} {call : Call} (hcall : t.calls[ref]? = some call)
      (hwinners : 0 < call.winners) (hbuf : t.bufErr = true) :
      Stepped t (.doCloseStream ref)
        (t.modifyCall ref fun call => { call with winners := call.winners - 1, finished := true })
  | dequeued {item : QueueItem} {items : List QueueItem} (hitems : t.items = item :: items) :
      Stepped t .loopyHandle { t with items := items }
  /-- the writer cleans up a stream whose headers it does not write -/
  | orphaned {ref : Nat} {items : List QueueItem} (writerDone : Bool)
      (hitems : t.items = .headerFrame ref :: items) (hstate : t.state ≠ .reachable) :
      Stepped t .loopyHandle
        { t.modifyCall ref Call.cleanup with items := items, writerDone := writerDone }
  | deleted {ref : Nat} {call : Call} {items : List QueueItem}
      (hitems : t.items = .cleanupStream ref :: items) (hcall : t.calls[ref]? = some call) :
      Stepped t .loopyHandle
        { t with items := items, activeStreams := t.activeStreams.map (AList.erase call.id) }
  | loopyReturn : Stepped t .loopyReturn { t with writerDone := true }
  | ignored (ack : Bool) (ss : List Setting) :
      Stepped t (.handleSettings ack ss) { t with prefaceRead := true }
  | configured (ack : Bool) (ss ss' : List Setting) (max : Option UInt32) :
      Stepped t (.handleSettings ack ss) ({ t with
        prefaceRead := true, maxSendHeaderListSize := max }.enqueue (.incomingSettings ss'))
  | limited (ack : Bool) (ss ss' : List Setting) (max : Option UInt32) (maxStreams : UInt32) :
      Stepped t (.handleSettings ack ss) (({ t with
        prefaceRead := true, maxSendHeaderListSize := max }.updateStreamQuota maxStreams).enqueue
          (.incomingSettings ss'))
  | goneAway {id : UInt32} (hread : t.unprocessedStreams = [])
      (haccepts : t.acceptsGoAway id = true) :
      Stepped t (.handleGoAway id) { t with
        goAway := true
        state := if t.goAway then t.state else .draining
        prevGoAwayID := id
        calls := modifyEach Call.markUnprocessed (t.unprocessedBy id) t.calls
        unprocessedStreams := t.unprocessedBy id }
  | refused {id : UInt32} {errCode : ErrCode} {ref : Nat}
      (hstream : t.activeStreams.bind (AList.lookup id) = some ref) :
      Stepped t (.handleRSTStream id errCode) (t.modifyCall ref Call.markUnprocessed)
  | unprocessedDone {ref : Nat} {call : Call} (hcall : t.calls[ref]? = some call)
      (hfinished : call.finished = true) :
      Stepped t (.unprocessedDone ref)
        { t with unprocessedStreams := t.unprocessedStreams.erase ref }
  | drained (hstate : t.state = .reachable) : Stepped t .gracefulClose { t with state := .draining }
  | closed : Stepped t .close { t with state := .closing, activeStreams := none }
  | finished (hstate : t.state = .closing ∨ t.ctxDone = true) (hbuf : t.bufErr = false) :
      Stepped t .finish { t with
        calls := modifyEach Call.cleanup (queuedHeaders t.items) t.calls
        bufErr := true
        items := [] }
  | cancelled : Stepped t .cancel { t with ctxDone := true }

section Outcomes

variable {t : ClientTransport} {call : Call} {ref : Nat} {ch : Option Nat} {firstTry : Bool}

section

variable (hcall : t.calls[ref]? = some call)
include hcall

theorem stepped_checkForStreamQuota (hround : call.progress.round = some (firstTry, ch))
    (hbuf : t.bufErr = false) :
    Stepped t (.tryNewStream ref) (t.checkForStreamQuota ref firstTry ch) := by
  unfold checkForStreamQuota
  by_cases hquota : t.streamQuota ≤ 0
  · rw [if_pos hquota]
    exact .blocked hcall hround hquota
  · rw [if_neg hquota]
    have hpos : 0 < t.streamQuota := by omega
    split
    next streams hstreams =>
      by_cases hstate : t.state = .draining
      · rw [if_pos hstate]
        exact .stranded hcall hround hpos (.inl hstate)
      · rw [if_neg hstate]
        exact .admitted hcall hround hbuf hpos hstreams hstate
    next hstreams => exact .stranded hcall hround hpos (.inr hstreams)

theorem stepped_tryNewStream (hround : call.progress.round = some (firstTry, ch)) :
    Stepped t (.tryNewStream ref) (t.tryNewStream ref call.hf firstTry ch) := by
  unfold tryNewStream
  cases hbuf : t.bufErr with
  | true => exact .rejected .controlBuf hcall hround (.inl hbuf)
  | false =>
    cases hcheck : t.checkForHeaderListSize call.hf with
    | some e => exact .rejected e hcall hround (.inr hcheck)
    | none => exact stepped_checkForStreamQuota hcall hround hbuf

theorem stepped_doCloseStream (hwinners : 0 < call.winners) :
    Stepped t (.doCloseStream ref) (t.doCloseStream ref) := by
  unfold doCloseStream
  by_cases hbuf : t.bufErr = true
  · rw [if_pos hbuf]
    exact .dropped hcall hwinners hbuf
  · rw [if_neg hbuf]
    exact .returned hcall hwinners (by simpa using hbuf)

end

theorem stepped_loopyHandle {item : QueueItem} {items : List QueueItem}
    (hitems : t.items = item :: items) :
    Stepped t .loopyHandle ({ t with items := items }.loopyHandle item) := by
  cases item with
  | headerFrame ref =>
    simp only [loopyHandle, initStream]
    split
    next => exact .dequeued hitems
    next hstate => exact .orphaned t.writerDone hitems (by simp [hstate])
    next hstate => exact .orphaned true hitems (by simp [hstate])
  | cleanupStream ref =>
    simp only [loopyHandle]
    cases hcall : t.calls[ref]? with
    | some call => exact .deleted hitems hcall
    | none => exact .dequeued hitems
  | incomingSettings ss => exact .dequeued hitems

theorem stepped_handleSettings (ack : Bool) (ss : List Setting) :
    Stepped t (.handleSettings ack ss) (t.handleSettings ack ss) := by
  simp only [handleSettings]
  split
  · exact .ignored ack ss
  · split
    · exact .limited ack ss _ _ _
    · exact .configured ack ss _ _

theorem stepped_handleRSTStream (id : UInt32) (errCode : ErrCode) :
    Stepped t (.handleRSTStream id errCode) (t.handleRSTStream id errCode) := by
  unfold handleRSTStream
  split
  next ref hstream =>
    split
    · exact .refused hstream
    · exact .idle _
  next => exact .idle _

end Outcomes

/-- Every step is one of the outcomes. -/
theorem stepped_of_step {t next : ClientTransport} {event : ClientEvent}
    (hnext : t.step event = some next) : Stepped t event next := by
  cases event with
  | newStream hf =>
    cases hnext
    exact .newStream hf
  | tryNewStream ref =>
    obtain ⟨call, hcall, hnext⟩ := Option.bind_eq_some_iff.mp hnext
    obtain ⟨⟨firstTry, ch⟩, hround, rfl⟩ := Option.map_eq_some_iff.mp hnext
    exact stepped_tryNewStream hcall hround
  | wake ref =>
    obtain ⟨call, hcall, hnext⟩ := Option.bind_eq_some_iff.mp hnext
    split at hnext
    next ch hprogress =>
      obtain ⟨hreceive, ⟨⟩⟩ := Option.ite_none_right_eq_some.mp hnext
      exact .woken hcall hprogress hreceive
    next => cases hnext
  | giveUp ref e =>
    obtain ⟨call, hcall, hnext⟩ := Option.bind_eq_some_iff.mp hnext
    split at hnext
    next ch hprogress =>
      obtain ⟨_, ⟨⟩⟩ := Option.ite_none_right_eq_some.mp hnext
      exact .gaveUp e hcall hprogress
    next => cases hnext
  | casStreamDone ref =>
    obtain ⟨call, hcall, hnext⟩ := Option.bind_eq_some_iff.mp hnext
    obtain ⟨hprogress, ⟨⟩⟩ := Option.ite_none_right_eq_some.mp hnext
    exact .swapped (.inl ⟨call, hcall, hprogress⟩)
  | doCloseStream ref =>
    obtain ⟨call, hcall, hnext⟩ := Option.bind_eq_some_iff.mp hnext
    obtain ⟨hwinners, ⟨⟩⟩ := Option.ite_none_right_eq_some.mp hnext
    exact stepped_doCloseStream hcall hwinners
  | loopyHandle =>
    simp only [step] at hnext
    split at hnext
    next item items hitems =>
      obtain ⟨_, ⟨⟩⟩ := Option.ite_none_left_eq_some.mp hnext
      exact stepped_loopyHandle hitems
    next => cases hnext
  | loopyReturn =>
    cases hnext
    exact .loopyReturn
  | handleSettings ack ss =>
    obtain ⟨_, ⟨⟩⟩ := Option.ite_none_right_eq_some.mp hnext
    exact stepped_handleSettings ack ss
  | handleGoAway id =>
    obtain ⟨⟨_, hread⟩, ⟨⟩⟩ := Option.ite_none_right_eq_some.mp hnext
    unfold handleGoAway
    cases haccepts : t.acceptsGoAway id with
    | true => exact .goneAway hread haccepts
    | false => exact .idle _
  | handleRSTStream id errCode =>
    obtain ⟨_, ⟨⟩⟩ := Option.ite_none_right_eq_some.mp hnext
    exact stepped_handleRSTStream id errCode
  | closeUnprocessed ref =>
    obtain ⟨hmem, ⟨⟩⟩ := Option.ite_none_right_eq_some.mp hnext
    exact .swapped (.inr hmem)
  | unprocessedDone ref =>
    obtain ⟨call, hcall, hnext⟩ := Option.bind_eq_some_iff.mp hnext
    obtain ⟨⟨hfinished, _⟩, ⟨⟩⟩ := Option.ite_none_right_eq_some.mp hnext
    exact .unprocessedDone hcall hfinished
  | gracefulClose =>
    cases hnext
    by_cases hstate : t.state = .reachable
    · rw [if_pos hstate]
      exact .drained hstate
    · rw [if_neg hstate]
      exact .idle _
  | close =>
    cases hnext
    exact .closed
  | finish =>
    obtain ⟨hstate, ⟨⟩⟩ := Option.ite_none_right_eq_some.mp hnext
    unfold finish
    by_cases hbuf : t.bufErr = true
    · rw [if_pos hbuf]
      exact .idle _
    · rw [if_neg hbuf]
      exact .finished hstate (by simpa using hbuf)
  | cancel =>
    cases hnext
    exact .cancelled

end Kitex.Http2.ClientTransport
