import Kitex.Http2.Server

/-! # What a step of the server transport does

The outcomes of the events, as far as the streams, the state of the transport
and the drain channel are concerned. What goes to the control buffer and how
pings are counted is left open where no condition depends on it.
-/

namespace Kitex.Http2

namespace ServerEvent

/-- The acknowledgement of the PING frame that goes out with the first GOAWAY
frame of a shutdown, whether the server has sent it or not. -/
def isGoAwayAck : ServerEvent → Bool
  | .handlePing f _ => f.ack && decide (f.data = goAwayPing)
  | _ => false

def isDrain : ServerEvent → Bool
  | .drain _ _ => true
  | _ => false

end ServerEvent

namespace Http2Server

/-- The fields that no outcome below depends on. -/
structure Rest where
  items : List CbItem
  bufErr : Bool
  lastPingAt : Int
  pingStrikes : UInt8
  resetPingStrikes : Bool
  notifiers : List (ErrCode × Bytes)

def setRest (t : Http2Server) (rest : Rest) : Http2Server :=
  { t with
    items := rest.items, bufErr := rest.bufErr, lastPingAt := rest.lastPingAt
    pingStrikes := rest.pingStrikes, resetPingStrikes := rest.resetPingStrikes
    notifiers := rest.notifiers }

def rest (t : Http2Server) : Rest :=
  ⟨t.items, t.bufErr, t.lastPingAt, t.pingStrikes, t.resetPingStrikes, t.notifiers⟩

inductive Stepped (t : Http2Server) : ServerEvent → Http2Server → Prop
  | kept {event : ServerEvent} (rest : Rest) (hack : event.isGoAwayAck = false)
      (hdrain : event.isDrain = false) : Stepped t event (t.setRest rest)
  | registered {frame : MetaHeadersFrame} (rest : Rest) (hstate : t.state = .reachable)
      (hodd : frame.streamID.toNat % 2 = 1) (hgreater : t.maxStreamID < frame.streamID) :
      Stepped t (.operateHeaders frame) { t.setRest rest with
        maxStreamID := frame.streamID
        activeStreams := t.activeStreams.map (AList.insert frame.streamID false) }
  | finished {event : ServerEvent} {streamID : UInt32} {streams : AList fun _ : UInt32 => Bool}
      (rest : Rest) (hack : event.isGoAwayAck = false) (hdrain : event.isDrain = false)
      (hstreams : t.activeStreams = some streams) (hmem : streamID ∈ streams.keys) :
      Stepped t event
        { t.setRest rest with activeStreams := some (streams.insert streamID true) }
  | deleted {event : ServerEvent} (rest : Rest) (streamID : UInt32)
      (hack : event.isGoAwayAck = false) (hdrain : event.isDrain = false) :
      Stepped t event
        { t.setRest rest with activeStreams := t.activeStreams.map (AList.erase streamID) }
  | goneAway (rest : Rest) : Stepped t .loopyGet { t.setRest rest with state := .draining }
  | closed {event : ServerEvent} (rest : Rest) (hack : event.isGoAwayAck = false)
      (hdrain : event.isDrain = false) :
      Stepped t event { t.setRest rest with state := .closing, activeStreams := none }
  | drained {code : ErrCode} {debugData : Bytes} (rest : Rest) (hchan : t.drainChan = .unmade) :
      Stepped t (.drain code debugData) { t.setRest rest with drainChan := .made }
  | drainedAgain {code : ErrCode} {debugData : Bytes} (hchan : t.drainChan ≠ .unmade) :
      Stepped t (.drain code debugData) t
  | acked {f : Ping} {now : Int} (hack : (ServerEvent.handlePing f now).isGoAwayAck = true)
      (hclosed : t.drainChanClosed = false) : Stepped t (.handlePing f now) t.closeDrainChan
  | ackedAgain {f : Ping} {now : Int} (hack : (ServerEvent.handlePing f now).isGoAwayAck = true)
      (hclosed : t.drainChanClosed = true) : Stepped t (.handlePing f now) t

section Outcomes

variable {t : Http2Server}

theorem stepped_operateHeaders (frame : MetaHeadersFrame) :
    Stepped t (.operateHeaders frame) (t.operateHeaders frame) := by
  unfold operateHeaders
  split
  · exact .kept (t.putCleanup frame.streamID true _).rest rfl rfl
  · exact .kept t.rest rfl rfl
  · split
    · exact .kept t.rest rfl rfl
    next hstate =>
      split
      · exact .kept (t.putCleanup frame.streamID true _).rest rfl rfl
      split
      · unfold closeWithErr
        split
        · exact .kept t.rest rfl rfl
        · exact .closed { t.rest with bufErr := true, items := [] } rfl rfl
      next hlegal =>
        rw [not_or, not_not] at hlegal
        have hodd : frame.streamID.toNat % 2 = 1 := by
          simpa using congrArg UInt32.toNat hlegal.1
        exact .registered (t.put (.registerStream frame.streamID)).rest (not_not.mp hstate) hodd
          (UInt32.not_le.mp hlegal.2)

theorem stepped_finishStream (streamID : UInt32) (hf : List HeaderField) (rst : Bool)
    (rstCode : ErrCode) : Stepped t (.finishStream streamID hf rst rstCode)
      (t.finishStream streamID hf rst rstCode) := by
  unfold finishStream
  split
  next streams hstreams =>
    split
    next hlookup =>
      exact .finished (t.put _).rest rfl rfl hstreams
        (AList.lookup_isSome.mp (by simp [hlookup]))
    next => exact .kept t.rest rfl rfl
  next => exact .kept t.rest rfl rfl

theorem countPing_eq (t : Http2Server) (now : Int) : ∃ rest, t.countPing now = t.setRest rest := by
  unfold countPing punish
  split
  · exact ⟨{ t.rest with resetPingStrikes := false, pingStrikes := 0 }, rfl⟩
  · split
    · exact ⟨((t.strike now).put _).rest, rfl⟩
    · exact ⟨(t.strike now).rest, rfl⟩

theorem stepped_handlePing (f : Ping) (now : Int) :
    Stepped t (.handlePing f now) (t.handlePing f now) := by
  unfold handlePing
  cases hack : f.ack with
  | false =>
    obtain ⟨rest, hcount⟩ := countPing_eq (t.put (.ping ⟨true, f.data⟩)) now
    rw [if_neg nofun, hcount]
    exact .kept { rest with lastPingAt := now } (by simp [ServerEvent.isGoAwayAck, hack]) rfl
  | true =>
    rw [if_pos rfl]
    by_cases hdata : f.data = goAwayPing
    · have hisAck : (ServerEvent.handlePing f now).isGoAwayAck = true := by
        simp [ServerEvent.isGoAwayAck, hack, hdata]
      cases hclosed : t.drainChanClosed with
      | true => simpa [hdata] using Stepped.ackedAgain hisAck hclosed
      | false => simpa [hdata] using Stepped.acked hisAck hclosed
    · rw [if_neg (fun hboth => hdata hboth.1)]
      exact .kept t.rest (by simp [ServerEvent.isGoAwayAck, hdata]) rfl

end Outcomes

/-- Every step is one of the outcomes, and none is taken after a panic. -/
theorem stepped_of_step {t next : Http2Server} {event : ServerEvent}
    (hnext : t.step event = some next) : t.panicked = none ∧ Stepped t event next := by
  obtain ⟨hrunning, hnext⟩ := Option.ite_none_left_eq_some.mp hnext
  refine ⟨by simpa using hrunning, ?_⟩
  cases event with
  | operateHeaders frame =>
    cases hnext
    exact stepped_operateHeaders frame
  | handleRSTStream streamID =>
    cases hnext
    unfold handleRSTStream
    split
    · exact .deleted (t.putCleanup streamID false ErrCode.no).rest streamID rfl rfl
    · exact .kept (t.putCleanup streamID false ErrCode.no).rest rfl rfl
  | handlePing f now =>
    cases hnext
    exact stepped_handlePing f now
  | closeStream streamID rst rstCode =>
    cases hnext
    exact .deleted (t.putCleanup streamID rst rstCode).rest streamID rfl rfl
  | finishStream streamID hf rst rstCode =>
    cases hnext
    exact stepped_finishStream streamID hf rst rstCode
  | loopyGet =>
    simp only at hnext
    split at hnext
    next g items _ =>
      cases hnext
      unfold outgoingGoAwayHandler
      split
      · exact .kept { t.rest with items := items } rfl rfl
      split
      · exact .kept { t.rest with
          items := items, notifiers := t.notifiers ++ [(g.code, g.debugData)] } rfl rfl
      · exact .goneAway { t.rest with items := items }
    next items _ _ =>
      cases hnext
      exact .kept { t.rest with items := items } rfl rfl
    next => cases hnext
  | deleteStream streamID =>
    obtain ⟨_, ⟨⟩⟩ := Option.ite_none_right_eq_some.mp hnext
    exact .deleted t.rest streamID rfl rfl
  | setResetPingStrikes =>
    cases hnext
    exact .kept { t.rest with resetPingStrikes := true } rfl rfl
  | drain code debugData =>
    cases hnext
    unfold drain
    split
    next hchan => exact .drainedAgain hchan
    next hchan =>
      exact .drained (t.put (.goAway ⟨code, debugData, true, false⟩)).rest (not_not.mp hchan)
  | notify =>
    simp only at hnext
    split at hnext
    next code debugData notifiers _ =>
      cases hnext
      have hkept : ∀ rest, Stepped t .notify (t.setRest rest) := fun rest => .kept rest rfl rfl
      exact hkept ({ t with notifiers := notifiers }.put
        (.goAway ⟨code, debugData, false, false⟩)).rest
    next => cases hnext
  | close =>
    cases hnext
    unfold close
    split
    · exact .kept t.rest rfl rfl
    · exact .closed { t.rest with
        items := if t.bufErr then t.items else t.items ++ t.resets } rfl rfl
  | closeWithErr =>
    cases hnext
    unfold closeWithErr
    split
    · exact .kept t.rest rfl rfl
    · exact .closed { t.rest with bufErr := true, items := [] } rfl rfl
  | closeLoopyWriter =>
    obtain ⟨_, ⟨⟩⟩ := Option.ite_none_right_eq_some.mp hnext
    exact .kept { t.rest with bufErr := true, items := [] } rfl rfl

end Http2Server

end Kitex.Http2
