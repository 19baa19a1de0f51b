import Kitex.Http2.LoopyCalls

/-! # Errors of the framer

Whatever call of the framer fails, the writer is to stop. So `handle` and `processData` have to
return an error if a call of the framer that they make has failed. They do, but for one path of
`processData`: if an empty data frame is followed by trailers then the error of their cleanup is
dropped, and the cleanup may write an RST_STREAM frame.
-/

namespace Kitex.Http2

variable {hpack : Hpack}

namespace LoopyWriter

/-- A call of the framer between the two writers has failed. -/
def FailedDuring (l next : LoopyWriter hpack) : Prop :=
  ∃ call, l.framer.calls ≤ call ∧ call < next.framer.calls ∧ l.framer.fails call = true

/-- If a call of the framer has failed then an error is returned. -/
def Reports {α : Type} (l : LoopyWriter hpack) (outcome : Outcome hpack α) : Prop :=
  l.FailedDuring outcome.1 → ∃ err, outcome.2 = .error err

theorem Tracks.reports {α : Type} {l : LoopyWriter hpack} {outcome : Outcome hpack α}
    (h : l.Tracks outcome) : l.Reports outcome := by
  rintro ⟨call, hle, hlt, hfails⟩
  cases hresult : outcome.2 with
  | error err => exact ⟨err, rfl⟩
  | ok a =>
    rw [h.ok a hresult call hle hlt] at hfails
    cases hfails

section Framer

variable (l : LoopyWriter hpack)

@[simp]
theorem record_framer (effect : Effect) : (l.record effect).framer = l.framer := rfl

@[simp]
theorem setStream_framer (str : OutStream) : (l.setStream str).framer = l.framer := rfl

@[simp]
theorem call_framer (callback : Option Callback) : (l.call callback).framer = l.framer :=
  (l.still_call callback).framer

@[simp]
theorem forget_framer (streamID : UInt32) : (l.forget streamID).framer = l.framer :=
  (l.still_forget streamID).framer

end Framer

theorem handle_tracks (env : Surroundings) (l : LoopyWriter hpack) (item : CbItem) :
    l.Tracks (l.handle env item) :=
  (l.acts_handle env item).tracks.of_framer (l.announced_frame env item).2.2.1

/-! ## `processData` -/

/-- The items of the stream that `processData` takes next. -/
def nextItems (l : LoopyWriter hpack) : List StreamItem :=
  match l.activeStreams.popFront with
  | none => []
  | some (streamID, _) => ((l.estdStreams.lookup streamID).map OutStream.itl).getD []

/-- The next stream has an empty data frame and after it trailers whose cleanup resets it. -/
def ResetsAfterEmpty (l : LoopyWriter hpack) : Prop :=
  l.sendQuota ≠ 0 ∧ ∃ dataItem trailer rest c,
    l.nextItems = .data dataItem :: .header trailer :: rest ∧
      dataItem.h = [] ∧ dataItem.d = [] ∧ trailer.cleanup = some c ∧ c.rst = true

theorem settle_tracks (l : LoopyWriter hpack) (str : OutStream) : l.Tracks (l.settle str) := by
  unfold settle
  split
  · exact tracks_of_framer rfl
  · exact ((acts_writeTrailers _ _).tracks.of_framer (l.setStream_framer str)).andThen
      fun next _ => tracks_of_framer rfl
  · split <;> exact tracks_of_framer rfl

theorem processPayload_tracks (l : LoopyWriter hpack) (str : OutStream) (dataItem : DataFrame)
    (rest : List StreamItem) : l.Tracks (l.processPayload str dataItem rest) := by
  unfold processPayload
  split
  · exact tracks_of_framer rfl
  · refine ((writeFrame_tracks _ _).of_framer ?_).andThen fun next _ =>
      (settle_tracks _ _).of_framer rfl
    split <;> rfl

variable {c : CleanupStream} {rest : List StreamItem} {l : LoopyWriter hpack}

/-- Without a reset the cleanup does not write. -/
theorem cleanupStreamHandler_framer (l : LoopyWriter hpack) (hrst : c.rst = false) :
    (l.cleanupStreamHandler c).1.framer = l.framer := by
  simp only [cleanupStreamHandler, hrst, Bool.false_eq_true, if_false, Outcome.andThen_ok,
    call_framer]
  split <;> simp

theorem processEmpty_tracks (l : LoopyWriter hpack) (str : OutStream) (dataItem : DataFrame)
    (hrest : ∀ trailer tail c, rest = .header trailer :: tail → trailer.cleanup = some c →
      c.rst = false) : l.Tracks (l.processEmpty str dataItem rest) := by
  refine (l.writeFrame_tracks _).andThen fun next _ => ?_
  split
  · exact tracks_of_framer rfl
  · rename_i trailer tail
    refine ((acts_writeHeader _ _ _ _ _).tracks.of_framer (next.setStream_framer _)).andThen
      fun last _ => ?_
    cases hcleanup : trailer.cleanup with
    | none => exact tracks_of_framer rfl
    | some c =>
      have hframer := last.cleanupStreamHandler_framer (hrest trailer tail c rfl hcleanup)
      rw [cleanupTrailers]
      split <;> rename_i heq <;> rw [heq] at hframer <;> exact tracks_of_framer hframer
  · exact tracks_of_framer rfl

theorem processData_tracks (hreset : ¬ l.ResetsAfterEmpty) : l.Tracks l.processData := by
  unfold processData
  split_ifs with hquota
  · exact tracks_of_framer rfl
  split
  · exact tracks_of_framer rfl
  next streamID activeStreams hpop =>
  dsimp only
  split
  · exact tracks_of_framer rfl
  next str hlookup =>
  split
  · rename_i dataItem rest hitl
    split_ifs with hempty
    · refine (processEmpty_tracks _ str dataItem ?_).of_framer rfl
      rintro trailer tail c rfl hcleanup
      by_contra hrst
      refine hreset ⟨hquota, dataItem, trailer, tail, c, ?_, hempty.1, hempty.2, hcleanup,
        by simpa using hrst⟩
      simp [nextItems, hpop, hlookup, hitl]
    · exact (processPayload_tracks _ str dataItem rest).of_framer rfl
  · exact tracks_of_framer rfl

/-! ## The path that drops an error -/

/-- The writer with a framer that fails at other calls. -/
def withFails (l : LoopyWriter hpack) (fails : Nat → Bool) : LoopyWriter hpack :=
  { l with framer := { l.framer with fails } }

theorem writeFrame_of_fails (frame : Frame) (hfails : l.framer.fails l.framer.calls) :
    ∃ next, l.writeFrame frame = (next, .error .framer) ∧
      next.framer.calls = l.framer.calls + 1 := by
  simp only [writeFrame, hfails, if_true]
  exact ⟨_, rfl, rfl⟩

theorem cleanupStreamHandler_of_fails (hrst : c.rst)
    (hfails : l.framer.fails l.framer.calls) :
    ∃ next, l.cleanupStreamHandler c = (next, .error .framer) ∧
      next.framer.calls = l.framer.calls + 1 := by
  have hfails' : ((l.record (.called c.onWrite)).forget c.streamID).framer.fails
      ((l.record (.called c.onWrite)).forget c.streamID).framer.calls = true := by
    simpa using hfails
  obtain ⟨next, hwrite, hcalls⟩ :=
    writeFrame_of_fails (.rstStream c.streamID c.rstCode) hfails'
  refine ⟨next.call c.onFinishWrite, ?_, by simpa using hcalls⟩
  simp only [cleanupStreamHandler, hrst, if_true, hwrite, Outcome.andThen]

/-- The RST_STREAM frame after the trailers is not written, and no error is returned. -/
theorem exists_processEmpty_drops (l : LoopyWriter hpack) (str : OutStream) (dataItem : DataFrame)
    (trailer : HeaderFrame) (tail : List StreamItem) (hcleanup : trailer.cleanup = some c)
    (hrst : c.rst) : ∃ failing, l.framer.calls ≤ failing ∧ ∃ next,
      (l.withFails (· == failing)).processEmpty str dataItem (.header trailer :: tail) =
        (next, .ok false) ∧ failing < next.framer.calls := by
  obtain ⟨pieces, -, hheader⟩ := exists_writeHeader l.hEnc trailer.streamID trailer.endStream
    trailer.hf trailer.onWrite
  -- the call after those for the data frame and the headers
  refine ⟨l.framer.calls + 1 + pieces.length, by omega, ?_⟩
  generalize hfailing : l.framer.calls + 1 + pieces.length = failing
  set sent := ((l.withFails (· == failing)).wrote
    [.wrote (.data dataItem.streamID dataItem.endStream [])]).setStream
      { str with itl := .header trailer :: tail } with hsent
  have hsucceeds : sent.Succeeds pieces.length := by
    intro call hle hlt
    simp only [hsent, setStream_framer, wrote, withFails, List.length_singleton] at *
    rw [beq_eq_false_iff_ne]
    omega
  specialize hheader sent rfl hsucceeds
  set written := wrote { sent.call trailer.onWrite with
    hEnc := (encodeHeaders hpack l.hEnc trailer.hf).1 }
      (blockFrames trailer.streamID trailer.endStream true pieces) with hwrittenDef
  have hwritten : written.framer.calls = failing := by
    rw [← hfailing]
    simp [hwrittenDef, hsent, wrote, withFails, length_blockFrames]
  obtain ⟨next, hreset, hnext⟩ := cleanupStreamHandler_of_fails (l := written) hrst (by
    rw [hwritten]
    simp [hwrittenDef, hsent, wrote, withFails])
  refine ⟨next, ?_, by omega⟩
  unfold processEmpty
  rw [writeFrame_of_succeeds _ (by simp [withFails]; omega), Outcome.andThen_ok]
  dsimp only
  rw [hheader, Outcome.andThen_ok, hcleanup, cleanupTrailers, hreset]

/-- What the writer does with the stream whose items it takes next. -/
theorem processData_eq_processEmpty (hquota : l.sendQuota ≠ 0) {dataItem : DataFrame}
    (hitems : l.nextItems = .data dataItem :: rest) (hh : dataItem.h = []) (hd : dataItem.d = []) :
    ∃ activeStreams str, ∀ fails, (l.withFails fails).processData =
      (withFails { l with activeStreams } fails).processEmpty str dataItem rest := by
  unfold nextItems at hitems
  cases hpop : l.activeStreams.popFront with
  | none => simp [hpop] at hitems
  | some popped =>
    obtain ⟨streamID, activeStreams⟩ := popped
    cases hlookup : l.estdStreams.lookup streamID with
    | none => simp [hpop, hlookup] at hitems
    | some str =>
      have hitl : str.itl = .data dataItem :: rest := by simpa [hpop, hlookup] using hitems
      refine ⟨activeStreams, str, fun fails => ?_⟩
      simp [processData, withFails, hquota, hpop, hlookup, hitl, hh, hd]

theorem not_reports_of_resetsAfterEmpty (h : l.ResetsAfterEmpty) :
    ∃ fails, ¬ (l.withFails fails).Reports (l.withFails fails).processData := by
  obtain ⟨hquota, dataItem, trailer, rest, c, hitems, hh, hd, hcleanup, hrst⟩ := h
  obtain ⟨activeStreams, str, hprocess⟩ := processData_eq_processEmpty hquota hitems hh hd
  obtain ⟨failing, hle, next, hdrops, hlt⟩ :=
    exists_processEmpty_drops { l with activeStreams } str dataItem trailer rest hcleanup hrst
  refine ⟨(· == failing), fun hreports => ?_⟩
  rw [hprocess, hdrops] at hreports
  obtain ⟨err, herr⟩ := hreports ⟨failing, hle, hlt, beq_self_eq_true failing⟩
  cases herr

/-- `handle` returns an error whenever a call of the framer fails. So does `processData`, whichever
calls fail, exactly in the states where the trailers after an empty data frame do not reset their
stream. -/
theorem reports_iff_not_resetsAfterEmpty (l : LoopyWriter hpack) :
    (∀ env item, l.Reports (l.handle env item)) ∧
      ((∀ fails, (l.withFails fails).Reports (l.withFails fails).processData) ↔
        ¬ l.ResetsAfterEmpty) := by
  refine ⟨fun env item => (l.handle_tracks env item).reports, fun h hreset => ?_,
    fun h fails => ?_⟩
  · obtain ⟨fails, hfails⟩ := not_reports_of_resetsAfterEmpty hreset
    exact hfails (h fails)
  · have hsame : ¬ (l.withFails fails).ResetsAfterEmpty := h
    exact (processData_tracks hsame).reports

end LoopyWriter

/-! ## A failure that is not returned -/

/-- The trailers that `finishStream` makes for a stream that the client has not closed. -/
def resettingTrailers : HeaderFrame where
  streamID := 1
  hf := []
  endStream := true
  onWrite := none
  cleanup := some ⟨1, true, ErrCode.no, .deleteStream 1, none⟩
  endStream_eq := rfl
  cleanup_streamID := by
    rintro c ⟨⟩
    rfl

/-- A server's stream with an empty data frame and its trailers. -/
def emptyThenTrailers : List LoopyEvent :=
  [.handle .quiet (.registerStream 1), .handle .quiet (.dataFrame ⟨1, false, [], [], false⟩),
    .handle .quiet (.headerFrame resettingTrailers)]

/-- The third call of the framer, for the RST_STREAM frame, fails, and `processData` returns no
error: the writer goes on. -/
theorem exists_failure_dropped : ∃ l : LoopyWriter Hpack.verbatim,
      loopyRunOn Hpack.verbatim .serverSide ⟨(· == 2), 0⟩ emptyThenTrailers = some ⟨l, none⟩ ∧
      l.FailedDuring l.processData.1 ∧ l.processData.2 = .ok false := by
  refine ⟨_, rfl, ⟨2, ?_, ?_, rfl⟩, rfl⟩
  · decide
  · decide +kernel

end Kitex.Http2
