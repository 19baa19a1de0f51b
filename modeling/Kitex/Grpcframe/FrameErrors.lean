import Kitex.Grpcframe.FrameReader
import Kitex.Machine.Fallible

/-! # Which frames are at fault for their stream

A frame is parsed before its place in the sequence of frames is checked. Two kinds of frames make
the parsers fail with the error of a stream: a WINDOW_UPDATE of a stream with no increment, and a
HEADERS frame with too much padding. Every other fault stops the connection.
-/

namespace Kitex.Grpcframe

open Kitex.Http2 (Bytes ErrCode bigEndian)
open Kitex.Machine Fallible

/-! ## Parsers -/

/-- How long the priority fields of a HEADERS frame are. -/
def priorityLength (fh : FrameHeader) : Nat := if fh.has flagHeadersPriority then 5 else 0

/-- A HEADERS frame with more padding than there is after its other fields. -/
def Overpadded (fh : FrameHeader) (p : Bytes) : Prop :=
  fh.has flagPadded ∧ 1 + priorityLength fh ≤ p.length ∧
    p.length < 1 + priorityLength fh + (p.headD 0).toNat

/-- The frames that the parsers reject with the error of a stream. -/
def StreamLevel (fh : FrameHeader) (p : Bytes) : Prop :=
  fh.streamID ≠ 0 ∧
    (fh.type = .headers ∧ Overpadded fh p ∨
      fh.type = .windowUpdate ∧ p.length = 4 ∧ low31 (bigEndian p) = 0)

/-- The type in the header is that of the frame, as far as header blocks are concerned. -/
def Frame.Typed (f : Frame) : Prop :=
  match f with
  | .headers _ => f.header.type = .headers ∧ f.header.streamID ≠ 0
  | .continuation _ => f.header.type = .continuation ∧ f.header.streamID ≠ 0
  | _ => f.header.type ≠ .headers ∧ f.header.type ≠ .continuation

/-- What a parser has to return for a header and a payload. -/
def ParsedAs (fh : FrameHeader) (p : Bytes) : Except ReadErr Frame → Prop
  | .ok f => f.header = fh ∧ f.Typed ∧ ¬ StreamLevel fh p
  | .error err => err.isStream = true ↔ StreamLevel fh p

/-- Reading the priority fields fails only if they are not all there. -/
theorem readPriority_cases (fh : FrameHeader) (p : Bytes) : (priorityLength fh ≤ p.length ∧
      ∃ param, readPriority fh p = .ok (p.drop (priorityLength fh), param)) ∨
    (p.length < priorityLength fh ∧ readPriority fh p = .error .unexpectedEOF) := by
  unfold readPriority readUint32 priorityLength
  by_cases hprio : fh.has flagHeadersPriority = true
  · rw [if_pos hprio, if_pos hprio]
    by_cases hlen : p.length < 4
    · rw [if_pos hlen]
      exact .inr ⟨by omega, rfl⟩
    rw [if_neg hlen]
    cases hd : p.drop 4 with
    | nil =>
      have := congrArg List.length hd
      rw [List.length_drop, List.length_nil] at this
      exact .inr ⟨by omega, rfl⟩
    | cons b remain =>
      have := congrArg List.length hd
      rw [List.length_drop, List.length_cons] at this
      have hremain : p.drop 5 = remain := by
        rw [show 5 = 4 + 1 from rfl, ← List.drop_drop, hd, List.drop_one, List.tail_cons]
      rw [hremain]
      exact .inl ⟨by omega, _, rfl⟩
  · rw [if_neg hprio, if_neg hprio]
    exact .inl ⟨Nat.zero_le _, _, rfl⟩

variable {fh : FrameHeader} {p input rest : Bytes} {err : ReadErr} {maxReadSize : Nat} {f : Frame}

/-- Where nothing is the error of a stream, a parser may return a frame or any other error. -/
theorem parsedAs_error (hlevel : ¬ StreamLevel fh p) (herr : err.isStream = false) :
    ParsedAs fh p (.error err) := by
  simp [ParsedAs, hlevel, herr]

/-- A HEADERS frame is at fault for its stream exactly if it has too much padding. -/
theorem parseHeadersFrame_parsedAs (htype : fh.type = .headers) (p : Bytes) :
    ParsedAs fh p (parseHeadersFrame fh p) := by
  unfold parseHeadersFrame
  by_cases hid : fh.streamID = 0
  · rw [if_pos hid]
    exact parsedAs_error (fun h => h.1 hid) rfl
  rw [if_neg hid]
  have hlevel : StreamLevel fh p ↔ Overpadded fh p := by simp [StreamLevel, hid, htype]
  have hframe (hf : HeadersFrame) (hheader : hf.header = fh) (hover : ¬ Overpadded fh p) :
      ParsedAs fh p (.ok (.headers hf)) := by
    subst hheader
    exact ⟨rfl, ⟨htype, hid⟩, mt hlevel.mp hover⟩
  unfold readPadLength
  by_cases hpad : fh.has flagPadded = true
  · rw [if_pos hpad]
    cases p with
    | nil =>
      exact parsedAs_error (fun h => absurd (hlevel.mp h).2.1 (by simp)) rfl
    | cons padLength p =>
      rcases readPriority_cases fh p with ⟨hlen, param, hprio⟩ | ⟨hlen, hprio⟩
      · have hover : Overpadded fh (padLength :: p) ↔
            p.length < priorityLength fh + padLength.toNat := by
          simp only [Overpadded, hpad, List.length_cons, List.headD_cons, true_and]
          omega
        simp only [readByte, bind, Except.bind, hprio, List.length_drop]
        split
        · exact iff_of_true rfl (hlevel.mpr (hover.mpr (by omega)))
        · exact hframe _ rfl (mt hover.mp (by omega))
      · simp only [readByte, bind, Except.bind, hprio]
        refine parsedAs_error (fun h => ?_) rfl
        have := (hlevel.mp h).2.1
        rw [List.length_cons] at this
        omega
  · have hover : ¬ Overpadded fh p := fun h => hpad h.1
    rw [if_neg hpad]
    rcases readPriority_cases fh p with ⟨hlen, param, hprio⟩ | ⟨hlen, hprio⟩
    · simp only [bind, Except.bind, hprio]
      exact hframe _ rfl hover
    · simp only [bind, Except.bind, hprio]
      exact parsedAs_error (mt hlevel.mp hover) rfl

/-- A WINDOW_UPDATE frame is, exactly if it has a stream and no increment. -/
theorem parseWindowUpdateFrame_parsedAs (htype : fh.type = .windowUpdate) (p : Bytes) :
    ParsedAs fh p (parseWindowUpdateFrame fh p) := by
  have hlevel : StreamLevel fh p ↔ fh.streamID ≠ 0 ∧ p.length = 4 ∧ low31 (bigEndian p) = 0 := by
    simp [StreamLevel, htype]
  unfold parseWindowUpdateFrame
  by_cases hlen : p.length = 4
  · rw [if_neg (not_not.mpr hlen)]
    by_cases hinc : low31 (bigEndian p) = 0
    · by_cases hid : fh.streamID = 0
      · simp only [hinc, hid, if_true]
        exact parsedAs_error (fun h => h.1 hid) rfl
      · simp only [hinc, hid, if_true, if_false]
        exact iff_of_true rfl (hlevel.mpr ⟨hid, hlen, hinc⟩)
    · simp only [hinc, if_false]
      exact ⟨rfl, by simp [Frame.Typed, Frame.header, htype], fun h => hinc (hlevel.mp h).2.2⟩
  · rw [if_pos hlen]
    exact parsedAs_error (fun h => hlen (hlevel.mp h).2.1) rfl

theorem readPadLength_error (h : readPadLength fh p = .error err) : err = .unexpectedEOF := by
  unfold readPadLength at h
  split at h
  · cases p <;> cases h
    rfl
  · cases h

theorem readUint32_error (h : readUint32 p = .error err) : err = .unexpectedEOF := by
  unfold readUint32 at h
  split at h <;> cases h
  rfl

theorem parsePushPromise_parsedAs (htype : fh.type = .pushPromise) (p : Bytes) :
    ParsedAs fh p (parsePushPromise fh p) := by
  have hlevel : ¬ StreamLevel fh p := by simp [StreamLevel, htype]
  unfold parsePushPromise
  by_cases hid : fh.streamID = 0
  · rw [if_pos hid]
    exact parsedAs_error hlevel rfl
  rw [if_neg hid]
  cases hpad : readPadLength fh p with
  | error err =>
    obtain rfl := readPadLength_error hpad
    exact parsedAs_error hlevel rfl
  | ok r =>
    simp only [bind, Except.bind]
    cases hread : readUint32 r.1 with
    | error err =>
      obtain rfl := readUint32_error hread
      exact parsedAs_error hlevel rfl
    | ok r' =>
      dsimp only
      split
      · exact parsedAs_error hlevel rfl
      · exact ⟨rfl, by simp [Frame.Typed, Frame.header, htype], hlevel⟩

/-- Only these two parsers return the error of a stream. -/
theorem typeFrameParser_parsedAs (fh : FrameHeader) (p : Bytes) :
    ParsedAs fh p (typeFrameParser fh.type fh p) := by
  cases htype : fh.type
  case headers => exact parseHeadersFrame_parsedAs htype p
  case windowUpdate => exact parseWindowUpdateFrame_parsedAs htype p
  case pushPromise => exact parsePushPromise_parsedAs htype p
  -- no other parser returns the error of a stream
  all_goals
    have hlevel : ¬ StreamLevel fh p := by simp [StreamLevel, htype]
    simp only [typeFrameParser, parsePriorityFrame, parseRSTStreamFrame, parseSettingsFrame,
      parsePingFrame, parseGoAwayFrame, parseContinuationFrame, parseUnknownFrame, bind,
      Except.bind, pure, Except.pure, throw, throwThe, MonadExceptOf.throw]
    repeat' split
    all_goals simp_all [ParsedAs, Frame.Typed, Frame.header, ReadErr.isStream]

/-! ## The frame that arrives -/

/-- The header and the payload of the next frame, once all of it is there. -/
def arriving (input : Bytes) : Option (FrameHeader × Bytes) :=
  let fh := frameHeader (input.take 9)
  if 9 + fh.length.toNat ≤ input.length then some (fh, (input.drop 9).take fh.length.toNat)
  else none

theorem next_eq_error {n : Nat} (h : next n input = .error err rest) : err = .reader := by
  unfold next at h
  split at h
  · cases h
  · cases h
    rfl

/-- A DATA frame, which is read piece by piece, is never at fault for its stream. -/
theorem parseDataFrame_cases (fh : FrameHeader) (input : Bytes) :
    (∃ data rest, parseDataFrame fh input = .ok (.data fh data) rest) ∨
    ∃ err rest, err.isStream = false ∧ parseDataFrame fh input = .error err rest := by
  have hnext (n : Nat) (input : Bytes) (g : Bytes → Bytes) :
      (∃ data rest, (next n >>= fun b => pure (.data fh (g b)) : Read Frame) input =
        .ok (.data fh data) rest) ∨
      ∃ err rest, err.isStream = false ∧
        (next n >>= fun b => pure (.data fh (g b)) : Read Frame) input = .error err rest := by
    cases h : next n input with
    | ok buf rest => exact .inl ⟨_, _, bind_of_ok h⟩
    | error err rest =>
      obtain rfl := next_eq_error h
      exact .inr ⟨_, _, rfl, bind_of_error h⟩
  unfold parseDataFrame
  by_cases hid : fh.streamID = 0
  · rw [if_pos hid]
    exact .inr ⟨_, _, rfl, throw_bind⟩
  rw [if_neg hid]
  dsimp only
  by_cases hpad : fh.has flagPadded = true
  · rw [if_pos hpad]
    cases h : next 1 input with
    | error err rest =>
      obtain rfl := next_eq_error h
      exact .inr ⟨_, _, rfl, bind_of_error h⟩
    | ok buf rest =>
      rw [bind_of_ok h]
      split
      · exact .inr ⟨_, _, rfl, throw_bind⟩
      · exact hnext _ _ _
  · rw [if_neg hpad]
    exact hnext _ _ id

theorem readPayload_eq_ok (h : readPayload fh input = .ok f rest) : f.header = fh ∧ f.Typed := by
  unfold readPayload at h
  by_cases hdata : fh.type = .data
  · rw [if_pos hdata] at h
    rcases parseDataFrame_cases fh input with ⟨data, rest, hok⟩ | ⟨err, rest, -, herr⟩
    · rw [hok] at h
      cases h
      exact ⟨rfl, by simp [Frame.Typed, Frame.header, hdata]⟩
    · rw [herr] at h
      cases h
  · rw [if_neg hdata] at h
    obtain ⟨payload, input₁, -, h⟩ := bind_eq_ok h
    have hparsed := typeFrameParser_parsedAs fh payload
    cases hparse : typeFrameParser fh.type fh payload with
    | error err =>
      rw [hparse] at h
      cases h
    | ok f' =>
      rw [hparse] at h hparsed
      cases h
      exact ⟨hparsed.1, hparsed.2.1⟩

/-- A payload is at fault for its stream only once all of it is there. -/
theorem readPayload_stream_iff :
    (∃ err rest, err.isStream = true ∧ readPayload fh input = .error err rest) ↔
      fh.length.toNat ≤ input.length ∧ StreamLevel fh (input.take fh.length.toNat) := by
  unfold readPayload
  by_cases hdata : fh.type = .data
  · rw [if_pos hdata]
    refine iff_of_false ?_ (fun h => by simp [StreamLevel, hdata] at h)
    rintro ⟨err, rest, hstream, herr⟩
    rcases parseDataFrame_cases fh input with ⟨data, rest, hok⟩ | ⟨err', rest', herr', hread⟩
    · rw [hok] at herr
      cases herr
    · rw [hread] at herr
      cases herr
      rw [herr'] at hstream
      cases hstream
  · rw [if_neg hdata]
    by_cases hlen : fh.length.toNat ≤ input.length
    · have hnext : next fh.length.toNat input = .ok _ _ := if_pos hlen
      have hparsed := typeFrameParser_parsedAs fh (input.take fh.length.toNat)
      rw [bind_of_ok hnext, and_iff_right hlen]
      cases hparse : typeFrameParser fh.type fh (input.take fh.length.toNat) with
      | error err =>
        rw [hparse] at hparsed
        refine Iff.trans ?_ hparsed
        exact ⟨by rintro ⟨_, _, hstream, ⟨⟩⟩; exact hstream, fun h => ⟨err, _, h, rfl⟩⟩
      | ok f =>
        rw [hparse] at hparsed
        exact iff_of_false (by rintro ⟨_, _, -, ⟨⟩⟩) hparsed.2.2
    · have hnext : next fh.length.toNat input = .error .reader input := if_neg hlen
      rw [bind_of_error hnext]
      exact iff_of_false (by rintro ⟨_, _, hstream, ⟨⟩⟩; cases hstream) (fun h => hlen h.1)

theorem readAndParse_apply (maxReadSize : Nat) (input : Bytes) : readAndParse maxReadSize input =
      if 9 ≤ input.length then
        if maxReadSize < (frameHeader (input.take 9)).length.toNat then
          .error (.frameTooLarge ((input.take 9).take 4) (((input.take 9).drop 4).take 4))
            (input.drop 9)
        else readPayload (frameHeader (input.take 9)) (input.drop 9)
      else .error .reader input := by
  unfold readAndParse readAndCheckFrameHeader
  by_cases hlen : 9 ≤ input.length
  · have hnext : next 9 input = .ok (input.take 9) (input.drop 9) := if_pos hlen
    rw [if_pos hlen, bind_assoc, bind_of_ok hnext]
    dsimp only
    split <;> rfl
  · have hnext : next 9 input = .error .reader input := if_neg hlen
    rw [if_neg hlen, bind_assoc, bind_of_error hnext]

/-- The frame that is read has the header of the frame that arrives. -/
theorem readAndParse_eq_ok (h : readAndParse maxReadSize input = .ok f rest) :
    f.header = frameHeader (input.take 9) ∧ f.Typed := by
  rw [readAndParse_apply] at h
  split at h
  · split at h
    · cases h
    · exact readPayload_eq_ok h
  · cases h

/-- Reading fails with the error of a stream exactly at a frame that is at fault for its stream. -/
theorem readAndParse_stream_iff :
    (∃ err rest, err.isStream = true ∧ readAndParse maxReadSize input = .error err rest) ↔
      ∃ fh p, arriving input = some (fh, p) ∧ fh.length.toNat ≤ maxReadSize ∧
        StreamLevel fh p := by
  rw [readAndParse_apply]
  unfold arriving
  generalize frameHeader (input.take 9) = fh
  by_cases h9 : 9 ≤ input.length
  · by_cases hlarge : maxReadSize < fh.length.toNat
    · simp only [h9, hlarge, if_true]
      refine iff_of_false (by rintro ⟨_, _, hstream, ⟨⟩⟩; cases hstream) ?_
      rintro ⟨fh', p, harr, hle, -⟩
      obtain ⟨-, rfl, -⟩ : _ ∧ fh = fh' ∧ _ := by simpa using harr
      omega
    · simp only [h9, hlarge, if_true, if_false]
      rw [readPayload_stream_iff, List.length_drop]
      constructor
      · rintro ⟨hlen, hlevel⟩
        exact ⟨fh, _, by rw [if_pos (by omega)], by omega, hlevel⟩
      · rintro ⟨fh', p, harr, -, hlevel⟩
        obtain ⟨hlen, rfl, rfl⟩ : _ ∧ fh = fh' ∧ _ = p := by simpa using harr
        exact ⟨by omega, hlevel⟩
  · simp only [h9, if_false]
    refine iff_of_false (by rintro ⟨_, _, hstream, ⟨⟩⟩; cases hstream) ?_
    rintro ⟨fh', p, harr, -⟩
    rw [if_neg (by omega)] at harr
    cases harr

end Kitex.Grpcframe
