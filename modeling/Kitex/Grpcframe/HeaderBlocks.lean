import Kitex.Grpcframe.FrameErrors
import Kitex.Machine.Run

/-! # Header blocks on a connection

The HPACK decoder has one state for the connection, and a block is decoded fragment by fragment.
Blocks stay apart as long as every frame inside a block either continues it or stops the
connection. The check of the order of frames sees to that, but not for a frame that its parser
rejects with the error of a stream: reading goes on after it, with the block half decoded.
-/

namespace Kitex.Grpcframe

open Kitex.Http2 (Bytes HeaderField)
open Kitex.Machine

/-- Where the decoder is in its sequence of calls. -/
inductive Phase where
  | between
  | inBlock (streamID : UInt32) (nextFrame : Nat)
  /-- the last fragment has been written -/
  | ended
  deriving DecidableEq, Repr

namespace Phase

def afterFragment (frameNo : Nat) (hc : HeadersOrContinuation) : Phase :=
  if hc.headersEnded then .ended else .inBlock hc.header.streamID (frameNo + 1)

/-- A block is a HEADERS frame and the CONTINUATION frames of its stream that directly follow, up
to the one with END_HEADERS. -/
def advance : Phase → DecoderCall → Option Phase
  | .between, .write frameNo (.headers f) => some (afterFragment frameNo (.headers f))
  | .inBlock streamID nextFrame, .write frameNo (.continuation f) =>
    if frameNo = nextFrame ∧ f.header.streamID = streamID then
      some (afterFragment frameNo (.continuation f))
    else none
  | .ended, .close => some .between
  | _, _ => none

end Phase

namespace Conn

variable {cfg : Config} {c : Conn cfg}

def start (hdec : cfg.decoder.State) (input : Bytes) : Conn cfg := { input, hdec }

/-- While a block is read, the frame that arrives is not at fault for its stream. -/
def Undisturbed (c : Conn cfg) : Prop :=
  c.status = .reading → c.calls ≠ [] → ∀ fh p, arriving c.input = some (fh, p) →
    fh.length.toNat ≤ cfg.maxReadSize → ¬ StreamLevel fh p

/-- Header blocks are not mixed. Any other frame inside a block than a CONTINUATION frame of its
stream is an error that stops the connection. -/
structure BlocksApart (c : Conn cfg) : Prop where
  no_panic : c.status ≠ .panicked
  blocks : ∃ phase, run Phase.advance .between c.decoderCalls = some phase
  inside : ∀ mh outer fh p, c.status = .reading → c.calls = mh :: outer →
    arriving c.input = some (fh, p) →
      (fh.type = .continuation ∧ fh.streamID = mh.headersFrame.header.streamID) ∨
        ∃ err, c.step.status = .stopped err

/-- Between two frames: no block has begun, or one call reads the block that has. -/
inductive Matches (c : Conn cfg) : Phase → Prop
  | between (hcalls : c.calls = []) (hlast : c.lastHeaderStream = 0) : Matches c .between
  | inBlock (mh : MetaHeadersFrame) (hcalls : c.calls = [mh])
      (hlast : c.lastHeaderStream = mh.headersFrame.header.streamID)
      (hid : c.lastHeaderStream ≠ 0) (hframe : c.lastFrame.isSome) :
      Matches c (.inBlock c.lastHeaderStream c.framesRead)

/-- The calls of the decoder are a sequence of blocks, and the framer and the calls in progress
agree on whether the last one is complete. -/
structure Inv (c : Conn cfg) : Prop where
  no_panic : c.status ≠ .panicked
  phase : ∃ phase, run Phase.advance .between c.decoderCalls = some phase ∧
    (c.status = .reading → c.Matches phase)

/-- Fields are added to a block, and its first frame stays. -/
theorem emit_headersFrame (mh : MetaHeadersFrame) (fields : List HeaderField) :
    (fields.foldl (MetaHeadersFrame.emit cfg) mh).headersFrame = mh.headersFrame := by
  induction fields generalizing mh with
  | nil => rfl
  | cons hf fields ih =>
    rw [List.foldl_cons, ih]
    unfold MetaHeadersFrame.emit
    dsimp only
    split_ifs <;> rfl

variable {err : ReadErr} {mh : MetaHeadersFrame} {rest : Bytes} {f : Frame}

open Phase

/-- Once the connection has stopped, the framer need not agree with the calls. -/
theorem inv_of_stopped (hstatus : c.status = .stopped err)
    (hphase : ∃ phase, run advance .between c.decoderCalls = some phase) : c.Inv := by
  obtain ⟨phase, hphase⟩ := hphase
  exact ⟨by simp [hstatus], phase, hphase, by simp [hstatus]⟩

theorem inv_of_between (hstatus : c.status = .reading) (hcalls : c.calls = [])
    (hlast : c.lastHeaderStream = 0)
    (hphase : run advance .between c.decoderCalls = some .between) : c.Inv :=
  ⟨by simp [hstatus], .between, hphase, fun _ => .between hcalls hlast⟩

/-- Closing the decoder ends a block. -/
theorem run_close {calls : List DecoderCall} (h : run advance .between calls = some .ended) :
    run advance .between (calls ++ [.close]) = some .between :=
  run_append_singleton_eq_some.mpr ⟨.ended, h, rfl⟩

/-- After the last fragment the decoder is closed, or the connection stops. -/
theorem finishBlock_inv (hstatus : c.status = .reading) (hlast : c.lastHeaderStream = 0)
    (hphase : run advance .between c.decoderCalls = some .ended) :
    (c.finishBlock mh []).Inv := by
  unfold finishBlock
  split
  · exact inv_of_stopped rfl ⟨_, hphase⟩
  · dsimp only
    split
    · exact inv_of_between rfl rfl hlast (run_close hphase)
    · exact inv_of_between rfl rfl hlast (run_close hphase)
    · exact inv_of_between hstatus rfl hlast (run_close hphase)

/-- A fragment begins or continues a block, which it ends if it is the last one. -/
theorem writeFragment_inv {frameNo : Nat} {hc : HeadersOrContinuation}
    (hstatus : c.status = .reading) (hframe : c.lastFrame.isSome) (hno : c.framesRead = frameNo + 1)
    (hlast : c.lastHeaderStream = if hc.headersEnded then 0 else hc.header.streamID)
    (hmh : mh.headersFrame.header.streamID = hc.header.streamID) (hid : hc.header.streamID ≠ 0)
    (hbefore : ∃ phase, run advance .between c.decoderCalls = some phase)
    (hphase : run advance .between (c.decoderCalls ++ [.write frameNo hc]) =
      some (afterFragment frameNo hc)) : (c.writeFragment mh [] frameNo hc).Inv := by
  unfold writeFragment
  split
  · exact inv_of_stopped rfl hbefore
  · rename_i fields hdec _
    unfold afterFragment at hphase
    by_cases hended : hc.headersEnded = true
    · rw [if_pos hended] at hphase hlast ⊢
      exact finishBlock_inv hstatus hlast hphase
    · rw [if_neg hended] at hphase hlast ⊢
      refine ⟨by simp [hstatus], _, hphase, fun _ => ?_⟩
      rw [← hlast, ← hno]
      refine .inBlock _ rfl ?_ ?_ hframe
      · rw [emit_headersFrame, hmh]
        exact hlast
      · rw [← hlast] at hid
        exact hid

/-- Reading goes on after the error of a stream only. -/
theorem fail_of_not_stream (herr : err.isStream = false) : (c.fail err).status = .stopped err := by
  simp [fail, herr]

/-- Between blocks every frame but a CONTINUATION frame is in order. -/
theorem checkFrameOrder_between (hlast : c.lastHeaderStream = 0) (fh : FrameHeader) :
    fh.type ≠ .continuation ∧ c.checkFrameOrder fh = .inOrder ∨ fh.type = .continuation ∧
      ∃ err, err.isStream = false ∧ c.checkFrameOrder fh = .outOfOrder err := by
  unfold checkFrameOrder
  rw [if_neg (not_not.mpr hlast)]
  by_cases htype : fh.type = .continuation
  · exact .inr ⟨htype, _, rfl, if_pos htype⟩
  · exact .inl ⟨htype, if_neg htype⟩

/-- Inside a block only a CONTINUATION frame of its stream is in order. -/
theorem checkFrameOrder_inBlock (hlast : c.lastHeaderStream ≠ 0) (hframe : c.lastFrame.isSome)
    (fh : FrameHeader) : (fh.type = .continuation ∧ fh.streamID = c.lastHeaderStream) ∧
      c.checkFrameOrder fh = .inOrder ∨
    ∃ err, err.isStream = false ∧ c.checkFrameOrder fh = .outOfOrder err := by
  obtain ⟨last, hframe⟩ := Option.isSome_iff_exists.mp hframe
  unfold checkFrameOrder
  rw [if_pos hlast]
  by_cases htype : fh.type = .continuation
  · rw [if_neg (not_not.mpr htype)]
    by_cases hid : fh.streamID = c.lastHeaderStream
    · exact .inl ⟨⟨htype, hid⟩, if_neg (not_not.mpr hid)⟩
    · exact .inr ⟨_, rfl, if_pos hid⟩
  · rw [if_pos htype, hframe]
    exact .inr ⟨_, rfl, rfl⟩

theorem afterFrame_headers {f : HeadersFrame} (htype : f.header.type = .headers) :
    c.afterFrame f.header = if f.headersEnded then 0 else f.header.streamID := by
  simp only [afterFrame, htype]
  rfl

theorem afterFrame_continuation {f : ContinuationFrame} (htype : f.header.type = .continuation) :
    c.afterFrame f.header = if f.headersEnded then 0 else f.header.streamID := by
  simp only [afterFrame, htype]
  rfl

/-- Only frames of blocks change which block is open. -/
theorem afterFrame_other {fh : FrameHeader} (hheaders : fh.type ≠ .headers)
    (hcont : fh.type ≠ .continuation) : c.afterFrame fh = c.lastHeaderStream := by
  unfold afterFrame
  split
  · exact absurd ‹_› hheaders
  · exact absurd ‹_› hcont
  · rfl

section Reading

variable (hstatus : c.status = .reading)
include hstatus

theorem step_of_error (hread : readAndParse cfg.maxReadSize c.input = .error err rest) :
    c.step = fail { c with input := rest, framesRead := c.framesRead + 1 } err := by
  simp only [step, hstatus, hread]

variable (hread : readAndParse cfg.maxReadSize c.input = .ok f rest)
include hread

theorem step_of_outOfOrder (horder : c.checkFrameOrder f.header = .outOfOrder err) :
    c.step = fail { c with
      input := rest, framesRead := c.framesRead + 1, lastFrame := some f.header } err := by
  simp only [step, hstatus, hread, horder]

/-- A frame in order is handed on, with the stream whose block is open after it. -/
theorem step_of_inOrder (horder : c.checkFrameOrder f.header = .inOrder) :
    c.step = handleFrame { c with
      input := rest, framesRead := c.framesRead + 1, lastFrame := some f.header
      lastHeaderStream := c.afterFrame f.header } c.framesRead f := by
  simp only [step, hstatus, hread, horder]

theorem step_inv_between (hphase : run advance .between c.decoderCalls = some .between)
    (hcalls : c.calls = []) (hlast : c.lastHeaderStream = 0) : c.step.Inv := by
  obtain ⟨-, htyped⟩ := readAndParse_eq_ok hread
  rcases checkFrameOrder_between hlast f.header with ⟨htype, horder⟩ | ⟨-, err, herr, horder⟩
  · rw [step_of_inOrder hstatus hread horder]
    cases f with
    | headers hf =>
      simp only [hcalls]
      refine writeFragment_inv hstatus rfl rfl (afterFrame_headers htyped.1) rfl htyped.2
        ⟨_, hphase⟩ ?_
      exact run_append_singleton_eq_some.mpr ⟨_, hphase, rfl⟩
    | continuation cf => exact absurd htyped.1 htype
    | _ =>
      unfold handleFrame deliver
      simp only [hcalls, List.isEmpty_nil, if_true]
      exact inv_of_between hstatus rfl ((afterFrame_other htyped.1 htyped.2).trans hlast) hphase
  · rw [step_of_outOfOrder hstatus hread horder]
    exact inv_of_stopped (fail_of_not_stream herr) ⟨_, hphase⟩

theorem step_inv_inBlock (hphase : run advance .between c.decoderCalls =
      some (.inBlock c.lastHeaderStream c.framesRead)) (hcalls : c.calls = [mh])
    (hlast : c.lastHeaderStream = mh.headersFrame.header.streamID) (hid : c.lastHeaderStream ≠ 0)
    (hframe : c.lastFrame.isSome) : c.step.Inv := by
  obtain ⟨-, htyped⟩ := readAndParse_eq_ok hread
  rcases checkFrameOrder_inBlock hid hframe f.header with
    ⟨⟨htype, hsame⟩, horder⟩ | ⟨err, herr, horder⟩
  · rw [step_of_inOrder hstatus hread horder]
    cases f with
    | continuation cf =>
      simp only [hcalls]
      refine writeFragment_inv hstatus rfl rfl (afterFrame_continuation htyped.1)
        (hlast.symm.trans hsame.symm) htyped.2 ⟨_, hphase⟩ ?_
      exact run_append_singleton_eq_some.mpr ⟨_, hphase, if_pos ⟨rfl, hsame⟩⟩
    | headers hf => simp [htyped.1] at htype
    | _ => exact absurd htype htyped.2
  · rw [step_of_outOfOrder hstatus hread horder]
    exact inv_of_stopped (fail_of_not_stream herr) ⟨_, hphase⟩

end Reading

/-- A step that no frame disturbs keeps the invariant. -/
theorem Inv.step (hinv : c.Inv) (hund : c.Undisturbed) : c.step.Inv := by
  cases hstatus : c.status with
  | panicked => exact absurd hstatus hinv.no_panic
  | stopped err =>
    have hsame : c.step = c := by simp only [Conn.step, hstatus]
    rwa [hsame]
  | reading =>
    obtain ⟨phase, hphase, hmatch⟩ := hinv.phase
    cases hread : readAndParse cfg.maxReadSize c.input with
    | error err rest =>
      rw [step_of_error hstatus hread]
      by_cases herr : err.isStream = true
      · obtain ⟨fh, p, harr, hle, hlevel⟩ := readAndParse_stream_iff.mp ⟨err, rest, herr, hread⟩
        cases hmatch hstatus with
        | between hcalls hlast =>
          exact inv_of_between (by simp [fail, herr]) rfl hlast hphase
        | inBlock mh hcalls =>
          exact absurd hlevel (hund hstatus (by simp [hcalls]) fh p harr hle)
      · exact inv_of_stopped (fail_of_not_stream (by simpa using herr)) ⟨_, hphase⟩
    | ok f rest =>
      cases hmatch hstatus with
      | between hcalls hlast => exact step_inv_between hstatus hread hphase hcalls hlast
      | inBlock mh hcalls hlast hid hframe =>
        exact step_inv_inBlock hstatus hread hphase hcalls hlast hid hframe

/-- What arrives inside a block continues it or stops the connection. -/
theorem Inv.blocksApart (hinv : c.Inv) (hund : c.Undisturbed) : c.BlocksApart := by
  obtain ⟨phase, hphase, hmatch⟩ := hinv.phase
  refine ⟨hinv.no_panic, ⟨phase, hphase⟩, fun mh outer fh p hstatus hcalls harr => ?_⟩
  cases hmatch hstatus with
  | between hnil => simp [hnil] at hcalls
  | inBlock mh' hcalls' hlast hid hframe =>
    obtain ⟨rfl, -⟩ : mh' = mh ∧ _ := by simpa [hcalls'] using hcalls
    cases hread : readAndParse cfg.maxReadSize c.input with
    | error err rest =>
      have herr : err.isStream = false := by
        rw [← Bool.not_eq_true]
        intro herr
        obtain ⟨fh, p, harr, hle, hlevel⟩ := readAndParse_stream_iff.mp ⟨err, rest, herr, hread⟩
        exact hund hstatus (by simp [hcalls']) fh p harr hle hlevel
      rw [step_of_error hstatus hread]
      exact .inr ⟨err, fail_of_not_stream herr⟩
    | ok f rest =>
      obtain ⟨hheader, -⟩ := readAndParse_eq_ok hread
      have hfh : f.header = fh := by
        unfold arriving at harr
        dsimp only at harr
        split at harr <;> simp_all
      rcases checkFrameOrder_inBlock hid hframe f.header with ⟨hcont, -⟩ | ⟨err, herr, horder⟩
      · rw [hfh, hlast] at hcont
        exact .inl hcont
      · rw [step_of_outOfOrder hstatus hread horder]
        exact .inr ⟨err, fail_of_not_stream herr⟩

/-- The frame of a stream error inside a block is no connection error. -/
theorem BlocksApart.undisturbed (h : c.BlocksApart) : c.Undisturbed := by
  intro hstatus hcalls fh p harr hle hlevel
  obtain ⟨mh, outer, hcalls⟩ := List.exists_cons_of_ne_nil hcalls
  obtain ⟨err, rest, herr, hread⟩ := readAndParse_stream_iff.mpr ⟨fh, p, harr, hle, hlevel⟩
  rcases h.inside mh outer fh p hstatus hcalls harr with ⟨htype, -⟩ | ⟨err', hstopped⟩
  · obtain ⟨-, ⟨htype', -⟩ | ⟨htype', -⟩⟩ := hlevel <;> simp [htype'] at htype
  · rw [step_of_error hstatus hread] at hstopped
    simp [fail, herr] at hstopped

theorem start_inv (hdec : cfg.decoder.State) (input : Bytes) : (start hdec input).Inv :=
  inv_of_between rfl rfl rfl rfl

theorem after_inv {n : Nat} (hinv : c.Inv) (hund : ∀ k < n, (c.after k).Undisturbed) :
    (c.after n).Inv := by
  induction n with
  | zero => exact hinv
  | succ n ih =>
    unfold after
    rw [Function.iterate_succ_apply']
    exact (ih fun k hk => hund k (Nat.lt_succ_of_lt hk)).step (hund n n.lt_succ_self)

/-- Whatever the peer sends and however the decoder works, header blocks stay apart in a run
exactly if none of them is disturbed by a frame at fault for its stream. -/
theorem blocksApart_iff_undisturbed (hdec : cfg.decoder.State) (input : Bytes) (n : Nat) :
    (∀ k ≤ n, ((start hdec input).after k).BlocksApart) ↔
      ∀ k ≤ n, ((start hdec input).after k).Undisturbed := by
  refine ⟨fun h k hk => (h k hk).undisturbed, fun h k hk => ?_⟩
  have hinv := after_inv (start_inv hdec input) fun i (hi : i < k) => h i (by omega)
  exact hinv.blocksApart (h k hk)

end Conn

/-! ## A block that is disturbed -/

/-- A text of HPACK with its length, without Huffman code and with less than 127 bytes. -/
def readText : Bytes → Option (Bytes × Bytes)
  | [] => none
  | length :: rest =>
    if length < 127 ∧ length.toNat ≤ rest.length then some (rest.splitAt length.toNat) else none

/-- The literal fields of HPACK with new names, and the bytes of one that is not complete. -/
def literalFields : (fields : Nat) → Bytes → Option (List HeaderField × Bytes)
  | _, [] => some ([], [])
  | fields + 1, 0x40 :: rest =>
    match (readText rest).bind fun (name, rest) => (readText rest).map (name, ·) with
    | none => some ([], 0x40 :: rest)
    | some (name, value, rest) => do
      let (found, left) ← literalFields fields rest
      return ((⟨name, value⟩ : HeaderField) :: found, left)
  | _, _ :: _ => none

/-- A decoder of literal fields, which keeps the first bytes of a field until it gets the others. -/
def literalDecoder : Decoder where
  State := Bytes
  write saved p := literalFields (saved ++ p).length (saved ++ p)
  close saved := if saved.isEmpty then some saved else none

def literalConfig : Config where
  decoder := literalDecoder
  validHeaderFieldValue _ := true
  isTokenRune _ := true
  maxReadSize := 2 ^ 24 - 1
  maxHeaderListSize := 0

/-- A HEADERS frame of stream 1 that ends after the name of a field, a WINDOW_UPDATE frame of stream
1 with no increment, the CONTINUATION frame with the value, and a HEADERS frame of stream 3 with
END_HEADERS and another value. -/
def disturbed : Conn literalConfig :=
  Conn.start ([] : Bytes) <|
    [0, 0, 3, 1, 0, 0, 0, 0, 1, 0x40, 1, 0x61] ++
    [0, 0, 4, 8, 0, 0, 0, 0, 1, 0, 0, 0, 0] ++
    [0, 0, 2, 9, 4, 0, 0, 0, 1, 1, 0x78] ++
    [0, 0, 2, 1, 4, 0, 0, 0, 3, 1, 0x62]

/-- The stream and the fields of a header block. -/
def Received.block : Received → Option (UInt32 × List HeaderField)
  | .frame _ => none
  | .metaHeaders mh => some (mh.headersFrame.header.streamID, mh.fields)

/-- The connection reads on after the WINDOW_UPDATE frame, and stream 3 gets a field with the name
that stream 1 has sent. -/
theorem exists_blocks_mixed : (disturbed.after 2).status = .reading ∧
      (disturbed.after 4).received.filterMap Received.block = [(3, [⟨[0x61], [0x62]⟩])] ∧
      ¬ (disturbed.after 4).BlocksApart := by
  have hrun : run Phase.advance .between (disturbed.after 4).decoderCalls = none := by
    decide +kernel
  refine ⟨by decide +kernel, by decide +kernel, fun h => ?_⟩
  obtain ⟨phase, hphase⟩ := h.blocks
  rw [hrun] at hphase
  cases hphase

end Kitex.Grpcframe
