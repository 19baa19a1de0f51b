import Kitex.Http2.Loopy

/-! # How a header block is cut into frames

`writeHeader` cuts the encoding of a header list after every 16384 bytes. The first piece goes into
a HEADERS frame and the others into CONTINUATION frames.
-/

namespace Kitex.Http2.LoopyWriter

variable {hpack : Hpack} {block : Bytes} {pieces : List Bytes}

/-- The frames of a block, of which the last ends it. Without the first one there are CONTINUATION
frames only. -/
def blockFrames (streamID : UInt32) (endStream first : Bool) : List Bytes → List Effect
  | [] => []
  | piece :: rest =>
    .wrote (if first then .headers streamID endStream rest.isEmpty piece
      else .continuation streamID rest.isEmpty piece) :: blockFrames streamID endStream false rest

/-- The pieces are the block, none is too long, and there are no more of them than are needed. -/
structure Cuts (block : Bytes) (pieces : List Bytes) : Prop where
  flatten : pieces.flatten = block
  short : ∀ piece ∈ pieces, piece.length ≤ http2MaxFrameLen
  count : pieces.length = max 1 ((block.length + (http2MaxFrameLen - 1)) / http2MaxFrameLen)

theorem cuts_singleton (h : block.length ≤ http2MaxFrameLen) : Cuts block [block] where
  flatten := List.flatten_singleton
  short := by simpa using h
  count := by
    simp only [http2MaxFrameLen, List.length_singleton] at *
    omega

theorem Cuts.cons (hlong : http2MaxFrameLen < block.length)
    (h : Cuts (block.drop http2MaxFrameLen) pieces) :
    Cuts block (block.take http2MaxFrameLen :: pieces) where
  flatten := by rw [List.flatten_cons, h.flatten, List.take_append_drop]
  short := List.forall_mem_cons.mpr ⟨List.length_take_le _ _, h.short⟩
  count := by
    have hcount := h.count
    simp only [http2MaxFrameLen, List.length_drop, List.length_cons] at *
    omega

theorem Cuts.isEmpty (h : Cuts block pieces) : pieces.isEmpty = false := by
  have hcount : 0 < pieces.length := h.count ▸ Nat.lt_of_lt_of_le Nat.one_pos (Nat.le_max_left _ _)
  exact List.isEmpty_eq_false_iff.mpr (List.ne_nil_of_length_pos hcount)

/-- The writer after some calls of the framer. -/
def wrote (l : LoopyWriter hpack) (frames : List Effect) : LoopyWriter hpack :=
  { l with
    framer := { l.framer with calls := l.framer.calls + frames.length }
    effects := l.effects ++ frames }

/-- The framer's next calls, so many of them, do not fail. -/
def Succeeds (l : LoopyWriter hpack) (frames : Nat) : Prop :=
  ∀ call, l.framer.calls ≤ call → call < l.framer.calls + frames → l.framer.fails call = false

theorem writeFrame_of_succeeds {l : LoopyWriter hpack} (frame : Frame)
    (hsucceeds : l.framer.fails l.framer.calls = false) :
    l.writeFrame frame = (l.wrote [.wrote frame], .ok ()) :=
  if_neg (by simp [hsucceeds])

theorem wrote_wrote (l : LoopyWriter hpack) (frames more : List Effect) :
    (l.wrote frames).wrote more = l.wrote (frames ++ more) := by
  simp [wrote, Nat.add_assoc]

theorem length_blockFrames (streamID : UInt32) (endStream first : Bool) (pieces : List Bytes) :
    (blockFrames streamID endStream first pieces).length = pieces.length := by
  induction pieces generalizing first with
  | nil => rfl
  | cons piece rest ih => simp [blockFrames, ih]

/-- How a block is cut depends on the block only. -/
theorem exists_writeHeaderBlocks (hpack : Hpack) (streamID : UInt32) (endStream first : Bool)
    {fuel : Nat} {hBuf : Bytes} (hfuel : hBuf.length < fuel) :
    ∃ pieces, Cuts hBuf pieces ∧ ∀ l : LoopyWriter hpack, l.Succeeds pieces.length →
      writeHeaderBlocks streamID endStream fuel first hBuf l =
        (l.wrote (blockFrames streamID endStream first pieces), .ok ()) := by
  induction fuel generalizing first hBuf with
  | zero => omega
  | succ fuel ih =>
    by_cases hend : hBuf.length ≤ http2MaxFrameLen
    · refine ⟨[hBuf], cuts_singleton hend, fun l hsucceeds => ?_⟩
      have hfirst := hsucceeds _ (Nat.le_refl _) (by simp)
      simp [writeHeaderBlocks, blockFrames, hend, writeFrame_of_succeeds _ hfirst,
        Outcome.andThen_ok]
    · have hlong : http2MaxFrameLen < hBuf.length := by omega
      obtain ⟨pieces, hcuts, hrest⟩ := @ih false (hBuf.drop http2MaxFrameLen)
        (by simp only [List.length_drop, http2MaxFrameLen] at *; omega)
      refine ⟨_, hcuts.cons hlong, fun l hsucceeds => ?_⟩
      have hfirst := hsucceeds _ (Nat.le_refl _) (by simp)
      have hothers : ∀ frame, (l.wrote [.wrote frame]).Succeeds pieces.length :=
        fun frame call hle hlt => hsucceeds call (Nat.le_of_succ_le hle) (by
          simp only [wrote, List.length_cons, List.length_nil] at *
          omega)
      simp only [writeHeaderBlocks, hend, decide_false, Nat.min_eq_right (Nat.le_of_lt hlong),
        writeFrame_of_succeeds _ hfirst, Outcome.andThen_ok, Bool.false_eq_true, if_false,
        hrest _ (hothers _), wrote_wrote, blockFrames, hcuts.isEmpty, List.singleton_append]

/-- The frames of a header list, with a framer that does not fail so many times. -/
theorem exists_writeHeader (hEnc : hpack.State) (streamID : UInt32) (endStream : Bool)
    (hf : List HeaderField) (onWrite : Option Callback) :
    ∃ pieces, Cuts (encodeHeaders hpack hEnc hf).2 pieces ∧
      ∀ l : LoopyWriter hpack, l.hEnc = hEnc → l.Succeeds pieces.length →
        l.writeHeader streamID endStream hf onWrite =
          (wrote { l.call onWrite with hEnc := (encodeHeaders hpack hEnc hf).1 }
            (blockFrames streamID endStream true pieces), .ok ()) := by
  obtain ⟨pieces, hcuts, hwrite⟩ :=
    exists_writeHeaderBlocks hpack streamID endStream true (Nat.lt_succ_self _)
  refine ⟨pieces, hcuts, ?_⟩
  rintro l rfl hsucceeds
  have hcall : (l.call onWrite).hEnc = l.hEnc ∧ (l.call onWrite).framer = l.framer := by
    cases onWrite <;> exact ⟨rfl, rfl⟩
  rw [writeHeader, hcall.1]
  exact hwrite _ (by unfold Succeeds; rw [hcall.2]; exact hsucceeds)

/-- A header list is written as one block, and the loop ends after as many frames as the encoding
takes. -/
theorem writeHeader_frames {l : LoopyWriter hpack} (hframer : ∀ call, l.framer.fails call = false)
    (streamID : UInt32) (endStream : Bool) (hf : List HeaderField) (onWrite : Option Callback) :
    ∃ pieces next, Cuts (encodeHeaders hpack l.hEnc hf).2 pieces ∧
      l.writeHeader streamID endStream hf onWrite = (next, .ok ()) ∧
      next.effects = (l.call onWrite).effects ++ blockFrames streamID endStream true pieces := by
  obtain ⟨pieces, hcuts, hwrite⟩ := exists_writeHeader l.hEnc streamID endStream hf onWrite
  exact ⟨pieces, _, hcuts, hwrite l rfl fun call _ _ => hframer call, rfl⟩

/-- A header of 32768 bytes takes a HEADERS and a CONTINUATION frame, both full. -/
theorem writeHeader_frames_reliable :
    let field : HeaderField := ⟨[97], List.replicate 32767 98⟩
    ∃ first rest next, first ++ rest = 97 :: List.replicate 32767 98 ∧
      first.length = 16384 ∧ rest.length = 16384 ∧
      (newLoopyWriter Hpack.verbatim .clientSide Framer.reliable).writeHeader 1 true [field] none =
        (next, .ok ()) ∧
      next.effects =
        [.wrote (.headers 1 true false first), .wrote (.continuation 1 true rest)] := by
  intro field
  obtain ⟨pieces, next, hcuts, hwrite, heffects⟩ := @writeHeader_frames Hpack.verbatim
    (newLoopyWriter Hpack.verbatim .clientSide Framer.reliable) (fun _ => rfl) 1 true [field] none
  have hblock : (encodeHeaders Hpack.verbatim () [field]).2 = 97 :: List.replicate 32767 98 :=
    List.append_nil _
  rw [show (newLoopyWriter Hpack.verbatim .clientSide Framer.reliable).hEnc = () from rfl,
    hblock] at hcuts
  have hlength : (97 :: List.replicate 32767 98 : Bytes).length = 32768 := by
    rw [List.length_cons, List.length_replicate]
  have hcount := hcuts.count
  rw [hlength] at hcount
  obtain ⟨first, rest, rfl⟩ := List.length_eq_two.mp hcount
  have hflatten := hcuts.flatten
  rw [List.flatten_cons, List.flatten_singleton] at hflatten
  have hfirst := hcuts.short first (by simp)
  have hrest := hcuts.short rest (by simp)
  have hsum := congrArg List.length hflatten
  rw [List.length_append, hlength] at hsum
  simp only [http2MaxFrameLen] at hfirst hrest
  exact ⟨first, rest, next, hflatten, by omega, by omega, hwrite, heffects⟩

end Kitex.Http2.LoopyWriter
