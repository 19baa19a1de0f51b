import Kitex.Container.Fragments
import Kitex.Http2.HeaderFragments

/-! # What one call of the loopy writer does

With a framer that does not fail, every call is described by the change of the
scheduling fields and by the effects it appends. `Turn` lists the possible
turns of `processData`; the invariants of the writer are proved from it and
from the handlers, without looking into `processData` again.
-/

namespace Kitex.Http2

open Kitex.Container

variable {hpack : Hpack} {streamID : UInt32}

namespace Effect

/-- Effects that write neither data nor trailers. -/
def IsNeutral : Effect → Prop
  | .wrote (.data ..) => False
  | .wrote (.headers _ endStream _ _) => endStream = false
  | _ => True

end Effect

/-- A header block: one HEADERS frame of the stream among neutral effects. -/
def HeaderBlock (streamID : UInt32) (endStream : Bool) (added : List Effect) : Prop :=
  ∃ before endHeaders fragment after,
    added = before ++ .wrote (.headers streamID endStream endHeaders fragment) :: after ∧
    (∀ effect ∈ before, effect.IsNeutral) ∧ ∀ effect ∈ after, effect.IsNeutral

theorem HeaderBlock.neutral {added : List Effect} (hblock : HeaderBlock streamID false added) :
    ∀ effect ∈ added, effect.IsNeutral := by
  obtain ⟨before, endHeaders, fragment, after, rfl, hbefore, hafter⟩ := hblock
  intro effect heffect
  simp only [List.mem_append, List.mem_cons] at heffect
  rcases heffect with hmem | rfl | hmem
  · exact hbefore effect hmem
  · rfl
  · exact hafter effect hmem

theorem HeaderBlock.append_neutral {endStream : Bool} {added more : List Effect}
    (hblock : HeaderBlock streamID endStream added) (hmore : ∀ effect ∈ more, effect.IsNeutral) :
    HeaderBlock streamID endStream (added ++ more) := by
  obtain ⟨before, endHeaders, fragment, after, rfl, hbefore, hafter⟩ := hblock
  refine ⟨before, endHeaders, fragment, after ++ more, by simp, hbefore, ?_⟩
  intro effect heffect
  rcases List.mem_append.mp heffect with hmem | hmem
  · exact hafter effect hmem
  · exact hmore effect hmem

namespace LoopyWriter

/-- The framer of the writer never fails. -/
def Reliable (l : LoopyWriter hpack) : Prop :=
  ∀ call, l.framer.fails call = false

/-- The two writers schedule alike: they differ at most in the HPACK encoder,
the count of framer calls and the effects. -/
structure SameCore (l next : LoopyWriter hpack) : Prop where
  side : next.side = l.side
  sendQuota : next.sendQuota = l.sendQuota
  oiws : next.oiws = l.oiws
  estdStreams : next.estdStreams = l.estdStreams
  activeStreams : next.activeStreams = l.activeStreams
  draining : next.draining = l.draining
  fails : next.framer.fails = l.framer.fails

theorem SameCore.refl (l : LoopyWriter hpack) : l.SameCore l :=
  ⟨rfl, rfl, rfl, rfl, rfl, rfl, rfl⟩

variable {l next : LoopyWriter hpack}

theorem SameCore.trans {middle : LoopyWriter hpack} (hfirst : l.SameCore middle)
    (hsecond : middle.SameCore next) : l.SameCore next :=
  ⟨hsecond.side.trans hfirst.side, hsecond.sendQuota.trans hfirst.sendQuota,
    hsecond.oiws.trans hfirst.oiws, hsecond.estdStreams.trans hfirst.estdStreams,
    hsecond.activeStreams.trans hfirst.activeStreams, hsecond.draining.trans hfirst.draining,
    hsecond.fails.trans hfirst.fails⟩

theorem SameCore.reliable (hsame : l.SameCore next) (hreliable : l.Reliable) : next.Reliable := by
  intro call
  rw [hsame.fails]
  exact hreliable call

theorem sameCore_record (l : LoopyWriter hpack) (effect : Effect) : l.SameCore (l.record effect) :=
  ⟨rfl, rfl, rfl, rfl, rfl, rfl, rfl⟩

theorem SameCore.strQuota (hsame : l.SameCore next) (str : OutStream) :
    next.strQuota str = l.strQuota str := by
  rw [LoopyWriter.strQuota, hsame.oiws, LoopyWriter.strQuota]

theorem call_cases (l : LoopyWriter hpack) (callback : Option Callback) :
    ∃ added, l.SameCore (l.call callback) ∧ (l.call callback).effects = l.effects ++ added ∧
      ∀ effect ∈ added, effect.IsNeutral := by
  cases callback with
  | none => exact ⟨[], .refl l, by simp [call], by simp⟩
  | some callback =>
    exact ⟨[.called callback], l.sameCore_record _, rfl, by simp [Effect.IsNeutral]⟩

/-! ## Calls of the framer -/

theorem writeFrame_ok (hreliable : l.Reliable) (frame : Frame) :
    ∃ next, l.writeFrame frame = (next, .ok ()) ∧ l.SameCore next ∧
      next.effects = l.effects ++ [.wrote frame] := by
  unfold writeFrame
  rw [if_neg (by rw [hreliable]; exact Bool.false_ne_true)]
  exact ⟨_, rfl, ⟨rfl, rfl, rfl, rfl, rfl, rfl, rfl⟩, rfl⟩

/-- Behind its first frame, a header block consists of continuations. -/
theorem isNeutral_continuations (streamID : UInt32) (endStream : Bool) (pieces : List Bytes) :
    ∀ effect ∈ blockFrames streamID endStream false pieces, effect.IsNeutral := by
  induction pieces with
  | nil => simp [blockFrames]
  | cons piece rest ih => exact List.forall_mem_cons.mpr ⟨trivial, ih⟩

theorem writeHeader_ok (hreliable : l.Reliable) (streamID : UInt32) (endStream : Bool)
    (hf : List HeaderField) (onWrite : Option Callback) :
    ∃ next added, l.writeHeader streamID endStream hf onWrite = (next, .ok ()) ∧
      l.SameCore next ∧ next.effects = l.effects ++ added ∧
      HeaderBlock streamID endStream added := by
  obtain ⟨before, hsame, heffects, hbefore⟩ := call_cases l onWrite
  obtain ⟨pieces, hcuts, hwrite⟩ := exists_writeHeader l.hEnc streamID endStream hf onWrite
  refine ⟨_, before ++ blockFrames streamID endStream true pieces,
    hwrite l rfl fun call _ _ => hreliable call, hsame.trans ⟨rfl, rfl, rfl, rfl, rfl, rfl, rfl⟩,
    by simp [wrote, heffects], ?_⟩
  cases pieces with
  | nil => cases hcuts.isEmpty
  | cons piece rest =>
    exact ⟨before, _, _, _, rfl, hbefore, isNeutral_continuations streamID endStream rest⟩

/-! ## Cleaning up a stream -/

theorem forget_congr (hsame : l.SameCore next) (streamID : UInt32) :
    (l.forget streamID).SameCore (next.forget streamID) := by
  unfold forget
  rw [hsame.estdStreams]
  split
  · exact hsame
  · exact { hsame with estdStreams := rfl, activeStreams := by rw [hsame.activeStreams] }

section

variable (l : LoopyWriter hpack)

@[simp] theorem forget_effects (streamID : UInt32) : (l.forget streamID).effects = l.effects := by
  unfold forget
  split <;> rfl

@[simp] theorem forget_sendQuota (streamID : UInt32) :
    (l.forget streamID).sendQuota = l.sendQuota := by
  unfold forget
  split <;> rfl

@[simp] theorem forget_oiws (streamID : UInt32) : (l.forget streamID).oiws = l.oiws := by
  unfold forget
  split <;> rfl

theorem forget_side (streamID : UInt32) : (l.forget streamID).side = l.side := by
  unfold forget
  split <;> rfl

end

theorem forget_reliable (hreliable : l.Reliable) (streamID : UInt32) :
    (l.forget streamID).Reliable := by
  unfold forget
  split <;> exact hreliable

theorem cleanupStreamHandler_cases (hreliable : l.Reliable) (c : CleanupStream) :
    ∃ next result added, l.cleanupStreamHandler c = (next, result) ∧
      result ≠ .error .panicked ∧ (l.forget c.streamID).SameCore next ∧
      next.effects = l.effects ++ added ∧ ∀ effect ∈ added, effect.IsNeutral := by
  have hforget := forget_congr (l.sameCore_record (.called c.onWrite)) c.streamID
  obtain ⟨reset, added, hreset, hsame, heffects, hneutral⟩ :
      ∃ reset added, (if c.rst = true then
          ((l.record (.called c.onWrite)).forget c.streamID).writeFrame
            (.rstStream c.streamID c.rstCode)
        else ((l.record (.called c.onWrite)).forget c.streamID, .ok ()) :
          Outcome hpack Unit) = (reset, .ok ()) ∧
        (l.forget c.streamID).SameCore reset ∧ reset.effects = l.effects ++ added ∧
        ∀ effect ∈ added, effect.IsNeutral := by
    split
    · obtain ⟨reset, hwrite, hsame, heffects⟩ := writeFrame_ok
        (hforget.reliable (forget_reliable hreliable c.streamID))
        (.rstStream c.streamID c.rstCode)
      refine ⟨reset, [.called c.onWrite, .wrote (.rstStream c.streamID c.rstCode)], hwrite,
        hforget.trans hsame, ?_, by simp [Effect.IsNeutral]⟩
      rw [heffects]
      simp [record]
    · exact ⟨_, [.called c.onWrite], rfl, hforget, by simp [record], by simp [Effect.IsNeutral]⟩
  obtain ⟨result, hresult, hpanic⟩ : ∃ result : Except LoopyErr Unit,
      Outcome.andThen (reset, .ok ()) (fun l _ =>
        if l.side = .clientSide ∧ l.draining = true ∧ l.estdStreams.keys = [] then
          (l, .error .connClosing)
        else (l, .ok ())) = (reset, result) ∧ result ≠ .error .panicked := by
    simp only [Outcome.andThen]
    split
    · exact ⟨_, rfl, by simp⟩
    · exact ⟨_, rfl, by simp⟩
  obtain ⟨more, hcalled, heffects', hmore⟩ := call_cases reset c.onFinishWrite
  simp only [cleanupStreamHandler, hreset, hresult]
  refine ⟨_, result, added ++ more, rfl, hpanic, hsame.trans hcalled, ?_, ?_⟩
  · rw [heffects', heffects, List.append_assoc]
  · intro effect heffect
    rcases List.mem_append.mp heffect with hmem | hmem
    · exact hneutral effect hmem
    · exact hmore effect hmem

/-- Trailers go out as one header block and take their stream with them. -/
theorem trailers_cases (hreliable : l.Reliable) (t : HeaderFrame) : ∃ middle next result added,
      l.writeHeader t.streamID t.endStream t.hf t.onWrite = (middle, .ok ()) ∧
      middle.cleanupTrailers t.cleanup = (next, result) ∧
      next.effects = l.effects ++ added ∧ HeaderBlock t.streamID t.endStream added ∧
      (t.cleanup.isSome ∧ result ≠ .error .panicked ∧ (l.forget t.streamID).SameCore next ∨
        t.cleanup = none ∧ result = .error .panicked ∧ l.SameCore next) := by
  obtain ⟨middle, added, hwrite, hsame, heffects, hblock⟩ :=
    writeHeader_ok hreliable t.streamID t.endStream t.hf t.onWrite
  cases hcleanup : t.cleanup with
  | none =>
    exact ⟨middle, middle, .error .panicked, added, hwrite, rfl, heffects, hblock,
      .inr ⟨rfl, rfl, hsame⟩⟩
  | some c =>
    obtain ⟨next, result, more, hclean, hpanic, hforget, heffects', hmore⟩ :=
      cleanupStreamHandler_cases (hsame.reliable hreliable) c
    rw [t.cleanup_streamID c hcleanup] at hforget
    refine ⟨middle, next, result, added ++ more, hwrite, hclean, ?_,
      hblock.append_neutral hmore, .inl ⟨rfl, hpanic, ?_⟩⟩
    · rw [heffects', heffects, List.append_assoc]
    · exact (forget_congr hsame t.streamID).trans hforget

end LoopyWriter

/-! ## Turns of `processData` -/

namespace DataFrame

/-- What a data frame carries: its bytes, and whether it ends the stream. -/
def message (df : DataFrame) : Piece UInt8 := ⟨df.h ++ df.d, df.endStream⟩

end DataFrame

/-- How much of a data frame one turn sends, within the frame size and both
windows. The header part goes first, and something is sent unless there is
nothing left. -/
structure Cut (l : LoopyWriter hpack) (str : OutStream) (df : DataFrame) where
  hSize : Nat
  dSize : Nat
  h_le : hSize ≤ df.h.length
  d_le : dSize ≤ df.d.length
  ordered : 0 < dSize → hSize = df.h.length
  frame_le : hSize + dSize ≤ http2MaxFrameLen
  conn_le : hSize + dSize ≤ l.sendQuota.toNat
  stream_le : 0 < hSize + dSize → ((hSize + dSize : Nat) : Int) ≤ l.strQuota str
  progress : hSize + dSize = 0 → df.h = [] ∧ df.d = []

namespace Cut

variable {l : LoopyWriter hpack} {str : OutStream} {df : DataFrame}

def size (cut : Cut l str df) : Nat := cut.hSize + cut.dSize

/-- What is left of the data frame. -/
def left (cut : Cut l str df) : DataFrame :=
  { df with h := df.h.drop cut.hSize, d := df.d.drop cut.dSize }

/-- The piece that goes out in a DATA frame. -/
def piece (cut : Cut l str df) : Piece UInt8 where
  content := df.h.take cut.hSize ++ df.d.take cut.dSize
  last := df.endStream && decide (cut.left.h = [] ∧ cut.left.d = [])

/-- The item list once the piece has been taken from its head. -/
def itl (cut : Cut l str df) (rest : List StreamItem) : List StreamItem :=
  if cut.left.h = [] ∧ cut.left.d = [] then rest else .data cut.left :: rest

/-- The stream once the piece has been sent. -/
def stream (cut : Cut l str df) (rest : List StreamItem) : OutStream :=
  { str with bytesOutStanding := str.bytesOutStanding + (cut.size : Int), itl := cut.itl rest }

theorem piece_content_length (cut : Cut l str df) : cut.piece.content.length = cut.size := by
  simp [piece, size, Nat.min_eq_left cut.h_le, Nat.min_eq_left cut.d_le]

/-- The piece and what is left make up the data frame. -/
theorem piece_append_left (cut : Cut l str df) :
    cut.piece.content ++ cut.left.message.content = df.message.content := by
  simp only [piece, left, DataFrame.message]
  rcases Nat.eq_zero_or_pos cut.dSize with hzero | hpos
  · rw [hzero, List.take_zero, List.append_nil, List.drop_zero, ← List.append_assoc,
      List.take_append_drop]
  · rw [cut.ordered hpos, List.take_length, List.drop_length, List.nil_append,
      List.append_assoc, List.take_append_drop]

/-- The whole data frame is sent exactly when nothing of it is left. -/
theorem left_nil_iff (cut : Cut l str df) :
    (cut.left.h = [] ∧ cut.left.d = []) ↔ df.h.length + df.d.length ≤ cut.size := by
  simp only [left, List.drop_eq_nil_iff, size]
  constructor
  · rintro ⟨hh, hd⟩
    omega
  · intro hle
    have := cut.h_le
    have := cut.d_le
    omega

end Cut

namespace LoopyWriter

/-- What becomes of a stream when a piece of it has been sent: it has nothing
to send, it sends its trailers and is forgotten, it waits for stream quota, or
it goes to the end of the active streams. -/
inductive Disposed (l : LoopyWriter hpack) (str : OutStream) :
    LoopyWriter hpack → List Effect → Except LoopyErr Bool → Prop
  | drained {next : LoopyWriter hpack} (hitl : str.itl = [])
      (hsame : (l.setStream { str with state := .empty }).SameCore next) :
      Disposed l str next [] (.ok false)
  | requeued {next : LoopyWriter hpack} {df : DataFrame} {rest : List StreamItem}
      (hitl : str.itl = .data df :: rest)
      (hsame : ((l.setStream str).activate str.id).SameCore next) :
      Disposed l str next [] (.ok false)
  | blocked {next : LoopyWriter hpack} {df : DataFrame} {rest : List StreamItem}
      (hitl : str.itl = .data df :: rest) (hquota : l.strQuota str ≤ 0)
      (hsame : (l.setStream { str with state := .waitingOnStreamQuota }).SameCore next) :
      Disposed l str next [] (.ok false)
  | trailed {next : LoopyWriter hpack} {after : List Effect} {result : Except LoopyErr Bool}
      {t : HeaderFrame} {rest : List StreamItem} (hitl : str.itl = .header t :: rest)
      (hblock : HeaderBlock t.streamID t.endStream after)
      (hresult : result ≠ .error .panicked)
      (hsame : ((l.setStream str).forget t.streamID).SameCore next) :
      Disposed l str next after result
  | trailedNil {next : LoopyWriter hpack} {after : List Effect} {t : HeaderFrame}
      {rest : List StreamItem} (hitl : str.itl = .header t :: rest) (hcleanup : t.cleanup = none)
      (hblock : HeaderBlock t.streamID t.endStream after)
      (hsame : (l.setStream str).SameCore next) :
      Disposed l str next after (.error .panicked)

/-- The turns of `processData`. -/
inductive Turn (l : LoopyWriter hpack) : LoopyWriter hpack → Except LoopyErr Bool → Prop
  | idle : Turn l l (.ok true)
  | crashed {streamID : UInt32} {active : Links UInt32}
      (hpop : l.activeStreams.popFront = some (streamID, active))
      (hhead : ∀ str df rest, l.estdStreams.lookup streamID = some str →
        str.itl ≠ .data df :: rest) :
      Turn l { l with activeStreams := active } (.error .panicked)
  | parked {streamID : UInt32} {str : OutStream} {df : DataFrame} {rest : List StreamItem}
      (active : Links UInt32) (hpop : l.activeStreams.popFront = some (streamID, active))
      (hlookup : l.estdStreams.lookup streamID = some str) (hitl : str.itl = .data df :: rest)
      (hquota : l.strQuota str ≤ 0) :
      Turn l (({ l with activeStreams := active } : LoopyWriter hpack).setStream
        { str with state := .waitingOnStreamQuota }) (.ok false)
  | sent {streamID : UInt32} {active : Links UInt32} {str : OutStream} {df : DataFrame}
      {rest : List StreamItem} {next : LoopyWriter hpack} {result : Except LoopyErr Bool}
      (before after : List Effect)
      (hpop : l.activeStreams.popFront = some (streamID, active))
      (hlookup : l.estdStreams.lookup streamID = some str) (hitl : str.itl = .data df :: rest)
      (cut : Cut l str df)
      (heffects : next.effects = l.effects ++
        (before ++ .wrote (.data df.streamID cut.piece.last cut.piece.content) :: after))
      (hbefore : ∀ effect ∈ before, effect.IsNeutral)
      (hdisposed : Disposed { l with
          activeStreams := active
          sendQuota := l.sendQuota - UInt32.ofNat cut.size } (cut.stream rest) next after result) :
      Turn l next result

theorem maxSize_spec (l : LoopyWriter hpack) (str : OutStream) (hquota : 0 < l.strQuota str) :
    l.maxSize str ≤ http2MaxFrameLen ∧ l.maxSize str ≤ l.sendQuota.toNat ∧
      (l.maxSize str : Int) ≤ l.strQuota str ∧ (l.sendQuota ≠ 0 → 0 < l.maxSize str) := by
  have hpos : l.sendQuota ≠ 0 → 0 < l.sendQuota.toNat := by
    intro hne
    rcases Nat.eq_zero_or_pos l.sendQuota.toNat with hzero | hpos
    · exact absurd (UInt32.toNat_inj.mp hzero) hne
    · exact hpos
  obtain ⟨size, hsize, hframe, hstream, hsizePos⟩ :
      ∃ size, (if (http2MaxFrameLen : Int) > l.strQuota str then (l.strQuota str).toNat
        else http2MaxFrameLen) = size ∧ size ≤ http2MaxFrameLen ∧
        (size : Int) ≤ l.strQuota str ∧ 0 < size := by
    split
    · exact ⟨_, rfl, by omega, by omega, by omega⟩
    · exact ⟨_, rfl, le_rfl, by omega, by decide⟩
  simp only [maxSize, hsize]
  split
  · exact ⟨by omega, le_rfl, by omega, hpos⟩
  · exact ⟨hframe, by omega, hstream, fun _ => hsizePos⟩

/-- The sizes that `processPayload` computes. -/
def payloadCut (l : LoopyWriter hpack) (str : OutStream) (df : DataFrame)
    (hsend : l.sendQuota ≠ 0) (hquota : 0 < l.strQuota str) : Cut l str df where
  hSize := min (l.maxSize str) df.h.length
  dSize := min (l.maxSize str - min (l.maxSize str) df.h.length) df.d.length
  h_le := Nat.min_le_right _ _
  d_le := Nat.min_le_right _ _
  ordered hpos := by omega
  frame_le := by have := (l.maxSize_spec str hquota).1; omega
  conn_le := by have := (l.maxSize_spec str hquota).2.1; omega
  stream_le _ := by have := (l.maxSize_spec str hquota).2.2.1; omega
  progress hzero := by
    have := (l.maxSize_spec str hquota).2.2.2 hsend
    rw [← List.length_eq_zero_iff, ← List.length_eq_zero_iff]
    omega

/-- An empty data frame is sent as a whole. -/
def emptyCut (l : LoopyWriter hpack) (str : OutStream) {df : DataFrame}
    (hempty : df.h = [] ∧ df.d = []) : Cut l str df where
  hSize := 0
  dSize := 0
  h_le := Nat.zero_le _
  d_le := Nat.zero_le _
  ordered hpos := absurd hpos (Nat.lt_irrefl 0)
  frame_le := Nat.zero_le _
  conn_le := Nat.zero_le _
  stream_le hpos := absurd hpos (Nat.lt_irrefl 0)
  progress _ := hempty

variable {l next : LoopyWriter hpack} {str : OutStream} {active : Links UInt32}
  {rest : List StreamItem} {df : DataFrame}

theorem setStream_congr (hsame : l.SameCore next) (str : OutStream) :
    (l.setStream str).SameCore (next.setStream str) :=
  { hsame with estdStreams := by simp only [setStream, hsame.estdStreams] }

theorem activate_congr (hsame : l.SameCore next) (streamID : UInt32) :
    (l.activate streamID).SameCore (next.activate streamID) :=
  { hsame with activeStreams := by simp only [activate, hsame.activeStreams] }

theorem Disposed.congr {base : LoopyWriter hpack} {after : List Effect}
    {result : Except LoopyErr Bool} (hdisposed : Disposed l str next after result)
    (hsame : base.SameCore l) : Disposed base str next after result := by
  cases hdisposed with
  | drained hitl hnext => exact .drained hitl ((setStream_congr hsame _).trans hnext)
  | requeued hitl hnext =>
    exact .requeued hitl ((activate_congr (setStream_congr hsame _) _).trans hnext)
  | blocked hitl hquota hnext =>
    rw [hsame.strQuota] at hquota
    exact .blocked hitl hquota ((setStream_congr hsame _).trans hnext)
  | trailed hitl hblock hresult hnext =>
    exact .trailed hitl hblock hresult
      ((forget_congr (setStream_congr hsame _) _).trans hnext)
  | trailedNil hitl hcleanup hblock hnext =>
    exact .trailedNil hitl hcleanup hblock ((setStream_congr hsame _).trans hnext)

theorem processEmpty_turn (hreliable : l.Reliable)
    (hpop : l.activeStreams.popFront = some (streamID, active))
    (hlookup : l.estdStreams.lookup streamID = some str) (hitl : str.itl = .data df :: rest)
    (hempty : df.h = [] ∧ df.d = []) :
    ∃ next result, ({ l with activeStreams := active } : LoopyWriter hpack).processEmpty
      str df rest = (next, result) ∧ Turn l next result := by
  let cut := emptyCut l str hempty
  have hleft : cut.left.h = [] ∧ cut.left.d = [] := by
    simpa [cut, Cut.left, emptyCut] using hempty
  have hstream : cut.stream rest = { str with itl := rest } := by
    simp only [Cut.stream, Cut.itl, if_pos hleft]
    simp [Cut.size, cut, emptyCut]
  have hpiece : cut.piece = ⟨[], df.endStream⟩ := by
    simp only [Cut.piece, hleft, and_self, decide_true, Bool.and_true]
    simp [cut, emptyCut]
  have hquota : l.sendQuota - UInt32.ofNat cut.size = l.sendQuota := by
    simp [Cut.size, cut, emptyCut]
  have hpopped : ({ l with activeStreams := active } : LoopyWriter hpack).Reliable := hreliable
  obtain ⟨middle, hwrite, hsame, heffects⟩ :=
    writeFrame_ok hpopped (.data df.streamID df.endStream [])
  simp only [processEmpty, hwrite, Outcome.andThen]
  -- every branch sends the same piece; only the disposal of the stream differs
  have hsent : ∀ next after result, next.effects = middle.effects ++ after →
      Disposed { l with activeStreams := active } { str with itl := rest } next after result →
      Turn l next result := by
    intro next after result hnext hdisposed
    refine .sent [] after hpop hlookup hitl cut ?_ (by simp) ?_
    · rw [hnext, heffects, hpiece]
      simp
    · rw [hquota, hstream]
      exact hdisposed
  cases rest with
  | nil =>
    exact ⟨_, _, rfl, hsent _ [] _ (by simp [setStream]) (.drained rfl (setStream_congr hsame _))⟩
  | cons item rest =>
    cases item with
    | data next =>
      exact ⟨_, _, rfl, hsent _ [] _ (by simp [setStream, activate])
        (.requeued rfl (activate_congr (setStream_congr hsame _) _))⟩
    | header t =>
      have hset := setStream_congr hsame { str with itl := .header t :: rest }
      obtain ⟨written, next, result, added, hheader, hclean, hadded, hblock, hcases⟩ :=
        trailers_cases (hset.reliable hreliable) t
      simp only [hheader, hclean]
      have heffects' : next.effects = middle.effects ++ added := hadded
      rcases hcases with ⟨-, hpanic, hforget⟩ | ⟨hnil, rfl, hcore⟩
      · refine ⟨next, .ok false, ?_, hsent _ _ _ heffects' (.trailed rfl hblock (by simp)
          ((forget_congr hset _).trans hforget))⟩
        split
        next heq => exact absurd (Prod.mk.inj heq).2 hpanic
        next heq => rw [(Prod.mk.inj heq).1]
      · exact ⟨next, .error .panicked, rfl,
          hsent _ _ _ heffects' (.trailedNil rfl hnil hblock (hset.trans hcore))⟩

theorem settle_disposed (hreliable : l.Reliable) (str : OutStream) :
    ∃ next after result, l.settle str = (next, result) ∧
      next.effects = l.effects ++ after ∧ Disposed l str next after result := by
  unfold settle
  split
  next hitl => exact ⟨_, [], _, rfl, by simp [setStream], .drained hitl (.refl _)⟩
  next t rest hitl =>
    have hset : (l.setStream str).Reliable := hreliable
    obtain ⟨written, next, result, added, hheader, hclean, hadded, hblock, hcases⟩ :=
      trailers_cases hset t
    simp only [writeTrailers, hheader, Outcome.andThen, hclean]
    rcases hcases with ⟨-, hpanic, hforget⟩ | ⟨hnil, rfl, hcore⟩
    · cases result with
      | ok _ => exact ⟨next, added, .ok false, rfl, hadded, .trailed hitl hblock (by simp) hforget⟩
      | error e =>
        exact ⟨next, added, .error e, rfl, hadded,
          .trailed hitl hblock (by simpa using hpanic) hforget⟩
    · exact ⟨next, added, .error .panicked, rfl, hadded, .trailedNil hitl hnil hblock hcore⟩
  next df rest hitl =>
    split
    next hquota => exact ⟨_, [], _, rfl, by simp [setStream], .blocked hitl hquota (.refl _)⟩
    next => exact ⟨_, [], _, rfl, by simp [setStream, activate], .requeued hitl (.refl _)⟩

/-- The buffer that `processPayload` hands to the framer holds the piece. -/
theorem payload_eq {h d : Bytes} {hSize dSize : Nat} (hh : hSize ≤ h.length)
    (hd : dSize ≤ d.length) :
    (if hSize ≠ 0 then if dSize = 0 then h else h.take hSize ++ d.take dSize else d).take
      (hSize + dSize) = h.take hSize ++ d.take dSize := by
  split
  · split
    next hzero => simp [hzero]
    next => exact List.take_of_length_le (by simp [Nat.min_eq_left hh, Nat.min_eq_left hd])
  next hzero =>
    rw [not_not.mp hzero]
    simp

/-- The writer when the size of a DATA frame has been reported. -/
def counted (l : LoopyWriter hpack) (str : OutStream) (df : DataFrame) (size : Nat) :
    LoopyWriter hpack :=
  let l := l.record (.replenished str.id size)
  if df.resetPingStrikes then l.record .storedResetPingStrikes else l

theorem counted_cases (l : LoopyWriter hpack) (str : OutStream) (df : DataFrame) (size : Nat) :
    ∃ before, l.SameCore (l.counted str df size) ∧
      (l.counted str df size).effects = l.effects ++ before ∧
      ∀ effect ∈ before, effect.IsNeutral := by
  have hcounted := l.sameCore_record (.replenished str.id size)
  by_cases hreset : df.resetPingStrikes = true
  · refine ⟨[.replenished str.id size, .storedResetPingStrikes], ?_, ?_,
      by simp [Effect.IsNeutral]⟩
    · simp only [counted, if_pos hreset]
      exact hcounted.trans (sameCore_record _ _)
    · simp [counted, if_pos hreset, record]
  · refine ⟨[.replenished str.id size], ?_, ?_, by simp [Effect.IsNeutral]⟩
    · simpa only [counted, if_neg hreset] using hcounted
    · simp [counted, if_neg hreset, record]

/-- With quota on the stream and on the connection, `processPayload` writes one
piece, pays for it and settles. -/
theorem processPayload_eq (l : LoopyWriter hpack) (active : Links UInt32) (str : OutStream)
    (df : DataFrame) (rest : List StreamItem) (hsend : l.sendQuota ≠ 0)
    (hquota : 0 < l.strQuota str) {cut : Cut l str df}
    (hcut : cut = payloadCut l str df hsend hquota) :
    ({ l with activeStreams := active } : LoopyWriter hpack).processPayload str df rest =
      ((({ l with activeStreams := active } : LoopyWriter hpack).counted
        str df cut.size).writeFrame
          (.data df.streamID cut.piece.last cut.piece.content)).andThen fun written _ =>
        LoopyWriter.settle { written with
          sendQuota := written.sendQuota - UInt32.ofNat cut.size } (cut.stream rest) := by
  subst hcut
  set cut := payloadCut l str df hsend hquota with hcut
  have hpayload := payload_eq cut.h_le cut.d_le
  have hlast : (df.endStream && decide (df.h.length + df.d.length ≤ cut.size)) =
      cut.piece.last := by
    simp only [Cut.piece, cut.left_nil_iff]
  have hpiece : cut.piece.content = df.h.take cut.hSize ++ df.d.take cut.dSize := rfl
  rw [← hlast, hpiece, ← hpayload]
  exact if_neg (Int.not_le.mpr hquota)

theorem processPayload_turn (hreliable : l.Reliable) (hsend : l.sendQuota ≠ 0)
    (hpop : l.activeStreams.popFront = some (streamID, active))
    (hlookup : l.estdStreams.lookup streamID = some str) (hitl : str.itl = .data df :: rest) :
    ∃ next result, ({ l with activeStreams := active } : LoopyWriter hpack).processPayload
      str df rest = (next, result) ∧ Turn l next result := by
  by_cases hquota : l.strQuota str ≤ 0
  · refine ⟨_, _, ?_, .parked active hpop hlookup hitl hquota⟩
    exact if_pos hquota
  · let popped : LoopyWriter hpack := { l with activeStreams := active }
    obtain ⟨cut, hcut⟩ : ∃ cut, cut = payloadCut l str df hsend (by omega) := ⟨_, rfl⟩
    obtain ⟨before, hready, heffects, hbefore⟩ := popped.counted_cases str df cut.size
    obtain ⟨middle, hwrite, hsame, hwritten⟩ := writeFrame_ok (hready.reliable hreliable)
      (.data df.streamID cut.piece.last cut.piece.content)
    let paid : LoopyWriter hpack :=
      { middle with sendQuota := middle.sendQuota - UInt32.ofNat cut.size }
    have hmiddle := hready.trans hsame
    have hpaid : ({ l with
        activeStreams := active
        sendQuota := l.sendQuota - UInt32.ofNat cut.size } : LoopyWriter hpack).SameCore paid :=
      { hmiddle with sendQuota := by simp only [paid, hmiddle.sendQuota, popped] }
    have hpaidReliable : paid.Reliable := hmiddle.reliable hreliable
    obtain ⟨next, after, result, hsettle, hafter, hdisposed⟩ :=
      settle_disposed hpaidReliable (cut.stream rest)
    refine ⟨next, result, ?_, .sent before after hpop hlookup hitl cut ?_ hbefore ?_⟩
    · rw [processPayload_eq l active str df rest hsend (by omega) hcut, hwrite]
      exact hsettle
    · rw [hafter, hwritten, heffects]
      simp [popped]
    · exact hdisposed.congr hpaid

theorem processData_turn (hreliable : l.Reliable) :
    ∃ next result, l.processData = (next, result) ∧ Turn l next result := by
  unfold processData
  split
  · exact ⟨l, .ok true, rfl, .idle⟩
  next hsend =>
    split
    · exact ⟨l, .ok true, rfl, .idle⟩
    next streamID active hpop =>
      cases hlookup : l.estdStreams.lookup streamID with
      | none => exact ⟨_, _, by simp only [hlookup], .crashed hpop (by simp [hlookup])⟩
      | some str =>
        simp only [hlookup]
        split
        next df rest hitl =>
          split
          next hempty => exact processEmpty_turn hreliable hpop hlookup hitl hempty
          next => exact processPayload_turn hreliable hsend hpop hlookup hitl
        next hother =>
          refine ⟨_, _, rfl, .crashed hpop ?_⟩
          intro str' df rest hstr hitl
          rw [hlookup, Option.some.injEq] at hstr
          subst str'
          exact hother df rest hitl

end LoopyWriter

end Kitex.Http2
