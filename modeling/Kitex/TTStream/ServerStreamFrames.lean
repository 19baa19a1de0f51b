import Kitex.TTStream.ServerStream

/-! # The frames of a server stream

The header of a server stream is sent by the first operation that needs it, and the
trailer by `CloseSend` after the stream was made inactive. Whatever the handler does,
and whenever the stream is cancelled or the transport is closed, the connection is
given a header frame, then data frames, then a trailer frame.
-/

namespace Kitex.TTStream

open Kitex.Container

/-- A header frame, then data frames, then a trailer frame, as far as they got. -/
def FrameOrder (frames : List ServerFrame) : Prop :=
  ∃ (hd : StrMap) (payloads : List Payload) (tl : StrMap) (payload : Payload),
    frames <+: .header hd :: payloads.map .data ++ [ServerFrame.trailer tl payload]

/-- The frames before the trailer. -/
def FrameBody (frames : List ServerFrame) : Prop :=
  frames = [] ∨ ∃ (hd : StrMap) (payloads : List Payload),
    frames = .header hd :: payloads.map .data

section Order

variable {frames : List ServerFrame}

theorem FrameBody.order (hbody : FrameBody frames) : FrameOrder frames := by
  rcases hbody with rfl | ⟨hd, payloads, rfl⟩
  · exact ⟨∅, [], ∅, [], List.nil_prefix⟩
  · exact ⟨hd, payloads, ∅, [], List.prefix_append _ _⟩

theorem FrameBody.data (hbody : FrameBody frames) (hne : frames ≠ []) (payload : Payload) :
    FrameBody (frames ++ [ServerFrame.data payload]) := by
  obtain ⟨hd, payloads, rfl⟩ := hbody.resolve_left hne
  exact .inr ⟨hd, payloads ++ [payload], by simp⟩

theorem FrameBody.trailer (hbody : FrameBody frames) (hne : frames ≠ []) (tl : StrMap)
    (payload : Payload) : FrameOrder (frames ++ [ServerFrame.trailer tl payload]) := by
  obtain ⟨hd, payloads, rfl⟩ := hbody.resolve_left hne
  exact ⟨hd, payloads, tl, payload, List.prefix_rfl⟩

end Order

namespace ServerStream

/-- What an operation of the handler relies on before its next step. -/
def OpSound (s : ServerStream) : HandlerOp → Prop
  | .idle => True
  | .load _ => True
  | .close _ _ => True
  | .header .done => s.wheader ≠ none
  | .header (.data _) => s.wheader ≠ none ∧ s.wtrailer ≠ none
  | .header (.trailer _) => s.wheader ≠ none ∧ s.state = .inactive
  | .data _ => s.wheader = none ∧ s.wtrailer ≠ none
  | .trailer _ => s.wheader = none ∧ s.state = .inactive

/-- How far the frames of a stream are, by the header and the trailer that are left. -/
structure FramesSound (s : ServerStream) : Prop where
  header : s.wheader ≠ none → s.frames = []
  sent : s.wheader = none → s.closed = true ∨ s.frames ≠ []
  body : s.wtrailer ≠ none → FrameBody s.frames
  order : FrameOrder s.frames
  finished : s.wtrailer = none → s.state = .inactive

variable {s s' : ServerStream} {event : ServerStreamEvent}

namespace FramesSound

/-- A frame is given to the connection while the transport is open. -/
theorem writeFrame {frame : ServerFrame} (hclosed : s.closed = true → FramesSound s)
    (hheader : s.wheader = none) (hfinished : s.wtrailer = none → s.state = .inactive)
    (hbody : s.closed = false → s.wtrailer ≠ none → FrameBody (s.frames ++ [frame]))
    (horder : s.closed = false → FrameOrder (s.frames ++ [frame])) (flush : Option Err) :
    FramesSound (s.writeFrame frame flush).1 := by
  unfold ServerStream.writeFrame
  split
  next hclosed' => exact hclosed hclosed'
  next hopen =>
    have hopen : s.closed = false := by simpa using hopen
    exact ⟨fun hne => absurd hheader hne, fun _ => .inr (by simp), hbody hopen, horder hopen,
      hfinished⟩

variable (hframes : FramesSound s)
include hframes

/-- The header is the first frame. -/
theorem writeHeader {hd : StrMap} (hheader : s.wheader = some hd) (flush : Option Err) :
    FramesSound ({ s with wheader := none }.writeFrame (.header hd) flush).1 := by
  have hnil : s.frames = [] := hframes.header (by rw [hheader]; exact nofun)
  have hbody : FrameBody (s.frames ++ [ServerFrame.header hd]) := .inr ⟨hd, [], by rw [hnil]; rfl⟩
  apply writeFrame
  · intro hclosed
    exact { hframes with header := fun hne => absurd rfl hne, sent := fun _ => .inl hclosed }
  · rfl
  · exact hframes.finished
  · exact fun _ _ => hbody
  · exact fun _ => hbody.order

theorem frames_ne_nil (hheader : s.wheader = none) (hopen : s.closed = false) : s.frames ≠ [] :=
  (hframes.sent hheader).resolve_left (by rw [hopen]; exact nofun)

/-- A data frame follows the header, and the trailer was not sent. -/
theorem writeData (hheader : s.wheader = none)
    (htrailer : s.wtrailer ≠ none) (payload : Payload) (flush : Option Err) :
    FramesSound (s.writeFrame (.data payload) flush).1 := by
  have hdata : s.closed = false → FrameBody (s.frames ++ [ServerFrame.data payload]) := by
    intro hopen
    exact (hframes.body htrailer).data (hframes.frames_ne_nil hheader hopen) payload
  exact writeFrame (fun _ => hframes) hheader hframes.finished (fun hopen _ => hdata hopen)
    (fun hopen => (hdata hopen).order) flush

/-- The trailer follows the header and the data, and it is the last frame. -/
theorem writeTrailer (hheader : s.wheader = none)
    (hstate : s.state = .inactive) {tl : StrMap} (htrailer : s.wtrailer = some tl)
    (payload : Payload) (flush : Option Err) :
    FramesSound ({ s with wtrailer := none }.writeFrame (.trailer tl payload) flush).1 := by
  have hbody : FrameBody s.frames := hframes.body (by rw [htrailer]; exact nofun)
  apply writeFrame
  · intro _
    exact { hframes with body := fun hne => absurd rfl hne, finished := fun _ => hstate }
  · exact hheader
  · exact fun _ => hstate
  · exact fun _ hne => absurd rfl hne
  · exact fun hopen => hbody.trailer (hframes.frames_ne_nil hheader hopen) tl payload

theorem resume (after : AfterHeader) (result : Option Err) :
    FramesSound (s.resume after result) := by
  rw [resume_eq]
  exact { hframes with }

theorem step (hop : s.OpSound s.op) (hstep : Stepped s event s') : FramesSound s' := by
  cases hstep with
  | setHeader _ hheader | sendHeader _ hheader =>
    have hsome : s.wheader ≠ none := by rw [hheader]; exact nofun
    exact { hframes with header := fun _ => hframes.header hsome, sent := nofun }
  | setTrailer _ htrailer =>
    have hsome : s.wtrailer ≠ none := by rw [htrailer]; exact nofun
    exact { hframes with body := fun _ => hframes.body hsome, finished := nofun }
  | writeHeader _ hheader => exact (hframes.writeHeader hheader _).resume _ _
  | writeData hdata =>
    rw [hdata] at hop
    exact { hframes.writeData hop.1 hop.2 _ _ with }
  | encodeTrailer htrailer' htrailer =>
    -- no frame is written, and none will be
    rw [htrailer'] at hop
    exact { hframes with body := fun hne => absurd rfl hne, finished := fun _ => hop.2 }
  | writeTrailer htrailer' htrailer =>
    rw [htrailer'] at hop
    exact { hframes.writeTrailer hop.1 hop.2 htrailer _ _ with }
  | closer hcloser hstep =>
    cases hstep with
    | swapWon => exact { hframes with finished := fun _ => rfl }
    | _ => exact { hframes with }
  | closeRecv =>
    exact { hframes with finished := fun hnone => by simp [hframes.finished hnone] }
  | closeTransport => exact { hframes with sent := fun _ => .inl rfl }
  | _ => exact { hframes with }

end FramesSound

namespace OpSound

/-- `SendMsg` has found the stream open, so the trailer was not sent. -/
theorem sendMsgOpen (hframes : FramesSound s) (hstate : s.state ≠ .inactive)
    (msg : Except Err Payload) :
    (s.afterHeader (.data msg) (.data msg)).OpSound (s.afterHeader (.data msg) (.data msg)).op := by
  have htrailer : s.wtrailer ≠ none := fun hnone => hstate (hframes.finished hnone)
  cases hheader : s.wheader <;> simpa [afterHeader, OpSound, hheader] using htrailer

/-- `CloseSend` goes on to the trailer after the stream was made inactive. -/
theorem closed (hstate : s.state = .inactive) (payload : Except Err Payload) :
    (s.afterHeader (.trailer payload) (.trailer payload)).OpSound
      (s.afterHeader (.trailer payload) (.trailer payload)).op := by
  cases hheader : s.wheader <;> simpa [afterHeader, OpSound, hheader] using hstate

/-- What follows the header relies on the same. -/
theorem resume {after : AfterHeader} (hop : s.OpSound (.header after))
    (hheader : s'.wheader = none) (hstate : s'.state = s.state)
    (htrailer : s'.wtrailer = s.wtrailer) (result : Option Err) :
    (s'.resume after result).OpSound (s'.resume after result).op := by
  rcases s'.resume_cases after result with h | ⟨msg, rfl, h⟩ | ⟨payload, rfl, h⟩
  · rw [h]
    trivial
  · rw [h]
    exact ⟨hheader, htrailer ▸ hop.2⟩
  · rw [h]
    exact ⟨hheader, hstate.trans hop.2⟩

/-- The other goroutines only make the stream inactive. -/
theorem mono {op : HandlerOp} (hop : s.OpSound op) (hheader : s'.wheader = s.wheader)
    (htrailer : s'.wtrailer = s.wtrailer)
    (hstate : s.state = .inactive → s'.state = .inactive) : s'.OpSound op := by
  cases op with
  | header after =>
    cases after with
    | done => exact fun hnone => hop (hheader.symm.trans hnone)
    | data msg => exact ⟨hheader ▸ hop.1, htrailer ▸ hop.2⟩
    | trailer payload => exact ⟨hheader ▸ hop.1, hstate hop.2⟩
  | data msg => exact ⟨hheader ▸ hop.1, htrailer ▸ hop.2⟩
  | trailer payload => exact ⟨hheader ▸ hop.1, hstate hop.2⟩
  | _ => trivial

theorem step (hop : s.OpSound s.op) (hframes : FramesSound s)
    (hsound : ClosersSound s.state s.closers) (hstep : Stepped s event s') : s'.OpSound s'.op := by
  cases hstep with
  | sendHeader => exact nofun
  | sendMsgOpen _ hstate => exact sendMsgOpen hframes hstate _
  | writeHeader hheader =>
    rw [hheader] at hop
    -- what follows the header finds the state and the trailer as they were
    refine resume hop ?_ ?_ ?_ _ <;> rw [writeFrame_fst]
  | closed _ hcloser hnext =>
    have hinactive : s.state = .inactive := by simpa [hnext] using hsound _ _ hcloser
    exact closed hinactive _
  | close ex | closeTransport => exact mono hop rfl rfl id
  | closer hcloser hstep =>
    cases hstep with
    | swapWon => exact mono hop rfl rfl fun _ => rfl
    | _ => exact mono hop rfl rfl id
  | closeRecv => exact mono hop rfl rfl fun hstate => by simp [hstate]
  | closeAgain => exact hop
  | _ => trivial

end OpSound

theorem run_frameOrder {sid : Int} {closed : Bool} {closedErr : Option Err}
    {events : List ServerStreamEvent} (hrun : run sid closed closedErr events = some s) :
    FrameOrder s.frames := by
  have hsound : FramesSound s ∧ s.OpSound s.op := by
    apply Machine.run_invariant (fun _ s => FramesSound s ∧ s.OpSound s.op) _ _ hrun
    · exact ⟨⟨fun _ => rfl, nofun, fun _ => .inl rfl, (FrameBody.order (.inl rfl)), nofun⟩,
        trivial⟩
    · rintro past s event s' hpast ⟨hframes, hop⟩ hnext
      have hstep := stepped_of_step hnext
      exact ⟨hframes.step hop hstep, hop.step hframes (run_closersSound hpast) hstep⟩
  exact hsound.1.order

/-- The handler sends a message, the peer resets the stream while the handler sends
another, and the handler returns. -/
def sendDuringReset : List ServerStreamEvent :=
  [.setHeader ∅, .sendMsg (.ok [1]), .proceed none, .proceed none, .proceed none,
    .sendMsg (.ok [2]), .proceed none, .close ⟨13, "rst", false⟩, .closerStep 0, .closerStep 0,
    .proceed none, .sendMsg (.ok [3]), .proceed none, .sendHeader ∅, .closeSend (.ok []),
    .closerStep 1, .closerStep 1, .proceed none, .proceed none]

theorem run_frameOrder_reset : ∃ s, run 1 false none sendDuringReset = some s ∧
      s.frames = [.header ∅, .data [1], .data [2], .trailer ∅ []] ∧ FrameOrder s.frames := by
  obtain ⟨s, hrun, hframes⟩ : ∃ s, run 1 false none sendDuringReset = some s ∧
      s.frames = [.header ∅, .data [1], .data [2], .trailer ∅ []] := ⟨_, rfl, rfl⟩
  exact ⟨s, hrun, hframes, run_frameOrder hrun⟩

end ServerStream

end Kitex.TTStream
