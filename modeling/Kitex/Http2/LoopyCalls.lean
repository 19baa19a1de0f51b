import Kitex.Http2.LoopyRuns

/-! # What the handlers of the writer do

Every handler is followed once, for two facts: it writes no DATA and leaves the windows alone, and
it returns an error if a call of the framer has failed.
-/

namespace Kitex.Http2

open Kitex.Container

variable {hpack : Hpack}

/-- What an item adds to the connection window. -/
def CbItem.connIncrement : CbItem → UInt32
  | .incomingWindowUpdate streamID increment => if streamID = 0 then increment else 0
  | _ => 0

def Effect.IsData : Effect → Prop
  | .wrote (.data ..) => True
  | _ => False

namespace LoopyWriter

/-- The framer's calls are counted, and none has failed if no error is returned. -/
structure Tracks {α : Type} (l : LoopyWriter hpack) (outcome : Outcome hpack α) : Prop where
  fails : outcome.1.framer.fails = l.framer.fails
  calls : l.framer.calls ≤ outcome.1.framer.calls
  ok : ∀ a, outcome.2 = .ok a →
    ∀ call, l.framer.calls ≤ call → call < outcome.1.framer.calls → l.framer.fails call = false

section Tracks

variable {α β : Type} {l next : LoopyWriter hpack} {outcome : Outcome hpack α}

/-- Without a call of the framer there is nothing to report. -/
theorem tracks_of_framer (h : outcome.1.framer = l.framer) : l.Tracks outcome where
  fails := by rw [h]
  calls := by rw [h]
  ok _ _ call hle hlt := by
    rw [h] at hlt
    omega

/-- What is done before the first call does not matter. -/
theorem Tracks.of_framer (h : next.Tracks outcome) (hframer : next.framer = l.framer) :
    l.Tracks outcome := by
  obtain ⟨hfails, hcalls, hok⟩ := h
  rw [hframer] at hfails hcalls hok
  exact ⟨hfails, hcalls, hok⟩

/-- What is done after the last call does not matter either. -/
theorem Tracks.with_framer {after : Outcome hpack α} (h : l.Tracks outcome)
    (hframer : after.1.framer = outcome.1.framer) (hresult : after.2 = outcome.2) :
    l.Tracks after := by
  obtain ⟨hfails, hcalls, hok⟩ := h
  rw [← hframer] at hfails hcalls hok
  rw [← hresult] at hok
  exact ⟨hfails, hcalls, hok⟩

theorem Tracks.andThen (h : l.Tracks outcome) {f : LoopyWriter hpack → α → Outcome hpack β}
    (hf : ∀ (next : LoopyWriter hpack) (a : α), next.Tracks (f next a)) :
    l.Tracks (outcome.andThen f) := by
  obtain ⟨next, result⟩ := outcome
  cases result with
  | error err => exact ⟨h.fails, h.calls, nofun⟩
  | ok a =>
    have hrest := hf next a
    have hfails : next.framer.fails = l.framer.fails := h.fails
    refine ⟨hrest.fails.trans hfails, Nat.le_trans h.calls hrest.calls, fun b hb call hle hlt => ?_⟩
    by_cases hearly : call < next.framer.calls
    · exact h.ok a rfl call hle hearly
    · rw [← hfails]
      exact hrest.ok b hb call (Nat.not_lt.mp hearly) hlt

theorem writeFrame_tracks (l : LoopyWriter hpack) (frame : Frame) :
    l.Tracks (l.writeFrame frame) := by
  unfold writeFrame
  split
  · exact ⟨rfl, Nat.le_succ _, nofun⟩
  next hsucceeds =>
    refine ⟨rfl, Nat.le_succ _, fun _ _ call hle hlt => ?_⟩
    obtain rfl : call = l.framer.calls := by
      have : call < l.framer.calls + 1 := hlt
      omega
    simpa using hsucceeds

end Tracks

/-- A call that writes no DATA, leaves the connection window and the initial
window of streams alone and keeps the items of a stream in its own list. -/
structure Calm (l next : LoopyWriter hpack) : Prop where
  sendQuota : next.sendQuota = l.sendQuota
  oiws : next.oiws = l.oiws
  effects : ∃ added, next.effects = l.effects ++ added ∧ ∀ effect ∈ added, ¬effect.IsData
  owned : l.Owned → next.Owned

variable {l middle next : LoopyWriter hpack} {streamID : UInt32}

theorem Calm.trans (hfirst : l.Calm middle) (hsecond : middle.Calm next) : l.Calm next := by
  obtain ⟨first, hfirstEffects, hfirstNone⟩ := hfirst.effects
  obtain ⟨second, hsecondEffects, hsecondNone⟩ := hsecond.effects
  refine ⟨hsecond.sendQuota.trans hfirst.sendQuota, hsecond.oiws.trans hfirst.oiws,
    ⟨first ++ second, ?_, ?_⟩, fun howned => hsecond.owned (hfirst.owned howned)⟩
  · rw [hsecondEffects, hfirstEffects, List.append_assoc]
  · intro effect heffect
    rcases List.mem_append.mp heffect with hmem | hmem
    · exact hfirstNone effect hmem
    · exact hsecondNone effect hmem

/-- A change without the framer. -/
structure Still (l next : LoopyWriter hpack) : Prop extends l.Calm next where
  framer : next.framer = l.framer

theorem Still.trans (hfirst : l.Still middle) (hsecond : middle.Still next) : l.Still next :=
  ⟨hfirst.toCalm.trans hsecond.toCalm, hsecond.framer.trans hfirst.framer⟩

/-- Only fields that nothing here reads have changed. -/
theorem still_of_same (hquota : next.sendQuota = l.sendQuota) (hoiws : next.oiws = l.oiws)
    (heffects : next.effects = l.effects) (hstreams : next.estdStreams = l.estdStreams)
    (hframer : next.framer = l.framer) : l.Still next :=
  ⟨⟨hquota, hoiws, ⟨[], by simp [heffects], by simp⟩, fun howned => howned.congr hstreams⟩, hframer⟩

theorem Still.refl (l : LoopyWriter hpack) : l.Still l := still_of_same rfl rfl rfl rfl rfl

/-- What a handler does. -/
structure Acts {α : Type} (l : LoopyWriter hpack) (outcome : Outcome hpack α) : Prop where
  calm : l.Calm outcome.1
  tracks : l.Tracks outcome

section Acts

variable {α β : Type} {outcome after : Outcome hpack α}

theorem Still.acts (h : l.Still outcome.1) : l.Acts outcome :=
  ⟨h.toCalm, tracks_of_framer h.framer⟩

theorem Acts.refl (l : LoopyWriter hpack) {result : Except LoopyErr α} : l.Acts (l, result) :=
  Still.acts (.refl l)

theorem Still.then (h : l.Still next) (hacts : next.Acts outcome) : l.Acts outcome :=
  ⟨h.toCalm.trans hacts.calm, hacts.tracks.of_framer h.framer⟩

theorem Acts.still (h : l.Acts outcome) (hstill : outcome.1.Still after.1)
    (hresult : after.2 = outcome.2) : l.Acts after :=
  ⟨h.calm.trans hstill.toCalm, h.tracks.with_framer hstill.framer hresult⟩

variable {f : LoopyWriter hpack → α → Outcome hpack β}

/-- Wherever an error stops the sequence. -/
theorem Calm.andThen (hfirst : l.Calm outcome.1)
    (hf : ∀ (middle : LoopyWriter hpack) (a : α), middle.Calm (f middle a).1) :
    l.Calm (outcome.andThen f).1 := by
  obtain ⟨middle, _ | a⟩ := outcome
  · exact hfirst
  · exact hfirst.trans (hf middle a)

theorem Acts.andThen (hfirst : l.Acts outcome)
    (hf : ∀ (middle : LoopyWriter hpack) (a : α), middle.Acts (f middle a)) :
    l.Acts (outcome.andThen f) :=
  ⟨hfirst.calm.andThen fun middle a => (hf middle a).calm,
    hfirst.tracks.andThen fun middle a => (hf middle a).tracks⟩

end Acts

section

variable (l : LoopyWriter hpack)

theorem still_record {effect : Effect} (hnot : ¬effect.IsData) : l.Still (l.record effect) :=
  ⟨⟨rfl, rfl, ⟨[effect], rfl, by simpa using hnot⟩, fun howned => howned.congr rfl⟩, rfl⟩

theorem still_call (callback : Option Callback) : l.Still (l.call callback) := by
  cases callback with
  | none => exact .refl l
  | some callback => exact l.still_record (by simp [Effect.IsData])

theorem still_setStream {str : OutStream}
    (hitems : l.Owned → ∀ item ∈ str.itl, item.OwnedBy str.id) : l.Still (l.setStream str) :=
  ⟨⟨rfl, rfl, ⟨[], by simp [setStream], by simp⟩,
    fun howned => howned.setStream (hitems howned)⟩, rfl⟩

theorem still_activate (streamID : UInt32) : l.Still (l.activate streamID) :=
  still_of_same rfl rfl rfl rfl rfl

theorem still_forget (gone : UInt32) : l.Still (l.forget gone) := by
  refine ⟨⟨l.forget_sendQuota gone, l.forget_oiws gone, ⟨[], by simp, by simp⟩,
    fun howned => howned.forget gone⟩, ?_⟩
  unfold forget
  split <;> rfl

/-- A framer call, whether it fails or not. -/
theorem writeFrame_cases (frame : Frame) : (l.writeFrame frame).1.sendQuota = l.sendQuota ∧
      (l.writeFrame frame).1.oiws = l.oiws ∧
      (l.writeFrame frame).1.estdStreams = l.estdStreams ∧
      ((l.writeFrame frame).1.effects = l.effects ++ [.wrote frame] ∧
          (l.writeFrame frame).2 = .ok () ∨
        (l.writeFrame frame).1.effects = l.effects ∧
          (l.writeFrame frame).2 = .error .framer) := by
  unfold writeFrame
  split
  · exact ⟨rfl, rfl, rfl, .inr ⟨rfl, rfl⟩⟩
  · exact ⟨rfl, rfl, rfl, .inl ⟨rfl, rfl⟩⟩

theorem acts_writeFrame {frame : Frame} (hnot : ¬(Effect.wrote frame).IsData) :
    l.Acts (l.writeFrame frame) := by
  obtain ⟨hquota, hoiws, hstreams, hcases⟩ := l.writeFrame_cases frame
  refine ⟨⟨hquota, hoiws, ?_, fun howned => howned.congr hstreams⟩, l.writeFrame_tracks frame⟩
  rcases hcases with ⟨heffects, -⟩ | ⟨heffects, -⟩
  · exact ⟨_, heffects, by simpa using hnot⟩
  · exact ⟨[], by simp [heffects], by simp⟩

end

theorem acts_writeHeaderBlocks {endStream : Bool} (fuel : Nat) (first : Bool) (hBuf : Bytes)
    (l : LoopyWriter hpack) : l.Acts (writeHeaderBlocks streamID endStream fuel first hBuf l) := by
  induction fuel generalizing first hBuf l with
  | zero => exact .refl l
  | succ fuel ih =>
    refine (l.acts_writeFrame ?_).andThen fun middle _ => ?_
    · split <;> simp [Effect.IsData]
    · split
      · exact .refl middle
      · exact ih false _ middle

section

variable (l : LoopyWriter hpack)

theorem acts_writeHeader (streamID : UInt32) (endStream : Bool)
    (hf : List HeaderField) (onWrite : Option Callback) :
    l.Acts (l.writeHeader streamID endStream hf onWrite) := by
  refine (l.still_call onWrite).then (Still.then ?_ (acts_writeHeaderBlocks _ _ _ _))
  exact still_of_same rfl rfl rfl rfl rfl

theorem acts_cleanupStreamHandler (c : CleanupStream) : l.Acts (l.cleanupStreamHandler c) := by
  have hforget : l.Still ((l.record (.called c.onWrite)).forget c.streamID) :=
    (l.still_record (by simp [Effect.IsData])).trans (still_forget _ _)
  refine Acts.still (hforget.then (Acts.andThen ?_ fun middle _ => ?_)) (still_call _ _) rfl
  · split
    · exact acts_writeFrame _ (by simp [Effect.IsData])
    · exact .refl _
  · split <;> exact .refl middle

theorem acts_cleanupTrailers (cleanup : Option CleanupStream) :
    l.Acts (l.cleanupTrailers cleanup) := by
  cases cleanup with
  | none => exact .refl l
  | some c => exact l.acts_cleanupStreamHandler c

theorem acts_writeTrailers (t : HeaderFrame) : l.Acts (l.writeTrailers t) :=
  (l.acts_writeHeader _ _ _ _).andThen fun middle _ => middle.acts_cleanupTrailers _

end

theorem acts_headerHandler (env : Surroundings) (l : LoopyWriter hpack) (h : HeaderFrame) :
    l.Acts (l.headerHandler env h) := by
  unfold headerHandler
  split
  next =>
    split
    next => exact .refl l
    next str hlookup =>
      split
      next => exact l.acts_writeHeader _ _ _ _
      next hend =>
        split
        next =>
          refine (l.still_setStream ?_).acts
          intro howned
          obtain ⟨hid, hitems⟩ := howned _ _ hlookup
          exact append_owned hid hitems ⟨rfl, by simpa using hend⟩
        next =>
          exact (l.acts_writeHeader _ _ _ _).andThen fun middle _ =>
            middle.acts_cleanupTrailers _
  next =>
    unfold originateStream
    split
    next => exact .refl l
    next => exact .refl l
    next =>
      refine (l.acts_writeHeader _ _ _ _).andThen fun middle _ =>
        (middle.still_setStream ?_).acts
      simp [newOutStream]

theorem acts_preprocessData (l : LoopyWriter hpack) (df : DataFrame) :
    l.Acts (l.preprocessData df) := by
  unfold preprocessData
  split
  next => exact .refl l
  next str hlookup =>
    have hown : l.Owned → ∀ item ∈ str.itl ++ [.data df], item.OwnedBy str.id := by
      intro howned
      obtain ⟨hid, hitems⟩ := howned _ _ hlookup
      exact append_owned hid hitems rfl
    simp only
    split
    next => exact ((still_setStream _ hown).trans (still_activate _ _)).acts
    next => exact (still_setStream _ hown).acts

theorem acts_goAwayHandler (env : Surroundings) (l : LoopyWriter hpack) (g : GoAway) :
    l.Acts (l.goAwayHandler env g) := by
  unfold goAwayHandler
  split
  next => exact .refl l
  next =>
    refine Acts.andThen ?_ fun middle draining =>
      Still.acts (still_of_same rfl rfl rfl rfl rfl)
    unfold outgoingGoAwayHandler
    split
    next => exact .refl l
    next =>
      split
      next =>
        refine (l.acts_writeFrame (by simp [Effect.IsData])).andThen fun middle _ => ?_
        split <;> exact .refl middle
      next =>
        refine (l.acts_writeFrame (by simp [Effect.IsData])).andThen fun middle _ => ?_
        exact (middle.acts_writeFrame (by simp [Effect.IsData])).andThen fun last _ =>
          .refl last

theorem still_incomingWindowUpdateHandler (l : LoopyWriter hpack) (hstream : streamID ≠ 0)
    (increment : UInt32) : l.Still (l.incomingWindowUpdateHandler streamID increment).1 := by
  unfold incomingWindowUpdateHandler
  rw [if_neg hstream]
  split
  next => exact .refl l
  next str hlookup =>
    have hown : l.Owned → ∀ item ∈ str.itl, item.OwnedBy str.id := by
      intro howned
      obtain ⟨hid, hitems⟩ := howned _ _ hlookup
      exact hid ▸ hitems
    simp only
    split
    next =>
      refine Still.trans (l.still_setStream ?_) (still_activate _ _)
      exact hown
    next => exact l.still_setStream hown

/-- The writer once the windows have the values that an item announces. -/
def announced (env : Surroundings) (l : LoopyWriter hpack) : CbItem → LoopyWriter hpack
  | .incomingWindowUpdate streamID increment =>
    if streamID = 0 then { l with sendQuota := l.sendQuota + increment } else l
  | .incomingSettings ss => l.applySettings env ss
  | _ => l

theorem announced_frame (env : Surroundings) (l : LoopyWriter hpack) (item : CbItem) :
    (l.announced env item).sendQuota = l.sendQuota + item.connIncrement ∧
      (l.announced env item).effects = l.effects ∧
      (l.announced env item).framer = l.framer ∧
      (l.Owned → (l.announced env item).Owned) := by
  cases item with
  | incomingWindowUpdate streamID increment =>
    by_cases hzero : streamID = 0
    · rw [announced, if_pos hzero, CbItem.connIncrement, if_pos hzero]
      exact ⟨rfl, rfl, rfl, fun howned => howned.congr rfl⟩
    · simp [announced, CbItem.connIncrement, hzero]
  | incomingSettings ss =>
    have hsame := l.applySettings_frame env ss
    refine ⟨?_, hsame.effects, hsame.framer, fun howned => (applySettings_lookup howned env ss 0).1⟩
    simp [announced, hsame.sendQuota, CbItem.connIncrement]
  | _ => simp [announced, CbItem.connIncrement]

/-- Handling an item writes no DATA; it changes the windows only as the item
announces. -/
theorem acts_handle (env : Surroundings) (l : LoopyWriter hpack) (item : CbItem) :
    (l.announced env item).Acts (l.handle env item) := by
  cases item with
  | incomingWindowUpdate streamID increment =>
    by_cases hzero : streamID = 0
    · simp only [announced, if_pos hzero, handle, incomingWindowUpdateHandler]
      exact .refl _
    · simp only [announced, if_neg hzero]
      exact (l.still_incomingWindowUpdateHandler hzero increment).acts
  | outgoingWindowUpdate streamID increment | outgoingSettings ss | ping p =>
    exact l.acts_writeFrame (by simp [Effect.IsData])
  | incomingSettings ss => exact acts_writeFrame _ (by simp [Effect.IsData])
  | headerFrame h => exact l.acts_headerHandler env h
  | registerStream streamID => exact (l.still_setStream (by simp [newOutStream])).acts
  | cleanupStream c => exact l.acts_cleanupStreamHandler c
  | incomingGoAway =>
    refine Still.acts ?_
    change l.Still l.incomingGoAwayHandler.1
    unfold incomingGoAwayHandler
    split
    · simp only
      split <;> exact still_of_same rfl rfl rfl rfl rfl
    · exact .refl l
  | dataFrame df => exact l.acts_preprocessData df
  | goAway g => exact l.acts_goAwayHandler env g
  | outFlowControlSizeRequest => exact (l.still_record (by simp [Effect.IsData])).acts

end LoopyWriter

end Kitex.Http2
