import Kitex.Http2.LoopyQuota
import Kitex.Http2.SettingsFrame

/-! # The initial window of outbound streams

The reader of a connection parses SETTINGS frames and leaves their entries to
the writer through the control buffer. The initial window of the writer stays
within the bounds of the HTTP/2 specification as long as no frame hides a
value out of bounds behind one that passes the parser.
-/

namespace Kitex.Http2

open LoopyWriter

variable {hpack : Hpack} {event : LoopyEvent} {item : CbItem}

/-! ## Reader, control buffer and writer -/

structure Connection (hpack : Hpack) where
  side : Side
  /-- the reader goes on until the parser rejects a frame -/
  reading : Bool
  /-- the control buffer has been finished with an error -/
  bufErr : Bool
  list : List CbItem
  loopy : LoopyState hpack

def CbItem.isIncomingSettings : CbItem → Bool
  | .incomingSettings _ => true
  | _ => false

inductive ConnEvent where
  /-- the reader receives a SETTINGS frame -/
  | readSettings (raw : RawFrame)
  /-- anyone puts another item into the control buffer -/
  | put (item : CbItem)
  | finish
  | loopyHandle (env : Surroundings)
  | processData

namespace Connection

def new (hpack : Hpack) (side : Side) (framer : Framer) : Connection hpack where
  side := side
  reading := true
  bufErr := false
  list := []
  loopy := ⟨newLoopyWriter hpack side framer, none⟩

/-- `controlBuf.put`, which fails once the control buffer is finished. -/
def put (c : Connection hpack) (item : CbItem) : Connection hpack :=
  { c with list := if c.bufErr then c.list else c.list ++ [item] }

def handleSettings (c : Connection hpack) (f : SettingsFrame) : Connection hpack :=
  if f.isAck then c else c.put (.incomingSettings (f.settings.filter c.side.forwards))

def readSettings (c : Connection hpack) (raw : RawFrame) : Connection hpack :=
  match raw.parse with
  | .error _ => { c with reading := false }
  | .ok f => c.handleSettings f

def step (c : Connection hpack) : ConnEvent → Option (Connection hpack)
  | .readSettings raw => if c.reading then some (c.readSettings raw) else none
  | .put item => if item.isIncomingSettings then none else some (c.put item)
  | .finish => some { c with bufErr := true, list := [] }
  | .loopyHandle env =>
    match c.list with
    | [] => none
    | item :: list =>
      (loopyStep c.loopy (.handle env item)).map fun loopy => { c with list, loopy }
  | .processData => (loopyStep c.loopy .processData).map fun loopy => { c with loopy }

def run (hpack : Hpack) (side : Side) (framer : Framer) (events : List ConnEvent) :
    Option (Connection hpack) :=
  Machine.run step (new hpack side framer) events

end Connection

/-! ## What the writer does with the settings -/

/-- No entry asks for an initial window out of bounds. -/
def WithinBounds (ss : List Setting) : Prop :=
  ∀ s ∈ ss, s.id = Setting.initialWindowSize → s.val ≤ maxWindowSize

def CbItem.WithinBounds (item : CbItem) : Prop :=
  ∀ ss, item = .incomingSettings ss → Http2.WithinBounds ss

namespace LoopyWriter

theorem applySettings_oiws_le (env : Surroundings) {ss : List Setting} (hss : WithinBounds ss)
    (l : LoopyWriter hpack) (hle : l.oiws ≤ maxWindowSize) :
    (l.applySettings env ss).oiws ≤ maxWindowSize := by
  induction ss generalizing l with
  | nil => exact hle
  | cons s ss ih =>
    apply ih (fun other hmem => hss other (List.mem_cons_of_mem s hmem))
    rw [(applySetting_frame _ env s).2]
    by_cases hid : s.id = Setting.initialWindowSize
    · rw [if_pos hid]
      exact hss s List.mem_cons_self hid
    · rwa [if_neg hid]

theorem announced_oiws_le (env : Surroundings) (l : LoopyWriter hpack) (hitem : item.WithinBounds)
    (hle : l.oiws ≤ maxWindowSize) : (l.announced env item).oiws ≤ maxWindowSize := by
  unfold announced
  split
  next streamID increment => split <;> exact hle
  next ss => exact applySettings_oiws_le env (hitem ss rfl) l hle
  next => exact hle

end LoopyWriter

theorem loopyStep_oiws_le {state next : LoopyState hpack} (howned : state.writer.Owned)
    (hle : state.writer.oiws ≤ maxWindowSize)
    (hitem : ∀ env item, event = .handle env item → item.WithinBounds)
    (hstep : loopyStep state event = some next) : next.writer.oiws ≤ maxWindowSize := by
  unfold loopyStep at hstep
  split at hstep
  next => cases hstep
  next =>
    cases event with
    | handle env item =>
      cases hstep
      rw [Outcome.toState_writer, (state.writer.acts_handle env item).calm.oiws]
      exact announced_oiws_le env state.writer (hitem env item rfl) hle
    | processData =>
      cases hstep
      rw [Outcome.toState_writer, (processData_spends howned).oiws]
      exact hle

/-! ## Every run -/

/-- A SETTINGS frame that is received is guarded. -/
def ConnEvent.Guarded : ConnEvent → Prop
  | .readSettings raw => raw.Guarded
  | _ => True

instance : ∀ event : ConnEvent, Decidable event.Guarded
  | .readSettings raw => inferInstanceAs (Decidable raw.Guarded)
  | .put _ | .finish | .loopyHandle _ | .processData => isTrue trivial

namespace Connection

/-- The initial window is within bounds and the settings on their way to the
writer keep it there. -/
structure Bounded (c : Connection hpack) : Prop where
  owned : c.loopy.writer.Owned
  oiws_le : c.loopy.writer.oiws ≤ maxWindowSize
  queued : ∀ item ∈ c.list, item.WithinBounds

variable {c : Connection hpack}

theorem Bounded.put (hbounded : c.Bounded) (hitem : item.WithinBounds) : (c.put item).Bounded := by
  refine ⟨hbounded.owned, hbounded.oiws_le, ?_⟩
  intro other hmem
  simp only [Connection.put] at hmem
  split at hmem
  · exact hbounded.queued other hmem
  · rcases List.mem_append.mp hmem with hold | hnew
    · exact hbounded.queued other hold
    · exact List.mem_singleton.mp hnew ▸ hitem

theorem Bounded.loopyStep (hbounded : c.Bounded) {loopy : LoopyState hpack} {list : List CbItem}
    (hitem : ∀ env item, event = .handle env item → item.WithinBounds)
    (hlist : ∀ item ∈ list, item ∈ c.list) (hstep : loopyStep c.loopy event = some loopy) :
    ({ c with list, loopy } : Connection hpack).Bounded :=
  ⟨(loopyStep_obeys hbounded.owned hstep).2,
    loopyStep_oiws_le hbounded.owned hbounded.oiws_le hitem hstep,
    fun item hmem => hbounded.queued item (hlist item hmem)⟩

theorem Bounded.readSettings (hbounded : c.Bounded) {raw : RawFrame} (hguarded : raw.Guarded) :
    (c.readSettings raw).Bounded := by
  unfold Connection.readSettings
  split
  next => exact ⟨hbounded.owned, hbounded.oiws_le, hbounded.queued⟩
  next f hparse =>
    unfold handleSettings
    split
    next => exact hbounded
    next =>
      apply hbounded.put
      intro ss hss s hmem hid
      obtain rfl := CbItem.incomingSettings.inj hss
      apply RawFrame.inBounds_of_parse hguarded hparse
      exact f.mem_windowSizes (List.mem_filter.mp hmem).1 hid

theorem bounded_of_step {c next : Connection hpack} {event : ConnEvent} (hbounded : c.Bounded)
    (hguarded : event.Guarded) (hstep : c.step event = some next) : next.Bounded := by
  cases event with
  | readSettings raw =>
    obtain ⟨-, ⟨⟩⟩ := Option.ite_none_right_eq_some.mp hstep
    exact hbounded.readSettings hguarded
  | put item =>
    obtain ⟨hother, ⟨⟩⟩ := Option.ite_none_left_eq_some.mp hstep
    apply hbounded.put
    intro ss hss
    exact absurd (by rw [hss]; rfl) hother
  | finish =>
    cases hstep
    exact ⟨hbounded.owned, hbounded.oiws_le, by simp⟩
  | loopyHandle env =>
    simp only [step] at hstep
    split at hstep
    next => cases hstep
    next item list hlist =>
      obtain ⟨loopy, hloopy, rfl⟩ := Option.map_eq_some_iff.mp hstep
      apply hbounded.loopyStep ?_ ?_ hloopy
      · intro env' other heq
        obtain ⟨-, rfl⟩ := LoopyEvent.handle.inj heq
        exact hbounded.queued item (hlist ▸ List.mem_cons_self)
      · exact fun other hmem => hlist ▸ List.mem_cons_of_mem item hmem
  | processData =>
    obtain ⟨loopy, hloopy, rfl⟩ := Option.map_eq_some_iff.mp hstep
    exact hbounded.loopyStep (by simp) (fun _ hmem => hmem) hloopy

/-- A SETTINGS frame with an initial window size out of bounds is sure to be
rejected exactly if it is guarded; and in every run that receives guarded
frames only, on any framer and in any interleaving with the other items, the
writer's initial window is within bounds. -/
theorem run_oiws (hpack : Hpack) (side : Side) (framer : Framer) (events : List ConnEvent) :
    (∀ raw : RawFrame, (¬InBounds raw.settingsFrame.windowSizes → ∃ e, raw.parse = .error e) ↔
      raw.Guarded) ∧ ∀ final, run hpack side framer events = some final →
      (∀ event ∈ events, event.Guarded) → final.loopy.writer.oiws ≤ maxWindowSize := by
  refine ⟨RawFrame.rejected_iff_guarded, ?_⟩
  intro final hrun hguarded
  have hbounded : final.Bounded := by
    refine Machine.run_invariant (fun past c => (∀ event ∈ past, event.Guarded) → c.Bounded)
      ?_ ?_ hrun hguarded
    · intro _
      have hdefault : defaultWindowSize ≤ maxWindowSize := by decide
      exact ⟨by simp [Owned, Connection.new, newLoopyWriter], hdefault, by simp [Connection.new]⟩
    · intro past c event next _ hpast hnext hall
      refine bounded_of_step (hpast fun other hmem => hall other ?_) (hall event ?_) hnext
      · exact List.mem_append_left _ hmem
      · simp
  exact hbounded.oiws_le

/-- A server's peer raises the initial window twice in one frame, then opens a
stream on which the server sends data. -/
def raisedTwice : List ConnEvent :=
  [.readSettings ⟨⟨0, 12, 0⟩, [0, 4, 0, 1, 0, 0, 0, 4, 127, 255, 255, 255], rfl⟩,
    .put (.registerStream 1), .put (.dataFrame ⟨1, false, [0, 0, 0, 0, 1], [7], false⟩),
    .loopyHandle Surroundings.quiet, .loopyHandle Surroundings.quiet,
    .loopyHandle Surroundings.quiet, .processData]

theorem run_oiws_raisedTwice : ∃ final,
    run Hpack.verbatim .serverSide Framer.reliable raisedTwice = some final ∧
      final.loopy.writer.oiws = 2147483647 ∧ final.loopy.writer.oiws ≤ maxWindowSize := by
  have hview : (run Hpack.verbatim .serverSide Framer.reliable raisedTwice).any
      (fun c => decide (c.loopy.writer.oiws = 2147483647)) = true := by decide
  simp only [Option.any_eq_true, decide_eq_true_eq] at hview
  obtain ⟨final, hrun, hoiws⟩ := hview
  exact ⟨final, hrun, hoiws, (run_oiws _ _ _ _).2 final hrun (by decide)⟩

/-- The first entry, 65535, passes the parser, which does not look at the
second one. -/
def repeatedWindow : RawFrame :=
  ⟨⟨0, 12, 0⟩, [0, 4, 0, 0, 255, 255, 0, 4, 255, 255, 255, 255], rfl⟩

/-- The frame is accepted, and the writer applies its second entry. -/
theorem repeatedWindow_exceeds_bound : 4294967295 ∈ repeatedWindow.settingsFrame.windowSizes ∧
      repeatedWindow.parse = .ok repeatedWindow.settingsFrame ∧
      ∃ final, run Hpack.verbatim .serverSide Framer.reliable
          [.readSettings repeatedWindow, .loopyHandle Surroundings.quiet] = some final ∧
        ¬final.loopy.writer.oiws ≤ maxWindowSize := by
  refine ⟨by decide, by rfl, ?_⟩
  have hview : (run Hpack.verbatim .serverSide Framer.reliable
      [.readSettings repeatedWindow, .loopyHandle Surroundings.quiet]).any
      (fun c => decide (¬c.loopy.writer.oiws ≤ maxWindowSize)) = true := by decide
  simp only [Option.any_eq_true, decide_eq_true_eq] at hview
  exact hview

end Connection

end Kitex.Http2
