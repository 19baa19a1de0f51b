import Kitex.Http2.LoopySteps

/-! # What handling a control item does

`Handled` lists the changes that `handle` can make to the scheduling fields,
with the effects it appends. Together with `Turn` it inverts a step of the
writer's loop.
-/

namespace Kitex.Http2

open Kitex.Container

variable {hpack : Hpack}

namespace LoopyWriter

/-- What an item adds to the list of its stream: a data frame if the stream is established, and a
server's trailers if the stream is not empty. -/
def queued (l : LoopyWriter hpack) : CbItem → Option StreamItem
  | .dataFrame df => if df.streamID ∈ l.estdStreams then some (.data df) else none
  | .headerFrame h =>
    if l.side = .serverSide ∧ h.endStream = true ∧
      ∃ str ∈ l.estdStreams.lookup h.streamID, str.state ≠ .empty then some (.header h) else none
  | _ => none

inductive Handled (env : Surroundings) (l : LoopyWriter hpack) :
    CbItem → LoopyWriter hpack → List Effect → Except LoopyErr Unit → Prop
  | kept {item : CbItem} {next : LoopyWriter hpack} {added : List Effect}
      {result : Except LoopyErr Unit} (draining : Bool)
      (hsame : ({ l with draining := draining } : LoopyWriter hpack).SameCore next)
      (hneutral : ∀ effect ∈ added, effect.IsNeutral) (hresult : result ≠ .error .panicked)
      (hqueued : l.queued item = none) : Handled env l item next added result
  | connWindow (increment : UInt32) :
      Handled env l (.incomingWindowUpdate 0 increment)
        { l with sendQuota := l.sendQuota + increment } [] (.ok ())
  | credited {streamID : UInt32} {str credit : OutStream} (increment : UInt32)
      (hlookup : l.estdStreams.lookup streamID = some str)
      (hcredit : credit = { str with bytesOutStanding := str.bytesOutStanding - increment.toNat })
      (hkeep : ¬(l.strQuota credit > 0 ∧ str.state = .waitingOnStreamQuota)) :
      Handled env l (.incomingWindowUpdate streamID increment) (l.setStream credit) [] (.ok ())
  | resumed {streamID : UInt32} {str : OutStream} (increment : UInt32)
      (hlookup : l.estdStreams.lookup streamID = some str)
      (hwaiting : str.state = .waitingOnStreamQuota) :
      Handled env l (.incomingWindowUpdate streamID increment)
        ((l.setStream { str with
          bytesOutStanding := str.bytesOutStanding - increment.toNat
          state := .active }).activate str.id) [] (.ok ())
  | settings (ss : List Setting) {next : LoopyWriter hpack} {added : List Effect}
      (hsame : (l.applySettings env ss).SameCore next)
      (hneutral : ∀ effect ∈ added, effect.IsNeutral) :
      Handled env l (.incomingSettings ss) next added (.ok ())
  | registered {item : CbItem} {next : LoopyWriter hpack} {added : List Effect}
      (streamID : UInt32) (hregisters : item.registers l.side = some streamID)
      (hsame : (l.setStream (newOutStream streamID)).SameCore next)
      (hadded : (∀ effect ∈ added, effect.IsNeutral) ∨
        ∃ endStream, HeaderBlock streamID endStream added) :
      Handled env l item next added (.ok ())
  | queuedTrailers {h : HeaderFrame} {str : OutStream}
      (hside : l.side = .serverSide) (hlookup : l.estdStreams.lookup h.streamID = some str)
      (hend : h.endStream = true) (hstate : str.state ≠ .empty) :
      Handled env l (.headerFrame h) (l.setStream { str with itl := str.itl ++ [.header h] }) []
        (.ok ())
  | wroteTrailers {h : HeaderFrame} {str : OutStream} {next : LoopyWriter hpack}
      {added : List Effect} {result : Except LoopyErr Unit}
      (hlookup : l.estdStreams.lookup h.streamID = some str) (hstate : str.state = .empty)
      (hblock : HeaderBlock h.streamID h.endStream added)
      (hresult : result ≠ .error .panicked)
      (hsame : (l.forget h.streamID).SameCore next) :
      Handled env l (.headerFrame h) next added result
  | startedData {df : DataFrame} {str : OutStream}
      (hlookup : l.estdStreams.lookup df.streamID = some str) (hstate : str.state = .empty) :
      Handled env l (.dataFrame df)
        ((l.setStream
          { str with itl := str.itl ++ [.data df], state := .active }).activate str.id) [] (.ok ())
  | appendedData {df : DataFrame} {str : OutStream}
      (hlookup : l.estdStreams.lookup df.streamID = some str) (hstate : str.state ≠ .empty) :
      Handled env l (.dataFrame df) (l.setStream { str with itl := str.itl ++ [.data df] }) []
        (.ok ())
  | forgotten {c : CleanupStream} {streamID : UInt32} {next : LoopyWriter hpack}
      {added : List Effect} {result : Except LoopyErr Unit}
      (hsame : (l.forget streamID).SameCore next)
      (hneutral : ∀ effect ∈ added, effect.IsNeutral) (hresult : result ≠ .error .panicked) :
      Handled env l (.cleanupStream c) next added result

variable {env : Surroundings} {l : LoopyWriter hpack}

/-- The inversion of one call of `handle`. -/
def Inverts (env : Surroundings) (l : LoopyWriter hpack) (item : CbItem)
    (outcome : Outcome hpack Unit) : Prop :=
  ∃ added, outcome.1.effects = l.effects ++ added ∧
    Handled env l item outcome.1 added outcome.2

theorem writeFrame_inverts (hreliable : l.Reliable) {item : CbItem} {frame : Frame}
    (hneutral : (Effect.wrote frame).IsNeutral) (hqueued : l.queued item = none) :
    Inverts env l item (l.writeFrame frame) := by
  obtain ⟨next, hwrite, hsame, heffects⟩ := writeFrame_ok hreliable frame
  rw [hwrite]
  exact ⟨_, heffects, .kept l.draining hsame (by simpa using hneutral) (by simp) hqueued⟩

/-- A call that returns at once keeps the writer. -/
theorem return_inverts {item : CbItem} {result : Except LoopyErr Unit}
    (hresult : result ≠ .error .panicked) (hqueued : l.queued item = none) :
    Inverts env l item (l, result) :=
  ⟨[], by simp, .kept l.draining (.refl l) (by simp) hresult hqueued⟩

theorem incomingWindowUpdateHandler_inverts (streamID increment : UInt32) :
    Inverts env l (.incomingWindowUpdate streamID increment)
      (l.incomingWindowUpdateHandler streamID increment) := by
  unfold incomingWindowUpdateHandler
  split
  next hzero =>
    subst streamID
    exact ⟨[], by simp, .connWindow increment⟩
  next =>
    split
    next => exact return_inverts (by simp) rfl
    next str hlookup =>
      simp only
      split
      next hresume =>
        exact ⟨[], by simp [setStream, activate], .resumed increment hlookup hresume.2⟩
      next hkeep => exact ⟨[], by simp [setStream], .credited increment hlookup rfl hkeep⟩

/-- Neither the connection window nor what has been written is touched. -/
structure SameOutput (l next : LoopyWriter hpack) : Prop where
  side : next.side = l.side
  sendQuota : next.sendQuota = l.sendQuota
  framer : next.framer = l.framer
  effects : next.effects = l.effects

theorem SameOutput.refl (l : LoopyWriter hpack) : l.SameOutput l :=
  ⟨rfl, rfl, rfl, rfl⟩

theorem SameOutput.trans {l middle next : LoopyWriter hpack} (hfirst : l.SameOutput middle)
    (hsecond : middle.SameOutput next) : l.SameOutput next :=
  ⟨hsecond.side.trans hfirst.side, hsecond.sendQuota.trans hfirst.sendQuota,
    hsecond.framer.trans hfirst.framer, hsecond.effects.trans hfirst.effects⟩

section

variable (l : LoopyWriter hpack)

theorem activateDepleted_frame (streamID : UInt32) :
    l.SameOutput (l.activateDepleted streamID) ∧ (l.activateDepleted streamID).oiws = l.oiws := by
  unfold activateDepleted
  split
  · exact ⟨.refl l, rfl⟩
  · split
    · exact ⟨⟨rfl, rfl, rfl, rfl⟩, rfl⟩
    · exact ⟨.refl l, rfl⟩

theorem foldl_activateDepleted_frame (order : List UInt32) :
    l.SameOutput (order.foldl activateDepleted l) ∧
      (order.foldl activateDepleted l).oiws = l.oiws := by
  induction order generalizing l with
  | nil => exact ⟨.refl l, rfl⟩
  | cons streamID order ih =>
    obtain ⟨hsame, hoiws⟩ := l.activateDepleted_frame streamID
    obtain ⟨hrest, hrestOiws⟩ := ih (l.activateDepleted streamID)
    exact ⟨hsame.trans hrest, hrestOiws.trans hoiws⟩

theorem applySetting_frame (env : Surroundings) (s : Setting) :
    l.SameOutput (l.applySetting env s) ∧
      (l.applySetting env s).oiws =
        if s.id = Setting.initialWindowSize then s.val else l.oiws := by
  unfold applySetting
  split
  next =>
    have hset : l.SameOutput { l with oiws := s.val } := ⟨rfl, rfl, rfl, rfl⟩
    simp only
    split
    · obtain ⟨hsame, hoiws⟩ := foldl_activateDepleted_frame { l with oiws := s.val } _
      exact ⟨hset.trans hsame, hoiws⟩
    · exact ⟨hset, rfl⟩
  next =>
    split
    · exact ⟨⟨rfl, rfl, rfl, rfl⟩, rfl⟩
    · exact ⟨.refl l, rfl⟩

theorem applySettings_frame (env : Surroundings) (ss : List Setting) :
    l.SameOutput (l.applySettings env ss) := by
  induction ss generalizing l with
  | nil => exact .refl l
  | cons s ss ih => exact (l.applySetting_frame env s).1.trans (ih (l.applySetting env s))

end

theorem incomingSettingsHandler_inverts (hreliable : l.Reliable) (ss : List Setting) :
    Inverts env l (.incomingSettings ss) (l.incomingSettingsHandler env ss) := by
  obtain ⟨-, -, hframer, heffects⟩ := l.applySettings_frame env ss
  have happlied : (l.applySettings env ss).Reliable := by
    intro call
    rw [hframer]
    exact hreliable call
  obtain ⟨next, hwrite, hsame, hwritten⟩ := writeFrame_ok happlied .settingsAck
  rw [incomingSettingsHandler, hwrite]
  exact ⟨_, by rw [hwritten, heffects], .settings ss hsame (by simp [Effect.IsNeutral])⟩

theorem originateStream_inverts (hreliable : l.Reliable) (hside : l.side = .clientSide)
    (h : HeaderFrame) : Inverts env l (.headerFrame h)
      (l.originateStream env (newOutStream h.streamID) h) := by
  have hqueued : l.queued (.headerFrame h) = none := if_neg (by simp [hside])
  unfold originateStream
  split
  next => exact return_inverts (by simp) hqueued
  next => exact return_inverts (by simp) hqueued
  next =>
    obtain ⟨middle, added, hwrite, hsame, heffects, hblock⟩ :=
      writeHeader_ok hreliable (newOutStream h.streamID).id h.endStream h.hf h.onWrite
    rw [hwrite]
    exact ⟨added, heffects, .registered _ (by rw [hside]; rfl) (setStream_congr hsame _)
      (.inr ⟨_, hblock⟩)⟩

theorem headerHandler_inverts (hreliable : l.Reliable) (h : HeaderFrame) :
    Inverts env l (.headerFrame h) (l.headerHandler env h) := by
  unfold headerHandler
  split
  next hside =>
    split
    next hlookup => exact return_inverts (by simp) (if_neg (by simp [hlookup]))
    next str hlookup =>
      split
      next hopen =>
        obtain ⟨middle, added, hwrite, hsame, heffects, hblock⟩ :=
          writeHeader_ok hreliable h.streamID h.endStream h.hf h.onWrite
        rw [hwrite]
        rw [hopen] at hblock
        exact ⟨added, heffects, .kept l.draining hsame hblock.neutral (by simp)
          (if_neg (by simp [hopen]))⟩
      next hend =>
        have hend : h.endStream = true := by simpa using hend
        split
        next hstate =>
          exact ⟨[], by simp [setStream], .queuedTrailers hside hlookup hend hstate⟩
        next hstate =>
          obtain ⟨written, next, result, added, hheader, hclean, hadded, hblock, hcases⟩ :=
            trailers_cases hreliable h
          rw [hheader]
          simp only [Outcome.andThen, hclean]
          rcases hcases with ⟨-, hpanic, hforget⟩ | ⟨hnil, -, -⟩
          · exact ⟨added, hadded,
              .wroteTrailers hlookup (not_not.mp hstate) hblock hpanic hforget⟩
          · have := h.endStream_eq
            simp [hend, hnil] at this
  next hside => exact originateStream_inverts hreliable hside h

theorem preprocessData_inverts (df : DataFrame) :
    Inverts env l (.dataFrame df) (l.preprocessData df) := by
  unfold preprocessData
  split
  next hlookup =>
    exact return_inverts (by simp) (if_neg (by simpa using AList.lookup_eq_none.mp hlookup))
  next str hlookup =>
    simp only
    split
    next hstate =>
      exact ⟨[], by simp [setStream, activate], .startedData hlookup hstate⟩
    next hstate =>
      exact ⟨[], by simp [setStream], .appendedData hlookup hstate⟩

theorem incomingGoAwayHandler_inverts : Inverts env l .incomingGoAway l.incomingGoAwayHandler := by
  unfold incomingGoAwayHandler
  split
  next =>
    simp only
    split
    · exact ⟨[], by simp, .kept true (.refl _) (by simp) (by simp) rfl⟩
    · exact ⟨[], by simp, .kept true (.refl _) (by simp) (by simp) rfl⟩
  next => exact return_inverts (by simp) rfl

theorem goAwayHandler_inverts (hreliable : l.Reliable) (g : GoAway) :
    Inverts env l (.goAway g) (l.goAwayHandler env g) := by
  unfold goAwayHandler
  split
  next => exact return_inverts (by simp) rfl
  next =>
    unfold outgoingGoAwayHandler
    split
    next => exact return_inverts (by simp) rfl
    next =>
      split
      next =>
        obtain ⟨next, hwrite, hsame, heffects⟩ :=
          writeFrame_ok hreliable (.goAway env.maxStreamID g.code g.debugData)
        rw [hwrite]
        by_cases hclose : g.closeConn = true ∨ env.noActiveStreams = true
        · simp only [Outcome.andThen, if_pos hclose]
          exact ⟨_, heffects, .kept l.draining hsame (by simp [Effect.IsNeutral]) (by simp) rfl⟩
        · simp only [Outcome.andThen, if_neg hclose]
          refine ⟨_, heffects, .kept true ?_ (by simp [Effect.IsNeutral]) (by simp) rfl⟩
          exact { hsame with draining := rfl }
      next =>
        obtain ⟨middle, hwrite, hsame, heffects⟩ :=
          writeFrame_ok hreliable (.goAway 4294967295 ErrCode.no g.debugData)
        obtain ⟨next, hping, hsame', heffects'⟩ :=
          writeFrame_ok (hsame.reliable hreliable) (.ping false goAwayPing)
        have hboth := hsame.trans hsame'
        rw [hwrite]
        simp only [Outcome.andThen, hping]
        refine ⟨[.wrote (.goAway 4294967295 ErrCode.no g.debugData),
          .wrote (.ping false goAwayPing)], ?_, .kept false ?_ (by simp [Effect.IsNeutral])
          (by simp) rfl⟩
        · simp [heffects', heffects]
        · exact { hboth with draining := rfl }

theorem handle_inverts (hreliable : l.Reliable) (env : Surroundings) (item : CbItem) :
    Inverts env l item (l.handle env item) := by
  cases item with
  | incomingWindowUpdate streamID increment =>
    exact incomingWindowUpdateHandler_inverts streamID increment
  | outgoingWindowUpdate streamID increment | outgoingSettings ss | ping p =>
    exact writeFrame_inverts hreliable trivial rfl
  | incomingSettings ss => exact incomingSettingsHandler_inverts hreliable ss
  | headerFrame h => exact headerHandler_inverts hreliable h
  | registerStream streamID =>
    exact ⟨[], by simp [handle, registerStreamHandler, setStream],
      .registered streamID rfl (.refl _) (.inl (by simp))⟩
  | cleanupStream c =>
    obtain ⟨next, result, added, hclean, hpanic, hforget, heffects, hneutral⟩ :=
      cleanupStreamHandler_cases hreliable c
    rw [handle, hclean]
    exact ⟨added, heffects, .forgotten hforget hneutral hpanic⟩
  | incomingGoAway => exact incomingGoAwayHandler_inverts
  | dataFrame df => exact preprocessData_inverts df
  | goAway g => exact goAwayHandler_inverts hreliable g
  | outFlowControlSizeRequest =>
    exact ⟨[.replied l.sendQuota], rfl,
      .kept l.draining (l.sameCore_record _) (by simp [Effect.IsNeutral])
        (by simp [handle, outFlowControlSizeRequestHandler]) rfl⟩

end LoopyWriter

end Kitex.Http2
