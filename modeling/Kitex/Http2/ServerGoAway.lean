import Kitex.Http2.ServerDrain

/-! # The GOAWAY frames of the server

A shutdown sends a first GOAWAY frame, which says nothing about streams, and after an answer or a
minute the final one. The writer takes the largest stream identifier and stops the acceptance of
streams in one critical section, so what the final frame says is right.
-/

namespace Kitex.Http2

/-- What matters of a run: the streams that are accepted, the GOAWAY frames of shutdowns that go to
the control buffer, and those that are written. -/
inductive ServerOutput where
  | accepted (streamID : UInt32)
  | put (g : GoAway)
  | wrote (lastStreamID : UInt32) (g : GoAway)
  deriving DecidableEq

namespace ServerOutput

def isHeadsUp : ServerOutput → Bool
  | put g => g.headsUp
  | _ => false

/-- The final GOAWAY frame of a shutdown goes to the control buffer. -/
def isFinal : ServerOutput → Bool
  | put g => !g.headsUp
  | _ => false

/-- What may come after what: identifiers increase, a final GOAWAY frame covers the streams before
it, and no stream is accepted after it. -/
def Before : ServerOutput → ServerOutput → Prop
  | accepted streamID, accepted later => streamID < later
  | accepted streamID, wrote lastStreamID g => g.headsUp = false → streamID ≤ lastStreamID
  | wrote _ g, accepted _ => g.headsUp = true
  | _, _ => True

end ServerOutput

def CbItem.isHeadsUp : CbItem → Bool
  | .goAway g => g.headsUp
  | _ => false

def CbItem.isRegister (streamID : UInt32) : CbItem → Bool
  | .registerStream registered => registered = streamID
  | _ => false

namespace Http2Server

variable {t next : Http2Server} {event : ServerEvent} {streamID : UInt32} {rstCode : ErrCode}
  {rst : Bool} {now : Int}

/-- The identifier in a GOAWAY frame that the writer makes of an item. -/
def lastStreamID (t : Http2Server) (g : GoAway) : UInt32 :=
  if g.headsUp then 4294967295 else t.maxStreamID

def isActive (t : Http2Server) (streamID : UInt32) : Bool :=
  (t.activeStreams.bind (AList.lookup streamID)).isSome

/-- A step enters a stream into the map of streams, or tells the writer of it. -/
def accepts (t next : Http2Server) (streamID : UInt32) : Bool :=
  (next.isActive streamID && !t.isActive streamID) ||
    (next.items.drop t.items.length).any (CbItem.isRegister streamID)

def emit (t : Http2Server) (event : ServerEvent) (next : Http2Server) : List ServerOutput :=
  match event with
  | .operateHeaders frame =>
    if t.accepts next frame.streamID then [.accepted frame.streamID] else []
  | .drain _ _ | .notify =>
    (next.items.drop t.items.length).filterMap fun
      | .goAway g => some (.put g)
      | _ => none
  | .loopyGet =>
    match t.items with
    | .goAway g :: _ => if t.state = .closing then [] else [.wrote (t.lastStreamID g) g]
    | _ => []
  | _ => []

/-- The GOAWAY frames that are still to come of the first ones. -/
def pending (t : Http2Server) : Nat := t.items.countP CbItem.isHeadsUp + t.notifiers.length

/-- A step that has nothing to do with the acceptance of streams or with a shutdown. -/
structure Quiet (t next : Http2Server) : Prop where
  maxStreamID : next.maxStreamID = t.maxStreamID
  state : next.state = .reachable → t.state = .reachable
  drainChan : next.drainChan = .unmade ↔ t.drainChan = .unmade
  bufErr : next.bufErr = false → t.bufErr = false
  pending : next.pending ≤ t.pending

theorem Quiet.refl (t : Http2Server) : Quiet t t := ⟨rfl, id, Iff.rfl, id, Nat.le_refl _⟩

theorem Quiet.trans {last : Http2Server} (hfirst : Quiet t next) (hsecond : Quiet next last) :
    Quiet t last where
  maxStreamID := hsecond.maxStreamID.trans hfirst.maxStreamID
  state := hfirst.state ∘ hsecond.state
  drainChan := hsecond.drainChan.trans hfirst.drainChan
  bufErr := hfirst.bufErr ∘ hsecond.bufErr
  pending := Nat.le_trans hsecond.pending hfirst.pending

theorem pending_put (t : Http2Server) (item : CbItem) :
    (t.put item).pending ≤ t.pending + if item.isHeadsUp then 1 else 0 := by
  unfold pending put
  dsimp only
  split
  · omega
  · rw [List.countP_append, List.countP_singleton]
    omega

theorem quiet_put {item : CbItem} (hitem : item.isHeadsUp = false) : Quiet t (t.put item) where
  maxStreamID := rfl
  state := id
  drainChan := Iff.rfl
  bufErr := id
  pending := by simpa [hitem] using pending_put t item

theorem quiet_closeWithErr : Quiet t t.closeWithErr := by
  unfold closeWithErr
  split
  · exact .refl t
  · exact ⟨rfl, nofun, Iff.rfl, nofun, by simp [pending]⟩

theorem quiet_close : Quiet t t.close := by
  unfold close
  split
  · exact .refl t
  · refine ⟨rfl, nofun, Iff.rfl, id, ?_⟩
    have hresets : t.resets.countP CbItem.isHeadsUp = 0 := by
      unfold resets
      cases t.activeStreams with
      | none => simp
      | some streams => simp [CbItem.isHeadsUp]
    unfold pending
    split
    · exact Nat.le_refl _
    · rw [List.countP_append, hresets, Nat.add_zero]

theorem quiet_finishStream {hf : List HeaderField} :
    Quiet t (t.finishStream streamID hf rst rstCode) := by
  unfold finishStream
  split
  · split
    · next streams _ _ _ =>
      have hset : Quiet t { t with activeStreams := some (streams.insert streamID true) } :=
        ⟨rfl, id, Iff.rfl, id, Nat.le_refl _⟩
      exact hset.trans (quiet_put rfl)
    · exact .refl t
  · exact .refl t

theorem quiet_closeStream : Quiet t (t.closeStream streamID rst rstCode) := by
  have hset : Quiet t (t.deleteStream streamID) := ⟨rfl, id, Iff.rfl, id, Nat.le_refl _⟩
  exact hset.trans (quiet_put rfl)

theorem quiet_handleRSTStream : Quiet t (t.handleRSTStream streamID) := by
  unfold handleRSTStream
  split
  · exact quiet_closeStream
  · exact quiet_put rfl

theorem quiet_countPing : Quiet t (t.countPing now) := by
  unfold countPing
  split
  · exact ⟨rfl, id, Iff.rfl, id, Nat.le_refl _⟩
  · have hstrike : Quiet t (t.strike now) := ⟨rfl, id, Iff.rfl, id, Nat.le_refl _⟩
    refine hstrike.trans ?_
    unfold punish
    split
    · exact quiet_put rfl
    · exact .refl _

theorem quiet_handlePing {f : Ping} : Quiet t (t.handlePing f now) := by
  unfold handlePing
  split
  · split
    · unfold closeDrainChan
      split
      · exact ⟨rfl, id, Iff.rfl, id, Nat.le_refl _⟩
      · next hmade => exact ⟨rfl, id, by simp [hmade], id, Nat.le_refl _⟩
      · exact ⟨rfl, id, Iff.rfl, id, Nat.le_refl _⟩
    · exact .refl t
  · have hcount : Quiet t ((t.put (.ping ⟨true, f.data⟩)).countPing now) :=
      (quiet_put rfl).trans quiet_countPing
    exact { hcount with }

theorem accepts_refl (t : Http2Server) (streamID : UInt32) : t.accepts t streamID = false := by
  simp [accepts]

theorem accepts_putCleanup (t : Http2Server) :
    t.accepts (t.putCleanup streamID rst rstCode) streamID = false := by
  have hactive : (t.putCleanup streamID rst rstCode).isActive streamID = t.isActive streamID := rfl
  rw [accepts, hactive, putCleanup, put]
  split <;> simp [CbItem.isRegister]

theorem accepts_closeWithErr (t : Http2Server) : t.accepts t.closeWithErr streamID = false := by
  unfold closeWithErr
  split
  · exact t.accepts_refl streamID
  · simp [accepts, isActive]

/-- A HEADERS frame is refused, or its stream has a new odd identifier. -/
theorem operateHeaders_cases (t : Http2Server) (frame : MetaHeadersFrame) :
    (Quiet t (t.operateHeaders frame) ∧
        t.accepts (t.operateHeaders frame) frame.streamID = false) ∨
      t.state = .reachable ∧ frame.streamID.toNat % 2 = 1 ∧ t.maxStreamID < frame.streamID ∧
        t.operateHeaders frame = { t with
          maxStreamID := frame.streamID
          activeStreams := t.activeStreams.map (AList.insert frame.streamID false) }.put
            (.registerStream frame.streamID) := by
  unfold operateHeaders
  split
  · exact .inl ⟨quiet_put rfl, t.accepts_putCleanup⟩
  · exact .inl ⟨.refl t, t.accepts_refl _⟩
  · split
    · exact .inl ⟨.refl t, t.accepts_refl _⟩
    · next hstate =>
      split
      · exact .inl ⟨quiet_put rfl, t.accepts_putCleanup⟩
      · split
        · exact .inl ⟨quiet_closeWithErr, t.accepts_closeWithErr⟩
        · next hlegal =>
          rw [not_or, not_not] at hlegal
          have hodd : frame.streamID.toNat % 2 = 1 := by
            simpa using congrArg UInt32.toNat hlegal.1
          exact .inr ⟨not_not.mp hstate, hodd, UInt32.not_le.mp hlegal.2, rfl⟩

theorem emit_put (next : Http2Server) (hitems : next.items = t.items) (g : GoAway) :
    emit t .notify (next.put (.goAway g)) = if next.bufErr then [] else [.put g] := by
  unfold put
  split <;> simp [emit, hitems]

/-- What was put out, and the state that it has left. -/
structure Announced (out : List ServerOutput) (t : Http2Server) : Prop where
  order : out.Pairwise ServerOutput.Before
  odd : ∀ streamID, .accepted streamID ∈ out → streamID.toNat % 2 = 1
  bound : ∀ streamID, .accepted streamID ∈ out → streamID ≤ t.maxStreamID
  stopped : ∀ lastStreamID g, .wrote lastStreamID g ∈ out → g.headsUp = false →
    t.state ≠ .reachable
  unmade : t.drainChan = .unmade → out.countP ServerOutput.isHeadsUp = 0
  made : t.drainChan ≠ .unmade → t.bufErr = false → out.countP ServerOutput.isHeadsUp = 1
  atMost : out.countP ServerOutput.isHeadsUp ≤ 1
  finals : out.countP ServerOutput.isFinal + t.pending ≤ out.countP ServerOutput.isHeadsUp

namespace Announced

variable {out : List ServerOutput}

variable (h : Announced out t)
include h

theorem quiet (hquiet : Quiet t next) : Announced out next :=
  { h with
    bound := hquiet.maxStreamID ▸ h.bound
    stopped lastStreamID g hmem hfinal := h.stopped lastStreamID g hmem hfinal ∘ hquiet.state
    unmade hunmade := h.unmade (hquiet.drainChan.mp hunmade)
    made hmade hopen := h.made (hmade ∘ hquiet.drainChan.mpr) (hquiet.bufErr hopen)
    finals := Nat.le_trans (Nat.add_le_add_left hquiet.pending _) h.finals }

open ServerOutput

theorem order_concat {last : ServerOutput} (hlast : ∀ earlier ∈ out, earlier.Before last) :
    (out ++ [last]).Pairwise Before :=
  List.pairwise_append.mpr ⟨h.order, List.pairwise_singleton _ _, by simpa using hlast⟩

theorem operateHeaders (frame : MetaHeadersFrame) :
    Announced (out ++ emit t (.operateHeaders frame) (t.operateHeaders frame))
      (t.operateHeaders frame) := by
  rcases operateHeaders_cases t frame with ⟨hquiet, hrefused⟩ | ⟨hstate, hodd, hlt, hnext⟩
  · simpa [emit, hrefused] using h.quiet hquiet
  · have hmax : (t.operateHeaders frame).maxStreamID = frame.streamID := by rw [hnext]; rfl
    have hpending : (t.operateHeaders frame).pending ≤ t.pending := by
      rw [hnext]
      exact pending_put { t with
        maxStreamID := frame.streamID
        activeStreams := t.activeStreams.map (AList.insert frame.streamID false) }
        (.registerStream frame.streamID)
    have hraised : Announced out (t.operateHeaders frame) :=
      { h with
        bound streamID hmem := hmax ▸
          UInt32.le_of_lt (UInt32.lt_of_le_of_lt (h.bound streamID hmem) hlt)
        stopped := by simpa [hnext, put] using h.stopped
        unmade := by simpa [hnext, put] using h.unmade
        made := by simpa [hnext, put] using h.made
        finals := Nat.le_trans (Nat.add_le_add_left hpending _) h.finals }
    unfold emit
    dsimp only
    split
    · constructor
      case order =>
        refine h.order_concat fun earlier hearlier => ?_
        cases earlier with
        | accepted streamID => exact UInt32.lt_of_le_of_lt (h.bound streamID hearlier) hlt
        | put g => trivial
        | wrote lastStreamID g =>
          by_contra hfinal
          exact h.stopped lastStreamID g hearlier (Bool.eq_false_iff.mpr hfinal) hstate
      case odd =>
        intro streamID hmem
        rcases List.mem_append.mp hmem with hold | hnew
        · exact h.odd streamID hold
        · cases List.mem_singleton.mp hnew
          exact hodd
      case bound =>
        intro streamID hmem
        rcases List.mem_append.mp hmem with hold | hnew
        · exact hraised.bound streamID hold
        · cases List.mem_singleton.mp hnew
          rw [hmax]
          exact UInt32.le_refl _
      case stopped => simpa using hraised.stopped
      case unmade => simpa [isHeadsUp] using hraised.unmade
      case made => simpa [isHeadsUp] using hraised.made
      case atMost => simpa [isHeadsUp] using hraised.atMost
      case finals => simpa [isHeadsUp, isFinal] using hraised.finals
    · rwa [List.append_nil]

/-- A GOAWAY frame goes to the control buffer, which concerns neither the streams nor the state. -/
theorem put (g : GoAway) {next : Http2Server}
    (hmax : next.maxStreamID = t.maxStreamID) (hstate : next.state = t.state)
    (hunmade : next.drainChan = .unmade → g.headsUp = false ∧ t.drainChan = .unmade)
    (hheads : g.headsUp = true → t.drainChan = .unmade)
    (hmade : next.drainChan ≠ .unmade → next.bufErr = false →
      g.headsUp = true ∨ t.drainChan ≠ .unmade ∧ t.bufErr = false)
    (hpending : next.pending + (if g.headsUp then 0 else 1) ≤
      t.pending + if g.headsUp then 1 else 0) : Announced (out ++ [.put g]) next := by
  have hempty : g.headsUp = true → out.countP isHeadsUp = 0 := h.unmade ∘ hheads
  constructor
  case order =>
    refine h.order_concat fun earlier _ => ?_
    cases earlier <;> trivial
  case odd => simpa using h.odd
  case bound => simpa [hmax] using h.bound
  case stopped => simpa [hstate] using h.stopped
  case unmade =>
    intro hnone
    obtain ⟨hfinal, hnone⟩ := hunmade hnone
    simpa [isHeadsUp, hfinal] using h.unmade hnone
  case made =>
    intro hsome hopen
    cases hg : g.headsUp with
    | true => simp [isHeadsUp, hg, hempty hg]
    | false =>
      obtain ⟨hsome, hopen⟩ := (hmade hsome hopen).resolve_left (by simp [hg])
      simp [isHeadsUp, hg, h.made hsome hopen]
  case atMost =>
    cases hg : g.headsUp with
    | true => simp [isHeadsUp, hg, hempty hg]
    | false => simpa [isHeadsUp, hg] using h.atMost
  case finals =>
    have hfinals := h.finals
    simp only [List.countP_append, List.countP_singleton, isHeadsUp, isFinal]
    by_cases hg : g.headsUp = true <;> simp [hg] at hpending ⊢ <;> omega

theorem drain (code : ErrCode) (debugData : Bytes) :
    Announced (out ++ emit t (.drain code debugData) (t.drain code debugData))
      (t.drain code debugData) := by
  unfold Http2Server.drain
  split
  · simpa [emit] using h
  · next hunmade =>
    rw [not_not] at hunmade
    change Announced (out ++ emit t .notify _) _
    rw [emit_put (t := t) { t with drainChan := .made } rfl]
    by_cases hbuf : t.bufErr = true
    · rw [if_pos hbuf, List.append_nil]
      refine { h with stopped := ?_, unmade := ?_, made := ?_, finals := ?_ }
      · exact h.stopped
      · exact nofun
      · exact fun _ hopen => nomatch hbuf.symm.trans hopen
      · simpa [pending, Http2Server.put, hbuf] using h.finals
    · rw [if_neg hbuf]
      refine h.put _ rfl rfl nofun (fun _ => hunmade) (fun _ _ => .inl rfl) ?_
      exact pending_put { t with drainChan := .made } (.goAway ⟨code, debugData, true, false⟩)

theorem notify {code : ErrCode} {debugData : Bytes} {notifiers : List (ErrCode × Bytes)}
    (hnotifiers : t.notifiers = (code, debugData) :: notifiers) : Announced (out ++ emit t .notify
        ({ t with notifiers := notifiers }.put (.goAway ⟨code, debugData, false, false⟩)))
      ({ t with notifiers := notifiers }.put (.goAway ⟨code, debugData, false, false⟩)) := by
  have hpending : ({ t with notifiers := notifiers }.put
      (.goAway ⟨code, debugData, false, false⟩)).pending + 1 ≤ t.pending := by
    have hput := pending_put { t with notifiers := notifiers }
      (.goAway ⟨code, debugData, false, false⟩)
    simp only [CbItem.isHeadsUp, pending, hnotifiers, List.length_cons] at hput ⊢
    simp at hput
    omega
  rw [emit_put (t := t) { t with notifiers := notifiers } rfl]
  by_cases hbuf : t.bufErr = true
  · rw [if_pos hbuf, List.append_nil]
    exact h.quiet ⟨rfl, id, Iff.rfl, id, by omega⟩
  · rw [if_neg hbuf]
    exact h.put _ rfl rfl (fun hunmade => ⟨rfl, hunmade⟩) nofun
      (fun hmade hopen => .inr ⟨hmade, hopen⟩) hpending

theorem goAway {g : GoAway} {items : List CbItem} (hitems : t.items = .goAway g :: items) :
    Announced (out ++ emit t .loopyGet ({ t with items := items }.outgoingGoAwayHandler g))
      ({ t with items := items }.outgoingGoAwayHandler g) := by
  have hcount : t.pending = items.countP CbItem.isHeadsUp + (if g.headsUp then 1 else 0) +
      t.notifiers.length := by
    rw [pending, hitems, List.countP_cons]
    rfl
  by_cases hclosing : t.state = .closing
  · have hemit : emit t .loopyGet ({ t with items := items }.outgoingGoAwayHandler g) = [] := by
      simp [emit, hitems, hclosing]
    rw [hemit, List.append_nil, outgoingGoAwayHandler, if_pos hclosing]
    exact h.quiet ⟨rfl, id, Iff.rfl, id, by rw [hcount, pending]; dsimp only; omega⟩
  · have hemit : emit t .loopyGet ({ t with items := items }.outgoingGoAwayHandler g) =
        [.wrote (t.lastStreamID g) g] := by
      simp [emit, hitems, hclosing]
    rw [hemit, outgoingGoAwayHandler, if_neg hclosing]
    have hquiet : Quiet t
        (if g.headsUp then { t with
            items := items, notifiers := t.notifiers ++ [(g.code, g.debugData)] }
          else { t with items := items, state := .draining }) := by
      by_cases hg : g.headsUp = true
      · rw [if_pos hg]
        refine ⟨rfl, id, Iff.rfl, id, ?_⟩
        rw [hcount, pending, if_pos hg]
        simp
        omega
      · rw [if_neg hg]
        refine ⟨rfl, nofun, Iff.rfl, id, ?_⟩
        rw [hcount, pending]
        dsimp only
        omega
    have hold := h.quiet hquiet
    constructor
    case order =>
      refine h.order_concat fun earlier hearlier => ?_
      cases earlier with
      | accepted streamID =>
        intro hfinal
        simpa [lastStreamID, hfinal] using h.bound streamID hearlier
      | put g | wrote lastStreamID g => trivial
    case odd => simpa using h.odd
    case bound => simpa using hold.bound
    case stopped =>
      intro lastStreamID g' hmem hfinal
      rcases List.mem_append.mp hmem with hmem | hmem
      · exact hold.stopped lastStreamID g' hmem hfinal
      · cases List.mem_singleton.mp hmem
        rw [if_neg (by simp [hfinal])]
        exact nofun
    case unmade => simpa [isHeadsUp] using hold.unmade
    case made => simpa [isHeadsUp] using hold.made
    case atMost => simpa [isHeadsUp] using hold.atMost
    case finals => simpa [isHeadsUp, isFinal] using hold.finals

theorem step (hstep : t.step event = some next) : Announced (out ++ emit t event next) next := by
  have hquiet : Quiet t next → emit t event next = [] →
      Announced (out ++ emit t event next) next := fun hquiet hemit => by
    rw [hemit, List.append_nil]
    exact h.quiet hquiet
  obtain ⟨-, hstep⟩ := Option.ite_none_left_eq_some.mp hstep
  cases event with
  | operateHeaders frame =>
    cases hstep
    exact h.operateHeaders frame
  | drain code debugData =>
    cases hstep
    exact h.drain code debugData
  | notify =>
    simp only at hstep
    split at hstep <;> cases hstep
    next hnotifiers => exact h.notify hnotifiers
  | loopyGet =>
    simp only at hstep
    split at hstep <;> cases hstep
    · next hitems => exact h.goAway hitems
    · next item items hother hitems =>
      refine hquiet ⟨rfl, id, Iff.rfl, id, ?_⟩ ?_
      · rw [pending, pending, hitems, List.countP_cons]
        dsimp only
        omega
      · cases item with
        | goAway g => exact (hother g rfl).elim
        | _ => simp only [emit, hitems]
  | deleteStream streamID =>
    obtain ⟨-, ⟨⟩⟩ := Option.ite_none_right_eq_some.mp hstep
    exact hquiet ⟨rfl, id, Iff.rfl, id, Nat.le_refl _⟩ rfl
  | closeLoopyWriter =>
    obtain ⟨-, ⟨⟩⟩ := Option.ite_none_right_eq_some.mp hstep
    exact hquiet ⟨rfl, id, Iff.rfl, nofun, by simp [pending]⟩ rfl
  | handleRSTStream streamID => cases hstep; exact hquiet quiet_handleRSTStream rfl
  | handlePing f now => cases hstep; exact hquiet quiet_handlePing rfl
  | closeStream streamID rst rstCode => cases hstep; exact hquiet quiet_closeStream rfl
  | finishStream streamID hf rst rstCode => cases hstep; exact hquiet quiet_finishStream rfl
  | setResetPingStrikes => cases hstep; exact hquiet ⟨rfl, id, Iff.rfl, id, Nat.le_refl _⟩ rfl
  | close => cases hstep; exact hquiet quiet_close rfl
  | closeWithErr => cases hstep; exact hquiet quiet_closeWithErr rfl

end Announced

theorem announced_new (config : ServerConfig) : Announced [] (newHTTP2Server config) where
  order := List.Pairwise.nil
  odd := nofun
  bound := nofun
  stopped := nofun
  unmade _ := rfl
  made hmade := (hmade rfl).elim
  atMost := Nat.zero_le _
  finals := Nat.le_refl _

/-- What a run puts out. -/
def log (config : ServerConfig) (events : List ServerEvent) : List ServerOutput :=
  Machine.outputs step emit (newHTTP2Server config) events

/-- For every sequence of events: the identifiers of the streams that are accepted are odd and
increase, a final GOAWAY frame is written with an identifier that no accepted stream exceeds, and no
stream is accepted after it. Shutdowns put one first GOAWAY frame on the control buffer as long as
that takes items, and at most as many final ones. -/
theorem log_goAway (config : ServerConfig) (events : List ServerEvent) (t : Http2Server)
    (hrun : run config events = some t) : (log config events).Pairwise ServerOutput.Before ∧
      (∀ streamID, .accepted streamID ∈ log config events → streamID.toNat % 2 = 1) ∧
      (log config events).countP ServerOutput.isHeadsUp ≤
        (if events.any ServerEvent.isDrain then 1 else 0) ∧
      (events.any ServerEvent.isDrain = true → t.bufErr = false →
        (log config events).countP ServerOutput.isHeadsUp = 1) ∧
      (log config events).countP ServerOutput.isFinal ≤
        (log config events).countP ServerOutput.isHeadsUp := by
  have hlog : Announced (log config events) t := by
    refine Machine.run_invariant (fun past => Announced (log config past)) (announced_new config)
      ?_ hrun
    intro past t event next hpast hlog hnext
    rw [log, Machine.outputs_append_singleton hpast hnext]
    exact hlog.step hnext
  have hdrain := (drainState_run hrun).made
  refine ⟨hlog.order, hlog.odd, ?_, fun hdrained => hlog.made ?_, ?_⟩
  · split
    · exact hlog.atMost
    · next hnone => rw [hlog.unmade (hdrain.mpr (by simpa using hnone))]
  · intro hunmade
    exact nomatch (hdrain.mp hunmade).symm.trans hdrained
  · exact Nat.le_trans (Nat.le_add_right _ _) hlog.finals

/-- Two streams, a shutdown with its answer, and a stream that comes too late. -/
def drainedRun : List ServerEvent :=
  [.operateHeaders ⟨1, .ok (), by decide⟩, .loopyGet, .drain ErrCode.no [], .loopyGet,
    .operateHeaders ⟨3, .ok (), by decide⟩, .handlePing ⟨true, goAwayPing⟩ 0, .loopyGet, .notify,
    .loopyGet, .operateHeaders ⟨5, .ok (), by decide⟩]

theorem log_goAway_drained : ∃ t, run ⟨0, 0, none, ⟨0, false⟩⟩ drainedRun = some t ∧
    log ⟨0, 0, none, ⟨0, false⟩⟩ drainedRun = [.accepted 1, .put ⟨ErrCode.no, [], true, false⟩,
      .wrote 4294967295 ⟨ErrCode.no, [], true, false⟩, .accepted 3,
      .put ⟨ErrCode.no, [], false, false⟩, .wrote 3 ⟨ErrCode.no, [], false, false⟩] ∧
    (log ⟨0, 0, none, ⟨0, false⟩⟩ drainedRun).Pairwise ServerOutput.Before := by
  obtain ⟨t, hrun⟩ : ∃ t, run ⟨0, 0, none, ⟨0, false⟩⟩ drainedRun = some t := ⟨_, rfl⟩
  exact ⟨t, hrun, by decide, (log_goAway _ _ t hrun).1⟩

end Http2Server

end Kitex.Http2
