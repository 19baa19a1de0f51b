import Kitex.Http2.ServerSteps

/-! # The drain channel of the server

`drain` makes the channel, and the acknowledgement of a PING frame with known
data closes it. The handler keeps a flag so as not to close the channel twice,
but does not ask whether there is a channel: the peer may send that frame at any
time.
-/

namespace Kitex.Http2

/-- Every acknowledgement of the PING frame of a shutdown comes after a call of
`drain`, in these events or before them. -/
def acksFollowDrain : Bool → List ServerEvent → Bool
  | _, [] => true
  | drained, event :: events =>
    (!event.isGoAwayAck || drained) && acksFollowDrain (drained || event.isDrain) events

open ServerEvent

theorem acksFollowDrain_append (drained : Bool) (past : List ServerEvent) (event : ServerEvent) :
    acksFollowDrain drained (past ++ [event]) =
      (acksFollowDrain drained past &&
        (!event.isGoAwayAck || (drained || past.any isDrain))) := by
  induction past generalizing drained with
  | nil => simp [acksFollowDrain]
  | cons first past ih =>
    simp only [List.cons_append, acksFollowDrain, ih, List.any_cons, Bool.or_assoc,
      Bool.and_assoc]

namespace Http2Server

/-- The drain channel as the events so far have left it. -/
structure DrainState (past : List ServerEvent) (t : Http2Server) : Prop where
  made : t.drainChan = .unmade ↔ past.any ServerEvent.isDrain = false
  flag : t.drainChanClosed = true ↔ t.drainChan = .closed
  panicked : t.panicked = if acksFollowDrain false past then none else some .closeOfNil

section Step

variable {past : List ServerEvent} {t next : Http2Server} {event : ServerEvent}

/-- Events that are neither the acknowledgement nor a call of `drain`. -/
theorem DrainState.of_kept (hdrain : DrainState past t) (hack : event.isGoAwayAck = false)
    (hevent : event.isDrain = false) (hchan : next.drainChan = t.drainChan)
    (hflag : next.drainChanClosed = t.drainChanClosed) (hpanicked : next.panicked = t.panicked) :
    DrainState (past ++ [event]) next where
  made := by simpa [hchan, hevent] using hdrain.made
  flag := by rw [hflag, hchan, hdrain.flag]
  panicked := by simp [hpanicked, hdrain.panicked, acksFollowDrain_append, hack]

theorem drainState_acked (hdrain : DrainState past t) (hok : acksFollowDrain false past)
    (hack : event.isGoAwayAck) (hevent : event.isDrain = false)
    (hopen : t.drainChanClosed = false) : DrainState (past ++ [event]) t.closeDrainChan := by
  have hmade := hdrain.made
  have hpanicked := hdrain.panicked
  unfold closeDrainChan
  split
  next hchan =>
    have hnone := hmade.mp hchan
    refine ⟨?_, hdrain.flag, ?_⟩
    · simpa [hevent] using hmade
    · simp [acksFollowDrain_append, hok, hack, hnone]
  next hchan =>
    have hsome : past.any isDrain = true := by
      by_contra hnone
      simp [hmade.mpr (by simpa using hnone)] at hchan
    refine ⟨?_, iff_of_true rfl rfl, ?_⟩
    · simp [hsome]
    · simp [acksFollowDrain_append, hok, hsome, hpanicked]
  next hchan => simp [hdrain.flag.mpr hchan] at hopen

theorem drainState_of_step (hdrain : DrainState past t) (hrunning : t.panicked = none)
    (hstep : Stepped t event next) : DrainState (past ++ [event]) next := by
  have hok : acksFollowDrain false past = true := by
    by_contra hbad
    simp [hdrain.panicked, hbad] at hrunning
  cases hstep with
  | kept rest hack hevent | finished rest hack hevent _ _ | deleted rest _ hack hevent
  | closed rest hack hevent => exact hdrain.of_kept hack hevent rfl rfl rfl
  | registered rest _ _ _ | goneAway rest => exact hdrain.of_kept rfl rfl rfl rfl rfl
  | drained rest hchan =>
    have hflag : t.drainChanClosed = false := by
      by_contra hclosed
      simp [hdrain.flag.mp (by simpa using hclosed)] at hchan
    refine ⟨?_, ?_, ?_⟩
    · simp [isDrain]
    · change t.drainChanClosed = true ↔ _
      simp [hflag]
    · change t.panicked = _
      simp [acksFollowDrain_append, hok, isGoAwayAck, hrunning]
  | drainedAgain hchan =>
    refine ⟨?_, hdrain.flag, ?_⟩
    · simp [hchan, isDrain]
    · simp [acksFollowDrain_append, hok, isGoAwayAck, hrunning]
  | acked hack hopen => exact drainState_acked hdrain hok hack rfl hopen
  | ackedAgain hack hclosed =>
    have hsome : past.any isDrain = true := by
      by_contra hnone
      have hchan := hdrain.made.mpr (by simpa using hnone)
      simp [hdrain.flag.mp hclosed] at hchan
    refine ⟨?_, hdrain.flag, ?_⟩
    · simp [hsome, hdrain.flag.mp hclosed]
    · simp [acksFollowDrain_append, hok, hsome, hrunning]

end Step

theorem newHTTP2Server_drainState (config : ServerConfig) : DrainState [] (newHTTP2Server config) :=
  ⟨iff_of_true rfl rfl, iff_of_false nofun nofun, rfl⟩

theorem drainState_run {config : ServerConfig} {events : List ServerEvent} {t : Http2Server}
    (hrun : run config events = some t) : DrainState events t := by
  refine Machine.run_invariant DrainState (newHTTP2Server_drainState config) ?_ hrun
  intro past t event next _ hdrain hnext
  obtain ⟨hrunning, hstep⟩ := stepped_of_step hnext
  exact drainState_of_step hdrain hrunning hstep

/-- The acknowledgement alone, from a peer that has seen no GOAWAY frame. -/
theorem unsolicitedAck_panics :
    ∃ t, run ⟨0, 0, none, ⟨0, false⟩⟩ [.handlePing ⟨true, goAwayPing⟩ 0] = some t ∧
      t.panicked = some .closeOfNil :=
  ⟨_, rfl, rfl⟩

/-- For every sequence of events, with draining started at any point: the
handling of PING frames has closed no nil channel exactly if every
acknowledgement of the PING frame of a shutdown comes after a call of `drain`.
It never closes a closed channel, and a closed channel was made by `drain`. -/
theorem run_drainChan (config : ServerConfig) (events : List ServerEvent) (t : Http2Server)
    (hrun : run config events = some t) :
    (t.panicked = none ↔ acksFollowDrain false events = true) ∧
      t.panicked ≠ some .closeOfClosed ∧
      (t.drainChan = .closed → events.any ServerEvent.isDrain = true) := by
  obtain ⟨hmade, _, hpanicked⟩ := drainState_run hrun
  refine ⟨?_, ?_, fun hclosed => ?_⟩
  · cases hok : acksFollowDrain false events <;> simp [hpanicked, hok]
  · cases hok : acksFollowDrain false events <;> simp [hpanicked, hok]
  · by_contra hnone
    simp [hmade.mpr (by simpa using hnone)] at hclosed

/-- A shutdown whose PING frame is acknowledged twice. -/
def ackedTwice : List ServerEvent :=
  [.drain ErrCode.no [], .handlePing ⟨true, goAwayPing⟩ 1,
    .handlePing ⟨true, goAwayPing⟩ 2]

theorem run_drainChan_ackedTwice : ∃ t, run ⟨0, 0, none, ⟨0, false⟩⟩ ackedTwice = some t ∧
    acksFollowDrain false ackedTwice = true ∧ t.drainChan = .closed ∧ t.panicked = none := by
  have hview : (run ⟨0, 0, none, ⟨0, false⟩⟩ ackedTwice).any
      (fun t => decide (t.drainChan = .closed)) = true := by decide
  simp only [Option.any_eq_true, decide_eq_true_eq] at hview
  obtain ⟨t, hrun, hclosed⟩ := hview
  have hacks : acksFollowDrain false ackedTwice = true := by decide
  exact ⟨t, hrun, hacks, hclosed, (run_drainChan _ ackedTwice t hrun).1.mpr hacks⟩

end Http2Server

end Kitex.Http2
