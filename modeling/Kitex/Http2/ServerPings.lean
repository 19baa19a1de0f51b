import Kitex.Http2.ServerSteps

/-! # Pings that come too early

The server counts the PING frames that come too early and closes the connection after too many.
-/

namespace Kitex.Http2.Http2Server

variable {t next : Http2Server} {event : ServerEvent} {config : ServerConfig}
  {events : List ServerEvent}

/-- A PING frame comes too early and is counted. -/
def early (t : Http2Server) : ServerEvent → Bool
  | .handlePing f now =>
    !f.ack && !t.resetPingStrikes && decide (now < t.lastPingAt + t.pingInterval)
  | _ => false

/-- How many PING frames of a run come too early. -/
def earlyPings (config : ServerConfig) (events : List ServerEvent) : Nat :=
  (Machine.outputs step (fun t event _ => if t.early event then [event] else [])
    (newHTTP2Server config) events).length

theorem toNat_pingStrikes_strike (t : Http2Server) (now : Int) : (t.strike now).pingStrikes.toNat ≤
    t.pingStrikes.toNat + if now < t.lastPingAt + t.pingInterval then 1 else 0 := by
  unfold strike
  -- the counter is a byte, and an overflow only lowers it
  split <;> simp [*, UInt8.toNat_add, Nat.mod_le]

theorem pingStrikes_of_step (hstep : t.step event = some next) :
    next.pingStrikes.toNat ≤ t.pingStrikes.toNat + if t.early event then 1 else 0 := by
  obtain ⟨-, hstep⟩ := Option.ite_none_left_eq_some.mp hstep
  cases event with
  | handlePing f now =>
    cases hstep
    unfold handlePing countPing
    split
    next => grind [closeDrainChan]
    next hack =>
      split
      next => exact Nat.zero_le _
      next hreset =>
        have hkept : t.resetPingStrikes = false := Bool.eq_false_iff.mpr hreset
        have hpunish : ∀ u : Http2Server, u.punish.pingStrikes = u.pingStrikes := fun u => by
          unfold punish
          split <;> rfl
        simp only [hpunish, early, hack, hkept, decide_eq_true_eq, Bool.not_false, Bool.true_and]
        exact toNat_pingStrikes_strike (t.put (.ping ⟨true, f.data⟩)) now
  | _ =>
    grind [operateHeaders, handleRSTStream, closeStream, deleteStream, finishStream, drain, close,
      closeWithErr, putCleanup, put, outgoingGoAwayHandler]

theorem pingStrikes_le_earlyPings (hrun : run config events = some t) :
    t.pingStrikes.toNat ≤ earlyPings config events := by
  refine Machine.run_invariant (fun past t => t.pingStrikes.toNat ≤ earlyPings config past)
    (Nat.zero_le _) ?_ hrun
  intro past t event next hpast hle hstep
  have hnext := pingStrikes_of_step hstep
  rw [earlyPings, Machine.outputs_append_singleton hpast hstep, List.length_append]
  rw [earlyPings] at hle
  split at hnext <;> simp_all <;> omega

/-- As long as at most two PING frames have come too early, all that a PING frame puts on the
control buffer is its acknowledgement. -/
theorem handlePing_tolerated {data : Bytes} {now : Int} (hrun : run config events = some t)
    (hstep : t.step (.handlePing ⟨false, data⟩ now) = some next)
    (hearly : earlyPings config (events ++ [.handlePing ⟨false, data⟩ now]) ≤ 2) :
    next.items = (t.put (.ping ⟨true, data⟩)).items := by
  have hle := Nat.le_trans (pingStrikes_le_earlyPings
    (Machine.run_append_singleton_eq_some.mpr ⟨t, hrun, hstep⟩)) hearly
  obtain ⟨-, ⟨⟩⟩ := Option.ite_none_left_eq_some.mp hstep
  simp only [handlePing, Bool.false_eq_true, if_false, countPing, punish] at hle ⊢
  split
  next => rfl
  next hreset =>
    rw [if_neg hreset] at hle
    split
    next hmore =>
      rw [if_pos hmore] at hle
      exact absurd (UInt8.lt_iff_toNat_lt.mp hmore) (Nat.not_lt.mpr hle)
    next => rfl

/-- Two PING frames in the first nanoseconds. -/
theorem handlePing_tolerated_twice : ∃ t next : Http2Server,
    t.step (.handlePing ⟨false, []⟩ 2) = some next ∧
      next.items = (t.put (.ping ⟨true, []⟩)).items :=
  ⟨_, _, rfl, @handlePing_tolerated _ _ ⟨0, 0, none, ⟨0, true⟩⟩ [.handlePing ⟨false, []⟩ 1] [] 2
    rfl rfl (by decide)⟩

end Kitex.Http2.Http2Server
