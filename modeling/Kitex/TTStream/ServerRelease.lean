import Kitex.TTStream.ServerTransport

/-! # What a server transport releases

Once `releaseResources` has returned, no handler should be left waiting on a stream of
the transport. The map can lose a stream that is still open: a header frame with the
id of an open stream replaces the entry of that stream, the stream that was replaced
deletes the entry of the new one when it is closed, and a header frame that is handled
after the sweep has started may not be seen by it. If header frames come with ids that
are not in the map, and before the sweep, then every stream that was ever created is
closed and its context cancelled.
-/

namespace Kitex.TTStream

open Kitex.Container ServerStream ServerCloser

/-! ## One stream -/

/-- The call of `close` has won, and the stream is still in the map. -/
def ServerCloser.isPending (closer : ServerCloser) : Bool :=
  closer.next == .readerClose || closer.next == .callbacks

namespace ServerStream

variable {s s' : ServerStream} {event : ServerStreamEvent} {closer : ServerCloser} {k : Nat}

/-- Whether the stream is open, or its winner has not taken it out of the map yet. -/
def owns (state : ServerState) (closers : List ServerCloser) : Nat :=
  closers.countP ServerCloser.isPending + if state = .inactive then 0 else 1

/-- What the steps of a stream do to its state and to the calls of `close`. -/
inductive Moved (s s' : ServerStream) : Prop
  | same (hstate : s'.state = s.state) (hctx : s'.ctxErr = s.ctxErr)
      (hclosers : s'.closers = s.closers)
  | concat (ex : Exception) (hstate : s'.state = s.state) (hctx : s'.ctxErr = s.ctxErr)
      (hclosers : s'.closers = s.closers ++ [⟨ex, .cancel⟩])
  | closeRecv (hstate : s.state = .active) (hstate' : s'.state = .halfCloseRemote)
      (hctx : s'.ctxErr = s.ctxErr) (hclosers : s'.closers = s.closers)
  | closer {k : Nat} {closer : ServerCloser} (hcloser : s.closers[k]? = some closer)
      (hstep : CloserStepped s k closer s')

theorem Stepped.moved (hstep : Stepped s event s') : Moved s s' := by
  cases hstep with
  | closeSend => exact .concat _ rfl rfl rfl
  | writeHeader =>
    rw [resume_eq, writeFrame_fst]
    exact .same rfl rfl rfl
  | writeData | writeTrailer =>
    rw [writeFrame_fst]
    exact .same rfl rfl rfl
  | close ex => exact .concat ex rfl rfl rfl
  | closer hcloser hstep => exact .closer hcloser hstep
  | closeRecv =>
    by_cases hstate : s.state = .active
    · exact .closeRecv hstate (if_pos hstate) rfl rfl
    · exact .same (if_neg hstate) rfl rfl
  | _ => exact .same rfl rfl rfl

/-- At most one call of `close` wins, and the context is cancelled before the swap. -/
structure CloseSound (s : ServerStream) : Prop where
  closers : ClosersSound s.state s.closers
  winner : owns s.state s.closers ≤ 1
  cancelled : ∀ (k : Nat) closer, s.closers[k]? = some closer → closer.next ≠ .cancel →
    s.ctxErr ≠ none
  inactive : s.state = .inactive → s.ctxErr ≠ none

theorem owns_concat (state : ServerState) (closers : List ServerCloser) (ex : Exception) :
    owns state (closers ++ [⟨ex, .cancel⟩]) = owns state closers := by
  simp [owns, isPending]

theorem owns_advance {closers : List ServerCloser} (hcloser : closers[k]? = some closer)
    (state : ServerState) (next : ServerCloseStep) :
    owns state (closers.modify k fun closer => { closer with next := next }) +
        (if closer.isPending then 1 else 0) =
      owns state closers + (if next = .readerClose ∨ next = .callbacks then 1 else 0) := by
  have hcount := countP_modify hcloser isPending
    fun closer => { closer with next := next }
  simp only [isPending, Bool.or_eq_true, beq_iff_eq] at hcount ⊢
  unfold owns
  omega

/-- A call of `close` keeps the stream in the map until it runs the callbacks. -/
theorem CloserStepped.owns_eq (hcloser : s.closers[k]? = some closer)
    (hstep : CloserStepped s k closer s') :
    owns s'.state s'.closers + (if closer.next = .callbacks then 1 else 0) =
      owns s.state s.closers := by
  have hadvance := owns_advance hcloser
  cases hstep with
  | cancel hnext =>
    have hadvance := hadvance s.state .swap
    simpa [advance, isPending, hnext] using hadvance
  | swapLost hnext hstate | callbacks hnext =>
    have hadvance := hadvance s.state .returned
    simpa [advance, isPending, hnext] using hadvance
  | swapWon hnext hstate =>
    have hadvance := hadvance .inactive .readerClose
    have hopen : owns s.state s.closers = owns .inactive s.closers + 1 := by
      simp [owns, hstate]
    rw [hopen]
    simpa [advance, isPending, hnext] using hadvance
  | readerClose hnext =>
    have hadvance := hadvance s.state .callbacks
    simpa [advance, isPending, hnext] using hadvance

theorem Moved.owns_le (hmoved : Moved s s') :
    owns s'.state s'.closers ≤ owns s.state s.closers := by
  cases hmoved with
  | same hstate hctx hclosers => rw [hstate, hclosers]
  | concat ex hstate hctx hclosers => rw [hstate, hclosers, owns_concat]
  | closeRecv hstate hstate' hctx hclosers => simp [owns, hstate, hstate', hclosers]
  | closer hcloser hstep => exact Nat.le.intro (hstep.owns_eq hcloser)

/-- A stream that is closed stays closed. -/
theorem Moved.inactive (hmoved : Moved s s') (hstate : s.state = .inactive) :
    s'.state = .inactive := by
  cases hmoved with
  | same hsame | concat ex hsame => exact hsame.trans hstate
  | closeRecv hactive => nomatch hstate.symm.trans hactive
  | closer hcloser hstep =>
    cases hstep with
    | swapWon => rfl
    | _ => exact hstate

namespace CloseSound

theorem new (sid : Int) (closed : Bool) (closedErr : Option Err) :
    CloseSound (newServerStream sid closed closedErr) where
  closers := by simp [ClosersSound, newServerStream]
  winner := Nat.le_refl _
  cancelled := by simp [newServerStream]
  inactive := nofun

theorem closerStep (hsound : CloseSound s) (hcloser : s.closers[k]? = some closer)
    (hstep : CloserStepped s k closer s') : CloseSound s' := by
  have hself := hsound.cancelled k closer hcloser
  have hcancel : s.ctxErr.or (some closer.exception) ≠ none := by simp
  refine ⟨hsound.closers.closerStep hcloser hstep,
    Nat.le_trans (Moved.closer hcloser hstep).owns_le hsound.winner, ?_, ?_⟩
  · cases hstep with
    | cancel => exact fun _ _ _ _ => hcancel
    | swapLost hnext _ | swapWon hnext _ | readerClose hnext | callbacks hnext =>
      -- the call has cancelled the context before
      exact forall_getElem?_modify (fun other found _ => hsound.cancelled other found)
        fun _ _ _ => hself (by simp [hnext])
  · cases hstep with
    | cancel => exact fun _ => hcancel
    | swapWon hnext => exact fun _ => hself (by simp [hnext])
    | _ => exact hsound.inactive

theorem step (hsound : CloseSound s) (hstep : Stepped s event s') : CloseSound s' := by
  have hclosers := hsound.closers.step hstep
  have hwinner := Nat.le_trans hstep.moved.owns_le hsound.winner
  cases hstep.moved with
  | same hstate hctx hsame =>
    exact ⟨hclosers, hwinner, hsame ▸ hctx ▸ hsound.cancelled,
      hstate ▸ hctx ▸ hsound.inactive⟩
  | concat ex hstate hctx hconcat =>
    refine ⟨hclosers, hwinner, ?_, hstate ▸ hctx ▸ hsound.inactive⟩
    rw [hconcat, hctx]
    exact forall_getElem?_concat hsound.cancelled fun hnext => absurd rfl hnext
  | closeRecv hstate hstate' hctx hsame =>
    refine ⟨hclosers, hwinner, hsame ▸ hctx ▸ hsound.cancelled, ?_⟩
    rw [hstate']
    exact nofun
  | closer hcloser hstep => exact hsound.closerStep hcloser hstep

end CloseSound

end ServerStream

/-! ## The map and the sweep -/

namespace ServerTransport

variable {t next : ServerTransport} {event : ServerEvent} {move : ServerStreamEvent} {sid : Int}
  {s : ServerStream} {stream : Nat} {k : Nat}

/-- A header frame comes before the sweep, with an id that is not in the map. -/
def keepsStreams (t : ServerTransport) : ServerEvent → Bool
  | .header sid => (t.table.lookup sid).isNone &&
      match t.sweep with
      | .waiting => true
      | .starting _ => true
      | _ => false
  | _ => true

/-- Once the transport has released its resources, every stream that it has created
is closed and its context is cancelled. -/
def Released (t : ServerTransport) : Prop :=
  t.sweep = .released → ∀ s ∈ t.streams, s.state = .inactive ∧ s.ctxErr ≠ none

/-- The stream with a number is open and has an id. -/
def IsOpen (t : ServerTransport) (k : Nat) (sid : Int) : Prop :=
  ∃ s, t.streams[k]? = some s ∧ s.sid = sid ∧ s.state ≠ .inactive

/-- The streams that the sweep has still to close. -/
def SweepSound (t : ServerTransport) : Sweep → Prop
  | .waiting => True
  | .starting _ => True
  | .range _ pending => ∀ k sid, t.IsOpen k sid → sid ∈ pending
  | .closing _ pending stream _ => ∀ k sid, t.IsOpen k sid → sid ∈ pending ∨ k = stream
  | .released => ∀ k sid, ¬ t.IsOpen k sid

/-- A stream that is open, or was not taken out of the map yet, is in the map. -/
structure ReleaseSound (t : ServerTransport) : Prop where
  streams : ∀ (k : Nat) s, t.streams[k]? = some s → s.CloseSound
  table : ∀ (k : Nat) s, t.streams[k]? = some s →
    ServerStream.owns s.state s.closers ≠ 0 → t.table.lookup s.sid = some k
  sweep : t.SweepSound t.sweep

theorem SweepSound.mono {sweep : Sweep} (hsweep : t.SweepSound sweep)
    (hopen : ∀ k sid, next.IsOpen k sid → t.IsOpen k sid) : next.SweepSound sweep := by
  cases sweep with
  | waiting | starting err => trivial
  | range err pending | closing err pending stream k | released =>
    exact fun k sid h => hsweep k sid (hopen k sid h)

theorem closeTransport_closeSound (hsound : s.CloseSound) (err : Option Err) :
    (s.closeTransport err).CloseSound := by
  rw [closeTransport_eq]
  exact { hsound with }

theorem isOpen_of_stepStream (hstep : t.stepStream stream move = some next)
    (hopen : next.IsOpen k sid) : t.IsOpen k sid := by
  have hall : ∀ (k : Nat) s, next.streams[k]? = some s → s.state ≠ .inactive →
      t.IsOpen k s.sid := by
    refine forall_stepStream ?_ ?_ ?_ hstep
    · intro k s err h
      rw [closeTransport_eq]
      exact h
    · exact fun k s _ hs hstate => ⟨s, hs, rfl, hstate⟩
    · intro s s' hs hmove hstate
      exact ⟨s, hs, hmove.sid_eq.symm, fun h => hstate (hmove.moved.inactive h)⟩
  obtain ⟨s, hs, rfl, hstate⟩ := hopen
  exact hall k s hs hstate

namespace ReleaseSound

variable (hsound : ReleaseSound t)
include hsound

/-- An open stream is found in the map. -/
theorem lookup_of_isOpen (hopen : t.IsOpen k sid) : t.table.lookup sid = some k := by
  obtain ⟨s, hs, rfl, hstate⟩ := hopen
  exact hsound.table k s hs (by simp [owns, hstate])

theorem stepStream (hstep : t.stepStream stream move = some next) : ReleaseSound next := by
  refine ⟨?_, ?_, ?_⟩
  · apply forall_stepStream (fun k s err h => closeTransport_closeSound h err) _ _ hstep
    · exact fun k s _ hs => hsound.streams k s hs
    · exact fun s s' hs hmove => (hsound.streams stream s hs).step hmove
  · rw [table_stepStream hstep]
    refine forall_stepStream ?_ ?_ ?_ hstep
    · intro k s err h
      rw [closeTransport_eq]
      exact h
    · exact fun k s _ hs => hsound.table k s hs
    · intro s s' hs hmove howns
      rw [hmove.sid_eq]
      apply hsound.table stream s hs
      have hle := hmove.moved.owns_le
      omega
  · rcases sweep_stepStream hstep with h | ⟨err, h⟩
    · rw [h]
      exact hsound.sweep.mono fun k sid hopen => isOpen_of_stepStream hstep hopen
    · rw [h]
      trivial

/-- A new stream replaces nothing in the map. -/
theorem header (hkeeps : t.keepsStreams (.header sid)) : ReleaseSound { t with
      streams := t.streams ++ [newServerStream sid t.closed t.closedErr]
      table := t.table.insert sid t.streams.length } := by
  simp only [keepsStreams, Bool.and_eq_true, Option.isNone_iff_eq_none] at hkeeps
  obtain ⟨hnone, hsweep⟩ := hkeeps
  refine ⟨forall_getElem?_concat hsound.streams (.new ..), forall_getElem?_concat ?_ ?_, ?_⟩
  · intro k s hs howns
    have hlookup := hsound.table k s hs howns
    have hne : s.sid ≠ sid := by
      rintro rfl
      nomatch hnone.symm.trans hlookup
    exact (AList.lookup_insert_ne hne).trans hlookup
  · exact fun _ => AList.lookup_insert _
  · split at hsweep
    next h => rw [h]; trivial
    next h => rw [h]; trivial
    next => nomatch hsweep

/-- The winner takes its own stream out of the map. -/
theorem closeStream {stream k : Nat} {closer : ServerCloser} (hstream : t.streams[stream]? = some s)
    (hcloser : s.closers[k]? = some closer) (hnext : closer.next = .callbacks)
    (hstep : t.stepStream stream (.closerStep k) = some next) :
    ReleaseSound (next.closeStream s.sid) := by
  have hmoved := hsound.stepStream hstep
  refine ⟨hmoved.streams, ?_, hmoved.sweep.mono fun _ _ hopen => hopen⟩
  have hpending : owns s.state s.closers ≠ 0 := by
    have hpos : 0 < s.closers.countP ServerCloser.isPending := List.countP_pos_iff.mpr
      ⟨closer, List.mem_of_getElem? hcloser, by simp [ServerCloser.isPending, hnext]⟩
    unfold owns
    omega
  have hlookup := hsound.table stream s hstream hpending
  change ∀ (j : Nat) found, next.streams[j]? = some found → _ →
    (next.table.erase s.sid).lookup found.sid = some j
  rw [table_stepStream hstep]
  refine forall_stepStream ?_ ?_ ?_ hstep
  · intro j found err h
    rw [closeTransport_eq]
    exact h
  · intro j found hne hfound howns
    have hfoundLookup := hsound.table j found hfound howns
    have hsid : found.sid ≠ s.sid := by
      intro heq
      rw [heq] at hfoundLookup
      exact hne (Option.some.inj (hfoundLookup.symm.trans hlookup))
    exact (AList.lookup_erase_ne hsid).trans hfoundLookup
  · intro old s' hold hmove howns
    cases hstream.symm.trans hold
    -- the winner was the only one who had not got to the callbacks
    cases hmove with
    | late e hevent => exact absurd rfl (hevent k)
    | closer hcloser' hmove =>
      cases hcloser.symm.trans hcloser'
      have hle := (hsound.streams stream s hstream).winner
      have hless := hmove.owns_eq hcloser
      rw [if_pos hnext] at hless
      omega

theorem close (err : Option Err) : ReleaseSound (t.close err) := by
  have htable : (t.close err).table = t.table := by
    unfold ServerTransport.close
    split <;> rfl
  refine ⟨forall_close (fun k s err h => closeTransport_closeSound h err) hsound.streams err,
    ?_, ?_⟩
  · rw [htable]
    refine forall_close ?_ hsound.table err
    intro k s err h
    rw [closeTransport_eq]
    exact h
  · unfold ServerTransport.close
    split
    next => exact hsound.sweep
    next => trivial

theorem step (hkeeps : t.keepsStreams event)
    (hstep : Stepped t event next) : ReleaseSound next := by
  have hsweep := hsound.sweep
  cases hstep with
  | header sid => exact hsound.header hkeeps
  | stream hstep => exact hsound.stepStream hstep
  | closeStream hstream hcloser hnext hstep =>
    exact hsound.closeStream hstream hcloser hnext hstep
  | close err => exact hsound.close err
  | sweepStart =>
    refine { hsound with sweep := ?_ }
    intro k sid hopen
    apply AList.mem_keys.mp
    exact AList.lookup_isSome.mp (by rw [hsound.lookup_of_isOpen hopen]; rfl)
  | @sweepSkip sid err pending hrange hlookup =>
    rw [hrange] at hsweep
    refine { hsound with sweep := ?_ }
    intro k sid' hopen
    have hne : sid' ≠ sid := by
      rintro rfl
      nomatch hlookup.symm.trans (hsound.lookup_of_isOpen hopen)
    exact (List.mem_erase_of_ne hne).mpr (hsweep k sid' hopen)
  | @sweepVisit sid err pending stream _ moved hrange hlookup hmoved =>
    rw [hrange] at hsweep
    refine { hsound.stepStream hmoved with sweep := ?_ }
    intro k sid' hmovedOpen
    have hopen : t.IsOpen k sid' := isOpen_of_stepStream hmoved hmovedOpen
    by_cases hsid : sid' = sid
    · subst hsid
      exact .inr (Option.some.inj ((hsound.lookup_of_isOpen hopen).symm.trans hlookup))
    · exact .inl ((List.mem_erase_of_ne hsid).mpr (hsweep k sid' hopen))
  | @sweepNext err pending stream k s closer hclosing hstream hcloser hnext =>
    rw [hclosing] at hsweep
    refine { hsound with sweep := ?_ }
    intro k' sid hopen
    rcases hsweep k' sid hopen with hmem | rfl
    · exact hmem
    · -- the stream that was visited is closed
      obtain ⟨s', hs', -, hstate⟩ := hopen
      cases hstream.symm.trans hs'
      have hinactive := (hsound.streams _ s hstream).closers k closer hcloser
      simp [hnext, hstate] at hinactive
  | sweepDone hrange =>
    rw [hrange] at hsweep
    exact { hsound with sweep := fun k sid hopen => by simpa using hsweep k sid hopen }

end ReleaseSound

theorem run_released {events : List ServerEvent}
    (hkeeps : Machine.Meets step (keepsStreams · · = true) newServerTransport events)
    (hrun : run events = some t) : Released t := by
  have hsound : ReleaseSound t := by
    apply Machine.run_invariant_of_meets (fun _ t => ReleaseSound t) _ _ _ hkeeps hrun
    · exact ⟨by simp [newServerTransport], by simp [newServerTransport], trivial⟩
    · exact fun _ _ _ _ _ hsound hkeeps hnext => hsound.step hkeeps (stepped_of_step hnext)
  intro hreleased s hmem
  obtain ⟨k, hk⟩ := List.mem_iff_getElem?.mp hmem
  have hsweep := hsound.sweep
  rw [hreleased] at hsweep
  have hstate : s.state = .inactive := by
    by_contra hopen
    exact hsweep k s.sid ⟨s, hk, rfl, hopen⟩
  exact ⟨hstate, (hsound.streams k s hk).inactive hstate⟩

/-- Call number `k` of `close` on a stream runs to its end, having won. -/
def closeThrough (stream k : Nat) : List ServerEvent :=
  List.replicate 4 (.closerStep stream k)

/-- The peer opens two streams, resets the first and closes the connection. -/
def resetThenDisconnect : List ServerEvent :=
  [ServerEvent.header 1, .header 2, .rst 1 ⟨13, "rst", false⟩] ++ closeThrough 0 0 ++
    [ServerEvent.close none, .sweepStart, .sweepVisit 2] ++ closeThrough 1 0 ++
    [ServerEvent.sweepNext, .sweepDone]

theorem run_released_disconnect : ∃ t, run resetThenDisconnect = some t ∧ t.sweep = .released ∧
      t.streams.map (·.state) = [.inactive, .inactive] ∧ Released t := by
  obtain ⟨t, hrun, hsweep, hstates⟩ : ∃ t, run resetThenDisconnect = some t ∧
      t.sweep = .released ∧ t.streams.map (·.state) = [.inactive, .inactive] :=
    ⟨_, rfl, rfl, rfl⟩
  exact ⟨t, hrun, hsweep, hstates, run_released (by decide) hrun⟩

/-- The peer opens two streams with the same id and closes the connection. -/
def sameIdTwice : List ServerEvent :=
  [ServerEvent.header 1, .header 1, .close none, .sweepStart, .sweepVisit 1] ++
    closeThrough 1 0 ++ [ServerEvent.sweepNext, .sweepDone]

/-- The first stream is lost: it stays open, and its context is not cancelled. -/
theorem replaced_stream_stays_open : ∃ t, run sameIdTwice = some t ∧ t.sweep = .released ∧
      t.streams.map (·.state) = [.active, .inactive] ∧
      t.streams.map (·.ctxErr) = [none, some (errConnectionClosedCancel none)] ∧
      ¬ Released t := by
  refine ⟨_, rfl, rfl, rfl, rfl, ?_⟩
  intro hreleased
  nomatch (hreleased rfl _ List.mem_cons_self).1

end ServerTransport

end Kitex.TTStream
