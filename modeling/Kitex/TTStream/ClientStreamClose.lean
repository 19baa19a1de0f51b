import Kitex.TTStream.ClientStream

/-! # A client stream is closed once

Any number of calls of `close` and `CloseSend` may run on a stream. At most one
call of `close` replaces a state that is not inactive; only this winner goes past
the swap. So each of its later steps is taken at most once, and its progress counts
how often they were taken. The trailer is owed by whoever took the stream out of the
active state.
-/

namespace Kitex.TTStream

open Kitex.Container Closer ClientStream

/-- The position of a step in `close`. -/
def CloseStep.rank : CloseStep → Nat
  | .store => 0
  | .swap => 1
  | .signalHeader => 2
  | .signalTrailer => 3
  | .readerWrite => 4
  | .readerClose => 5
  | .rst => 6
  | .trailer => 7
  | .callbacks => 8
  | .delete => 9
  | .put => 10
  | .returned => 11

theorem CloseStep.rank_injective {first second : CloseStep} (h : first.rank = second.rank) :
    first = second := by
  cases first <;> cases second <;> first | rfl | nomatch h

namespace Closer

/-- The call has won and has taken a step. -/
def past (stage : CloseStep) (closer : Closer) : Bool :=
  closer.old.isSome && decide (stage.rank < closer.next.rank)

/-- Where a call of `close` may be, by whether it has won. -/
inductive Sound (state : StreamState) (closer : Closer) : Prop
  | early (hold : closer.old = none) (hnext : closer.next = .store ∨ closer.next = .swap)
  | lost (hold : closer.old = none) (hnext : closer.next = .returned)
      (hstate : state = .inactive)
  | won {old : StreamState} (hold : closer.old = some old) (hwon : old ≠ .inactive)
      (hnext : CloseStep.swap.rank < closer.next.rank) (hstate : state = .inactive)

variable {state : StreamState} {closer : Closer}

theorem rank_le_swap (hnext : closer.next = .store ∨ closer.next = .swap) :
    closer.next.rank ≤ CloseStep.swap.rank := by
  rcases hnext with h | h
  · rw [h]
    decide
  · exact Nat.le_of_eq (congrArg CloseStep.rank h)

variable (hsound : closer.Sound state)
include hsound

theorem Sound.inactive (hnext : CloseStep.swap.rank < closer.next.rank) : state = .inactive := by
  cases hsound with
  | early hold hearly => exact absurd hnext (Nat.not_lt.mpr (rank_le_swap hearly))
  | lost hold hreturned hstate | won hold hwon hlate hstate => exact hstate

theorem Sound.old_eq_none
    (hnext : closer.next = .store ∨ closer.next = .swap) : closer.old = none := by
  cases hsound with
  | early hold | lost hold => exact hold
  | won hold hwon hlate => exact absurd hlate (Nat.not_lt.mpr (rank_le_swap hnext))

/-- Only the winner goes on after the swap. -/
theorem Sound.old_eq_some
    (hnext : CloseStep.swap.rank < closer.next.rank) (hreturned : closer.next ≠ .returned) :
    ∃ old, closer.old = some old ∧ old ≠ .inactive := by
  cases hsound with
  | early hold hearly => exact absurd hnext (Nat.not_lt.mpr (rank_le_swap hearly))
  | lost hold hlost => exact absurd hlost hreturned
  | won hold hwon => exact ⟨_, hold, hwon⟩

theorem Sound.old_ne_none
    (hnext : CloseStep.swap.rank < closer.next.rank) (hreturned : closer.next ≠ .returned) :
    closer.old ≠ none := by
  obtain ⟨old, hold, -⟩ := hsound.old_eq_some hnext hreturned
  exact hold ▸ nofun

/-- A stream that is closed stays closed. -/
theorem Sound.mono {state' : StreamState}
    (hstate : state = .inactive → state' = .inactive) : closer.Sound state' := by
  cases hsound with
  | early hold hnext => exact .early hold hnext
  | lost hold hnext hinactive => exact .lost hold hnext (hstate hinactive)
  | won hold hwon hnext hinactive => exact .won hold hwon hnext (hstate hinactive)

end Closer

/-- How many of the calls have won and have taken a step. -/
def passed (stage : CloseStep) (closers : List Closer) : Nat :=
  closers.countP (Closer.past stage)

section Passed

variable {closers : List Closer} {k : Nat} {closer : Closer}

theorem passed_concat (stage : CloseStep) (exception : Option Err) (sendRst trailer : Bool) :
    passed stage (closers ++ [⟨exception, sendRst, trailer, none, .store⟩]) =
      passed stage closers := by
  simp [passed, past]

theorem passed_le_swap (stage : CloseStep) (hstage : CloseStep.swap.rank ≤ stage.rank) :
    passed stage closers ≤ passed .swap closers := by
  apply List.countP_mono_left
  intro closer _ hpast
  simp only [past, Bool.and_eq_true, decide_eq_true_eq] at hpast ⊢
  exact ⟨hpast.1, Nat.lt_of_le_of_lt hstage hpast.2⟩

variable (hcloser : closers[k]? = some closer)
include hcloser

theorem passed_ne_zero (hold : closer.old ≠ none)
    {stage : CloseStep} (hstage : stage.rank < closer.next.rank) : passed stage closers ≠ 0 := by
  have hpast : closer.past stage = true := by
    simp [past, Option.isSome_iff_ne_none.mpr hold, hstage]
  exact Nat.ne_of_gt (List.countP_pos_iff.mpr ⟨closer, List.mem_of_getElem? hcloser, hpast⟩)

/-- A call that has not won is not counted. -/
theorem passed_advance_of_none (hold : closer.old = none) (stage next : CloseStep) :
    passed stage (closers.modify k fun closer => { closer with next := next }) =
      passed stage closers := by
  have hcount := countP_modify hcloser (past stage)
    fun closer => { closer with next := next }
  simpa [passed, past, hold] using hcount

/-- The winner takes one step after another. -/
theorem passed_advance (hold : closer.old ≠ none)
    {next : CloseStep} (hnext : next.rank = closer.next.rank + 1) (stage : CloseStep) :
    passed stage (closers.modify k fun closer => { closer with next := next }) =
      passed stage closers + if stage = closer.next then 1 else 0 := by
  have hcount := countP_modify hcloser (past stage)
    fun closer => { closer with next := next }
  simp only [past, Option.isSome_iff_ne_none.mpr hold, Bool.true_and, decide_eq_true_eq,
    hnext] at hcount
  change passed stage _ + _ = passed stage _ + _ at hcount
  by_cases heq : stage = closer.next
  · subst heq
    simpa using hcount
  · have hrank : stage.rank ≠ closer.next.rank := fun h => heq (CloseStep.rank_injective h)
    rw [if_neg heq]
    split at hcount <;> split at hcount <;> omega

/-- A new winner has passed the swap, and nothing after it. -/
theorem passed_win (hold : closer.old = none) (stage : CloseStep) (state : StreamState) :
    passed stage (closers.modify k fun closer =>
        { closer with old := some state, next := .signalHeader }) =
      passed stage closers + if stage.rank < CloseStep.signalHeader.rank then 1 else 0 := by
  have hcount := countP_modify hcloser (past stage)
    fun closer => { closer with old := some state, next := .signalHeader }
  simpa [passed, past, hold] using hcount

end Passed

/-- The winner that found the stream active has not sent the trailer yet. -/
def Closer.owesTrailer (closer : Closer) : Bool :=
  closer.old == some .active && decide (closer.next.rank ≤ CloseStep.trailer.rank)

/-- How many trailers are owed: by whoever will take the stream out of the active
state, and by the winner that has. -/
def owed (state : StreamState) (closers : List Closer) : Nat :=
  (if state = .active then 1 else 0) + closers.countP Closer.owesTrailer

section Owed

variable {closers : List Closer} {k : Nat} {closer : Closer} (state : StreamState)

theorem owed_concat (exception : Option Err) (sendRst trailer : Bool) :
    owed state (closers ++ [⟨exception, sendRst, trailer, none, .store⟩]) =
      owed state closers := by
  simp [owed, Closer.owesTrailer]

variable (hcloser : closers[k]? = some closer)
include hcloser

theorem owed_advance_of_none (hold : closer.old = none) (next : CloseStep) :
    owed state (closers.modify k fun closer => { closer with next := next }) =
      owed state closers := by
  have hcount := countP_modify hcloser Closer.owesTrailer
    fun closer => { closer with next := next }
  simpa [owed, Closer.owesTrailer, hold] using hcount

theorem owed_advance {next : CloseStep}
    (hrank : next.rank = closer.next.rank + 1) (hnext : closer.next ≠ .trailer) :
    owed state (closers.modify k fun closer => { closer with next := next }) =
      owed state closers := by
  have hcount := countP_modify hcloser Closer.owesTrailer
    fun closer => { closer with next := next }
  have hrank' : closer.next.rank ≠ CloseStep.trailer.rank :=
    fun h => hnext (CloseStep.rank_injective h)
  have hsame : next.rank ≤ CloseStep.trailer.rank ↔
      closer.next.rank ≤ CloseStep.trailer.rank := by omega
  simp only [Closer.owesTrailer, hsame] at hcount
  exact congrArg ((if state = .active then 1 else 0) + ·) (Nat.add_right_cancel hcount)

theorem owed_trailer (hnext : closer.next = .trailer) :
    owed state (closers.modify k fun closer => { closer with next := .callbacks }) +
      (if closer.old = some .active then 1 else 0) = owed state closers := by
  have hcount := countP_modify hcloser Closer.owesTrailer
    fun closer => { closer with next := .callbacks }
  simp only [Closer.owesTrailer, hnext, CloseStep.rank] at hcount
  simpa [owed, Nat.add_assoc] using hcount

theorem owed_win (hold : closer.old = none) : owed .inactive (closers.modify k fun closer =>
      { closer with old := some state, next := .signalHeader }) = owed state closers := by
  have hcount := countP_modify hcloser Closer.owesTrailer
    fun closer => { closer with old := some state, next := .signalHeader }
  simpa [owed, Closer.owesTrailer, hold, CloseStep.rank, Nat.add_comm] using hcount

end Owed

namespace ClientStream

/-! ## The winner -/

/-- The calls of `close` are sound, and one of them has won if the stream is closed. -/
structure ClosersSound (state : StreamState) (closers : List Closer) : Prop where
  each : ∀ (k : Nat) closer, closers[k]? = some closer → closer.Sound state
  winner : passed .swap closers + (if state = .inactive then 0 else 1) = 1

/-- What a step of a call of `close` does to the calls and to the state. -/
inductive CloserMoved (s : ClientStream) (k : Nat) (closer : Closer) (t : ClientStream) : Prop
  | store (hnext : closer.next = .store) (hstate : t.state = s.state)
      (hclosers : t.closers = s.closers.modify k fun closer => { closer with next := .swap })
  | lost (hnext : closer.next = .swap) (hinactive : s.state = .inactive)
      (hstate : t.state = s.state)
      (hclosers : t.closers = s.closers.modify k fun closer => { closer with next := .returned })
  | won (hnext : closer.next = .swap) (hactive : s.state ≠ .inactive)
      (hstate : t.state = .inactive)
      (hclosers : t.closers = s.closers.modify k fun closer =>
        { closer with old := some s.state, next := .signalHeader })
  | onward (next : CloseStep) (hlate : CloseStep.swap.rank < closer.next.rank)
      (hreturned : closer.next ≠ .returned) (hnext : next.rank = closer.next.rank + 1)
      (hstate : t.state = s.state)
      (hclosers : t.closers = s.closers.modify k fun closer => { closer with next := next })

variable {codec : PayloadCodec} {s t : ClientStream} {event : StreamEvent} {closer : Closer}
  {k : Nat} {events : List StreamEvent} {closers : List Closer} {state : StreamState}

theorem CloserStepped.moved (hstep : CloserStepped s k closer t) : CloserMoved s k closer t := by
  cases hstep with
  | store hnext => exact .store hnext rfl rfl
  | swapLost hnext hstate => exact .lost hnext hstate rfl rfl
  | swapWon hnext hstate => exact .won hnext hstate rfl rfl
  | signalHeader _ hnext | signalTrailer _ hnext | readerWrite _ hnext _ | readerSkip hnext _
  | readerClose hnext | sendRst hnext | skipRst hnext | sendTrailer hnext _
  | skipTrailer hnext _ | callbacks hnext | delete hnext | put hnext =>
    exact .onward _ (by rw [hnext]; decide) (by rw [hnext]; decide) (by rw [hnext]; rfl) rfl rfl

namespace ClosersSound

theorem concat (hsound : ClosersSound state closers) (exception : Option Err)
    (sendRst trailer : Bool) :
    ClosersSound state (closers ++ [⟨exception, sendRst, trailer, none, .store⟩]) where
  each := forall_getElem?_concat hsound.each (.early rfl (.inl rfl))
  winner := by rw [passed_concat]; exact hsound.winner

/-- A call moves on and no call wins. -/
theorem modify (hsound : ClosersSound state closers) (hcloser : closers[k]? = some closer)
    {move : Closer → Closer} (hself : (move closer).Sound state)
    (hwinner : passed .swap (closers.modify k move) = passed .swap closers) :
    ClosersSound state (closers.modify k move) := by
  refine ⟨forall_getElem?_modify (fun other found _ => hsound.each other found) ?_, ?_⟩
  · intro found hfound
    cases hcloser.symm.trans hfound
    exact hself
  · rw [hwinner]
    exact hsound.winner

theorem closerStep (hsound : ClosersSound s.state s.closers) (hcloser : s.closers[k]? = some closer)
    (hmoved : CloserMoved s k closer t) : ClosersSound t.state t.closers := by
  have hself := hsound.each k closer hcloser
  cases hmoved with
  | store hnext hstate hclosers =>
    have hold := hself.old_eq_none (.inl hnext)
    rw [hstate, hclosers]
    apply hsound.modify hcloser (.early hold (.inr rfl))
    exact passed_advance_of_none hcloser hold _ _
  | lost hnext hinactive hstate hclosers =>
    have hold := hself.old_eq_none (.inr hnext)
    rw [hstate, hclosers]
    apply hsound.modify hcloser (.lost hold rfl hinactive)
    exact passed_advance_of_none hcloser hold _ _
  | won hnext hactive hstate hclosers =>
    have hold := hself.old_eq_none (.inr hnext)
    rw [hstate, hclosers]
    refine ⟨forall_getElem?_modify (fun other found _ hfound =>
      (hsound.each other found hfound).mono fun _ => rfl) ?_, ?_⟩
    · intro found hfound
      exact .won rfl hactive (by simp [CloseStep.rank]) rfl
    · have hwinner := hsound.winner
      rw [if_neg hactive] at hwinner
      rw [passed_win hcloser hold]
      exact hwinner
  | onward next hlate hreturned hnext hstate hclosers =>
    obtain ⟨old, hold, hwon⟩ := hself.old_eq_some hlate hreturned
    have hinactive := hself.inactive hlate
    have hafter : CloseStep.swap.rank < next.rank := by omega
    rw [hstate, hclosers]
    apply hsound.modify hcloser (.won hold hwon hafter hinactive)
    -- The step taken is a later one than the swap.
    rw [passed_advance hcloser (by simp [hold]) hnext, if_neg, Nat.add_zero]
    intro hswap
    rw [← hswap] at hlate
    exact Nat.lt_irrefl _ hlate

theorem step (hsound : ClosersSound s.state s.closers) (hstep : Stepped codec s event t) :
    ClosersSound t.state t.closers := by
  cases hstep with
  | close | recvCtxDone | recvTimeoutClose | readTrailer | readRst => exact hsound.concat _ _ _
  | closer hcloser hstep => exact hsound.closerStep hcloser hstep.moved
  | closeSendWon hcall hstate =>
    refine ⟨fun k closer hcloser => (hsound.each k closer hcloser).mono ?_, ?_⟩
    · rw [hstate]
      exact nofun
    · have hwinner := hsound.winner
      rw [hstate] at hwinner
      exact hwinner
  | _ => exact hsound

end ClosersSound

theorem run_closersSound (hrun : run codec events = some s) : ClosersSound s.state s.closers :=
  Machine.run_invariant (fun _ s => ClosersSound s.state s.closers)
    ⟨by simp [newClientStream], rfl⟩
    (fun _ _ _ _ _ hsound hnext => hsound.step (stepped_of_step hnext)) hrun

/-! ## What the winner does -/

theorem CloserMoved.passed_eq (hmoved : CloserMoved s k closer t)
    (hsound : ClosersSound s.state s.closers) (hcloser : s.closers[k]? = some closer)
    {stage : CloseStep} (hstage : CloseStep.swap.rank < stage.rank) :
    passed stage t.closers = passed stage s.closers + if closer.next = stage then 1 else 0 := by
  have hself := hsound.each k closer hcloser
  have hlate : ∀ {next : CloseStep}, next.rank ≤ CloseStep.swap.rank → next ≠ stage := by
    rintro next hnext rfl
    exact Nat.not_lt.mpr hnext hstage
  cases hmoved with
  | store hnext hstate hclosers =>
    rw [hclosers, passed_advance_of_none hcloser (hself.old_eq_none (.inl hnext)), hnext,
      if_neg (hlate (by decide)), Nat.add_zero]
  | lost hnext hinactive hstate hclosers =>
    rw [hclosers, passed_advance_of_none hcloser (hself.old_eq_none (.inr hnext)), hnext,
      if_neg (hlate (Nat.le_refl _)), Nat.add_zero]
  | won hnext hactive hstate hclosers =>
    have hafter : ¬ stage.rank < CloseStep.signalHeader.rank := Nat.not_lt.mpr hstage
    rw [hclosers, passed_win hcloser (hself.old_eq_none (.inr hnext)), hnext,
      if_neg (hlate (Nat.le_refl _)), if_neg hafter]
  | onward next hafter hreturned hnext hstate hclosers =>
    rw [hclosers, passed_advance hcloser (hself.old_ne_none hafter hreturned) hnext]
    simp only [eq_comm]

/-- The counters are as far as the winner is. -/
structure CountersSound (s : ClientStream) : Prop where
  callbacks : s.callbacks = passed .callbacks s.closers
  removals : s.removals = passed .delete s.closers
  handBacks : s.handBacks = passed .put s.closers
  resets : s.frames.count .rstFrame ≤ passed .rst s.closers

namespace CountersSound

theorem closerStep (hcounters : CountersSound s) (hsound : ClosersSound s.state s.closers)
    (hcloser : s.closers[k]? = some closer) (hstep : CloserStepped s k closer t) :
    CountersSound t := by
  have hpassed := @CloserMoved.passed_eq _ _ _ _ hstep.moved hsound hcloser
  refine ⟨?_, ?_, ?_, ?_⟩
  · rw [hpassed (by decide), ← hcounters.callbacks]
    cases hstep <;> simp [advance, sendTrailer, *]
  · rw [hpassed (by decide), ← hcounters.removals]
    cases hstep <;> simp [advance, sendTrailer, *]
  · rw [hpassed (by decide), ← hcounters.handBacks]
    cases hstep <;> simp [advance, sendTrailer, *]
  · rw [hpassed (by decide)]
    apply Nat.le_trans _ (Nat.add_le_add_right hcounters.resets _)
    cases hstep <;> simp [advance, sendTrailer, *]
    split <;> simp

theorem concat (hcounters : CountersSound s) (exception : Option Err) (sendRst trailer : Bool) :
    CountersSound (s.addCloser exception sendRst trailer) where
  callbacks := (passed_concat ..).symm ▸ hcounters.callbacks
  removals := (passed_concat ..).symm ▸ hcounters.removals
  handBacks := (passed_concat ..).symm ▸ hcounters.handBacks
  resets := (passed_concat ..).symm ▸ hcounters.resets

theorem step (hcounters : CountersSound s) (hsound : ClosersSound s.state s.closers)
    (hstep : Stepped codec s event t) : CountersSound t := by
  cases hstep with
  | close => exact hcounters.concat _ _ _
  | closer hcloser hstep => exact hcounters.closerStep hsound hcloser hstep
  | sendWrite => exact { hcounters with resets := by simpa [setSend] using hcounters.resets }
  | closeSendTrailer =>
    refine { hcounters with resets := Nat.le_trans ?_ hcounters.resets }
    simp only [setCloseSend, sendTrailer]
    split <;> simp
  | recvCtxDone | recvTimeoutClose | readTrailer | readRst => exact { hcounters.concat _ _ _ with }
  | _ => exact { hcounters with }

end CountersSound

theorem run_countersSound (hrun : run codec events = some s) : CountersSound s := by
  apply Machine.run_invariant (fun _ s => CountersSound s) ⟨rfl, rfl, rfl, Nat.le_refl _⟩ _ hrun
  intro past s event t hpast hcounters hnext
  exact hcounters.step (run_closersSound hpast) (stepped_of_step hnext)

/-! ## The trailer -/

/-- Whoever takes the stream out of the active state sends the trailer. -/
structure TrailerSound (s : ClientStream) : Prop where
  calls : s.trailerCalls + s.closeSends.countP (· == .sending) + owed s.state s.closers = 1
  frames : s.frames.count .trailerFrame ≤ s.trailerCalls

theorem CloserMoved.owed_eq (hmoved : CloserMoved s k closer t)
    (hsound : ClosersSound s.state s.closers) (hcloser : s.closers[k]? = some closer)
    (hnext : closer.next ≠ .trailer) : owed t.state t.closers = owed s.state s.closers := by
  have hself := hsound.each k closer hcloser
  cases hmoved with
  | store hstore hstate hclosers =>
    rw [hstate, hclosers]
    exact owed_advance_of_none _ hcloser (hself.old_eq_none (.inl hstore)) _
  | lost hswap hinactive hstate hclosers =>
    rw [hstate, hclosers]
    exact owed_advance_of_none _ hcloser (hself.old_eq_none (.inr hswap)) _
  | won hswap hactive hstate hclosers =>
    rw [hstate, hclosers]
    exact owed_win _ hcloser (hself.old_eq_none (.inr hswap))
  | onward next hlate hreturned hrank hstate hclosers =>
    rw [hstate, hclosers]
    exact owed_advance _ hcloser hrank hnext

namespace TrailerSound

/-- `sendTrailer` writes at most one frame. -/
theorem count_sendTrailer (s : ClientStream) :
    s.sendTrailer.frames.count .trailerFrame ≤ s.frames.count .trailerFrame + 1 := by
  unfold ClientStream.sendTrailer
  split <;> simp

theorem closerStep (htrailer : TrailerSound s) (hsound : ClosersSound s.state s.closers)
    (hcloser : s.closers[k]? = some closer) (hstep : CloserStepped s k closer t) :
    TrailerSound t := by
  have hself := hsound.each k closer hcloser
  have howed := hstep.moved.owed_eq hsound hcloser
  have hcalls := htrailer.calls
  cases hstep with
  | sendTrailer hnext hhalf =>
    obtain ⟨old, hold, hwon⟩ := hself.old_eq_some (by rw [hnext]; decide) (by simp [hnext])
    have hactive : closer.old = some .active := by cases old <;> simp_all
    have hpaid := owed_trailer s.state hcloser hnext
    rw [if_pos hactive] at hpaid
    refine ⟨?_, Nat.le_trans (count_sendTrailer s) (Nat.add_le_add_right htrailer.frames 1)⟩
    change s.trailerCalls + 1 + s.closeSends.countP _ + owed s.state (s.closers.modify k _) = 1
    omega
  | skipTrailer hnext hhalf =>
    have hpaid := owed_trailer s.state hcloser hnext
    rw [hhalf] at hpaid
    refine ⟨?_, htrailer.frames⟩
    rw [← hpaid] at hcalls
    exact hcalls
  | sendRst hnext =>
    refine ⟨?_, by simpa [advance] using htrailer.frames⟩
    rw [howed (by simp [hnext])]
    exact hcalls
  | store hnext | swapLost hnext _ | swapWon hnext _ | signalHeader _ hnext
  | signalTrailer _ hnext | readerWrite _ hnext _ | readerSkip hnext _ | readerClose hnext
  | skipRst hnext | callbacks hnext | delete hnext | put hnext =>
    refine ⟨?_, htrailer.frames⟩
    rw [howed (by simp [hnext])]
    exact hcalls

theorem concat (htrailer : TrailerSound s) (exception : Option Err) (sendRst trailer : Bool) :
    TrailerSound (s.addCloser exception sendRst trailer) where
  calls := (owed_concat s.state exception sendRst trailer).symm ▸ htrailer.calls
  frames := htrailer.frames

theorem step (htrailer : TrailerSound s) (hsound : ClosersSound s.state s.closers)
    (hstep : Stepped codec s event t) : TrailerSound t := by
  have hcalls := htrailer.calls
  cases hstep with
  | close => exact htrailer.concat _ _ _
  | closer hcloser hstep => exact htrailer.closerStep hsound hcloser hstep
  | sendWrite => exact { htrailer with frames := by simpa [setSend] using htrailer.frames }
  | closeSend =>
    refine { htrailer with calls := ?_ }
    rw [List.countP_append]
    exact hcalls
  | @closeSendWon call hcall hstate =>
    have hcount := countP_modify hcall (· == .sending) fun _ => .sending
    rw [hstate] at hcalls
    refine { htrailer with calls := ?_ }
    change s.trailerCalls + (s.closeSends.modify call _).countP _ +
      owed .halfCloseLocal s.closers = 1
    simp only [owed] at hcalls ⊢
    simp at hcount hcalls ⊢
    omega
  | closeSendLost hcall hstate =>
    have hcount := countP_modify hcall (· == .sending) fun _ => .returned
    refine { htrailer with calls := ?_ }
    simp at hcount
    simpa [setCloseSend, hcount] using hcalls
  | closeSendTrailer hcall =>
    have hcount := countP_modify hcall (· == .sending) fun _ => .returned
    refine ⟨?_, Nat.le_trans (count_sendTrailer s) (Nat.add_le_add_right htrailer.frames 1)⟩
    change s.trailerCalls + 1 + (s.closeSends.modify _ _).countP _ + owed s.state s.closers = 1
    simp at hcount
    omega
  | recvCtxDone | recvTimeoutClose | readTrailer | readRst => exact { htrailer.concat _ _ _ with }
  | _ => exact { htrailer with }

end TrailerSound

/-! ## Whole runs -/

/-- What a stream does at most once, and exactly once when every call of `close`
has returned. -/
structure ClosedOnce (s : ClientStream) : Prop where
  trailers : s.frames.count .trailerFrame ≤ 1
  resets : s.frames.count .rstFrame ≤ 1
  callbacks : s.callbacks ≤ 1
  removals : s.removals ≤ 1
  handBacks : s.handBacks ≤ 1
  returned : s.closers ≠ [] → (∀ closer ∈ s.closers, closer.next = .returned) →
    s.callbacks = 1 ∧ s.removals = 1 ∧ s.handBacks = 1

theorem passed_le_one (hsound : ClosersSound s.state s.closers) {stage : CloseStep}
    (hstage : CloseStep.swap.rank ≤ stage.rank) : passed stage s.closers ≤ 1 :=
  calc passed stage s.closers ≤ passed .swap s.closers := passed_le_swap stage hstage
    _ ≤ 1 := Nat.le.intro hsound.winner

/-- The winner has taken every step when all calls have returned. -/
theorem passed_eq_one (hsound : ClosersSound s.state s.closers) (hclosers : s.closers ≠ [])
    (hreturned : ∀ closer ∈ s.closers, closer.next = .returned) {stage : CloseStep}
    (hstage : stage.rank < CloseStep.returned.rank) : passed stage s.closers = 1 := by
  obtain ⟨closer, hcloser⟩ := List.exists_mem_of_ne_nil _ hclosers
  obtain ⟨k, hk⟩ := List.mem_iff_getElem?.mp hcloser
  have hinactive : s.state = .inactive := by
    apply (hsound.each k closer hk).inactive
    rw [hreturned closer hcloser]
    decide
  have hwinner := hsound.winner
  rw [hinactive] at hwinner
  calc passed stage s.closers = passed .swap s.closers := by
        apply List.countP_congr
        intro closer hmem
        have hswap : CloseStep.swap.rank < CloseStep.returned.rank := by decide
        simp [Closer.past, hreturned closer hmem, hstage, hswap]
    _ = 1 := hwinner

theorem run_closedOnce {events : List StreamEvent} (hrun : run codec events = some s) :
    ClosedOnce s := by
  have hsound := run_closersSound hrun
  have hcounters := run_countersSound hrun
  have htrailer : TrailerSound s := by
    apply Machine.run_invariant (fun _ s => TrailerSound s) ⟨rfl, Nat.le_refl _⟩ _ hrun
    intro past s event t hpast htrailer hnext
    exact htrailer.step (run_closersSound hpast) (stepped_of_step hnext)
  refine ⟨?_, ?_, ?_, ?_, ?_, ?_⟩
  · calc s.frames.count .trailerFrame ≤ s.trailerCalls := htrailer.frames
      _ ≤ 1 := Nat.le.intro ((Nat.add_assoc _ _ _).symm.trans htrailer.calls)
  · exact Nat.le_trans hcounters.resets (passed_le_one hsound (by decide))
  · exact hcounters.callbacks ▸ passed_le_one hsound (by decide)
  · exact hcounters.removals ▸ passed_le_one hsound (by decide)
  · exact hcounters.handBacks ▸ passed_le_one hsound (by decide)
  · intro hclosers hreturned
    rw [hcounters.callbacks, hcounters.removals, hcounters.handBacks]
    exact ⟨passed_eq_one hsound hclosers hreturned (by decide),
      passed_eq_one hsound hclosers hreturned (by decide),
      passed_eq_one hsound hclosers hreturned (by decide)⟩

/-- Call number `k` of `close` runs to its end, having won. -/
def closeThrough (k : Nat) : List StreamEvent :=
  List.replicate 11 (.closerStep k true)

/-- `CloseSend` is called, and then the stream is cancelled while a reset arrives. -/
def cancelDuringReset : List StreamEvent :=
  [StreamEvent.closeSend, .closeSendStep 0, .close (some errBizCancel) true,
    .readRst ⟨13, "rst", false⟩, .closerStep 1 true, .closeSendStep 0] ++ closeThrough 0 ++
    [StreamEvent.closerStep 1 true, .readDone]

theorem run_closedOnce_cancel : ∃ s, run .accepting cancelDuringReset = some s ∧
      s.frames = [.trailerFrame, .rstFrame] ∧ s.callbacks = 1 ∧ ClosedOnce s := by
  obtain ⟨s, hrun, hframes, hcallbacks⟩ : ∃ s, run .accepting cancelDuringReset = some s ∧
      s.frames = [.trailerFrame, .rstFrame] ∧ s.callbacks = 1 := ⟨_, rfl, rfl, rfl⟩
  exact ⟨s, hrun, hframes, hcallbacks, run_closedOnce hrun⟩

end ClientStream

end Kitex.TTStream
