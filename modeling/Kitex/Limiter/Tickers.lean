import Kitex.Container.Slots
import Kitex.Limiter.QpsLimiter
import Kitex.Machine.Run

/-! # Tickers that replace each other

`UpdateQPSLimit` with a new interval signals the channel in `tickerDone` and starts a goroutine with
a ticker of its own. The goroutine puts its channel into `tickerDone` when it begins to run. If the
next update comes before that, the signal goes to a goroutine that was stopped already, or to none,
and from then on there is a goroutine too many.
-/

namespace Kitex.Limiter

open Kitex.Container Kitex.Machine

/-- A goroutine of `startTicker` and its channel. -/
structure TickerLoop where
  interval : Nat
  /-- The ticker and the channel are made. -/
  begun : Bool := false
  /-- There is a signal in the channel. -/
  signal : Bool := false
  returned : Bool := false
  deriving DecidableEq, Repr

namespace TickerLoop

def running (loop : TickerLoop) : Bool := loop.begun && !loop.returned

/-- No signal was sent to the goroutine. -/
def unstopped (loop : TickerLoop) : Bool := !loop.signal && !loop.returned

end TickerLoop

structure Tickers where
  limiter : QPSLimiter
  loops : List TickerLoop
  /-- The goroutine that the channel in `tickerDone` belongs to. -/
  tickerDone : Option Nat := none
  deriving DecidableEq, Repr

inductive TickersEvent where
  | updateQPSLimit (interval : Nat) (limit : Int)
  /-- A goroutine makes its ticker and its channel. -/
  | enter (loop : Nat)
  | tick (loop : Nat)
  /-- A goroutine takes the signal from its channel. -/
  | done (loop : Nat)
  deriving DecidableEq, Repr

namespace Tickers

variable (rd : Rounding)

/-- `NewQPSLimiter`. -/
def start (interval : Nat) (limit : Int) : Tickers where
  limiter := .new rd interval limit
  loops := [{ interval }]

/-- A channel holds one signal, and a second one is dropped. -/
def stopTicker (t : Tickers) : List TickerLoop :=
  match t.tickerDone with
  | none => t.loops
  | some loop => t.loops.modify loop fun l => { l with signal := true }

def step (t : Tickers) : TickersEvent → Option Tickers
  | .updateQPSLimit interval limit =>
    let limiter := t.limiter.updateQPSLimit rd interval limit
    if interval = t.limiter.interval then some { t with limiter }
    else some { t with limiter, loops := t.stopTicker ++ [{ interval }] }
  | .enter loop =>
    match t.loops[loop]? with
    | none => none
    | some l =>
      if l.begun then none
      else some { t with
        loops := t.loops.modify loop fun l => { l with begun := true }
        tickerDone := some loop }
  | .tick loop =>
    match t.loops[loop]? with
    | none => none
    | some l => if l.running then some { t with limiter := t.limiter.updateToken } else none
  | .done loop =>
    match t.loops[loop]? with
    | none => none
    | some l =>
      if l.running ∧ l.signal then some { t with
        loops := t.loops.modify loop fun l => { l with signal := false, returned := true } }
      else none

/-- The goroutine that was started last has begun to run, and none has begun after it. -/
def Prompt (t : Tickers) : TickersEvent → Prop
  | .updateQPSLimit interval _ =>
    interval = t.limiter.interval ∨ t.tickerDone = some (t.loops.length - 1)
  | _ => True

instance (t : Tickers) : DecidablePred t.Prompt := fun event => by
  cases event <;> unfold Prompt <;> infer_instance

/-- All goroutines have begun, and have taken the signals sent to them. -/
def Settled (t : Tickers) : Prop :=
  ∀ loop ∈ t.loops, loop.begun = true ∧ (loop.signal = true → loop.returned = true)

instance (t : Tickers) : Decidable t.Settled := by unfold Settled; infer_instance

end Tickers

/-- A goroutine goes on: it is neither sent a signal nor does it forget one. -/
def TickerLoop.Goes (loop next : TickerLoop) : Prop :=
  next.unstopped = loop.unstopped ∧ next.interval = loop.interval

namespace Tickers

/-- What a step does to the goroutines. -/
inductive Stepped (t : Tickers) : TickersEvent → Tickers → Prop
  | goes {event : TickersEvent} {next : Tickers} (hprompt : t.Prompt event)
      (hinterval : next.limiter.interval = t.limiter.interval)
      (hloops : List.Forall₂ TickerLoop.Goes t.loops next.loops) : Stepped t event next
  | replaces {interval : Nat} {limit : Int} {limiter : QPSLimiter}
      (hne : interval ≠ t.limiter.interval) (hinterval : limiter.interval = interval) :
      Stepped t (.updateQPSLimit interval limit)
        { t with limiter, loops := t.stopTicker ++ [{ interval }] }

variable {rd} {t next : Tickers} {event : TickersEvent}

theorem stepped_of_step (hstep : t.step rd event = some next) : t.Stepped event next := by
  have hrefl : ∀ loop, TickerLoop.Goes loop loop := fun loop => ⟨rfl, rfl⟩
  cases event with
  | updateQPSLimit interval limit =>
    rw [step] at hstep
    split at hstep <;> cases hstep
    case isTrue.refl heq => exact .goes (.inl heq) heq (List.forall₂_same.mpr fun _ _ => hrefl _)
    case isFalse.refl hne => exact .replaces hne rfl
  | enter loop =>
    simp only [step] at hstep
    split at hstep
    · cases hstep
    · split at hstep <;> cases hstep
      exact .goes trivial rfl (forall₂_modify hrefl fun _ _ => ⟨rfl, rfl⟩)
  | tick loop =>
    simp only [step] at hstep
    split at hstep
    · cases hstep
    · split at hstep <;> cases hstep
      exact .goes trivial QPSLimiter.updateToken_interval
        (List.forall₂_same.mpr fun _ _ => hrefl _)
  | done loop =>
    simp only [step] at hstep
    split at hstep
    · cases hstep
    case h_2 l hloop =>
      obtain ⟨⟨-, hsignal⟩, heq⟩ := Option.ite_none_right_eq_some.mp hstep
      cases heq
      refine .goes trivial rfl (forall₂_modify hrefl fun l' hl' => ?_)
      cases hloop.symm.trans hl'
      exact ⟨by simp [TickerLoop.unstopped, hsignal], rfl⟩

/-- How many goroutines were not sent a signal. -/
def unstopped (t : Tickers) : Nat := t.loops.countP TickerLoop.unstopped

/-- A signal is lost on a goroutine that was stopped before. -/
theorem countP_stopTicker : t.stopTicker.countP TickerLoop.unstopped +
    (if (t.tickerDone.bind (t.loops[·]?)).any TickerLoop.unstopped then 1 else 0) =
      t.unstopped := by
  unfold stopTicker unstopped
  cases t.tickerDone with
  | none => rfl
  | some loop =>
    cases hloop : t.loops[loop]? with
    | none =>
      rw [List.getElem?_eq_none_iff] at hloop
      simp [List.modify_eq_self hloop, hloop]
    | some l =>
      have hcount := countP_modify hloop TickerLoop.unstopped fun l => { l with signal := true }
      simpa [hloop, TickerLoop.unstopped] using hcount

/-- Every goroutine but the last was stopped. -/
structure Replaced (t : Tickers) : Prop where
  one : t.unstopped = 1
  last : ∃ last, t.loops[t.loops.length - 1]? = some last ∧ last.unstopped = true ∧
    last.interval = t.limiter.interval

/-- Only the channel of the last goroutine reaches a goroutine that is not stopped. -/
theorem Replaced.any_iff (h : t.Replaced) :
    (t.tickerDone.bind (t.loops[·]?)).any TickerLoop.unstopped = true ↔
      t.tickerDone = some (t.loops.length - 1) := by
  obtain ⟨last, hlast, hunstopped, -⟩ := h.last
  constructor
  · intro hany
    obtain ⟨l, hl, hlunstopped⟩ := (Option.any_eq_true _ _).mp hany
    obtain ⟨loop, hdone, hloop⟩ := Option.bind_eq_some_iff.mp hl
    rw [hdone, slot_eq_of_countP_le_one h.one.le hloop hlast hlunstopped hunstopped]
  · intro hdone
    simp [hdone, hlast, hunstopped]

/-- After prompt updates all goroutines but the last are stopped, and after an update that was not
prompt there are two that are not. -/
theorem run_replaced {interval : Nat} {limit : Int} {events : List TickersEvent}
    (hrun : run (step rd) (start rd interval limit) events = some t) :
    (Meets (step rd) Prompt (start rd interval limit) events → t.Replaced) ∧
      (¬ Meets (step rd) Prompt (start rd interval limit) events → 2 ≤ t.unstopped) := by
  refine run_invariant (fun past t =>
    (Meets (step rd) Prompt (start rd interval limit) past → t.Replaced) ∧
      (¬ Meets (step rd) Prompt (start rd interval limit) past → 2 ≤ t.unstopped)) ?_ ?_ hrun
  · exact ⟨fun _ => ⟨rfl, _, rfl, rfl, rfl⟩, fun hnot => absurd trivial hnot⟩
  intro past t event next hpast ⟨hreplaced, htwo⟩ hstep
  rw [meets_append_singleton hpast]
  cases stepped_of_step hstep with
  | goes hprompt hinterval hloops =>
    have hcount : next.unstopped = t.unstopped :=
      countP_eq_of_forall₂ hloops fun _ _ hgoes => hgoes.1
    rw [and_iff_left hprompt]
    refine ⟨fun hmeets => ?_, fun hnot => hcount ▸ htwo hnot⟩
    obtain ⟨hone, last, hlast, hunstopped, hlimiter⟩ := hreplaced hmeets
    obtain ⟨last', hlast', hgoes⟩ := forall₂_getElem?_left hloops hlast
    rw [hloops.length_eq] at hlast'
    exact ⟨hcount.trans hone, last', hlast', hgoes.1.trans hunstopped,
      hgoes.2.trans (hlimiter.trans hinterval.symm)⟩
  | replaces hne hinterval =>
    have hstop := countP_stopTicker (t := t)
    have hnext : ∀ limiter interval, unstopped { t with
        limiter, loops := t.stopTicker ++ [{ interval }] } =
          t.stopTicker.countP TickerLoop.unstopped + 1 := fun limiter interval => by
      rw [unstopped, List.countP_append]
      rfl
    rw [hnext]
    simp only [Prompt, hne, false_or]
    by_cases hmeets : Meets (step rd) Prompt (start rd interval limit) past
    · have hone := (hreplaced hmeets).one
      simp only [(hreplaced hmeets).any_iff] at hstop
      rw [and_iff_right hmeets]
      refine ⟨fun hdone => ⟨?_, { interval := _ }, ?_, rfl, hinterval.symm⟩, fun hdone => ?_⟩
      · rw [if_pos hdone] at hstop
        rw [hnext]
        omega
      · simp
      · rw [if_neg hdone] at hstop
        omega
    · have htwo := htwo hmeets
      refine ⟨fun hnot => absurd hnot.1 hmeets, fun _ => ?_⟩
      split at hstop <;> omega

theorem Settled.filter_running (h : t.Settled) :
    t.loops.filter TickerLoop.running = t.loops.filter TickerLoop.unstopped := by
  refine List.filter_congr fun loop hmem => ?_
  obtain ⟨hbegun, hsignal⟩ := h loop hmem
  rw [TickerLoop.running, TickerLoop.unstopped, hbegun]
  cases hs : loop.signal
  · rfl
  · simp [hsignal hs]

/-- Exactly one goroutine keeps refilling the tokens, with the interval of the last update, if and
only if every new interval came after the goroutine of the one before had begun. -/
theorem run_ticker_iff_prompt {interval : Nat} {limit : Int} {events : List TickersEvent}
    (hrun : run (step rd) (start rd interval limit) events = some t) (hsettled : t.Settled) :
    (∃ loop, t.loops.filter TickerLoop.running = [loop] ∧
        loop.interval = t.limiter.interval) ↔
      Meets (step rd) Prompt (start rd interval limit) events := by
  obtain ⟨hreplaced, htwo⟩ := run_replaced hrun
  rw [hsettled.filter_running]
  constructor
  · rintro ⟨loop, hfilter, -⟩
    by_contra hnot
    have hcount : t.unstopped = 1 := by rw [unstopped, List.countP_eq_length_filter, hfilter]; rfl
    have htwo := htwo hnot
    omega
  · intro hmeets
    obtain ⟨hone, last, hlast, hunstopped, hinterval⟩ := hreplaced hmeets
    rw [unstopped, List.countP_eq_length_filter, List.length_eq_one_iff] at hone
    obtain ⟨loop, hfilter⟩ := hone
    have hmem : last ∈ t.loops.filter TickerLoop.unstopped :=
      List.mem_filter.mpr ⟨List.mem_of_getElem? hlast, hunstopped⟩
    rw [hfilter, List.mem_singleton] at hmem
    exact ⟨loop, hfilter, hmem ▸ hinterval⟩

/-- The first goroutine begins before the update and takes its signal after it. -/
theorem run_ticker_iff_prompt_replaced :
    ∃ t, run (step .exact) (start .exact 100 5)
        [.enter 0, .updateQPSLimit 200 5, .tick 0, .done 0, .enter 1] = some t ∧ t.Settled ∧
      ((∃ loop, t.loops.filter TickerLoop.running = [loop] ∧
        loop.interval = t.limiter.interval) ↔
      Meets (step .exact) Prompt (start .exact 100 5)
        [.enter 0, .updateQPSLimit 200 5, .tick 0, .done 0, .enter 1]) :=
  have hrun : run (step .exact) (start .exact 100 5)
      [.enter 0, .updateQPSLimit 200 5, .tick 0, .done 0, .enter 1] = some _ := rfl
  ⟨_, hrun, by decide, run_ticker_iff_prompt hrun (by decide)⟩

/-- `UpdateQPSLimit` is called before the goroutine of `NewQPSLimiter` begins, and finds no channel
to signal. Both tickers go on. -/
theorem early_update_leaves_two_tickers :
    ∃ t, run (step .exact) (start .exact 100 5) [.updateQPSLimit 200 5, .enter 0, .enter 1] =
        some t ∧ t.Settled ∧
      (t.loops.filter TickerLoop.running).map TickerLoop.interval = [100, 200] := by
  refine ⟨_, rfl, ?_, ?_⟩ <;> decide

end Tickers

end Kitex.Limiter
