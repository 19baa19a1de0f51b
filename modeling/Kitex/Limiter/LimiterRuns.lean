import Kitex.Limiter.QpsLimiter
import Kitex.Machine.Run

/-! # Calls that race for tokens

A call of `Acquire` loads the counter and takes a token in a later step, so many calls may pass the
check for the last token and drive the counter below zero. No more of them are admitted than tokens
were given. A limiter whose refill is cut to zero admits no call at all.
-/

namespace Kitex.Limiter

open Kitex.Machine QPSLimiter

/-- The limiter and the calls of `Acquire`, by the step they are at. -/
structure LimiterRun where
  limiter : QPSLimiter
  /-- calls that have loaded the limit -/
  loaded : Nat := 0
  /-- calls that have loaded the tokens and are about to take one -/
  taking : Nat := 0
  /-- calls that have returned true -/
  admitted : Nat := 0
  /-- the sum of the refills in force at the ticks -/
  refills : Int := 0
  deriving DecidableEq, Repr

inductive LimiterEvent where
  | loadLimit
  | loadTokens
  | addTokens
  | tick
  | updateLimit (limit : Int)
  | updateQPSLimit (interval : Nat) (limit : Int)
  deriving DecidableEq, Repr

namespace LimiterRun

variable (rd : Rounding)

def start (interval : Nat) (limit : Int) : LimiterRun := { limiter := .new rd interval limit }

def step (s : LimiterRun) : LimiterEvent → Option LimiterRun
  | .loadLimit =>
    if s.limiter.limit ≤ 0 then some { s with admitted := s.admitted + 1 }
    else some { s with loaded := s.loaded + 1 }
  | .loadTokens =>
    if s.loaded = 0 then none
    else if s.limiter.tokens ≤ 0 then some { s with loaded := s.loaded - 1 }
    else some { s with loaded := s.loaded - 1, taking := s.taking + 1 }
  | .addTokens =>
    if s.taking = 0 then none
    else some { s with
      limiter := s.limiter.addToken
      taking := s.taking - 1
      admitted := if 0 ≤ s.limiter.addToken.tokens then s.admitted + 1 else s.admitted }
  | .tick => some { s with
      limiter := s.limiter.updateToken, refills := s.refills + s.limiter.once.toInt }
  | .updateLimit limit => some { s with limiter := s.limiter.updateLimit rd limit }
  | .updateQPSLimit interval limit =>
    some { s with limiter := s.limiter.updateQPSLimit rd interval limit }

def inFlight (s : LimiterRun) : Nat := s.loaded + s.taking

end LimiterRun

def LimiterEvent.InRange : LimiterEvent → Prop
  | updateLimit limit | updateQPSLimit _ limit => ValidLimit limit
  | _ => True

instance : DecidablePred LimiterEvent.InRange := fun event => by
  cases event <;> unfold LimiterEvent.InRange <;> infer_instance

namespace LimiterRun

/-- The calls that are about to take a token cannot make the counter wrap around, and tokens are
only taken after they have been given. -/
structure Inv (initial : Int) (s : LimiterRun) : Prop extends s.limiter.Configured where
  tokens_le : s.limiter.tokens.toInt ≤ s.limiter.limit.toInt
  tokens_gt : (s.taking : Int) - 2147483648 < s.limiter.tokens.toInt
  admitted_le : s.admitted + max s.limiter.tokens.toInt 0 ≤ initial + s.refills

variable {rd} {initial : Int} {s next : LimiterRun} {event : LimiterEvent}

theorem Inv.updated (hinv : s.Inv initial) (hflight : s.inFlight < 2147483648) {l : QPSLimiter}
    (hconfigured : l.Configured)
    (htokens : l.tokens.toInt = min s.limiter.tokens.toInt l.once.toInt) :
    Inv initial { s with limiter := l } := by
  obtain ⟨⟨hlimit, honce, hle⟩, htop, hlow, hadmitted⟩ := hinv
  obtain ⟨hlimit', honce', hle'⟩ := hconfigured
  unfold inFlight at hflight
  refine ⟨⟨hlimit', honce', hle'⟩, ?_, ?_, ?_⟩ <;> dsimp only <;> omega

theorem Inv.step (hinv : s.Inv initial) (hflight : s.inFlight < 2147483648)
    (hrange : event.InRange) (hstep : s.step rd event = some next) : next.Inv initial := by
  have hconfigured := hinv.toConfigured
  have ⟨⟨hlimit, honce, hle⟩, htop, hlow, hadmitted⟩ := hinv
  cases event with
  | loadLimit =>
    rw [LimiterRun.step, if_neg (by rw [int32_nonpos_iff]; omega)] at hstep
    cases hstep
    exact { hinv with }
  | loadTokens =>
    simp only [LimiterRun.step, int32_nonpos_iff] at hstep
    split at hstep
    · cases hstep
    split at hstep <;> cases hstep
    · exact { hinv with }
    · unfold inFlight at hflight
      exact { hinv with tokens_gt := by push_cast; omega }
  | addTokens =>
    simp only [LimiterRun.step, Option.ite_none_left_eq_some, Option.some.injEq] at hstep
    obtain ⟨htaking, rfl⟩ := hstep
    have htaken := toInt_addToken (l := s.limiter) (by omega)
    constructor
    · constructor <;> simpa only [addToken_limit, addToken_once]
    · simp only [addToken_limit, htaken]
      omega
    · simp only [htaken]
      omega
    · simp only [Int32.le_iff_toInt_le, htaken, Int32.toInt_zero]
      split <;> push_cast <;> omega
  | tick =>
    simp only [LimiterRun.step, Option.some.injEq] at hstep
    subst hstep
    have htokens := hconfigured.toInt_updateToken
    rw [if_neg (by omega)] at htokens
    refine ⟨hconfigured.updateToken, ?_, ?_, ?_⟩
    · simp only [updateToken_limit, htokens]
      split <;> omega
    · simp only [htokens]
      split <;> omega
    · simp only [htokens]
      split <;> omega
  | updateLimit limit =>
    cases hstep
    obtain ⟨hconfigured, htokens⟩ := setLimit_spec hrange
    exact hinv.updated hflight hconfigured htokens
  | updateQPSLimit interval limit =>
    cases hstep
    obtain ⟨hconfigured, htokens⟩ := setLimit_spec hrange
    exact hinv.updated hflight { hconfigured with } htokens

variable {interval : Nat} {limit : Int}

theorem start_inv (hlimit : ValidLimit limit) :
    (start rd interval limit).Inv (start rd interval limit).limiter.tokens.toInt := by
  have hconfigured : (new rd interval limit).Configured :=
    new_configured hlimit
  have hnonneg : 0 ≤ (start rd interval limit).limiter.tokens.toInt := hconfigured.once_nonneg
  exact ⟨hconfigured, hconfigured.once_le, show (0 : Int) - 2147483648 < _ by omega,
    show (0 : Int) + max _ 0 ≤ _ + 0 by omega⟩

/-- However calls interleave with ticks and updates, there are never more tokens than the limit, and
no more calls are admitted than tokens were given. -/
theorem run_bounded (hlimit : ValidLimit limit) {events : List LimiterEvent}
    (hmeets : Meets (step rd) (fun s event =>
      s.inFlight < 2147483648 ∧ event.InRange) (start rd interval limit) events)
    (hrun : run (step rd) (start rd interval limit) events = some s) :
    s.limiter.tokens ≤ s.limiter.limit ∧
      s.admitted ≤ (start rd interval limit).limiter.tokens.toInt + s.refills := by
  have hinv := run_invariant_of_meets
    (fun _ s => s.Inv (start rd interval limit).limiter.tokens.toInt) _ (start_inv hlimit)
    (fun _ _ _ _ _ hinv hmeets hstep => Inv.step hinv hmeets.1 hmeets.2 hstep) hmeets hrun
  have hadmitted := hinv.admitted_le
  exact ⟨Int32.le_iff_toInt_le.mpr hinv.tokens_le, by omega⟩

/-- Three calls pass the check for two tokens, a tick refills the counter, and the limit is
lowered. -/
def racing : List LimiterEvent :=
  [.loadLimit, .loadLimit, .loadLimit, .loadTokens, .loadTokens, .loadTokens, .addTokens,
    .addTokens, .addTokens, .tick, .updateLimit 10, .loadLimit, .loadTokens, .addTokens]

theorem run_bounded_racing : ∃ s, run (step .exact) (start .exact 100000000 20) racing = some s ∧
    s.admitted = 3 ∧ s.limiter.tokens ≤ s.limiter.limit ∧
      s.admitted ≤ (start .exact 100000000 20).limiter.tokens.toInt + s.refills := by
  have hview : (run (step .exact) (start .exact 100000000 20) racing).any
      fun s => s.admitted = 3 := by decide +kernel
  simp only [Option.any_eq_true, decide_eq_true_eq] at hview
  obtain ⟨s, hrun, hadmitted⟩ := hview
  exact ⟨s, hrun, hadmitted, run_bounded (by decide) (by decide +kernel) hrun⟩

end LimiterRun

/-! ## Starvation -/

namespace QPSLimiter

variable {l : QPSLimiter}

/-- A tick leaves a token exactly if the refill is not zero, or tokens are left from before. -/
theorem Configured.updateToken_pos_iff (h : l.Configured) : 1 ≤ l.updateToken.tokens.toInt ↔
    1 ≤ l.once.toInt ∨ 1 ≤ l.tokens.toInt := by
  have ⟨hlimit, honce, hle⟩ := h
  rw [h.toInt_updateToken]
  split
  · omega
  split <;> omega

theorem Configured.acquire_iff (h : l.Configured) : l.acquire = true ↔ 1 ≤ l.tokens.toInt := by
  have hlimit := h.limit_pos
  simp only [acquire, int32_nonpos_iff]
  rw [if_neg (by omega)]
  split
  · simp only [Bool.false_eq_true, false_iff]
    omega
  · rw [decide_eq_true_eq, Int32.le_iff_toInt_le, toInt_addToken (by omega), Int32.toInt_zero]
    omega

theorem Configured.iterate_updateToken (h : l.Configured) (n : Nat) :
    (QPSLimiter.updateToken^[n + 1] l).Configured ∧
      (1 ≤ (QPSLimiter.updateToken^[n + 1] l).tokens.toInt ↔
        1 ≤ l.once.toInt ∨ 1 ≤ l.tokens.toInt) := by
  induction n generalizing l with
  | zero => exact ⟨h.updateToken, h.updateToken_pos_iff⟩
  | succ n ih =>
    obtain ⟨hconfigured, hpos⟩ := ih h.updateToken
    rw [updateToken_once, h.updateToken_pos_iff] at hpos
    exact ⟨hconfigured, hpos.trans (by tauto)⟩

end QPSLimiter

def LimiterEvent.isUpdate : LimiterEvent → Bool
  | updateLimit _ | updateQPSLimit _ _ => true
  | _ => false

namespace LimiterRun

variable {rd : Rounding} {l : QPSLimiter} {s next : LimiterRun} {event : LimiterEvent}
  {interval : Nat} {limit : Int}

/-- A limit whose 32 bits are no positive number is none. -/
theorem acquire_of_limit_nonpos (hlimit : s.limiter.limit ≤ 0) (n : Nat) :
    (QPSLimiter.updateToken^[n] s.limiter).acquire = true := by
  have hkept : (QPSLimiter.updateToken^[n] s.limiter).limit = s.limiter.limit := by
    induction n with
    | zero => rfl
    | succ n ih => rw [Function.iterate_succ_apply', QPSLimiter.updateToken_limit, ih]
  rw [QPSLimiter.acquire, hkept, if_pos hlimit]

/-- After a run without updates: a limiter whose refill is zero never has a token. -/
structure Unchanged (l : QPSLimiter) (s : LimiterRun) : Prop where
  limit_eq : s.limiter.limit = l.limit
  once_eq : s.limiter.once = l.once
  starved : l.Configured → l.once.toInt = 0 → s.limiter.tokens.toInt ≤ 0 ∧ s.taking = 0

theorem Unchanged.configured (hl : l.Configured) (hs : s.Unchanged l) : s.limiter.Configured :=
  ⟨hs.limit_eq ▸ hl.limit_pos, hs.once_eq ▸ hl.once_nonneg,
    hs.limit_eq ▸ hs.once_eq ▸ hl.once_le⟩

theorem Unchanged.step (hs : s.Unchanged l) (hevent : event.isUpdate = false)
    (hstep : s.step rd event = some next) : next.Unchanged l := by
  cases event with
  | loadLimit =>
    rw [LimiterRun.step] at hstep
    split at hstep <;> cases hstep <;> exact { hs with }
  | loadTokens =>
    simp only [LimiterRun.step, int32_nonpos_iff] at hstep
    split at hstep
    · cases hstep
    split at hstep
    case isTrue =>
      cases hstep
      exact { hs with }
    case isFalse hsome =>
      cases hstep
      exact { hs with starved := fun hl hzero => absurd (hs.starved hl hzero).1 hsome }
  | addTokens =>
    simp only [LimiterRun.step, Option.ite_none_left_eq_some, Option.some.injEq] at hstep
    obtain ⟨htaking, rfl⟩ := hstep
    exact ⟨QPSLimiter.addToken_limit.trans hs.limit_eq, QPSLimiter.addToken_once.trans hs.once_eq,
      fun hl hzero => absurd (hs.starved hl hzero).2 htaking⟩
  | tick =>
    simp only [LimiterRun.step, Option.some.injEq] at hstep
    subst hstep
    refine ⟨QPSLimiter.updateToken_limit.trans hs.limit_eq,
      QPSLimiter.updateToken_once.trans hs.once_eq, fun hl hzero => ⟨?_, (hs.starved hl hzero).2⟩⟩
    have hpos := (hs.configured hl).updateToken_pos_iff
    rw [hs.once_eq] at hpos
    have hempty := (hs.starved hl hzero).1
    dsimp only
    omega
  | updateLimit limit | updateQPSLimit interval limit => cases hevent

/-- Runs without updates, of any limit. -/
theorem run_unchanged {events : List LimiterEvent}
    (hevents : ∀ event ∈ events, event.isUpdate = false)
    (hrun : run (step rd) (start rd interval limit) events = some s) :
    s.Unchanged (.new rd interval limit) := by
  refine run_invariant (fun past s => (∀ event ∈ past, event.isUpdate = false) →
    s.Unchanged (.new rd interval limit)) ?_ ?_ hrun hevents
  · exact fun _ => ⟨rfl, rfl, fun _ hzero => ⟨hzero.le, rfl⟩⟩
  · intro past s event next _ hs hstep hpast
    exact (hs fun other hother => hpast other (List.mem_append_left _ hother)).step
      (hpast event (by simp)) hstep

/-- With exact rationals the next call is admitted, after a second without calls, exactly if the
refill for one interval is a token or more, or the limit does not fit in its 32 bits. -/
theorem acquire_iff_refill (hinterval : interval ≤ second) (hlimit : 1 ≤ limit)
    (hmax : limit ≤ 4294967296) {events : List LimiterEvent}
    (hevents : ∀ event ∈ events, event.isUpdate = false)
    (hrun : run (step .exact) (start .exact interval limit) events = some s) {n : Nat}
    (hticks : second ≤ n * interval) :
    (QPSLimiter.updateToken^[n] s.limiter).acquire = true ↔
      2147483648 ≤ limit ∨ (second : Int) ≤ limit * interval := by
  have hs := run_unchanged hevents hrun
  by_cases hlarge : 2147483648 ≤ limit
  · refine iff_of_true (acquire_of_limit_nonpos ?_ n) (.inl hlarge)
    rw [hs.limit_eq, QPSLimiter.new, int32_nonpos_iff, Int32.toInt_ofInt, Int.bmod, Int32.size]
    split <;> omega
  rw [or_iff_right hlarge]
  have hlimit : ValidLimit limit := ⟨hlimit, by omega⟩
  have hl : (QPSLimiter.new .exact interval limit).Configured := QPSLimiter.new_configured hlimit
  obtain ⟨n, rfl⟩ : ∃ m, n = m + 1 := by
    refine Nat.exists_eq_succ_of_ne_zero ?_
    rintro rfl
    simp [second] at hticks
  obtain ⟨hconfigured, htokens⟩ := (hs.configured hl).iterate_updateToken n
  have hstarved : s.limiter.once.toInt = 0 → s.limiter.tokens.toInt ≤ 0 := fun hzero =>
    (hs.starved hl (hs.once_eq ▸ hzero)).1
  have hnonneg := (hs.configured hl).once_nonneg
  have honce : s.limiter.once.toInt = limit * interval / second := by
    rw [hs.once_eq]
    exact toInt_calcOnce_exact hinterval hlimit
  have hrefill : 1 ≤ s.limiter.once.toInt ↔ (second : Int) ≤ limit * interval := by
    rw [honce, Int.le_ediv_iff_mul_le (by decide), one_mul]
  rw [hconfigured.acquire_iff, htokens, ← hrefill]
  omega

theorem acquire_iff_refill_twenty : ∃ s, run (step .exact) (start .exact 100000000 20)
      [.loadLimit, .loadTokens, .addTokens] = some s ∧
    (QPSLimiter.updateToken^[10] s.limiter).acquire = true := by
  obtain ⟨s, hrun⟩ := Option.isSome_iff_exists.mp (show (run (step .exact)
    (start .exact 100000000 20) [.loadLimit, .loadTokens, .addTokens]).isSome by decide +kernel)
  refine ⟨s, hrun,
    (acquire_iff_refill (by decide) (by decide) (by decide) (by decide) hrun ?_).mpr (.inr ?_)⟩ <;>
    decide

/-- The interval of the server with a limit of five calls a second. -/
theorem small_limit_starves : (QPSLimiter.new .exact 100000000 5).limit = 5 ∧
    ∀ n, (QPSLimiter.updateToken^[n] (.new .exact 100000000 5)).acquire = false := by
  have hfixed : (QPSLimiter.new .exact 100000000 5).updateToken = .new .exact 100000000 5 := by
    decide +kernel
  refine ⟨by decide +kernel, fun n => ?_⟩
  rw [Function.iterate_fixed hfixed]
  decide +kernel

end LimiterRun

end Kitex.Limiter
