import Mathlib.Data.Rat.Floor
import Mathlib.Tactic.FieldSimp
import Mathlib.Tactic.Linarith

/-! # The QPS limiter

A ticker refills the counter of tokens with a share of the limit. The share is computed in floating
point and cut to an integer, so that it may be zero; the counter may be below zero; and the
difference of the limit and the counter has 32 bits.
-/

namespace Kitex.Limiter

/-- A limit that fits in its 32 bits. -/
abbrev ValidLimit (limit : Int) : Prop := 1 ≤ limit ∧ limit < 2147483648

/-- How results are rounded to floating-point numbers. -/
structure Rounding where
  round : Rat → Rat
  mono : Monotone round
  round_int : ∀ n : Int, n.natAbs ≤ 9007199254740992 → round n = n

namespace Rounding

/-- The reading with exact rationals. -/
def exact : Rounding := ⟨id, monotone_id, fun _ _ => rfl⟩

@[simp] theorem exact_round (x : Rat) : exact.round x = x := rfl

variable (rd : Rounding) {x : Rat} {n : Int}

theorem round_le (hx : x ≤ n) (hn : n.natAbs ≤ 9007199254740992) : rd.round x ≤ n :=
  (rd.mono hx).trans_eq (rd.round_int n hn)

theorem le_round (hx : n ≤ x) (hn : n.natAbs ≤ 9007199254740992) : n ≤ rd.round x :=
  (rd.round_int n hn).symm.trans_le (rd.mono hx)

theorem round_zero : rd.round 0 = 0 := rd.round_int 0 (by decide)

theorem round_one : rd.round 1 = 1 := rd.round_int 1 (by decide)

theorem round_mem (hx : 0 ≤ x) (hn : x ≤ n) (hsmall : n.natAbs ≤ 9007199254740992) :
    0 ≤ rd.round x ∧ rd.round x ≤ n :=
  ⟨rd.le_round (n := 0) hx (by decide), rd.round_le hn hsmall⟩

end Rounding

/-- `time.Second`; durations are in nanoseconds. -/
def second : Nat := 1000000000

section CalcOnce

variable (rd : Rounding)

/-- `Duration.Seconds`. -/
def seconds (d : Nat) : Rat :=
  rd.round (rd.round (d / second : Nat) + rd.round (rd.round (d % second : Nat) / second))

/-- What the conversion to `int32` cuts. -/
def share (interval : Nat) (limit : Int) : Rat :=
  rd.round (rd.round limit / rd.round (seconds rd second / seconds rd interval))

def calcOnce (interval : Nat) (limit : Int) : Int32 :=
  let interval := if interval > second then second else interval
  let once := Int32.ofInt (if 0 ≤ share rd interval limit then ⌊share rd interval limit⌋
    else ⌈share rd interval limit⌉)
  if once < 0 then 0 else once

variable {interval : Nat} {limit : Int}

theorem seconds_second : seconds rd second = 1 := by
  have hquot : second / second = 1 := rfl
  have hrem : second % second = 0 := rfl
  simp [seconds, hquot, hrem, rd.round_zero, rd.round_one]

theorem seconds_mem (hinterval : interval ≤ second) :
    0 ≤ seconds rd interval ∧ seconds rd interval ≤ 1 := by
  rcases hinterval.lt_or_eq with hlt | rfl
  · have hexact : rd.round interval = interval :=
      rd.round_int interval (by unfold second at hlt; omega)
    have hnonneg : (0 : Rat) ≤ interval / second := by positivity
    have hle : (interval : Rat) / second ≤ (1 : Int) := by
      rw [Int.cast_one, div_le_one (by norm_num [second])]
      exact_mod_cast hinterval
    obtain ⟨hnonneg, hle⟩ := rd.round_mem hnonneg hle (by decide)
    simpa [seconds, Nat.div_eq_of_lt hlt, Nat.mod_eq_of_lt hlt, rd.round_zero, hexact] using
      rd.round_mem hnonneg hle (by decide)
  · simp [seconds_second]

/-- Rounding changes the share, but not to more than the limit. -/
theorem share_mem (hinterval : interval ≤ second) (hlimit : ValidLimit limit) :
    0 ≤ share rd interval limit ∧ share rd interval limit ≤ limit := by
  obtain ⟨hnonneg, hle⟩ := seconds_mem rd hinterval
  have hlimit0 : (0 : Rat) ≤ limit := by exact_mod_cast (by omega : 0 ≤ limit)
  rw [share, seconds_second, rd.round_int limit (by omega)]
  rcases hnonneg.eq_or_lt with hzero | hpos
  · simp [← hzero, rd.round_zero, hlimit0]
  · have hone : ((1 : Int) : Rat) ≤ rd.round (1 / seconds rd interval) :=
      rd.le_round (by rwa [Int.cast_one, one_le_div hpos]) (by decide)
    exact rd.round_mem (div_nonneg hlimit0 (by linarith)) (div_le_self hlimit0 hone) (by omega)

/-- The conversion to `int32` is in range. -/
theorem toInt_calcOnce (interval : Nat) (hlimit : ValidLimit limit) :
    (calcOnce rd interval limit).toInt = ⌊share rd (min interval second) limit⌋ ∧
      0 ≤ (calcOnce rd interval limit).toInt ∧ (calcOnce rd interval limit).toInt ≤ limit := by
  have hmin : (if interval > second then second else interval) = min interval second := by
    split <;> omega
  obtain ⟨hshare, hle⟩ := share_mem rd (min_le_right interval second) hlimit
  have hnonneg := Int.floor_nonneg.mpr hshare
  have hfloor := Int.floor_le_floor hle
  rw [Int.floor_intCast] at hfloor
  have hconv : (Int32.ofInt ⌊share rd (min interval second) limit⌋).toInt = _ :=
    Int32.toInt_ofInt_of_le (by omega) (by omega)
  have hsign : ¬ Int32.ofInt ⌊share rd (min interval second) limit⌋ < 0 := by
    rw [Int32.lt_iff_toInt_lt, hconv, Int32.toInt_zero]
    omega
  simp only [calcOnce, hmin, if_pos hshare, if_neg hsign, hconv]
  exact ⟨trivial, hnonneg, hfloor⟩

/-- With exact rationals the product of the limit and the interval is cut to whole seconds. -/
theorem toInt_calcOnce_exact (hinterval : interval ≤ second) (hlimit : ValidLimit limit) :
    (calcOnce .exact interval limit).toInt = limit * interval / second := by
  have hseconds : ∀ d : Nat, seconds .exact d = d / second := by
    intro d
    have hsecond : (second : Rat) ≠ 0 := by norm_num [second]
    have hd : (d : Rat) = second * (d / second : Nat) + (d % second : Nat) := by
      exact_mod_cast (Nat.div_add_mod d second).symm
    simp only [seconds, Rounding.exact_round]
    rw [hd]
    field_simp
  have hshare : share .exact interval limit = ((limit * interval : Int) : Rat) / second := by
    rw [share, seconds_second, hseconds]
    simp only [Rounding.exact_round]
    rw [one_div_div, div_div_eq_mul_div, Int.cast_mul, Int.cast_natCast]
  rw [(toInt_calcOnce _ _ hlimit).1, min_eq_left hinterval, hshare, Rat.floor_intCast_div_natCast]

end CalcOnce

/-- The new value of `atomic.AddInt32`. -/
def addInt32 (addr delta : Int32) : Int32 := addr + delta

theorem toInt_addInt32 {a b : Int32} (hlow : -2147483648 ≤ a.toInt + b.toInt)
    (hhigh : a.toInt + b.toInt < 2147483648) : (addInt32 a b).toInt = a.toInt + b.toInt := by
  rw [addInt32, Int32.toInt_add, Int.bmod_eq_of_le (by omega) (by omega)]

theorem int32_nonpos_iff {a : Int32} : a ≤ 0 ↔ a.toInt ≤ 0 := by
  rw [Int32.le_iff_toInt_le, Int32.toInt_zero]

structure QPSLimiter where
  limit : Int32
  tokens : Int32
  interval : Nat
  once : Int32
  deriving DecidableEq, Repr

namespace QPSLimiter

variable (rd : Rounding)

def new (interval : Nat) (limit : Int) : QPSLimiter where
  limit := Int32.ofInt limit
  tokens := calcOnce rd interval limit
  interval
  once := calcOnce rd interval limit

variable (l : QPSLimiter)

def resetTokens (once : Int32) : QPSLimiter :=
  if l.tokens > once then { l with tokens := once } else l

/-- What the two updates have in common. -/
def setLimit (interval : Nat) (limit : Int) : QPSLimiter :=
  let once := calcOnce rd interval limit
  { l with limit := Int32.ofInt limit, once }.resetTokens once

def updateLimit (limit : Int) : QPSLimiter := l.setLimit rd l.interval limit

/-- Up to the ticker that a new interval starts. -/
def updateQPSLimit (interval : Nat) (limit : Int) : QPSLimiter :=
  { l.setLimit rd interval limit with interval }

def updateToken : QPSLimiter :=
  if l.limit < l.tokens then l
  else
    let delta := l.limit - l.tokens
    let delta := if delta > l.once ∨ delta < 0 then l.once else delta
    let newTokens := addInt32 l.tokens delta
    if newTokens < l.once then { l with tokens := l.once } else { l with tokens := newTokens }

/-- The last step of `Acquire`. -/
def addToken : QPSLimiter := { l with tokens := addInt32 l.tokens (-1) }

/-- The result of a call of `Acquire` that nothing interrupts. -/
def acquire : Bool :=
  if l.limit ≤ 0 then true else if l.tokens ≤ 0 then false else 0 ≤ l.addToken.tokens

/-- A limit in range, and a refill that is not more than the limit. -/
structure Configured (l : QPSLimiter) : Prop where
  limit_pos : 1 ≤ l.limit.toInt
  once_nonneg : 0 ≤ l.once.toInt
  once_le : l.once.toInt ≤ l.limit.toInt

variable {rd} {l} {interval : Nat} {limit : Int}

theorem configured_of_eq (hlimit : ValidLimit limit) (heq : l.limit = Int32.ofInt limit)
    (honce : l.once = calcOnce rd interval limit) : l.Configured := by
  obtain ⟨-, hnonneg, hle⟩ := toInt_calcOnce rd interval hlimit
  have hconv := Int32.toInt_ofInt_of_le (n := limit) (by omega) (by omega)
  rw [← heq] at hconv
  exact ⟨by omega, honce ▸ hnonneg, by rwa [honce, hconv]⟩

theorem new_configured (hlimit : ValidLimit limit) : (new rd interval limit).Configured :=
  configured_of_eq hlimit rfl rfl

theorem setLimit_spec (hlimit : ValidLimit limit) : (l.setLimit rd interval limit).Configured ∧
    (l.setLimit rd interval limit).tokens.toInt =
      min l.tokens.toInt (l.setLimit rd interval limit).once.toInt := by
  simp only [setLimit, resetTokens, gt_iff_lt, Int32.lt_iff_toInt_lt]
  split
  case isTrue hlt => exact ⟨configured_of_eq hlimit rfl rfl, (min_eq_right hlt.le).symm⟩
  case isFalse hle => exact ⟨configured_of_eq hlimit rfl rfl, (min_eq_left (not_lt.mp hle)).symm⟩

@[simp] theorem addToken_limit : l.addToken.limit = l.limit := by rw [addToken]

@[simp] theorem addToken_once : l.addToken.once = l.once := by rw [addToken]

theorem toInt_addToken (hlow : -2147483648 < l.tokens.toInt) :
    l.addToken.tokens.toInt = l.tokens.toInt - 1 := by
  have hone : (-1 : Int32).toInt = -1 := rfl
  have hhigh := l.tokens.toInt_lt
  rw [addToken, toInt_addInt32 (by omega) (by omega), hone]
  rfl

@[simp] theorem updateToken_limit : l.updateToken.limit = l.limit := by
  simp only [updateToken, apply_ite QPSLimiter.limit, ite_self]

@[simp] theorem updateToken_once : l.updateToken.once = l.once := by
  simp only [updateToken, apply_ite QPSLimiter.once, ite_self]

@[simp] theorem updateToken_interval : l.updateToken.interval = l.interval := by
  simp only [updateToken, apply_ite QPSLimiter.interval, ite_self]

theorem Configured.updateToken (h : l.Configured) : l.updateToken.Configured := by
  constructor <;> simp only [updateToken_limit, updateToken_once]
  exacts [h.limit_pos, h.once_nonneg, h.once_le]

/-- A difference of the limit and a negative counter may exceed 32 bits. It is then negative, and
the refill is added instead, as it is if the difference is larger than the refill. -/
theorem Configured.toInt_updateToken (h : l.Configured) : l.updateToken.tokens.toInt =
      if l.limit.toInt < l.tokens.toInt then l.tokens.toInt
      else if l.tokens.toInt < 0 then l.once.toInt
      else l.tokens.toInt + min (l.limit.toInt - l.tokens.toInt) l.once.toInt := by
  obtain ⟨hlimit, honce, hle⟩ := h
  have hlimit' := l.limit.toInt_lt
  have htokens := l.tokens.le_toInt
  unfold QPSLimiter.updateToken
  by_cases hover : l.limit < l.tokens
  · rw [if_pos hover, if_pos (Int32.lt_iff_toInt_lt.mp hover)]
  rw [if_neg hover, if_neg (mt Int32.lt_iff_toInt_lt.mpr hover)]
  rw [Int32.lt_iff_toInt_lt] at hover
  simp only [gt_iff_lt, Int32.lt_iff_toInt_lt, Int32.toInt_zero]
  by_cases hneg : l.tokens.toInt < 0
  · have hdelta : l.once.toInt < (l.limit - l.tokens).toInt ∨ (l.limit - l.tokens).toInt < 0 := by
      rw [Int32.toInt_sub, Int.bmod_def]
      split <;> omega
    rw [if_pos hdelta, if_pos hneg, toInt_addInt32 (by omega) (by omega), if_pos (by omega)]
  · have hdelta : (l.limit - l.tokens).toInt = l.limit.toInt - l.tokens.toInt := by
      rw [Int32.toInt_sub, Int.bmod_eq_of_le (by omega) (by omega)]
    split
    · have hsum := toInt_addInt32 (a := l.tokens) (b := l.once) (by omega) (by omega)
      rw [hsum, if_neg (by omega)]
      simp only [hsum]
      omega
    · have hsum := toInt_addInt32 (a := l.tokens) (b := l.limit - l.tokens) (by omega) (by omega)
      rw [hsum, hdelta, if_neg (by omega)]
      simp only [hsum, hdelta]
      omega

end QPSLimiter

end Kitex.Limiter
