import Kitex.Text.Decimal

/-! # Timeouts in header fields

`encodeTimeout` and `decodeTimeout` of `http_util.go`. A timeout is a number of at most eight digits
and the letter of a unit. The encoder takes the finest unit in which the number, rounded up, has so
few digits; the decoder clamps hours that do not fit into a duration. It reads the number by
`strconv.ParseInt`, which also takes a sign.
-/

namespace Kitex.Http2

open Kitex.Text

/-- `time.Duration`, in nanoseconds. -/
abbrev Duration := Int64

namespace Duration

def nanosecond : Duration := 1

def microsecond : Duration := 1000

def millisecond : Duration := 1000000

def second : Duration := 1000000000

def minute : Duration := 60000000000

def hour : Duration := 3600000000000

end Duration

def timeoutUnitToDuration (u : UInt8) : Option Duration :=
  match u with
  | 72 => some .hour
  | 77 => some .minute
  | 83 => some .second
  | 109 => some .millisecond
  | 117 => some .microsecond
  | 110 => some .nanosecond
  | _ => none

def maxTimeoutValue : Int64 := 100000000 - 1

/-- Division that rounds up. -/
def div (d r : Duration) : Int64 := if 0 < d % r then d / r + 1 else d / r

/-- `strconv.FormatInt` of a number that is not negative, and the unit. -/
def formatTimeout (d : Int64) (unit : UInt8) : List UInt8 := formatUint d.toInt.toNat ++ [unit]

def encodeTimeout (t : Duration) : List UInt8 :=
  if t ≤ 0 then [48, 110]
  else if div t .nanosecond ≤ maxTimeoutValue then formatTimeout (div t .nanosecond) 110
  else if div t .microsecond ≤ maxTimeoutValue then formatTimeout (div t .microsecond) 117
  else if div t .millisecond ≤ maxTimeoutValue then formatTimeout (div t .millisecond) 109
  else if div t .second ≤ maxTimeoutValue then formatTimeout (div t .second) 83
  else if div t .minute ≤ maxTimeoutValue then formatTimeout (div t .minute) 77
  else formatTimeout (div t .hour) 72

inductive TimeoutError where
  /-- a text with the timeout in quotes at its end -/
  | transport (message : String) (s : List UInt8)
  | number (err : NumError)
  deriving DecidableEq, Repr

def maxDuration : Duration := 9223372036854775807

def decodeTimeout (s : List UInt8) : Except TimeoutError Duration :=
  if s.length < 2 then .error (.transport "transport: timeout string is too short: " s)
  else if s.length > 9 then .error (.transport "transport: timeout string is too long: " s)
  else
    match timeoutUnitToDuration (s.getLastD 0) with
    | none => .error (.transport "transport: timeout unit is not recognized: " s)
    | some d =>
      match parseInt s.dropLast with
      | .error err => .error (.number err)
      | .ok t =>
        if d = .hour ∧ maxDuration / .hour < Int64.ofInt t then .ok maxDuration
        else .ok (d * Int64.ofInt t)

/-! ## Decoding digits -/

variable {t d : Duration} {unit : UInt8} {s digits : List UInt8} {n : Nat} {r : Duration}

theorem timeoutUnit_bounds (hunit : timeoutUnitToDuration unit = some d) :
    0 < d.toInt ∧ (d = .hour ∨ d.toInt ≤ 60000000000) := by
  unfold timeoutUnitToDuration at hunit
  split at hunit <;> cases hunit <;> decide

/-- `n` units, unless they do not fit. -/
def clampedTimeout (d : Duration) (n : Int64) : Duration :=
  if d = .hour ∧ maxDuration / .hour < n then maxDuration else d * n

/-- Only hours need the clamp. -/
theorem toInt_clampedTimeout (hunit : timeoutUnitToDuration unit = some d) (hn : n < 100000000) :
    (clampedTimeout d (Int64.ofInt n)).toInt = min (n * d.toInt) maxDuration.toInt := by
  obtain ⟨hpos, hfits⟩ := timeoutUnit_bounds hunit
  have hlow : 0 ≤ (n : Int) * d.toInt := Int.mul_nonneg (by omega) (by omega)
  have hcast : (Int64.ofInt n).toInt = n := Int64.toInt_ofInt_of_le (by omega) (by omega)
  have hhours : maxDuration / Duration.hour < Int64.ofInt n ↔ 2562047 < n := by
    rw [Int64.lt_iff_toInt_lt, hcast, show (maxDuration / Duration.hour).toInt = 2562047 from rfl]
    omega
  have hmax : maxDuration.toInt = 9223372036854775807 := rfl
  have hmul : (n : Int) * d.toInt ≤ 9223372036854775807 →
      (d * Int64.ofInt n).toInt = min (n * d.toInt) maxDuration.toInt := by
    intro hle
    rw [Int64.toInt_mul, hcast, Int.mul_comm, Int.bmod_eq_of_le (by omega) (by omega), hmax]
    omega
  unfold clampedTimeout
  rcases hfits with rfl | hfits
  · rw [show Duration.hour.toInt = 3600000000000 from rfl] at hmul ⊢
    split
    next hclamp =>
      have hmore := hhours.mp hclamp.2
      omega
    next hclamp =>
      have hle := mt hhours.mpr fun hmore => hclamp ⟨rfl, hmore⟩
      exact hmul (by omega)
  · have hle : (n : Int) * d.toInt ≤ 100000000 * 60000000000 :=
      Int.mul_le_mul (by omega) hfits (by omega) (by omega)
    split
    next hclamp =>
      rw [hclamp.1] at hfits
      exact absurd hfits (by decide)
    next => exact hmul (by omega)

/-- Digits behind a sign, or without one, and a unit. -/
theorem decodeTimeout_append (hne : (splitSign digits).2 ≠ []) (hlength : digits.length ≤ 8)
    (hdigits : ∀ c ∈ (splitSign digits).2, isDigit c = true)
    (hunit : timeoutUnitToDuration unit = some d) :
    decodeTimeout (digits ++ [unit]) = .ok (clampedTimeout d (Int64.ofInt
      (if (splitSign digits).1 then -(valueFrom 0 (splitSign digits).2 : Int)
        else valueFrom 0 (splitSign digits).2))) := by
  have hsuffix : (splitSign digits).2.length ≤ digits.length := by
    unfold splitSign
    split <;> simp
  have hpos := List.length_pos_iff.mpr hne
  have hsize : (digits ++ [unit]).length = digits.length + 1 := by
    rw [List.length_append, List.length_singleton]
  unfold decodeTimeout
  rw [if_neg (by omega), if_neg (by omega)]
  simp only [List.getLastD_concat, hunit, List.dropLast_concat,
    parseInt_of_digits hne hdigits (Nat.le_trans hsuffix (Nat.le_trans hlength (by decide)))]
  exact (apply_ite Except.ok _ _ _).symm

/-- One to eight digits and a unit, read as their product unless that is too large. -/
def GrpcTimeout (s : List UInt8) (r : Int) : Prop :=
  ∃ digits unit d, s = digits ++ [unit] ∧ digits ≠ [] ∧ digits.length ≤ 8 ∧
    (∀ c ∈ digits, isDigit c = true) ∧ timeoutUnitToDuration unit = some d ∧
    r = min (valueFrom 0 digits * d.toInt) maxDuration.toInt

theorem splitSign_of_digits (hne : digits ≠ []) (hdigits : ∀ c ∈ digits, isDigit c = true) :
    splitSign digits = (false, digits) := by
  obtain ⟨c, text, rfl⟩ := List.exists_cons_of_ne_nil hne
  exact splitSign_of_isDigit (hdigits c List.mem_cons_self) text

theorem GrpcTimeout.decodeTimeout {r : Int} (h : GrpcTimeout s r) :
    ∃ d, decodeTimeout s = .ok d ∧ d.toInt = r := by
  obtain ⟨digits, unit, d, rfl, hne, hlength, hdigits, hunit, rfl⟩ := h
  have hsign := splitSign_of_digits hne hdigits
  have hvalue : valueFrom 0 digits < 100000000 := by
    have hlt := valueFrom_lt hdigits 0
    have hpow := Nat.pow_le_pow_right (by decide : 0 < 10) hlength
    omega
  refine ⟨_, decodeTimeout_append (by rwa [hsign]) hlength (by rwa [hsign]) hunit, ?_⟩
  rw [hsign]
  exact toInt_clampedTimeout hunit hvalue

/-! ## Encoding and decoding again -/

/-- The number of units is rounded up. -/
theorem div_bounds (ht : 0 < t.toInt) (hd : 0 < d.toInt) : t.toInt ≤ (div t d).toInt * d.toInt ∧
      (div t d).toInt * d.toInt < t.toInt + d.toInt := by
  have hbound := t.toInt_lt
  have hmod : (t % d).toInt = t.toInt % d.toInt := by
    rw [Int64.toInt_mod, Int.tmod_eq_emod_of_nonneg (by omega)]
  have hquot := Int.ediv_nonneg (by omega : 0 ≤ t.toInt) (by omega : 0 ≤ d.toInt)
  have hle : t.toInt / d.toInt ≤ t.toInt := Int.ediv_le_self _ (by omega)
  have hdiv : (t / d).toInt = t.toInt / d.toInt := by
    rw [Int64.toInt_div, Int.tdiv_eq_ediv_of_nonneg (by omega), Int.bmod_eq_of_le] <;> omega
  have hsplit := Int.mul_ediv_add_emod t.toInt d.toInt
  have hlow := Int.emod_nonneg t.toInt (by omega : d.toInt ≠ 0)
  have hhigh := Int.emod_lt_of_pos t.toInt hd
  rw [Int.mul_comm] at hsplit
  unfold div
  split
  next hpos =>
    rw [Int64.lt_iff_toInt_lt, hmod, Int64.toInt_zero] at hpos
    -- a remainder needs a divisor of two at least, so there is room for one more unit
    have hhalf : t.toInt / d.toInt * 2 ≤ t.toInt / d.toInt * d.toInt :=
      Int.mul_le_mul_of_nonneg_left (by omega) hquot
    have hsucc : (t / d + 1).toInt = t.toInt / d.toInt + 1 := by
      rw [Int64.toInt_add, hdiv, Int64.toInt_one, Int.bmod_eq_of_le] <;> omega
    rw [hsucc, Int.add_mul, Int.one_mul]
    omega
  next hzero =>
    rw [Int64.lt_iff_toInt_lt, hmod, Int64.toInt_zero] at hzero
    rw [hdiv]
    omega

/-- The text is a number of at most eight digits and a unit, and is read back as a duration that is
`t` or longer, by less than one unit. -/
def RoundsUp (t : Duration) (s : List UInt8) : Prop :=
  ∃ digits unit d, s = digits ++ [unit] ∧ digits.length ≤ 8 ∧
    (∀ c ∈ digits, isDigit c = true) ∧ timeoutUnitToDuration unit = some d ∧
    ∃ r, decodeTimeout s = .ok r ∧ t.toInt ≤ r.toInt ∧ r.toInt < t.toInt + d.toInt

theorem roundsUp_formatTimeout (hunit : timeoutUnitToDuration unit = some d) (ht : 0 < t.toInt)
    (hq : (div t d).toInt < 100000000) : RoundsUp t (formatTimeout (div t d) unit) := by
  have hd := (timeoutUnit_bounds hunit).1
  obtain ⟨hlow, hhigh⟩ := div_bounds ht hd
  have hbound := t.toInt_lt
  have hnonneg : 0 ≤ (div t d).toInt := by
    by_contra hneg
    have hprod := Int.mul_neg_of_neg_of_pos (Int.not_le.mp hneg) hd
    omega
  have hlength := length_formatUint_le (k := 8) (by decide)
    (by omega : (div t d).toInt.toNat < 10 ^ 8)
  have hgrammar : GrpcTimeout (formatTimeout (div t d) unit)
      (min ((div t d).toInt * d.toInt) maxDuration.toInt) := by
    refine ⟨formatUint (div t d).toInt.toNat, unit, d, rfl, formatUint_ne_nil _, hlength,
      isDigit_of_mem_formatUint, hunit, ?_⟩
    rw [valueFrom_formatUint, Int.toNat_of_nonneg hnonneg]
  obtain ⟨r, hr, hvalue⟩ := hgrammar.decodeTimeout
  refine ⟨_, unit, d, rfl, hlength, isDigit_of_mem_formatUint, hunit, r, hr, ?_⟩
  rw [show maxDuration.toInt = 9223372036854775807 from rfl] at hvalue
  omega

/-- A positive duration is encoded so that it is decoded as itself, rounded up to a multiple of the
unit or clamped. -/
theorem encodeTimeout_roundsUp (ht : 0 < t) : RoundsUp t (encodeTimeout t) := by
  have hpos : 0 < t.toInt := Int64.lt_iff_toInt_lt.mp ht
  have hmax : ∀ {q : Int64}, q ≤ maxTimeoutValue → q.toInt < 100000000 := by
    intro q hq
    rw [Int64.le_iff_toInt_le, show maxTimeoutValue.toInt = 99999999 from rfl] at hq
    omega
  unfold encodeTimeout
  rw [if_neg (Int64.not_le.mpr ht)]
  split
  next hle => exact roundsUp_formatTimeout rfl hpos (hmax hle)
  split
  next hle => exact roundsUp_formatTimeout rfl hpos (hmax hle)
  split
  next hle => exact roundsUp_formatTimeout rfl hpos (hmax hle)
  split
  next hle => exact roundsUp_formatTimeout rfl hpos (hmax hle)
  split
  next hle => exact roundsUp_formatTimeout rfl hpos (hmax hle)
  next =>
    have hhours := (div_bounds hpos (by decide : 0 < Duration.hour.toInt)).2
    have hbound := t.toInt_lt
    rw [show Duration.hour.toInt = 3600000000000 from rfl] at hhours
    exact roundsUp_formatTimeout rfl hpos (by omega)

/-- The longest duration is clamped. -/
theorem encodeTimeout_roundsUp_longest : RoundsUp maxDuration (encodeTimeout maxDuration) ∧
      encodeTimeout maxDuration = [50, 53, 54, 50, 48, 52, 56, 72] ∧
      decodeTimeout (encodeTimeout maxDuration) = .ok maxDuration :=
  ⟨encodeTimeout_roundsUp (by decide), by decide, by decide⟩

/-! ## What is accepted -/

/-- A sign, one to seven digits and a unit. -/
def SignedTimeout (s : List UInt8) : Prop :=
  ∃ sign digits unit, (sign = 43 ∨ sign = 45) ∧ s = sign :: (digits ++ [unit]) ∧ digits ≠ [] ∧
    digits.length ≤ 7 ∧ (∀ c ∈ digits, isDigit c = true) ∧
    (timeoutUnitToDuration unit).isSome = true

theorem SignedTimeout.accepted (h : SignedTimeout s) : ∃ r, decodeTimeout s = .ok r := by
  obtain ⟨sign, digits, unit, hsign, rfl, hne, hlength, hdigits, hunit⟩ := h
  obtain ⟨d, hd⟩ := Option.isSome_iff_exists.mp hunit
  have hsplit : (splitSign (sign :: digits)).2 = digits := by
    rcases hsign with rfl | rfl <;> rfl
  have hdecode : decodeTimeout ((sign :: digits) ++ [unit]) = _ :=
    decodeTimeout_append (by rwa [hsplit]) (Nat.succ_le_succ hlength) (by rwa [hsplit]) hd
  exact ⟨_, hdecode⟩

theorem SignedTimeout.not_grpcTimeout (h : SignedTimeout s) (r : Int) : ¬ GrpcTimeout s r := by
  rintro ⟨digits', unit', d, heq, hne', -, hdigits', -, -⟩
  obtain ⟨sign, digits, unit, hsign, rfl, -⟩ := h
  obtain ⟨c, text, rfl⟩ := List.exists_cons_of_ne_nil hne'
  obtain ⟨rfl, -⟩ := List.cons.inj heq
  have hdigit := hdigits' sign List.mem_cons_self
  rcases hsign with rfl | rfl <;> cases hdigit

/-- Without a sign the accepted text is that of the protocol. -/
theorem digits_of_decodeTimeout (hs : ¬ SignedTimeout s) (hdecode : decodeTimeout s = .ok r) :
    ∃ digits unit d, s = digits ++ [unit] ∧ digits ≠ [] ∧ digits.length ≤ 8 ∧
      (∀ c ∈ digits, isDigit c = true) ∧ timeoutUnitToDuration unit = some d := by
  have hshort : ¬ s.length < 2 := fun hlt => by simp [decodeTimeout, hlt] at hdecode
  have hlong : ¬ s.length > 9 := fun hgt => by simp [decodeTimeout, hshort, hgt] at hdecode
  rw [decodeTimeout, if_neg hshort, if_neg hlong] at hdecode
  obtain ⟨digits, unit, rfl⟩ := (List.eq_nil_or_concat' s).resolve_left fun hnil => by
    simp [hnil] at hshort
  simp only [List.getLastD_concat, List.dropLast_concat, List.length_append,
    List.length_singleton] at hdecode hlong
  cases hunit : timeoutUnitToDuration unit with
  | none => simp only [hunit, reduceCtorEq] at hdecode
  | some d =>
    cases hparse : parseInt digits with
    | error err => simp only [hunit, hparse, reduceCtorEq] at hdecode
    | ok n =>
      have hrest := digits_of_parseInt hparse
      have hsome : (timeoutUnitToDuration unit).isSome = true := by rw [hunit]; rfl
      unfold splitSign at hrest
      split at hrest
      next text =>
        rw [List.length_cons] at hlong
        exact (hs ⟨43, text, unit, .inl rfl, rfl, hrest.1, by omega, hrest.2, hsome⟩).elim
      next text =>
        rw [List.length_cons] at hlong
        exact (hs ⟨45, text, unit, .inr rfl, rfl, hrest.1, by omega, hrest.2, hsome⟩).elim
      next => exact ⟨digits, unit, d, rfl, hrest.1, by omega, hrest.2, hunit⟩

theorem grpcTimeout_of_decodeTimeout (hs : ¬ SignedTimeout s) (hdecode : decodeTimeout s = .ok r) :
    GrpcTimeout s r.toInt := by
  obtain ⟨digits, unit, d, heq, hne, hlength, hdigits, hunit⟩ :=
    digits_of_decodeTimeout hs hdecode
  have hgrammar : GrpcTimeout s (min (valueFrom 0 digits * d.toInt) maxDuration.toInt) :=
    ⟨digits, unit, d, heq, hne, hlength, hdigits, hunit, rfl⟩
  obtain ⟨r', hr', hvalue⟩ := hgrammar.decodeTimeout
  obtain rfl := Except.ok.inj (hdecode.symm.trans hr')
  rwa [hvalue]

theorem GrpcTimeout.nonneg {r : Int} (h : GrpcTimeout s r) : 0 ≤ r := by
  obtain ⟨digits, unit, d, -, -, -, -, hunit, rfl⟩ := h
  have hd := (timeoutUnit_bounds hunit).1
  exact le_min (Int.mul_nonneg (by omega) (by omega)) (by decide)

/-- The decoder accepts the timeouts of the protocol, with their values, and no others, unless there
is a sign before the number. -/
theorem decodeTimeout_conforms_iff (s : List UInt8) :
    ((∀ r, decodeTimeout s = .ok r ↔ GrpcTimeout s r.toInt) ∧
      ∀ r, decodeTimeout s = .ok r → 0 ≤ r.toInt) ↔ ¬ SignedTimeout s := by
  constructor
  · rintro ⟨hiff, -⟩ hsigned
    obtain ⟨r, hr⟩ := hsigned.accepted
    exact hsigned.not_grpcTimeout r.toInt ((hiff r).mp hr)
  · intro hs
    refine ⟨fun r => ⟨grpcTimeout_of_decodeTimeout hs, fun hgrammar => ?_⟩, fun r hr =>
      (grpcTimeout_of_decodeTimeout hs hr).nonneg⟩
    obtain ⟨r', hr', hvalue⟩ := hgrammar.decodeTimeout
    rwa [← Int64.toInt_inj.mp hvalue]

/-- A negative timeout is accepted. -/
theorem exists_negative_timeout : decodeTimeout [45, 49, 83] = .ok (-1000000000) := by
  decide

end Kitex.Http2
