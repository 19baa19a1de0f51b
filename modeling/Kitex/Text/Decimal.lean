import Mathlib.Data.Nat.Digits.Lemmas

/-! # Decimal numbers as text

A text is a list of bytes. `parseUint` and `parseInt` read ASCII digits into 64 bits, the second one
after an optional sign; `formatUint` writes the digits that they read.
-/

namespace Kitex.Text

def isDigit (c : UInt8) : Bool := 48 ≤ c && c ≤ 57

/-- The value of a row of digits that stands behind those of `n`. -/
def valueFrom (n : Nat) (digits : List UInt8) : Nat :=
  digits.foldl (fun n c => n * 10 + (c.toNat - 48)) n

inductive NumError where
  | malformed
  | range
  deriving DecidableEq, Repr

def parseUintLoop : Nat → List UInt8 → Except NumError Nat
  | n, [] => .ok n
  | n, c :: text =>
    if isDigit c then
      let n := n * 10 + (c.toNat - 48)
      if n < 2 ^ 64 then parseUintLoop n text else .error .range
    else .error .malformed

def parseUint (text : List UInt8) : Except NumError Nat :=
  if text = [] then .error .malformed else parseUintLoop 0 text

/-- The sign is minus, and the text behind the sign. -/
def splitSign : List UInt8 → Bool × List UInt8
  | 43 :: text => (false, text)
  | 45 :: text => (true, text)
  | text => (false, text)

def parseInt (text : List UInt8) : Except NumError Int :=
  let (neg, digits) := splitSign text
  match parseUint digits with
  | .error e => .error e
  | .ok n =>
    if neg then if 2 ^ 63 < n then .error .range else .ok (-n)
    else if 2 ^ 63 ≤ n then .error .range else .ok n

def formatUint (n : Nat) : List UInt8 :=
  if n = 0 then [48] else ((Nat.digits 10 n).map fun d => UInt8.ofNat (48 + d)).reverse

/-! ## Reading -/

theorem le_valueFrom (n : Nat) (digits : List UInt8) : n ≤ valueFrom n digits := by
  induction digits generalizing n with
  | nil => exact Nat.le_refl n
  | cons c digits ih =>
    have hrest := ih (n * 10 + (c.toNat - 48))
    change n ≤ valueFrom (n * 10 + (c.toNat - 48)) digits
    omega

theorem isDigit_iff {c : UInt8} : isDigit c = true ↔ 48 ≤ c.toNat ∧ c.toNat ≤ 57 := by
  simp [isDigit, UInt8.le_iff_toNat_le]

variable {digits text : List UInt8} {n : Nat}

theorem valueFrom_lt (hdigits : ∀ c ∈ digits, isDigit c = true) (n : Nat) :
    valueFrom n digits < (n + 1) * 10 ^ digits.length := by
  induction digits generalizing n with
  | nil => simp [valueFrom]
  | cons c digits ih =>
    have hc := isDigit_iff.mp (hdigits c List.mem_cons_self)
    have hrest := ih (fun d hd => hdigits d (List.mem_cons_of_mem _ hd))
      (n * 10 + (c.toNat - 48))
    calc valueFrom (n * 10 + (c.toNat - 48)) digits
        < (n * 10 + (c.toNat - 48) + 1) * 10 ^ digits.length := hrest
      _ ≤ ((n + 1) * 10) * 10 ^ digits.length := Nat.mul_le_mul_right _ (by omega)
      _ = (n + 1) * 10 ^ (c :: digits).length := by
        rw [List.length_cons, pow_succ', Nat.mul_assoc]

theorem parseUintLoop_of_digits (hdigits : ∀ c ∈ digits, isDigit c = true)
    (hlt : valueFrom n digits < 2 ^ 64) : parseUintLoop n digits = .ok (valueFrom n digits) := by
  induction digits generalizing n with
  | nil => rfl
  | cons c digits ih =>
    have hle := le_valueFrom (n * 10 + (c.toNat - 48)) digits
    rw [parseUintLoop, if_pos (hdigits c List.mem_cons_self)]
    rw [if_pos (Nat.lt_of_le_of_lt hle hlt)]
    exact ih (fun d hd => hdigits d (List.mem_cons_of_mem _ hd)) hlt

/-- What is read as a number consists of digits. -/
theorem digits_of_parseUintLoop {n m : Nat} (hparse : parseUintLoop n text = .ok m) :
    (∀ c ∈ text, isDigit c = true) ∧ m = valueFrom n text := by
  induction text generalizing n with
  | nil =>
    cases hparse
    exact ⟨by simp, rfl⟩
  | cons c text ih =>
    rw [parseUintLoop] at hparse
    split at hparse
    next hc =>
      dsimp only at hparse
      split at hparse
      next =>
        obtain ⟨hrest, hm⟩ := ih hparse
        exact ⟨List.forall_mem_cons.mpr ⟨hc, hrest⟩, hm⟩
      next => cases hparse
    next => cases hparse

theorem splitSign_of_isDigit {c : UInt8} (hc : isDigit c) (text : List UInt8) :
    splitSign (c :: text) = (false, c :: text) := by
  unfold splitSign
  split
  next heq =>
    cases heq
    exact absurd hc (by decide)
  next heq =>
    cases heq
    exact absurd hc (by decide)
  next => rfl

/-- Up to eighteen digits fit into 64 bits with a sign. -/
theorem valueFrom_lt_of_length_le (hdigits : ∀ c ∈ digits, isDigit c = true)
    (hlength : digits.length ≤ 18) : valueFrom 0 digits < 2 ^ 63 :=
  calc valueFrom 0 digits
      < (0 + 1) * 10 ^ digits.length := valueFrom_lt hdigits 0
    _ ≤ (0 + 1) * 10 ^ 18 := Nat.mul_le_mul_left _ (Nat.pow_le_pow_right (by decide) hlength)
    _ < 2 ^ 63 := by decide

theorem parseUint_of_digits (hne : digits ≠ []) (hdigits : ∀ c ∈ digits, isDigit c = true)
    (hlength : digits.length ≤ 18) : parseUint digits = .ok (valueFrom 0 digits) := by
  have hlt := valueFrom_lt_of_length_le hdigits hlength
  rw [parseUint, if_neg hne]
  exact parseUintLoop_of_digits hdigits (Nat.lt_trans hlt (by decide))

/-- What `parseInt` accepts are digits behind the sign. -/
theorem digits_of_parseInt {n : Int} (hparse : parseInt text = .ok n) :
    (splitSign text).2 ≠ [] ∧ ∀ c ∈ (splitSign text).2, isDigit c = true := by
  unfold parseInt at hparse
  dsimp only at hparse
  split at hparse
  next => cases hparse
  next m huint =>
    unfold parseUint at huint
    split at huint
    next => cases huint
    next hne => exact ⟨hne, (digits_of_parseUintLoop huint).1⟩

/-- Digits behind a sign are accepted, and a minus makes the number negative. -/
theorem parseInt_of_digits (hne : (splitSign text).2 ≠ [])
    (hdigits : ∀ c ∈ (splitSign text).2, isDigit c = true)
    (hlength : (splitSign text).2.length ≤ 18) :
    parseInt text = .ok (if (splitSign text).1 then -(valueFrom 0 (splitSign text).2 : Int)
      else valueFrom 0 (splitSign text).2) := by
  have hlt := valueFrom_lt_of_length_le hdigits hlength
  simp only [parseInt, parseUint_of_digits hne hdigits hlength]
  split
  · rw [if_neg (by omega)]
  · rw [if_neg (by omega)]

/-! ## Writing -/

theorem formatUint_ne_nil (n : Nat) : formatUint n ≠ [] := by
  unfold formatUint
  split
  next => simp
  next hn =>
    rw [ne_eq, List.reverse_eq_nil_iff, List.map_eq_nil_iff, Nat.digits_eq_nil_iff_eq_zero]
    exact hn

theorem toNat_digit {d : Nat} (hd : d < 10) : (UInt8.ofNat (48 + d)).toNat = 48 + d := by
  rw [UInt8.toNat_ofNat']
  omega

theorem isDigit_of_mem_formatUint : ∀ c ∈ formatUint n, isDigit c = true := by
  intro c hc
  unfold formatUint at hc
  split at hc
  next =>
    rw [List.mem_singleton.mp hc]
    rfl
  next =>
    obtain ⟨d, hd, rfl⟩ := List.mem_map.mp (List.mem_reverse.mp hc)
    have hlt := Nat.digits_lt_base (by decide : 1 < 10) hd
    rw [isDigit_iff, toNat_digit hlt]
    omega

theorem valueFrom_formatUint (n : Nat) : valueFrom 0 (formatUint n) = n := by
  unfold formatUint
  split
  next hn => simp [valueFrom, hn]
  next =>
    have hfold : ∀ digits : List Nat, (∀ d ∈ digits, d < 10) →
        valueFrom 0 (digits.map fun d => UInt8.ofNat (48 + d)).reverse =
          Nat.ofDigits 10 digits := by
      intro digits hdigits
      induction digits with
      | nil => rfl
      | cons d digits ih =>
        obtain ⟨hd, hrest⟩ := List.forall_mem_cons.mp hdigits
        have hlast := ih hrest
        rw [valueFrom, List.foldl_reverse] at hlast ⊢
        rw [List.map_cons, List.foldr_cons, hlast, toNat_digit hd, Nat.ofDigits_cons]
        omega
    rw [hfold _ fun d hd => Nat.digits_lt_base (by decide) hd, Nat.ofDigits_digits]

theorem length_formatUint_le {n k : Nat} (hk : 0 < k) (hn : n < 10 ^ k) :
    (formatUint n).length ≤ k := by
  unfold formatUint
  split
  next => exact hk
  next =>
    rw [List.length_reverse, List.length_map]
    exact (Nat.digits_length_le_iff (by decide) n).mpr hn

end Kitex.Text
