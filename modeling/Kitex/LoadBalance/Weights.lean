import Mathlib.Algebra.BigOperators.Ring.List
import Mathlib.Algebra.Ring.Nat
import Mathlib.Data.List.FinRange
import Mathlib.Data.List.Rotate
import Kitex.LoadBalance.Discovery

/-! # Weights of round robin pickers

The pickers number their instances from a random offset on, and count weights in units of their
greatest common divisor.
-/

namespace Kitex.LoadBalance

/-- The loop of `gcdInt`. -/
def gcdLoop : (fuel : Nat) → (a b : Int) → Int
  | 0, a, _ => a
  | fuel + 1, a, b => if b = 0 then a else gcdLoop fuel b (a.tmod b)

def gcdInt (a b : Int) : Int := gcdLoop (b.natAbs + 1) a b

theorem gcdLoop_eq {fuel a b : Nat} (hfuel : b < fuel) : gcdLoop fuel a b = Nat.gcd a b := by
  induction fuel generalizing a b with
  | zero => omega
  | succ fuel ih =>
    rw [gcdLoop]
    split
    next hzero => rw [Int.natCast_eq_zero.mp hzero, Nat.gcd_zero_right]
    next hzero =>
      have hpos : 0 < b := Nat.pos_of_ne_zero (by exact_mod_cast hzero)
      have hlt := Nat.mod_lt a hpos
      rw [← Int.ofNat_tmod, ih (by omega), Nat.gcd_comm b, ← Nat.gcd_rec, Nat.gcd_comm]

theorem gcdInt_natCast (a b : Nat) : gcdInt a b = Nat.gcd a b :=
  gcdLoop_eq (by rw [Int.natAbs_natCast]; exact Nat.lt_succ_self b)

/-- The greatest common divisor of all weights. -/
def weightGcd (instances : List Instance) : Nat :=
  instances.foldr (fun ins gcd => Nat.gcd ins.weight.toNat gcd) 0

/-- How often an instance is picked in a cycle. -/
def share (instances : List Instance) (ins : Instance) : Nat :=
  ins.weight.toNat / weightGcd instances

/-- The number of picks in a cycle. -/
def cycleLength (instances : List Instance) : Nat :=
  (instances.map (·.weight.toNat)).sum / weightGcd instances

section Gcd

variable {instances : List Instance} {ins : Instance}

theorem weightGcd_dvd (hins : ins ∈ instances) : weightGcd instances ∣ ins.weight.toNat := by
  induction instances with
  | nil => cases hins
  | cons first instances ih =>
    rcases List.mem_cons.mp hins with rfl | hins
    · exact Nat.gcd_dvd_left _ _
    · exact (Nat.gcd_dvd_right _ _).trans (ih hins)

theorem weightGcd_pos (hne : instances ≠ []) (hpos : ∀ ins ∈ instances, 0 < ins.weight) :
    0 < weightGcd instances := by
  obtain ⟨ins, hins⟩ := List.exists_mem_of_ne_nil instances hne
  have hweight := hpos ins hins
  exact Nat.pos_of_dvd_of_pos (weightGcd_dvd hins) (by omega)

theorem share_mul_weightGcd (hins : ins ∈ instances) :
    share instances ins * weightGcd instances = ins.weight.toNat :=
  Nat.div_mul_cancel (weightGcd_dvd hins)

theorem sum_share_mul : (instances.map (share instances)).sum * weightGcd instances =
      (instances.map (·.weight.toNat)).sum := by
  refine (List.sum_map_mul_right ..).symm.trans ?_
  exact congrArg List.sum (List.map_congr_left fun ins hins => share_mul_weightGcd hins)

theorem sum_share (hgcd : 0 < weightGcd instances) :
    (instances.map (share instances)).sum = cycleLength instances := by
  rw [cycleLength, ← sum_share_mul, Nat.mul_div_cancel _ hgcd]

theorem weightGcd_perm {others : List Instance} (hperm : instances.Perm others) :
    weightGcd instances = weightGcd others := by
  have hcomm : LeftCommutative fun (ins : Instance) gcd => Nat.gcd ins.weight.toNat gcd :=
    ⟨fun _ _ _ => Nat.gcd_left_comm _ _ _⟩
  exact hperm.foldr_eq 0

/-- The loop over the weights computes their greatest common divisor. -/
theorem foldl_gcdInt (hpos : ∀ ins ∈ instances, 0 < ins.weight) (start : Nat) :
    instances.foldl (fun gcd ins => gcdInt gcd ins.weight) start =
      Nat.gcd start (weightGcd instances) := by
  induction instances generalizing start with
  | nil => rw [weightGcd, List.foldr_nil, Nat.gcd_zero_right]; rfl
  | cons first instances ih =>
    have hweight : (first.weight.toNat : Int) = first.weight :=
      Int.toNat_of_nonneg (hpos first List.mem_cons_self).le
    rw [List.foldl_cons, ← hweight, gcdInt_natCast,
      ih fun ins hins => hpos ins (List.mem_cons_of_mem _ hins)]
    exact congrArg _ (Nat.gcd_assoc _ _ _)

end Gcd

/-! ## The numbering of the instances -/

/-- `instances[(idx+offset)%size]` -/
def rotated (instances : List Instance) (offset : Nat) (idx : Fin instances.length) : Instance :=
  instances.get ⟨(idx + offset) % instances.length, Nat.mod_lt _ idx.pos⟩

variable {instances : List Instance} (offset : Nat)

theorem rotated_mem (idx : Fin instances.length) : rotated instances offset idx ∈ instances :=
  List.get_mem _ _

theorem map_rotated : (List.finRange instances.length).map (rotated instances offset) =
    instances.rotate offset := by
  refine List.ext_getElem (by simp) fun idx hidx hrotate => ?_
  simp [rotated, List.getElem_rotate]

theorem gcd_rotated (hpos : ∀ ins ∈ instances, 0 < ins.weight) :
    (List.finRange instances.length).foldl
      (fun gcd idx => gcdInt gcd (rotated instances offset idx).weight) 0 =
        weightGcd instances := by
  have hfold := @foldl_gcdInt (instances.rotate offset)
    (fun ins hins => hpos ins (List.mem_rotate.mp hins)) 0
  rw [← map_rotated, List.foldl_map, map_rotated, Nat.gcd_zero_left,
    weightGcd_perm (List.rotate_perm instances offset)] at hfold
  exact hfold

theorem sum_share_rotated (hgcd : 0 < weightGcd instances) :
    ((List.finRange instances.length).map fun idx =>
      share instances (rotated instances offset idx)).sum = cycleLength instances := by
  rw [← sum_share hgcd, ← ((List.rotate_perm instances offset).map (share instances)).sum_eq,
    ← map_rotated, List.map_map]
  rfl

theorem weight_rotated (hpos : ∀ ins ∈ instances, 0 < ins.weight) (idx : Fin instances.length) :
    (rotated instances offset idx).weight =
      share instances (rotated instances offset idx) * weightGcd instances := by
  have hins := rotated_mem offset idx
  rw [← Int.natCast_mul, share_mul_weightGcd hins, Int.toNat_of_nonneg (hpos _ hins).le]

end Kitex.LoadBalance
