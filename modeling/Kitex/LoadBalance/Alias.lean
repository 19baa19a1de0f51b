import Mathlib.Algebra.BigOperators.Group.List.Basic
import Mathlib.Algebra.BigOperators.Ring.Finset
import Mathlib.Algebra.Order.BigOperators.Group.List
import Mathlib.Algebra.Order.Field.Basic
import Mathlib.Algebra.Order.Ring.Rat
import Mathlib.Tactic.FieldSimp
import Mathlib.Tactic.Linarith
import Mathlib.Tactic.Ring
import Kitex.LoadBalance.Discovery

/-! # Weighted random pickers

The alias method draws an index and then takes the node at the index or its alias. Its table is
filled from two stacks: indices whose scaled weight is below one are small, the others large, and
each small one is paired with a large one that gives up what the small one lacks. The plain picker
draws a number below the sum of all weights and subtracts the weights from it.

Fractions are rationals, and draws are uniform.
-/

namespace Kitex.LoadBalance

/-! ## The table -/

/-- `AliasMethodPicker.init` at work. The tops of the stacks are their heads. -/
structure Filling where
  scaledProb : Nat → Rat
  prob : Nat → Rat := fun _ => 0
  aliases : Nat → Nat := fun _ => 0
  small : List Nat
  large : List Nat

structure AliasTable where
  prob : Nat → Rat
  aliases : Nat → Nat

namespace Filling

/-- An index goes back to one of the stacks. -/
def push (s : Filling) (g : Nat) : Filling :=
  if s.scaledProb g < 1 then { s with small := g :: s.small } else { s with large := g :: s.large }

/-- The first loop, which puts the last index on top. -/
def init (n : Nat) (scaledProb : Nat → Rat) : Filling where
  scaledProb
  small := ((List.range n).filter fun i => scaledProb i < 1).reverse
  large := ((List.range n).filter fun i => ¬ scaledProb i < 1).reverse

/-- The body of the loop, with the tops of the two stacks. -/
def pair (s : Filling) (l g : Nat) : Filling :=
  push
    { scaledProb := Function.update s.scaledProb g (s.scaledProb g - (1 - s.scaledProb l))
      prob := Function.update s.prob l (s.scaledProb l)
      aliases := Function.update s.aliases l g
      small := s.small.tail
      large := s.large.tail } g

/-- The loop, which ends within as many rounds as there are indices on the stacks. A top of an
empty stack would be an index out of range. -/
def pairLoop : Nat → Filling → Option Filling
  | 0, s => some s
  | rounds + 1, s =>
    if 0 < s.small.length ∧ 0 < s.large.length then do
      let l ← s.small.head?
      let g ← s.large.head?
      pairLoop rounds (s.pair l g)
    else some s

/-- The last two loops: what is left on the stacks keeps its own node. -/
def table (s : Filling) : AliasTable where
  prob i := if i ∈ s.large ∨ i ∈ s.small then 1 else s.prob i
  aliases := s.aliases

end Filling

def weightAt (instances : List Instance) (i : Nat) : Int := (instances[i]?.map (·.weight)).getD 0

/-- `newAliasMethodPicker`, up to the table. -/
def newAliasMethodPicker (instances : List Instance) (weightSum : Int) : Option AliasTable :=
  let n := instances.length
  let scaledProb := fun i => (weightAt instances i : Rat) * n / weightSum
  (Filling.pairLoop n (Filling.init n scaledProb)).map Filling.table

/-- How likely a number of `Float64` is below a bound. -/
def below (p : Rat) : Rat := max 0 (min 1 p)

/-- How likely `Next` is to return the node at an index. -/
def AliasTable.chance (t : AliasTable) (n i : Nat) : Rat :=
  ∑ j ∈ Finset.range n, 1 / n *
    ((if j = i then below (t.prob j) else 0) + if t.aliases j = i then 1 - below (t.prob j) else 0)

/-- The loop of `weightedRandomPicker.Next` at a number it has drawn, with the index of the node. -/
def weightedRandomNext : List Instance → (weight : Int) → Option Nat
  | [], _ => none
  | ins :: instances, weight =>
    if weight - ins.weight < 0 then some 0
    else (weightedRandomNext instances (weight - ins.weight)).map (· + 1)

/-- How likely `Next` is to return a result. -/
def weightedRandomChance (instances : List Instance) (weightSum : Int) (result : Option Nat) :
    Rat :=
  ((List.range weightSum.toNat).countP fun weight : Nat =>
    weightedRandomNext instances weight = result) / weightSum

/-! ## The loop -/

namespace Filling

/-- The indices on the stacks. -/
def work (s : Filling) : List Nat := s.small ++ s.large

/-- What a node has by itself. -/
def kept (s : Filling) (i : Nat) : Rat := if i ∈ s.work then s.scaledProb i else s.prob i

/-- What a node leaves to its alias. -/
def left (s : Filling) (j : Nat) : Rat := if j ∈ s.work then 0 else 1 - s.prob j

def mass (s : Filling) (n i : Nat) : Rat :=
  s.kept i + ∑ j ∈ Finset.range n, if s.aliases j = i then s.left j else 0

structure Fills (n : Nat) (scaled : Nat → Rat) (s : Filling) : Prop where
  nodup : s.work.Nodup
  lt : ∀ i ∈ s.work, i < n
  small : ∀ i ∈ s.small, 0 ≤ s.scaledProb i ∧ s.scaledProb i < 1
  large : ∀ i ∈ s.large, 1 ≤ s.scaledProb i
  sum : (s.work.map s.scaledProb).sum = s.work.length
  alias_lt : ∀ j < n, s.aliases j < n
  prob : ∀ j < n, j ∉ s.work → 0 ≤ s.prob j ∧ s.prob j ≤ 1
  mass : ∀ i < n, s.mass n i = scaled i

variable {s : Filling} {n g : Nat} {scaled : Nat → Rat} {i : Nat}

theorem perm_work_push (s : Filling) (g : Nat) : (s.push g).work.Perm (g :: s.work) := by
  unfold push work
  split
  next => exact .refl _
  next => exact List.perm_middle

@[simp] theorem push_scaledProb (s : Filling) (g : Nat) : (s.push g).scaledProb = s.scaledProb := by
  unfold push; split <;> rfl

@[simp] theorem push_prob (s : Filling) (g : Nat) : (s.push g).prob = s.prob := by
  unfold push; split <;> rfl

@[simp] theorem push_aliases (s : Filling) (g : Nat) : (s.push g).aliases = s.aliases := by
  unfold push; split <;> rfl

theorem perm_work_init (n : Nat) (scaled : Nat → Rat) :
    (init n scaled).work.Perm (List.range n) := by
  refine ((List.reverse_perm _).append (List.reverse_perm _)).trans ?_
  simpa only [decide_not] using List.filter_append_perm (fun i => decide (scaled i < 1)) _

theorem fills_init (hscaled : ∀ i, 0 ≤ scaled i)
    (hsum : ((List.range n).map scaled).sum = n) : Fills n scaled (init n scaled) := by
  have hwork := perm_work_init n scaled
  have hmem {i : Nat} (hi : i < n) : i ∈ (init n scaled).work :=
    hwork.mem_iff.mpr (List.mem_range.mpr hi)
  constructor
  case nodup => exact hwork.nodup_iff.mpr List.nodup_range
  case lt => exact fun i hi => List.mem_range.mp (hwork.mem_iff.mp hi)
  case small =>
    intro i hi
    have hlt := (List.mem_filter.mp (List.mem_reverse.mp hi)).2
    exact ⟨hscaled i, of_decide_eq_true hlt⟩
  case large =>
    intro i hi
    have hge := (List.mem_filter.mp (List.mem_reverse.mp hi)).2
    exact not_lt.mp (of_decide_eq_true hge)
  case sum =>
    rw [hwork.length_eq, List.length_range]
    exact (hwork.map _).sum_eq.trans hsum
  case alias_lt => exact fun j hj => Nat.zero_lt_of_lt hj
  case prob => exact fun j hj hout => absurd (hmem hj) hout
  case mass =>
    intro i hi
    rw [mass, Finset.sum_eq_zero, kept, if_pos (hmem hi), add_zero]
    · rfl
    · intro j hj
      rw [left, if_pos (hmem (Finset.mem_range.mp hj)), ite_self]

section Step

variable {l : Nat} {small large : List Nat}

theorem perm_work_pair (hsmall : s.small = l :: small) (hlarge : s.large = g :: large) :
    (s.pair l g).work.Perm (g :: (small ++ large)) := by
  refine (perm_work_push _ g).trans ?_
  rw [work, hsmall, hlarge]
  exact .refl _

theorem perm_work (hsmall : s.small = l :: small) (hlarge : s.large = g :: large) :
    s.work.Perm (l :: g :: (small ++ large)) := by
  rw [work, hsmall, hlarge]
  exact .cons l List.perm_middle

variable (h : Fills n scaled s)
include h

section

variable (hsmall : s.small = l :: small)
include hsmall

variable (hlarge : s.large = g :: large)
include hlarge

theorem mem_work_pair : i ∈ (s.pair l g).work ↔ i ∈ s.work ∧ i ≠ l := by
  have hnodup := (perm_work hsmall hlarge).nodup_iff.mp h.nodup
  rw [(perm_work_pair hsmall hlarge).mem_iff, (perm_work hsmall hlarge).mem_iff]
  grind

/-- Pairing moves what the large index gives up from its own node to the alias of the small one. -/
theorem mass_pair (i : Nat) : (s.pair l g).mass n i = s.mass n i := by
  have hl : l ∈ s.work := by simp [work, hsmall]
  have hg : g ∈ s.work := by simp [work, hlarge]
  have hln : l < n := h.lt l hl
  have hne : g ≠ l := by
    have := (perm_work hsmall hlarge).nodup_iff.mp h.nodup
    grind
  have hkept : (s.pair l g).kept i = s.kept i - if g = i then 1 - s.scaledProb l else 0 := by
    simp only [kept, mem_work_pair h hsmall hlarge]
    unfold pair
    simp only [push_scaledProb, push_prob, Function.update_apply]
    grind
  have hleft (j : Nat) : (if (s.pair l g).aliases j = i then (s.pair l g).left j else 0)
      = (if s.aliases j = i then s.left j else 0)
        + if j = l then (if g = i then 1 - s.scaledProb l else 0) else 0 := by
    simp only [left, mem_work_pair h hsmall hlarge]
    unfold pair
    simp only [push_aliases, push_prob, Function.update_apply]
    grind
  simp only [mass, hkept, hleft, Finset.sum_add_distrib, Finset.sum_ite_eq', Finset.mem_range, hln,
    if_true]
  ring

theorem fills_pair : Fills n scaled (s.pair l g) := by
  have hmem {i : Nat} := mem_work_pair (i := i) h hsmall hlarge
  have hg : g ∈ s.work := by simp [work, hlarge]
  have hnodup := (perm_work hsmall hlarge).nodup_iff.mp h.nodup
  have hlow := h.small l (by simp [hsmall])
  have hhigh := h.large g (by simp [hlarge])
  have hrest : ∀ i ∈ small ++ large, (s.pair l g).scaledProb i = s.scaledProb i := by
    intro i hi
    have : i ≠ g := by grind
    simp [pair, this]
  have hpaired : (s.pair l g).scaledProb g = s.scaledProb g - (1 - s.scaledProb l) := by simp [pair]
  -- The paired index goes to the stack its new weight belongs to.
  have hstacks : (s.pair l g).small = (if (s.pair l g).scaledProb g < 1 then g :: small else small)
      ∧ (s.pair l g).large = if (s.pair l g).scaledProb g < 1 then large else g :: large := by
    rw [hpaired]
    simp only [pair, push, Function.update_self, hsmall, hlarge, List.tail_cons]
    split <;> exact ⟨rfl, rfl⟩
  constructor
  case nodup =>
    exact (perm_work_pair hsmall hlarge).nodup_iff.mpr (List.nodup_cons.mp hnodup).2
  case lt => exact fun i hi => h.lt i (hmem.mp hi).1
  case small =>
    have hold : ∀ i ∈ small, 0 ≤ (s.pair l g).scaledProb i ∧ (s.pair l g).scaledProb i < 1 := by
      intro i hi
      rw [hrest i (List.mem_append_left _ hi)]
      exact h.small i (by rw [hsmall]; exact List.mem_cons_of_mem _ hi)
    rw [hstacks.1]
    split
    next hlt => exact List.forall_mem_cons.mpr ⟨⟨by rw [hpaired]; linarith, hlt⟩, hold⟩
    next => exact hold
  case large =>
    have hold : ∀ i ∈ large, 1 ≤ (s.pair l g).scaledProb i := by
      intro i hi
      rw [hrest i (List.mem_append_right _ hi)]
      exact h.large i (by rw [hlarge]; exact List.mem_cons_of_mem _ hi)
    rw [hstacks.2]
    split
    next => exact hold
    next hge => exact List.forall_mem_cons.mpr ⟨not_lt.mp hge, hold⟩
  case sum =>
    have hsum := h.sum
    rw [((perm_work hsmall hlarge).map _).sum_eq, (perm_work hsmall hlarge).length_eq] at hsum
    rw [((perm_work_pair hsmall hlarge).map _).sum_eq, (perm_work_pair hsmall hlarge).length_eq]
    simp only [List.map_cons, List.sum_cons, List.length_cons, Nat.cast_add, Nat.cast_one, hpaired,
      List.map_congr_left hrest] at hsum ⊢
    linarith
  case alias_lt =>
    intro j hj
    simp only [pair, push_aliases, Function.update_apply]
    split
    next => exact h.lt g hg
    next => exact h.alias_lt j hj
  case prob =>
    intro j hj hout
    simp only [pair, push_prob, Function.update_apply]
    split
    next => exact ⟨hlow.1, hlow.2.le⟩
    next hne => exact h.prob j hj fun hin => hout (hmem.mpr ⟨hin, hne⟩)
  case mass => exact fun i hi => (mass_pair h hsmall hlarge i).trans (h.mass i hi)

end

theorem pairLoop_fills {rounds : Nat} (hrounds : s.work.length ≤ rounds) :
    ∃ t, pairLoop rounds s = some t ∧ Fills n scaled t ∧ (t.small = [] ∨ t.large = []) := by
  induction rounds generalizing s with
  | zero =>
    refine ⟨s, rfl, h, .inl ?_⟩
    exact (List.append_eq_nil_iff.mp (List.length_eq_zero_iff.mp (by omega : s.work.length = 0))).1
  | succ rounds ih =>
    rw [pairLoop]
    match hsmall : s.small, hlarge : s.large with
    | [], _ => exact ⟨s, by simp, h, .inl hsmall⟩
    | _ :: _, [] => exact ⟨s, by simp, h, .inr hlarge⟩
    | l :: small, g :: large =>
      have hlength := (perm_work_pair hsmall hlarge).length_eq
      have hbefore := (perm_work hsmall hlarge).length_eq
      simp only [List.length_cons] at hlength hbefore
      simpa using ih (fills_pair h hsmall hlarge) (by omega)

end Step

/-- Weights on one stack only that make up their number are all one. -/
theorem scaledProb_eq_one (h : Fills n scaled s) (hend : s.small = [] ∨ s.large = [])
    (hi : i ∈ s.work) : s.scaledProb i = 1 := by
  have hones : (s.work.map fun _ => (1 : Rat)).sum = s.work.length := by simp
  have hsum := h.sum
  rcases hend with hsmall | hlarge
  · have hge : ∀ j ∈ s.work, 1 ≤ s.scaledProb j := by simpa [work, hsmall] using h.large
    by_contra hne
    have hlt := List.sum_lt_sum _ s.scaledProb hge ⟨i, hi, lt_of_le_of_ne (hge i hi) (Ne.symm hne)⟩
    linarith
  · have hlt : ∀ j ∈ s.work, s.scaledProb j < 1 := by
      simpa [work, hlarge] using fun j hj => (h.small j hj).2
    have hlt := List.sum_lt_sum _ (fun _ => 1) (fun j hj => (hlt j hj).le) ⟨i, hi, hlt i hi⟩
    linarith

/-- When the loop has ended, an index keeps its own node as often as it has weight left. -/
theorem prob_table (h : Fills n scaled s) (hend : s.small = [] ∨ s.large = []) {j : Nat}
    (hj : j < n) : below (s.table.prob j) = s.kept j ∧ 1 - below (s.table.prob j) = s.left j := by
  have hmem : (j ∈ s.large ∨ j ∈ s.small) ↔ j ∈ s.work := by
    rw [work, List.mem_append, or_comm]
  simp only [table, kept, left, hmem]
  split
  next hin => simp [below, scaledProb_eq_one h hend hin]
  next hout =>
    obtain ⟨hzero, hone⟩ := h.prob j hj hout
    have : below (s.prob j) = s.prob j := by rw [below, min_eq_right hone, max_eq_right hzero]
    exact ⟨this, by rw [this]⟩

theorem chance_table (h : Fills n scaled s) (hend : s.small = [] ∨ s.large = []) (hi : i < n) :
    s.table.chance n i = scaled i / n := by
  have hterm : ∀ j ∈ Finset.range n,
      (1 : Rat) / n * ((if j = i then below (s.table.prob j) else 0)
        + if s.table.aliases j = i then 1 - below (s.table.prob j) else 0)
      = 1 / n * ((if j = i then s.kept j else 0) + if s.aliases j = i then s.left j else 0) := by
    intro j hj
    obtain ⟨hkept, hleft⟩ := prob_table h hend (Finset.mem_range.mp hj)
    rw [hleft, hkept]
    rfl
  rw [AliasTable.chance, Finset.sum_congr rfl hterm, ← Finset.mul_sum, Finset.sum_add_distrib,
    Finset.sum_ite_eq', if_pos (Finset.mem_range.mpr hi), ← h.mass i hi, Filling.mass]
  ring

end Filling

/-! ## Pickers -/

section Instances

variable {instances : List Instance}

/-- The weight the balancer adds up for its pickers. -/
def weightSum (instances : List Instance) : Int := (instances.map (·.weight)).sum

theorem map_weightAt (instances : List Instance) :
    (List.range instances.length).map (weightAt instances) = instances.map (·.weight) :=
  List.ext_getElem (by simp) fun i _ hi => by
    simp only [List.length_map] at hi
    simp [weightAt, hi]

theorem newAliasMethodPicker_chance (hne : instances ≠ [])
    (hpos : ∀ ins ∈ instances, 0 < ins.weight) :
    ∃ table, newAliasMethodPicker instances (weightSum instances) = some table
      ∧ (∀ j < instances.length, table.aliases j < instances.length)
      ∧ ∀ i < instances.length,
        table.chance instances.length i = weightAt instances i / weightSum instances := by
  have hn : (instances.length : Rat) ≠ 0 := by simpa using hne
  have hweights : ∀ w ∈ instances.map (·.weight), 0 < w := by simpa using hpos
  have hsum : 0 < weightSum instances := List.sum_pos _ hweights (by simpa using hne)
  have hweight (i : Nat) : 0 ≤ weightAt instances i := by
    unfold weightAt
    cases hget : instances[i]? with
    | none => exact Int.le_refl 0
    | some ins => exact (hpos ins (List.mem_of_getElem? hget)).le
  have hscaled : ((List.range instances.length).map fun i =>
      (weightAt instances i : Rat) * instances.length / weightSum instances).sum
      = instances.length := by
    have hcast : ((List.range instances.length).map fun i => (weightAt instances i : Rat)).sum
        = weightSum instances := by
      rw [weightSum, ← map_weightAt, Int.cast_list_sum, List.map_map]
      rfl
    simp only [mul_div_assoc, List.sum_map_mul_right, hcast]
    field_simp
  obtain ⟨s, hloop, hfills, hend⟩ := Filling.pairLoop_fills
    (Filling.fills_init (fun i => by have := hweight i; positivity) hscaled)
    ((Filling.perm_work_init _ _).length_eq.trans List.length_range).le
  refine ⟨s.table, ?_, hfills.alias_lt, ?_⟩
  · exact congrArg (Option.map Filling.table) hloop
  · intro i hi
    rw [Filling.chance_table hfills hend hi]
    field_simp

theorem weightSum_nonneg (hpos : ∀ ins ∈ instances, 0 < ins.weight) : 0 ≤ weightSum instances :=
  List.sum_nonneg (by simpa using fun ins hins => (hpos ins hins).le)

theorem weightedRandomNext_isSome {weight : Int} (hlt : weight < weightSum instances) :
    (weightedRandomNext instances weight).isSome ∨ instances = [] := by
  induction instances generalizing weight with
  | nil => exact .inr rfl
  | cons ins instances ih =>
    rw [weightedRandomNext]
    rw [weightSum, List.map_cons, List.sum_cons, ← weightSum] at hlt
    split
    next => exact .inl rfl
    next hge =>
      rcases ih (show weight - ins.weight < weightSum instances by omega) with hsome | rfl
      · exact .inl (by rwa [Option.isSome_map])
      · simp [weightSum] at hlt
        omega

/-- The numbers below the sum of the weights fall to the nodes in runs of their weights. -/
theorem countP_weightedRandomNext (hpos : ∀ ins ∈ instances, 0 < ins.weight) (i : Nat) :
    ((List.range (weightSum instances).toNat).countP fun weight : Nat =>
      weightedRandomNext instances weight = some i) = weightAt instances i := by
  induction instances generalizing i with
  | nil => simp [weightSum, weightAt]
  | cons ins instances ih =>
    obtain ⟨hins, hrest⟩ := List.forall_mem_cons.mp hpos
    have hsum : (weightSum (ins :: instances)).toNat
        = ins.weight.toNat + (weightSum instances).toNat := by
      rw [weightSum, List.map_cons, List.sum_cons, ← weightSum,
        Int.toNat_add hins.le (weightSum_nonneg hrest)]
    have hfirst : ∀ weight ∈ List.range ins.weight.toNat,
        weightedRandomNext (ins :: instances) weight = some 0 := by
      intro weight hweight
      have := List.mem_range.mp hweight
      rw [weightedRandomNext, if_pos (by omega)]
    have hlater (weight : Nat) : weightedRandomNext (ins :: instances)
        ((ins.weight.toNat + weight : Nat) : Int)
        = (weightedRandomNext instances weight).map (· + 1) := by
      have : ((ins.weight.toNat + weight : Nat) : Int) - ins.weight = weight := by omega
      rw [weightedRandomNext, this, if_neg (by omega)]
    rw [hsum, List.range_add, List.countP_append, List.countP_map]
    simp only [Function.comp_def, hlater]
    cases i with
    | zero =>
      rw [List.countP_eq_length.mpr fun weight h => by simp [hfirst weight h]]
      simp [weightAt, hins.le]
    | succ i =>
      rw [List.countP_eq_zero.mpr fun weight h => by simp [hfirst weight h]]
      simpa [weightAt] using ih hrest i

/-- Both pickers return a node as often as its weight is part of the sum. -/
theorem weighted_random_fair (hne : instances ≠ []) (hpos : ∀ ins ∈ instances, 0 < ins.weight) :
    (∃ table, newAliasMethodPicker instances (weightSum instances) = some table
      ∧ (∀ j < instances.length, table.aliases j < instances.length)
      ∧ ∀ i < instances.length,
        table.chance instances.length i = weightAt instances i / weightSum instances)
    ∧ (∀ weight < weightSum instances, (weightedRandomNext instances weight).isSome)
    ∧ ∀ i < instances.length, weightedRandomChance instances (weightSum instances) (some i)
      = weightAt instances i / weightSum instances := by
  refine ⟨newAliasMethodPicker_chance hne hpos, ?_, ?_⟩
  · exact fun weight hlt => (weightedRandomNext_isSome hlt).resolve_right hne
  · intro i _
    rw [weightedRandomChance, ← countP_weightedRandomNext hpos i]
    rfl

theorem weighted_random_fair_two :
    let instances : List Instance := [⟨0, [1], 3⟩, ⟨1, [2], 1⟩]
    (∃ table, newAliasMethodPicker instances (weightSum instances) = some table
      ∧ (∀ j < instances.length, table.aliases j < instances.length)
      ∧ ∀ i < instances.length,
        table.chance instances.length i = weightAt instances i / weightSum instances)
    ∧ (∀ weight < weightSum instances, (weightedRandomNext instances weight).isSome)
    ∧ ∀ i < instances.length, weightedRandomChance instances (weightSum instances) (some i)
      = weightAt instances i / weightSum instances :=
  weighted_random_fair (by decide) (by decide)

end Instances

end Kitex.LoadBalance
