import Mathlib.Data.List.Perm.Basic
import Kitex.Container.Sharded

/-! # The sharded map of calls

`shard_map.go`. A connection keeps the callbacks of its calls in several maps, and the sequence id
of a call tells in which: the absolute value of the id modulo the number of maps, in arithmetic of
32 bits.
-/

namespace Kitex.NetpollMux

open Kitex.Container

/-- What the runtime stops a goroutine for. -/
inductive Panic where
  | divide
  | index (i : Int32) (length : Nat)
  deriving DecidableEq, Repr

structure ShardMap (α : Type) where
  size : Int32
  shards : List (AList fun _ : Int32 => α)

/-- The order in which a `range` statement visits the entries of a map. -/
structure Iteration (α : Type) where
  order : List (Sigma fun _ : Int32 => α) → List (Sigma fun _ : Int32 => α)
  perm : ∀ entries, (order entries).Perm entries

inductive MapOp (α : Type) where
  | store (seqID : Int32) (msg : α)
  | load (seqID : Int32)
  | delete (seqID : Int32)
  | rangeMap (iteration : Iteration α)

/-- What an operation gives back. -/
inductive MapResult (α : Type) where
  | done
  | loaded (msg : Option α)
  /-- the entries for which the function was called -/
  | ranged (visited : List (Sigma fun _ : Int32 => α))

def abs (n : Int32) : Int32 := if n < 0 then -n else n

namespace ShardMap

variable {α : Type}

def newShardMap (size : Nat) : ShardMap α where
  size := Int32.ofNat size
  shards := List.replicate size ∅

variable (m : ShardMap α)

/-- `getShard`, as the index of the shard. -/
def getShard (seqID : Int32) : Except Panic Nat :=
  if m.size = 0 then .error .divide
  else
    let i := abs seqID % m.size
    if i < 0 ∨ m.shards.length ≤ i.toInt.toNat then .error (.index i m.shards.length)
    else .ok i.toInt.toNat

def store (seqID : Int32) (msg : α) : Except Panic (ShardMap α) :=
  if seqID = 0 then .ok m
  else do
    let i ← m.getShard seqID
    return { m with shards := m.shards.modify i (·.insert seqID msg) }

def load (seqID : Int32) : Except Panic (Option α) :=
  if seqID = 0 then .ok none
  else do
    let i ← m.getShard seqID
    return m.shards[i]?.bind (·.lookup seqID)

def delete (seqID : Int32) : Except Panic (ShardMap α) :=
  if seqID = 0 then .ok m
  else do
    let i ← m.getShard seqID
    return { m with shards := m.shards.modify i (·.erase seqID) }

def rangeMap (iteration : Iteration α) : List (Sigma fun _ : Int32 => α) :=
  m.shards.flatMap fun shard => iteration.order shard.entries

def step : MapOp α → Except Panic (MapResult α × ShardMap α)
  | .store seqID msg => do return (.done, ← m.store seqID msg)
  | .load seqID => do return (.loaded (← m.load seqID), m)
  | .delete seqID => do return (.done, ← m.delete seqID)
  | .rangeMap iteration => .ok (.ranged (m.rangeMap iteration), m)

/-- A sequence of operations, one after the other. -/
def exec (m : ShardMap α) : List (MapOp α) → Except Panic (List (MapResult α) × ShardMap α)
  | [] => .ok ([], m)
  | op :: ops => do
      let (result, m) ← m.step op
      let (results, m) ← m.exec ops
      return (result :: results, m)

end ShardMap

/-! ## One map

What the operations do to a single map from ids to callbacks.
-/

namespace MapOp

variable {α : Type}

def seqID? : MapOp α → Option Int32
  | store seqID _ | load seqID | delete seqID => some seqID
  | rangeMap _ => none

/-- The map after the operation. -/
def apply (m : AList fun _ : Int32 => α) : MapOp α → AList fun _ : Int32 => α
  | store seqID msg => m.insert seqID msg
  | load _ | rangeMap _ => m
  | delete seqID => m.erase seqID

/-- The result is one that the operation may give on the map. -/
def Gives (m : AList fun _ : Int32 => α) : MapOp α → MapResult α → Prop
  | store _ _, result | delete _, result => result = .done
  | load seqID, result => result = .loaded (m.lookup seqID)
  | rangeMap _, result => ∃ visited, result = .ranged visited ∧ visited.Perm m.entries

end MapOp

/-- The results are those of the operations on the map, one after the other. -/
def Behaves {α : Type} (m : AList fun _ : Int32 => α) :
    List (MapOp α) → List (MapResult α) → Prop
  | [], [] => True
  | op :: ops, result :: results => op.Gives m result ∧ Behaves (op.apply m) ops results
  | _, _ => False

/-! ## The index of a shard -/

/-- A shard can be found: the number of shards in 32 bits is not zero, and if the id is the one with
no absolute value then it divides `2 ^ 31`. -/
def InRange (size : Nat) (seqID : Int32) : Prop :=
  Int32.ofNat size ≠ 0 ∧ (seqID = Int32.minValue → Int32.minValue % Int32.ofNat size = 0)

instance (size : Nat) (seqID : Int32) : Decidable (InRange size seqID) :=
  inferInstanceAs (Decidable (_ ∧ _))

theorem abs_toInt {n : Int32} (hn : n ≠ Int32.minValue) : (abs n).toInt = n.toInt.natAbs := by
  have hlow := n.le_toInt
  have hmin : n.toInt ≠ -2 ^ 31 := by
    exact fun h => hn (Int32.toInt_inj.mp h)
  unfold abs
  split
  · rename_i hneg
    rw [Int32.lt_iff_toInt_lt, Int32.toInt_zero] at hneg
    rw [Int32.toInt_neg, Int.bmod_eq_of_le] <;> omega
  · rename_i hpos
    rw [Int32.lt_iff_toInt_lt, Int32.toInt_zero] at hpos
    omega

theorem abs_minValue : abs Int32.minValue = Int32.minValue := by decide

/-- The number of shards in 32 bits is not larger than the number of shards. -/
theorem natAbs_ofNat_le (size : Nat) : (Int32.ofNat size).toInt.natAbs ≤ size := by
  rw [Int32.toInt_ofNat']
  have hsize : Int32.size = 2 ^ 32 := rfl
  rw [hsize, Int.bmod_def]
  split <;> omega

/-- The remainder is below the number of shards. -/
theorem natAbs_mod_lt {size : Nat} (hsize : Int32.ofNat size ≠ 0) (n : Int32) :
    (n % Int32.ofNat size).toInt.natAbs < size := by
  have hpos : 0 < (Int32.ofNat size).toInt.natAbs := by
    refine Int.natAbs_pos.mpr fun h => hsize ?_
    exact Int32.toInt_inj.mp h
  rw [Int32.toInt_mod, Int.natAbs_tmod]
  exact Nat.lt_of_lt_of_le (Nat.mod_lt _ hpos) (natAbs_ofNat_le size)

theorem mod_neg_iff {size : Nat} (n : Int32) : abs n % Int32.ofNat size < 0 ↔
      n = Int32.minValue ∧ Int32.minValue % Int32.ofNat size ≠ 0 := by
  rw [Int32.lt_iff_toInt_lt, Int32.toInt_zero, Int32.toInt_mod]
  by_cases hn : n = Int32.minValue
  · subst hn
    rw [abs_minValue, ← Int32.toInt_mod]
    have hle : (Int32.minValue % Int32.ofNat size).toInt ≤ 0 := by
      rw [Int32.toInt_mod, Int32.toInt_minValue, Int.neg_tmod]
      exact Int.neg_nonpos_of_nonneg (Int.tmod_nonneg _ (by decide))
    have hzero : (Int32.minValue % Int32.ofNat size).toInt = 0 ↔
        Int32.minValue % Int32.ofNat size = 0 := by
      rw [← Int32.toInt_zero, Int32.toInt_inj]
    constructor
    · exact fun hlt => ⟨rfl, fun h => absurd (hzero.mpr h) (by omega)⟩
    · exact fun h => Int.lt_iff_le_and_ne.mpr ⟨hle, fun h' => h.2 (hzero.mp h')⟩
  · rw [abs_toInt hn]
    have := Int.tmod_nonneg (Int32.ofNat size).toInt (Int.natCast_nonneg n.toInt.natAbs)
    constructor
    · intro h
      omega
    · exact fun h => absurd h.1 hn

namespace ShardMap

variable {α : Type} {m : ShardMap α} {size : Nat} {seqID : Int32} {op : MapOp α}
  {calls : AList fun _ : Int32 => α} {ops : List (MapOp α)}

/-- A shard is found for an id in range. -/
theorem getShard_of_inRange (hsize : m.size = Int32.ofNat size) (hlength : m.shards.length = size)
    (hrange : InRange size seqID) :
    m.getShard seqID = .ok (abs seqID % Int32.ofNat size).toInt.toNat ∧
      (abs seqID % Int32.ofNat size).toInt.toNat < size := by
  have hlt : (abs seqID % Int32.ofNat size).toInt.toNat < size := by
    have := natAbs_mod_lt hrange.1 (abs seqID)
    omega
  have hneg : ¬ abs seqID % Int32.ofNat size < 0 := fun h =>
    ((mod_neg_iff seqID).mp h).2 (hrange.2 ((mod_neg_iff seqID).mp h).1)
  refine ⟨?_, hlt⟩
  simp only [getShard, hsize, hlength]
  rw [if_neg hrange.1, if_neg (not_or.mpr ⟨hneg, Nat.not_le.mpr hlt⟩)]

theorem getShard_of_not_inRange (hsize : m.size = Int32.ofNat size)
    (hrange : ¬ InRange size seqID) : ∃ panic, m.getShard seqID = .error panic := by
  simp only [getShard, hsize]
  by_cases hzero : Int32.ofNat size = 0
  · exact ⟨.divide, if_pos hzero⟩
  · have hneg : abs seqID % Int32.ofNat size < 0 := by
      refine (mod_neg_iff seqID).mpr ?_
      by_contra h
      exact hrange ⟨hzero, fun hmin => by_contra fun hne => h ⟨hmin, hne⟩⟩
    rw [if_neg hzero, if_pos (Or.inl hneg)]
    exact ⟨_, rfl⟩

/-! ## Refinement -/

/-- The index of the shard of an id. -/
def home (size : Nat) (seqID : Int32) : Option Nat :=
  if InRange size seqID then some (abs seqID % Int32.ofNat size).toInt.toNat else none

/-- The sharded map, made for `size` shards, stands for the map of calls. -/
structure Represents (size : Nat) (m : ShardMap α) (calls : AList fun _ : Int32 => α) :
    Prop where
  size_eq : m.size = Int32.ofNat size
  length_eq : m.shards.length = size
  sharded : Sharded (home size) m.shards calls

theorem represents_newShardMap (size : Nat) :
    Represents size (newShardMap size : ShardMap α) ∅ where
  size_eq := rfl
  length_eq := List.length_replicate
  sharded := Sharded.empty (home size) size

section

variable (h : Represents size m calls)
include h

/-- The shard of an id in range. -/
theorem Represents.shard (hrange : InRange size seqID) :
    ∃ i shard, m.getShard seqID = .ok i ∧ home size seqID = some i ∧
      m.shards[i]? = some shard := by
  obtain ⟨hget, hlt⟩ := getShard_of_inRange h.size_eq h.length_eq hrange
  exact ⟨_, _, hget, if_pos hrange, List.getElem?_eq_getElem (h.length_eq.symm ▸ hlt)⟩

theorem Represents.store (hne : seqID ≠ 0) (hrange : InRange size seqID) (msg : α) :
    ∃ m', m.store seqID msg = .ok m' ∧ Represents size m' (calls.insert seqID msg) := by
  obtain ⟨i, shard, hget, hhome, hshard⟩ := h.shard hrange
  refine ⟨{ m with shards := m.shards.modify i (·.insert seqID msg) }, ?_, h.size_eq, ?_,
    h.sharded.insert hhome hshard⟩
  · simp only [ShardMap.store, if_neg hne, hget]
    rfl
  · exact (List.length_modify ..).trans h.length_eq

theorem Represents.load (hne : seqID ≠ 0)
    (hrange : InRange size seqID) : m.load seqID = .ok (calls.lookup seqID) := by
  obtain ⟨i, shard, hget, hhome, hshard⟩ := h.shard hrange
  simp only [ShardMap.load, if_neg hne, hget, bind, Except.bind, hshard, Option.bind_some,
    h.sharded.lookup i shard seqID hshard hhome]
  rfl

theorem Represents.delete (hne : seqID ≠ 0) (hrange : InRange size seqID) :
    ∃ m', m.delete seqID = .ok m' ∧ Represents size m' (calls.erase seqID) := by
  obtain ⟨i, shard, hget, hhome, hshard⟩ := h.shard hrange
  refine ⟨{ m with shards := m.shards.modify i (·.erase seqID) }, ?_, h.size_eq, ?_,
    h.sharded.erase hhome⟩
  · simp only [ShardMap.delete, if_neg hne, hget]
    rfl
  · exact (List.length_modify ..).trans h.length_eq

theorem Represents.rangeMap (iteration : Iteration α) :
    (m.rangeMap iteration).Perm calls.entries := by
  refine List.Perm.trans ?_ h.sharded.perm_entries
  exact List.Perm.flatMap_left _ fun shard _ => iteration.perm shard.entries

theorem Represents.step (hop : ∀ seqID, op.seqID? = some seqID → seqID ≠ 0 ∧ InRange size seqID) :
    ∃ result m', m.step op = .ok (result, m') ∧ op.Gives calls result ∧
      Represents size m' (op.apply calls) := by
  cases op with
  | store seqID msg =>
    obtain ⟨m', hstore, hm'⟩ := h.store (hop seqID rfl).1 (hop seqID rfl).2 msg
    refine ⟨.done, m', ?_, rfl, hm'⟩
    simp only [ShardMap.step, hstore]
    rfl
  | load seqID =>
    refine ⟨.loaded (calls.lookup seqID), m, ?_, rfl, h⟩
    simp only [ShardMap.step, h.load (hop seqID rfl).1 (hop seqID rfl).2]
    rfl
  | delete seqID =>
    obtain ⟨m', hdelete, hm'⟩ := h.delete (hop seqID rfl).1 (hop seqID rfl).2
    refine ⟨.done, m', ?_, rfl, hm'⟩
    simp only [ShardMap.step, hdelete]
    rfl
  | rangeMap iteration =>
    exact ⟨.ranged (m.rangeMap iteration), m, rfl, ⟨_, rfl, h.rangeMap iteration⟩, h⟩

end

theorem step_of_not_inRange (hsize : m.size = Int32.ofNat size) (hop : op.seqID? = some seqID)
    (hne : seqID ≠ 0) (hrange : ¬ InRange size seqID) : ∃ panic, m.step op = .error panic := by
  obtain ⟨panic, hget⟩ := getShard_of_not_inRange hsize hrange
  refine ⟨panic, ?_⟩
  cases op with
  | store _ _ | load _ | delete _ =>
    cases hop
    simp only [ShardMap.step, ShardMap.store, ShardMap.load, ShardMap.delete, if_neg hne, hget]
    rfl
  | rangeMap _ => cases hop

/-- A run of operations in range gives what the map of calls gives. -/
theorem Represents.exec (h : Represents size m calls)
    (hops : ∀ op ∈ ops, ∀ seqID, op.seqID? = some seqID → seqID ≠ 0 ∧ InRange size seqID) :
    ∃ results m', m.exec ops = .ok (results, m') ∧ Behaves calls ops results ∧
      Represents size m' (ops.foldl MapOp.apply calls) := by
  induction ops generalizing m calls with
  | nil => exact ⟨[], m, rfl, trivial, h⟩
  | cons op ops ih =>
    obtain ⟨result, next, hstep, hgives, hnext⟩ := h.step (hops op List.mem_cons_self)
    obtain ⟨results, m', hexec, hbehaves, hm'⟩ :=
      ih hnext fun op hop => hops op (List.mem_cons_of_mem _ hop)
    refine ⟨result :: results, m', ?_, ⟨hgives, hbehaves⟩, hm'⟩
    simp only [ShardMap.exec, hstep, bind, Except.bind, hexec]
    rfl

/-- A run with an id that is not in range panics. -/
theorem Represents.exec_panics (h : Represents size m calls) (hne : ∀ op ∈ ops, op.seqID? ≠ some 0)
    (hop : op ∈ ops) (hseqID : op.seqID? = some seqID) (hrange : ¬ InRange size seqID) :
    ∃ panic, m.exec ops = .error panic := by
  induction ops generalizing m calls with
  | nil => cases hop
  | cons first ops ih =>
    have hfirst := hne first List.mem_cons_self
    by_cases hok : ∀ seqID, first.seqID? = some seqID → InRange size seqID
    · obtain ⟨result, next, hstep, -, hnext⟩ := h.step fun seqID hseqID =>
        ⟨fun hzero => hfirst (hzero ▸ hseqID), hok seqID hseqID⟩
      have hop : op ∈ ops := by
        rcases List.mem_cons.mp hop with rfl | hop
        · exact absurd (hok seqID hseqID) hrange
        · exact hop
      obtain ⟨panic, hexec⟩ := ih hnext (fun op hop => hne op (List.mem_cons_of_mem _ hop)) hop
      refine ⟨panic, ?_⟩
      simp only [ShardMap.exec, hstep, bind, Except.bind, hexec]
    · push Not at hok
      obtain ⟨bad, hbad, hnot⟩ := hok
      obtain ⟨panic, hstep⟩ := step_of_not_inRange h.size_eq hbad
        (fun hzero => hfirst (hzero ▸ hbad)) hnot
      refine ⟨panic, ?_⟩
      simp only [ShardMap.exec, hstep, bind, Except.bind]

end ShardMap

end Kitex.NetpollMux
