import Mathlib.Algebra.Ring.Int.Defs
import Mathlib.Algebra.Ring.Nat
import Mathlib.Data.List.Basic

/-! # The event queue

A ring of fixed size that keeps the latest events. `Push` goes forward with 32-bit unsigned indices,
and `Dump` goes back with signed ones and stops at a slot that was never written.
-/

namespace Kitex.Events

variable {Body Extra : Type}

/-- `Event`; the body is all but `Extra`. -/
structure Event (Body Extra : Type) where
  body : Body
  extra : Extra
  deriving DecidableEq, Repr

/-- What an event has as `Extra` may be computed only when it is dumped. -/
def Event.dumped (kitexDumpLazyExtra : Extra → Option Extra) (e : Event Body Extra) :
    Event Body Extra :=
  { e with extra := (kitexDumpLazyExtra e.extra).getD e.extra }

/-- `queue`. A slot is `none` while its pointer is nil. -/
structure Queue (Body Extra : Type) where
  ring : List (Option (Event Body Extra))
  tail : UInt32

namespace Queue

def newQueue (cap : Nat) : Queue Body Extra := ⟨List.replicate cap none, 0⟩

/-- `Push`; `none` is a panic, at an index outside the ring or a division by zero. -/
def push (q : Queue Body Extra) (e : Event Body Extra) : Option (Queue Body Extra) :=
  let size := UInt32.ofNat q.ring.length
  if q.tail.toNat < q.ring.length ∧ size ≠ 0 then
    some ⟨q.ring.set q.tail.toNat (some e), (q.tail + 1) % size⟩
  else none

/-- The conversion to `int32`. -/
def int32 (v : Int) : Int := Int.bmod v (2 ^ 32)

/-- The loop of `Dump`, with the rounds that are left. -/
def collect (ring : List (Option (Event Body Extra))) :
    Nat → Int → Option (List (Event Body Extra))
  | 0, _ => some []
  | rounds + 1, pos =>
    let pos := int32 (pos - 1)
    let pos := if pos < 0 then int32 (ring.length - 1) else pos
    if pos < 0 then none
    else
      match ring[pos.toNat]? with
      | none => none
      | some none => some []
      | some (some e) => (collect ring rounds pos).map (e :: ·)

def dump (kitexDumpLazyExtra : Extra → Option Extra) (q : Queue Body Extra) :
    Option (List (Event Body Extra)) :=
  (collect q.ring q.ring.length (int32 q.tail.toNat)).map
    (List.map (Event.dumped kitexDumpLazyExtra))

/-! ## Going back from the tail -/

/-- The position some steps before the tail. -/
def back (size tail steps : Nat) : Nat :=
  if steps ≤ tail then tail - steps else tail + size - steps

/-- The events that were pushed, the latest first, are found going back from the tail. -/
structure Holds (cap : Nat) (q : Queue Body Extra) (recent : List (Event Body Extra)) : Prop where
  size : q.ring.length = cap
  tail : q.tail.toNat < cap
  slot : ∀ k < cap, q.ring[back cap q.tail.toNat (k + 1)]? = some recent[k]?

variable {cap : Nat} {q : Queue Body Extra} {recent : List (Event Body Extra)}

theorem back_lt {tail steps : Nat} (htail : tail < cap) (hsteps : steps ≤ cap) :
    back cap tail steps < cap := by
  unfold back
  split <;> omega

theorem int32_of_lt {v : Int} (hlow : -2 ^ 31 ≤ v) (hhigh : v < 2 ^ 31) : int32 v = v := by
  unfold int32 Int.bmod
  dsimp only
  split <;> omega

theorem holds_newQueue (hcap : 1 ≤ cap) : Holds cap (newQueue cap : Queue Body Extra) [] where
  size := List.length_replicate
  tail := hcap
  slot k hk := by simp [newQueue, back_lt (show 0 < cap by omega) hk]

/-- `Push` takes the ring for one of as many slots as its size has in 32 bits. -/
theorem exists_push {size : Nat} (hsize : q.ring.length % 2 ^ 32 = size)
    (htail : q.tail.toNat < size) (e : Event Body Extra) :
    ∃ q', q.push e = some q' ∧ q'.ring = q.ring.set q.tail.toNat (some e) ∧
      q'.tail.toNat = if q.tail.toNat + 1 = size then 0 else q.tail.toNat + 1 := by
  have hword : (UInt32.ofNat q.ring.length).toNat = size := by rw [UInt32.toNat_ofNat', hsize]
  have hpositive : UInt32.ofNat q.ring.length ≠ 0 := fun hzero => by
    rw [hzero, UInt32.toNat_zero] at hword
    omega
  refine ⟨_, if_pos ⟨by omega, hpositive⟩, rfl, ?_⟩
  rw [UInt32.toNat_mod, hword, UInt32.toNat_add, UInt32.toNat_one,
    Nat.mod_eq_of_lt (show q.tail.toNat + 1 < 2 ^ 32 by omega)]
  split
  next hend => rw [hend, Nat.mod_self]
  next hend => exact Nat.mod_eq_of_lt (by omega)

theorem Holds.push (hmax : cap ≤ 2 ^ 31) (h : q.Holds cap recent) (e : Event Body Extra) :
    ∃ q', q.push e = some q' ∧ q'.Holds cap (e :: recent) := by
  have htail := h.tail
  obtain ⟨q', hpush, hring, hnext⟩ := exists_push (by rw [h.size]; omega) htail e
  refine ⟨q', hpush, ?_, ?_, fun k hk => ?_⟩
  · rw [hring, List.length_set, h.size]
  · rw [hnext]
    split <;> omega
  · rw [hring, hnext]
    cases k with
    | zero =>
      have hback : back cap (if q.tail.toNat + 1 = cap then 0 else q.tail.toNat + 1) (0 + 1) =
          q.tail.toNat := by
        unfold back
        split_ifs <;> omega
      rw [hback, List.getElem?_set_self (h.size.symm ▸ htail)]
      rfl
    | succ k =>
      have hback : back cap (if q.tail.toNat + 1 = cap then 0 else q.tail.toNat + 1) (k + 1 + 1) =
          back cap q.tail.toNat (k + 1) := by
        unfold back
        split_ifs <;> omega
      have hother : q.tail.toNat ≠ back cap q.tail.toNat (k + 1) := by
        unfold back
        split_ifs <;> omega
      rw [hback, List.getElem?_set_ne hother, h.slot k (by omega)]
      rfl

theorem Holds.collect (hmax : cap ≤ 2 ^ 31) (h : q.Holds cap recent) {rounds steps : Nat}
    (hsum : steps + rounds = cap) :
    collect q.ring rounds (back cap q.tail.toNat steps) =
      some ((recent.drop steps).take rounds) := by
  have htail := h.tail
  induction rounds generalizing steps with
  | zero => simp [Queue.collect]
  | succ rounds ih =>
    have hlt := back_lt htail (show steps ≤ cap by omega)
    have hpos : (if int32 ((back cap q.tail.toNat steps : Int) - 1) < 0 then
        int32 ((q.ring.length : Int) - 1) else int32 ((back cap q.tail.toNat steps : Int) - 1)) =
          (back cap q.tail.toNat (steps + 1) : Int) := by
      rw [h.size, int32_of_lt (by omega) (by omega), int32_of_lt (by omega) (by omega)]
      unfold back at hlt ⊢
      split_ifs <;> omega
    simp only [Queue.collect, hpos, if_neg (Int.not_lt.mpr (Int.natCast_nonneg _)),
      Int.toNat_natCast, h.slot steps (by omega)]
    cases hrecent : recent[steps]? with
    | none => rw [List.drop_eq_nil_of_le (List.getElem?_eq_none_iff.mp hrecent), List.take_nil]
    | some e =>
      obtain ⟨hsteps, rfl⟩ := List.getElem?_eq_some_iff.mp hrecent
      simp only [ih (show steps + 1 + rounds = cap by omega)]
      rw [List.drop_eq_getElem_cons hsteps, List.take_succ_cons, Option.map_some]

theorem Holds.pushAll (hmax : cap ≤ 2 ^ 31) (h : q.Holds cap recent)
    (events : List (Event Body Extra)) :
    ∃ q', events.foldlM Queue.push q = some q' ∧ q'.Holds cap (events.reverse ++ recent) := by
  induction events generalizing q recent with
  | nil => exact ⟨q, rfl, h⟩
  | cons e events ih =>
    obtain ⟨next, hpush, hnext⟩ := h.push hmax e
    obtain ⟨q', hrest, hq'⟩ := ih hnext
    exact ⟨q', by simpa [hpush] using hrest, by simpa using hq'⟩

/-- `Dump` gives the latest events, the newest first, as many as were pushed or fit. -/
def Dumps (cap : Nat) (kitexDumpLazyExtra : Extra → Option Extra)
    (events : List (Event Body Extra)) : Prop :=
  ∃ q, events.foldlM push (newQueue cap) = some q ∧ q.dump kitexDumpLazyExtra =
    some ((events.reverse.take cap).map (Event.dumped kitexDumpLazyExtra))

variable (kitexDumpLazyExtra : Extra → Option Extra)

theorem dumps_of_le (hcap : 1 ≤ cap) (hmax : cap ≤ 2 ^ 31) (events : List (Event Body Extra)) :
    Dumps cap kitexDumpLazyExtra events := by
  obtain ⟨q, hq, h⟩ := (holds_newQueue hcap).pushAll hmax events
  rw [List.append_nil] at h
  have htail := h.tail
  have hstart : int32 q.tail.toNat = (back cap q.tail.toNat 0 : Int) := by
    rw [int32_of_lt (by omega) (by omega)]
    simp [back]
  refine ⟨q, hq, ?_⟩
  rw [dump, h.size, hstart, h.collect hmax (by omega), List.drop_zero, Option.map_some]

/-! ## Rings whose size has more than 31 bits -/

theorem push_newQueue_of_size (hsize : UInt32.ofNat cap = 0) (e : Event Body Extra) :
    (newQueue cap).push e = none := by
  simp [push, newQueue, hsize]

theorem dump_newQueue_of_size (hsize : int32 ((cap : Int) - 1) < 0) (hcap : cap ≠ 0) :
    (newQueue cap : Queue Body Extra).dump kitexDumpLazyExtra = none := by
  obtain ⟨n, rfl⟩ := Nat.exists_eq_succ_of_ne_zero hcap
  have hback : int32 (int32 0 - 1) < 0 := by decide
  simp only [dump, newQueue, List.length_replicate, collect, UInt32.toNat_zero, Int.ofNat_zero,
    if_pos hback, if_pos hsize, Option.map_none]

/-- One event in each of the first slots of a ring that `Push` takes for a shorter one. -/
structure Filled (cap size : Nat) (e : Event Body Extra) (k : Nat) (q : Queue Body Extra) :
    Prop where
  length_eq : q.ring.length = cap
  tail_eq : q.tail.toNat = if k = size then 0 else k
  slot : ∀ i < k, q.ring[i]? = some (some e)

theorem Filled.push {size k : Nat} {e : Event Body Extra} (hsize : cap % 2 ^ 32 = size)
    (hk : k < size) (h : q.Filled cap size e k) :
    ∃ q', q.push e = some q' ∧ q'.Filled cap size e (k + 1) := by
  have htail : q.tail.toNat = k := h.tail_eq.trans (if_neg (Nat.ne_of_lt hk))
  obtain ⟨q', hpush, hring, hnext⟩ := exists_push (h.length_eq ▸ hsize) (htail ▸ hk) e
  rw [htail] at hring hnext
  refine ⟨q', hpush, by rw [hring, List.length_set, h.length_eq], hnext, fun i hi => ?_⟩
  rw [hring, List.getElem?_set, h.length_eq]
  split
  next => exact if_pos (Nat.lt_of_lt_of_le hk (hsize ▸ Nat.mod_le cap _))
  next hne => exact h.slot i (by omega)

theorem exists_filled {size k : Nat} (hsize : cap % 2 ^ 32 = size) (hk : k ≤ size)
    (e : Event Body Extra) :
    ∃ q, (List.replicate k e).foldlM push (newQueue cap) = some q ∧ q.Filled cap size e k := by
  induction k with
  | zero => exact ⟨_, rfl, List.length_replicate, (ite_self 0).symm, nofun⟩
  | succ k ih =>
    obtain ⟨q, hq, h⟩ := ih (by omega)
    obtain ⟨q', hpush, h'⟩ := h.push hsize hk
    exact ⟨q', by simp [List.replicate_succ', hq, hpush], h'⟩

/-- `Dump` goes round in the short ring until it has as many events as the ring has slots. -/
theorem Filled.collect {size : Nat} {e : Event Body Extra}
    (hsize : int32 ((cap : Int) - 1) = size - 1) (hmax : size ≤ 2 ^ 31) (hpositive : 1 ≤ size)
    (h : q.Filled cap size e size) {rounds : Nat} {pos : Int} (hlow : 0 ≤ pos)
    (hhigh : pos ≤ size) :
    collect q.ring rounds pos = some (List.replicate rounds e) := by
  induction rounds generalizing pos with
  | zero => rfl
  | succ rounds ih =>
    have hpos : ∃ next : Nat, next < size ∧ (if int32 (pos - 1) < 0 then
        int32 ((q.ring.length : Int) - 1) else int32 (pos - 1)) = next := by
      rw [h.length_eq, hsize, int32_of_lt (by omega) (by omega)]
      split
      · exact ⟨size - 1, by omega, by omega⟩
      · exact ⟨(pos - 1).toNat, by omega, by omega⟩
    obtain ⟨next, hnext, heq⟩ := hpos
    simp only [Queue.collect, heq, if_neg (Int.not_lt.mpr (Int.natCast_nonneg _)),
      Int.toNat_natCast, h.slot next hnext, ih (Int.natCast_nonneg next) (by omega)]
    rfl

/-- A larger ring makes `Push` or `Dump` panic, or `Dump` repeat events. -/
theorem exists_not_dumps (hmax : 2 ^ 31 < cap) (e : Event Body Extra) :
    ∃ events : List (Event Body Extra), ¬ Dumps cap kitexDumpLazyExtra events := by
  obtain hzero | hlarge | ⟨hpositive, hsmall⟩ : cap % 2 ^ 32 = 0 ∨ 2 ^ 31 < cap % 2 ^ 32 ∨
    1 ≤ cap % 2 ^ 32 ∧ cap % 2 ^ 32 ≤ 2 ^ 31 := by omega
  · have hsize : UInt32.ofNat cap = 0 := UInt32.toNat.inj (by simpa using hzero)
    exact ⟨[e], fun ⟨q, hq, _⟩ => by simp [push_newQueue_of_size hsize] at hq⟩
  · have hsize : int32 ((cap : Int) - 1) < 0 := by
      unfold int32 Int.bmod
      dsimp only
      split <;> omega
    refine ⟨[], fun ⟨q, hq, hdump⟩ => ?_⟩
    cases hq
    rw [dump_newQueue_of_size _ hsize (by omega)] at hdump
    cases hdump
  · obtain ⟨q, hq, h⟩ := exists_filled rfl (le_refl (cap % 2 ^ 32)) e
    have hsize : int32 ((cap : Int) - 1) = (cap % 2 ^ 32 : Nat) - 1 := by
      unfold int32 Int.bmod
      dsimp only
      split <;> omega
    refine ⟨List.replicate (cap % 2 ^ 32) e, fun ⟨q', hq', hdump⟩ => ?_⟩
    cases hq.symm.trans hq'
    rw [dump, h.tail_eq, if_pos rfl, show int32 (0 : Nat) = 0 from rfl,
      h.collect hsize hsmall hpositive (Int.le_refl 0) (Int.natCast_nonneg _), h.length_eq] at hdump
    have hlength := congrArg (Option.map List.length) hdump
    simp at hlength
    omega

/-- `Dump` gives the latest events after all pushes exactly with 1 to `2 ^ 31` slots. -/
theorem dump_pushed (e : Event Body Extra) :
    (∀ events : List (Event Body Extra), Dumps cap kitexDumpLazyExtra events) ↔
      1 ≤ cap ∧ cap ≤ 2 ^ 31 := by
  refine ⟨fun hall => ⟨?_, ?_⟩, fun hcap => dumps_of_le _ hcap.1 hcap.2⟩
  · by_contra hzero
    obtain ⟨q, hq, _⟩ := hall [e]
    rw [show cap = 0 by omega, List.foldlM_cons, push_newQueue_of_size rfl] at hq
    cases hq
  · by_contra hmax
    obtain ⟨events, hevents⟩ := exists_not_dumps kitexDumpLazyExtra (Nat.lt_of_not_le hmax) e
    exact hevents (hall events)

/-- Three events of which a ring of two keeps the last. -/
theorem dump_pushed_two : ∃ q, [(⟨1, 0⟩ : Event Nat Nat), ⟨2, 0⟩, ⟨3, 5⟩].foldlM push (newQueue 2) =
    some q ∧ q.dump (fun extra => if extra = 5 then some 6 else none) = some [⟨3, 6⟩, ⟨2, 0⟩] :=
  (dump_pushed _ ⟨1, 0⟩).mpr (by decide) _

/-- The size of a ring of 2^32 slots is 0 as a `uint32`. -/
theorem push_panics : (newQueue (2 ^ 32) : Queue Nat Nat).push ⟨1, 0⟩ = none :=
  push_newQueue_of_size (by decide) _

end Queue

end Kitex.Events
