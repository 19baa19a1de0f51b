import Mathlib.Algebra.Ring.Int.Defs
import Kitex.Http2.ControlItems
import Kitex.Machine.Run

/-! # Write quota of a stream

`writeQuota` of `flowcontrol.go`. The writer of a stream takes quota by `get` before it schedules
data, and the loopy writer gives it back by `replenish` as it writes them. The two run at the same
time: an event is one access to what they share, the counter and the channel with one place for a
token.
-/

namespace Kitex.Http2

open Kitex.Machine

/-- A number of bytes that an `int32` holds. -/
def Bytes32 := { n : Nat // n < 2 ^ 31 }

namespace WriteQuota

/-- Where the writer is in `get`. -/
inductive Writer where
  | idle
  /-- before the quota is loaded -/
  | loading (sz : Bytes32)
  /-- there was quota, and `sz` is about to be taken from it -/
  | taking (sz : Bytes32)
  /-- blocked in the `select` -/
  | blocked (sz : Bytes32)

/-- Where the loopy writer is in `realReplenish`. -/
inductive Loopy where
  | idle
  /-- before `n` is added to the quota -/
  | adding (n : Nat)
  /-- the quota has become positive, and the token is about to be sent -/
  | sending

end WriteQuota

structure WriteQuota where
  quota : Int32
  /-- a token is in `ch` -/
  ch : Bool := false
  /-- `done` is closed -/
  done : Bool := false
  writer : WriteQuota.Writer := .idle
  loopy : WriteQuota.Loopy := .idle
  /-- the bytes that `get` has granted -/
  granted : Nat := 0
  replenished : Nat := 0

def newWriteQuota (sz : Int32) : WriteQuota := { quota := sz }

namespace WriteQuota

inductive Event where
  /-- the writer calls `get` -/
  | get (sz : Bytes32)
  /-- the writer loads the quota -/
  | load
  /-- the writer takes its bytes and returns from `get` -/
  | take
  /-- the writer receives the token -/
  | receive
  /-- the writer returns `errStreamDone` -/
  | returnDone
  /-- the loopy writer calls `replenish` -/
  | replenish (n : Nat)
  /-- the loopy writer adds to the quota -/
  | add
  /-- the loopy writer sends the token, unless there is one in the channel -/
  | send
  /-- the stream is closed -/
  | close

/-- One event. The loopy writer gives back, in `processData`, the size of a frame of granted
bytes. -/
def step (w : WriteQuota) : Event → Option WriteQuota
  | .get sz =>
    match w.writer with
    | .idle => some { w with writer := .loading sz }
    | _ => none
  | .load =>
    match w.writer with
    | .loading sz =>
      if w.quota > 0 then some { w with writer := .taking sz }
      else some { w with writer := .blocked sz }
    | _ => none
  | .take =>
    match w.writer with
    | .taking sz =>
      some { w with
        quota := w.quota + -Int32.ofNat sz.1, writer := .idle, granted := w.granted + sz.1 }
    | _ => none
  | .receive =>
    match w.writer with
    | .blocked sz => if w.ch then some { w with ch := false, writer := .loading sz } else none
    | _ => none
  | .returnDone =>
    match w.writer with
    | .blocked _ => if w.done then some { w with writer := .idle } else none
    | _ => none
  | .replenish n =>
    match w.loopy with
    | .idle =>
      if n ≤ http2MaxFrameLen ∧ w.replenished + n ≤ w.granted then
        some { w with loopy := .adding n }
      else none
    | _ => none
  | .add =>
    match w.loopy with
    | .adding n =>
      let a := w.quota + Int32.ofNat n
      let b := a - Int32.ofNat n
      some { w with
        quota := a, replenished := w.replenished + n
        loopy := if b ≤ 0 ∧ a > 0 then .sending else .idle }
    | _ => none
  | .send =>
    match w.loopy with
    | .sending => some { w with ch := true, loopy := .idle }
    | _ => none
  | .close => some { w with done := true }

/-! ## Arithmetic without overflow -/

section Arithmetic

variable {quota : Int32} {n : Nat}

theorem toInt_add_ofNat (hn : n < 2 ^ 31) (hsum : quota.toInt + n < 2 ^ 31) :
    (quota + Int32.ofNat n).toInt = quota.toInt + n := by
  have hlow := quota.le_toInt
  rw [Int32.toInt_add, Int32.toInt_ofNat_of_lt hn, Int.bmod_eq_of_le] <;> omega

/-- What a positive quota gives away may leave it negative. -/
theorem toInt_add_neg_ofNat (hn : n < 2 ^ 31) (hpos : 0 < quota.toInt) :
    (quota + -Int32.ofNat n).toInt = quota.toInt - n := by
  have hhigh := quota.toInt_lt
  have hneg : (-Int32.ofNat n).toInt = -(n : Int) := by
    rw [Int32.toInt_neg, Int32.toInt_ofNat_of_lt hn, Int.bmod_eq_of_le] <;> omega
  rw [Int32.toInt_add, hneg, Int.bmod_eq_of_le] <;> omega

end Arithmetic

/-! ## Every interleaving -/

/-- The bytes that the loopy writer is about to give back. -/
def Loopy.pending : Loopy → Nat
  | .adding n => n
  | _ => 0

/-- Only the writer takes from the quota. So a quota that it has found positive stays so until it
takes its bytes, and one that it has found used up gets positive by a step of the loopy writer,
which then sends the token. -/
structure Inv (initial : Int32) (w : WriteQuota) : Prop where
  quota : w.quota.toInt = initial.toInt - w.granted + w.replenished
  outstanding : w.replenished + w.loopy.pending ≤ w.granted
  pending : w.loopy.pending ≤ http2MaxFrameLen
  taking : ∀ sz, w.writer = .taking sz → 0 < w.quota.toInt
  blocked : ∀ sz, w.writer = .blocked sz →
    w.quota.toInt ≤ 0 ∨ w.ch = true ∨ w.loopy = .sending

theorem new_inv (initial : Int32) : (newWriteQuota initial).Inv initial where
  quota := by simp [newWriteQuota]
  outstanding := by simp [newWriteQuota, Loopy.pending]
  pending := by simp [newWriteQuota, Loopy.pending]
  taking sz h := by cases h
  blocked sz h := by cases h

variable {initial : Int32} {w w' : WriteQuota}

theorem pos_iff {quota : Int32} : quota > 0 ↔ 0 < quota.toInt := by
  rw [gt_iff_lt, Int32.lt_iff_toInt_lt, Int32.toInt_zero]

section

variable (h : w.Inv initial)
include h

/-- A writer that neither takes bytes nor is blocked needs no token. -/
theorem Inv.withWriter (ch : Bool) {writer : Writer}
    (htaking : ∀ sz, writer ≠ .taking sz) (hblocked : ∀ sz, writer ≠ .blocked sz) :
    Inv initial { w with ch, writer } :=
  { h with
    taking := fun sz hwriter => absurd hwriter (htaking sz)
    blocked := fun sz hwriter => absurd hwriter (hblocked sz) }

theorem Inv.load (hstep : w.step .load = some w') : w'.Inv initial := by
  simp only [step] at hstep
  split at hstep
  case h_2 => cases hstep
  case h_1 sz hwriter =>
  split at hstep
  next hpos =>
    cases hstep
    exact { h with
      taking := fun _ _ => pos_iff.mp hpos
      blocked := nofun }
  next hneg =>
    cases hstep
    exact { h with
      taking := nofun
      blocked := fun _ _ => .inl (Int.not_lt.mp (mt pos_iff.mpr hneg)) }

theorem Inv.take (hstep : w.step .take = some w') : w'.Inv initial := by
  simp only [step] at hstep
  split at hstep
  case h_2 => cases hstep
  case h_1 sz hwriter =>
  cases hstep
  refine ⟨?_, ?_, h.pending, nofun, nofun⟩
  · dsimp only
    rw [toInt_add_neg_ofNat sz.2 (h.taking sz hwriter), h.quota]
    omega
  · have := h.outstanding
    dsimp only
    omega

theorem Inv.add (hstep : w.step .add = some w') : w'.Inv initial := by
  simp only [step] at hstep
  split at hstep
  case h_2 => cases hstep
  case h_1 n hloopy =>
  cases hstep
  have hle : w.replenished + n ≤ w.granted := by simpa [hloopy, Loopy.pending] using h.outstanding
  have hsmall : n ≤ http2MaxFrameLen := by simpa [hloopy, Loopy.pending] using h.pending
  have hquota := h.quota
  have hhigh := initial.toInt_lt
  have hsum : (w.quota + Int32.ofNat n).toInt = w.quota.toInt + n :=
    toInt_add_ofNat (by unfold http2MaxFrameLen at hsmall; omega) (by omega)
  rw [Int32.add_sub_cancel]
  have hpending : (if w.quota ≤ 0 ∧ w.quota + Int32.ofNat n > 0 then Loopy.sending
      else .idle).pending = 0 := by
    split <;> rfl
  refine ⟨?_, ?_, ?_, fun sz hwriter => ?_, fun sz hwriter => ?_⟩
  · dsimp only
    omega
  · dsimp only
    omega
  · dsimp only
    omega
  · have := h.taking sz hwriter
    dsimp only
    omega
  · rw [hsum]
    rcases h.blocked sz hwriter with hused | htoken | hsending
    · -- the step that makes the quota positive goes on to send the token
      by_cases hpos : 0 < w.quota.toInt + n
      · refine .inr (.inr (if_pos ⟨?_, ?_⟩))
        · rw [Int32.le_iff_toInt_le, Int32.toInt_zero]
          exact hused
        · rw [pos_iff, hsum]
          exact hpos
      · exact .inl (Int.not_lt.mp hpos)
    · exact .inr (.inl htoken)
    · rw [hloopy] at hsending
      cases hsending

theorem Inv.step {event : Event} (hstep : w.step event = some w') : w'.Inv initial := by
  cases event with
  | load => exact h.load hstep
  | take => exact h.take hstep
  | add => exact h.add hstep
  | get sz =>
    simp only [WriteQuota.step] at hstep
    split at hstep <;> cases hstep
    exact h.withWriter w.ch nofun nofun
  | receive =>
    simp only [WriteQuota.step] at hstep
    split at hstep
    · split at hstep <;> cases hstep
      exact h.withWriter false nofun nofun
    · cases hstep
  | returnDone =>
    simp only [WriteQuota.step] at hstep
    split at hstep
    · split at hstep <;> cases hstep
      exact h.withWriter w.ch nofun nofun
    · cases hstep
  | replenish n =>
    simp only [WriteQuota.step] at hstep
    split at hstep
    case h_2 => cases hstep
    case h_1 hidle =>
    split at hstep <;> cases hstep
    next hbytes =>
    refine { h with outstanding := hbytes.2, pending := hbytes.1, blocked := fun sz hwriter => ?_ }
    rcases h.blocked sz hwriter with hused | htoken | hsending
    · exact .inl hused
    · exact .inr (.inl htoken)
    · rw [hidle] at hsending
      cases hsending
  | send =>
    simp only [WriteQuota.step] at hstep
    split at hstep
    case h_2 => cases hstep
    case h_1 hsending =>
    cases hstep
    have houtstanding := h.outstanding
    rw [hsending] at houtstanding
    exact { h with
      outstanding := houtstanding
      pending := Nat.zero_le _
      blocked := fun _ _ => .inr (.inl rfl) }
  | close =>
    cases hstep
    exact { h with }

end

/-- In every interleaving the quota is what it was at first less the bytes granted and not given
back, and a writer that is blocked while there is quota has its token, in the channel or from the
loopy writer that is about to send it. -/
theorem quota_eq_and_blocked_woken {events : List Event}
    (hrun : run WriteQuota.step (newWriteQuota initial) events = some w) :
    w.replenished ≤ w.granted ∧
      w.quota.toInt = initial.toInt - (w.granted - w.replenished : Nat) ∧
      ∀ sz, w.writer = .blocked sz → w.quota > 0 → w.ch = true ∨ w.loopy = .sending := by
  have hinv : w.Inv initial :=
    run_invariant (fun _ w => w.Inv initial) (new_inv initial)
      (fun _ _ _ _ _ hinv hstep => hinv.step hstep) hrun
  have hle : w.replenished ≤ w.granted := Nat.le_of_add_right_le hinv.outstanding
  refine ⟨hle, ?_, fun sz hwriter hpos => ?_⟩
  · rw [hinv.quota]
    omega
  · rcases hinv.blocked sz hwriter with hused | hwoken
    · have := pos_iff.mp hpos
      omega
    · exact hwoken

/-- A message of 70000 bytes uses up the quota, the next call is blocked, and a frame of the first
one makes the quota positive again. -/
def overdrawn : List Event :=
  [.get ⟨70000, by decide⟩, .load, .take, .get ⟨10, by decide⟩, .load, .replenish 10000, .add]

theorem quota_eq_and_blocked_woken_overdrawn :
    ∃ w, run WriteQuota.step (newWriteQuota 65536) overdrawn = some w ∧
      w.quota.toInt = 65536 - (w.granted - w.replenished : Nat) ∧ w.quota.toInt = 5536 ∧
      (w.ch = true ∨ w.loopy = .sending) := by
  obtain ⟨w, hrun, hwriter, hquota⟩ : ∃ w, run WriteQuota.step (newWriteQuota 65536) overdrawn =
      some w ∧ w.writer = .blocked ⟨10, by decide⟩ ∧ w.quota = 5536 :=
    ⟨_, rfl, rfl, by decide +kernel⟩
  obtain ⟨-, heq, hwoken⟩ := quota_eq_and_blocked_woken hrun
  exact ⟨w, hrun, heq, by rw [hquota]; rfl, hwoken _ hwriter (by rw [hquota]; decide)⟩

end WriteQuota

end Kitex.Http2
