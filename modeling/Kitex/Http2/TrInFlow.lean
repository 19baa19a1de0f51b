import Kitex.Grpcframe.FrameParser
import Kitex.Machine.Run
import Kitex.Thrift.Binary

/-! # Inbound flow control of the connection

`trInFlow` decides which increments of the connection's window are announced to the peer. The peer
counts its window down by the data that it sends and up by the increments. The increments go
through `WriteWindowUpdate`, which refuses those that HTTP/2 does not allow.
-/

namespace Kitex.Http2

open Kitex.Machine

structure TrInFlow where
  limit : UInt32
  /-- received and not yet announced -/
  unacked : UInt32 := 0
  effectiveWindowSize : UInt32 := 0
  deriving DecidableEq, Repr

namespace TrInFlow

def updateEffectiveWindowSize (f : TrInFlow) : TrInFlow :=
  { f with effectiveWindowSize := f.limit - f.unacked }

/-- The new state, with the increment of the window. -/
def newLimit (f : TrInFlow) (n : UInt32) : TrInFlow × UInt32 :=
  (updateEffectiveWindowSize { f with limit := n }, n - f.limit)

def onData (f : TrInFlow) (n : UInt32) : TrInFlow × UInt32 :=
  let f := { f with unacked := f.unacked + n }
  if f.unacked ≥ f.limit / 4 then (updateEffectiveWindowSize { f with unacked := 0 }, f.unacked)
  else (updateEffectiveWindowSize f, 0)

def reset (f : TrInFlow) : TrInFlow × UInt32 :=
  (updateEffectiveWindowSize { f with unacked := 0 }, f.unacked)

end TrInFlow

/-! ## Arguments -/

/-- `size` of `handleData`, the length of a DATA frame. -/
def DataSize := { n : UInt32 // n.toNat < 2 ^ 24 }

/-- A length has three bytes on the wire. -/
theorem frameHeader_length_lt (buf : Bytes) :
    (Grpcframe.frameHeader buf).length.toNat < 2 ^ 24 := by
  have hlt : bigEndian (buf.take 3) < 256 ^ (buf.take 3).length :=
    Thrift.Binary.fromBigEndian_lt (buf.take 3)
  have hle : 256 ^ (buf.take 3).length ≤ 256 ^ 3 :=
    Nat.pow_le_pow_right (by omega) (List.length_take_le 3 buf)
  simp only [Grpcframe.frameHeader, UInt32.toNat_ofNat']
  omega

/-- `f.Header().Length`. -/
def DataSize.ofHeader (buf : Bytes) : DataSize :=
  ⟨(Grpcframe.frameHeader buf).length, frameHeader_length_lt buf⟩

/-- `16 MB`, the largest estimate. -/
def bdpLimit : UInt32 := ((1 : UInt32) <<< (20 : UInt32)) * 16

/-- The end of `bdpEstimator.calculate`: what an estimate becomes before it is a limit. -/
def capBdp (bdp : UInt32) : UInt32 := if bdp > bdpLimit then bdpLimit else bdp

/-- `Framer.WriteWindowUpdate`, up to the bytes that are written. -/
def writeWindowUpdate (streamID incr : UInt32) : Except String Bytes :=
  if incr < 1 ∨ incr > 2147483647 then .error "illegal window increment value"
  else .ok ([0, 0, 4, 8, 0] ++ Thrift.Binary.bigEndian 4 streamID.toNat ++
    Thrift.Binary.bigEndian 4 incr.toNat)

/-! ## Sequences of calls -/

inductive TrInFlow.Call where
  /-- `handleData` -/
  | onData (size : DataSize)
  /-- `handleData` before a BDP ping -/
  | reset
  /-- `updateFlowControl`, with an estimate -/
  | newLimit (bdp : UInt32)

/-- The two ends of a connection. -/
structure ConnWindow where
  flow : TrInFlow
  /-- what the peer may send, by the announcements so far -/
  peer : Int
  /-- the increments given to the framer -/
  handed : List UInt32 := []

namespace ConnWindow

/-- The connection after `trInFlow` is made. -/
def start (limit : UInt32) : ConnWindow where
  flow := { limit }
  peer := limit.toNat

/-- An increment is given to the framer, and the peer learns of it. -/
def announce (c : ConnWindow) (w : UInt32) : ConnWindow :=
  { c with peer := c.peer + w.toNat, handed := c.handed ++ [w] }

/-- `handleData` announces an increment if there is one. -/
def announceIfPositive (c : ConnWindow) (w : UInt32) : ConnWindow :=
  if w > 0 then c.announce w else c

/-- One call. A limit may only be increased. -/
def step (c : ConnWindow) : TrInFlow.Call → Option ConnWindow
  | .onData size =>
    let (flow, w) := c.flow.onData size.1
    some ({ c with flow, peer := c.peer - size.1.toNat }.announceIfPositive w)
  | .reset =>
    let (flow, w) := c.flow.reset
    some ({ c with flow }.announceIfPositive w)
  | .newLimit bdp =>
    let (flow, w) := c.flow.newLimit (capBdp bdp)
    if c.flow.limit < capBdp bdp then some ({ c with flow }.announce w) else none

/-- What the announcements leave of the peer's window, and how far they are behind. -/
structure Balanced (c : ConnWindow) : Prop where
  peer : c.peer = (c.flow.limit.toNat : Int) - c.flow.unacked.toNat
  unacked : c.flow.unacked.toNat ≤ c.flow.limit.toNat / 4
  handed : ∀ w ∈ c.handed, 1 ≤ w.toNat ∧ w.toNat ≤ 2 ^ 31 - 1

def Published (c : ConnWindow) : Prop :=
  c.flow.effectiveWindowSize = c.flow.limit - c.flow.unacked

section Announce

variable {c : ConnWindow} {w : UInt32}

@[simp]
theorem announce_flow : (c.announce w).flow = c.flow := rfl

@[simp]
theorem announceIfPositive_flow : (c.announceIfPositive w).flow = c.flow := by
  unfold announceIfPositive
  split <;> rfl

variable (hpeer : c.peer + w.toNat = c.flow.limit.toNat - c.flow.unacked.toNat)
include hpeer

/-- An increment brings the peer's window up to date. -/
theorem Balanced.announce (hunacked : c.flow.unacked.toNat ≤ c.flow.limit.toNat / 4)
    (hhanded : ∀ w ∈ c.handed, 1 ≤ w.toNat ∧ w.toNat ≤ 2 ^ 31 - 1)
    (hpos : 1 ≤ w.toNat) (hle : w.toNat ≤ 2 ^ 31 - 1) : (c.announce w).Balanced := by
  refine ⟨hpeer, hunacked, fun w' hw' => ?_⟩
  rcases List.mem_append.mp hw' with hbefore | hlast
  · exact hhanded w' hbefore
  · obtain rfl := List.mem_singleton.mp hlast
    exact ⟨hpos, hle⟩

theorem Balanced.announceIfPositive (hunacked : c.flow.unacked.toNat ≤ c.flow.limit.toNat / 4)
    (hhanded : ∀ w ∈ c.handed, 1 ≤ w.toNat ∧ w.toNat ≤ 2 ^ 31 - 1)
    (hle : w.toNat ≤ 2 ^ 31 - 1) : (c.announceIfPositive w).Balanced := by
  unfold ConnWindow.announceIfPositive
  split
  next hpos =>
    exact .announce hpeer hunacked hhanded hpos hle
  next hzero =>
    rw [gt_iff_lt, UInt32.lt_iff_toNat_lt, UInt32.toNat_zero] at hzero
    exact ⟨by rw [← hpeer]; omega, hunacked, hhanded⟩

end Announce

theorem start_balanced (limit : UInt32) : (start limit).Balanced :=
  ⟨by simp [start], by simp [start], by simp [start]⟩

variable {c c' : ConnWindow}

open TrInFlow

theorem onData_balanced (h : c.Balanced) (size : DataSize)
    (hstep : c.step (.onData size) = some c') : c'.Balanced ∧ c'.Published := by
  obtain ⟨size, hsize⟩ := size
  obtain ⟨hpeer, hunacked, hhanded⟩ := h
  have hlimit := c.flow.limit.toNat_lt
  have hquarter : (c.flow.limit / 4).toNat = c.flow.limit.toNat / 4 :=
    UInt32.toNat_div c.flow.limit 4
  -- a quarter of the limit and a frame do not overflow
  have hsum : (c.flow.unacked + size).toNat = c.flow.unacked.toNat + size.toNat := by
    rw [UInt32.toNat_add]
    omega
  simp only [step, onData] at hstep
  split at hstep
  next hreached =>
    cases hstep
    refine ⟨.announceIfPositive ?_ ?_ hhanded (by dsimp only; omega), ?_⟩
    · simp only [updateEffectiveWindowSize, UInt32.toNat_zero]
      omega
    · simp [updateEffectiveWindowSize]
    · simp [Published, updateEffectiveWindowSize]
  next hbelow =>
    rw [ge_iff_le, UInt32.le_iff_toNat_le, hquarter] at hbelow
    cases hstep
    refine ⟨.announceIfPositive ?_ ?_ hhanded (by simp), ?_⟩
    · simp only [updateEffectiveWindowSize, UInt32.toNat_zero]
      omega
    · simp only [updateEffectiveWindowSize]
      omega
    · simp [Published, updateEffectiveWindowSize]

theorem reset_balanced (h : c.Balanced) (hstep : c.step .reset = some c') :
    c'.Balanced ∧ c'.Published := by
  obtain ⟨hpeer, hunacked, hhanded⟩ := h
  have hlimit := c.flow.limit.toNat_lt
  cases hstep
  refine ⟨.announceIfPositive ?_ ?_ hhanded (by omega), ?_⟩
  · simp only [updateEffectiveWindowSize, UInt32.toNat_zero]
    omega
  · simp [updateEffectiveWindowSize]
  · simp [Published, updateEffectiveWindowSize]

theorem capBdp_le (bdp : UInt32) : (capBdp bdp).toNat ≤ 16 * 2 ^ 20 := by
  unfold capBdp
  split
  next => decide
  next hle =>
    exact Nat.not_lt.mp hle

theorem newLimit_balanced (h : c.Balanced) (bdp : UInt32)
    (hstep : c.step (.newLimit bdp) = some c') : c'.Balanced ∧ c'.Published := by
  obtain ⟨hpeer, hunacked, hhanded⟩ := h
  have hcap := capBdp_le bdp
  simp only [step, newLimit] at hstep
  split at hstep
  next hincreases =>
    have hdelta : (capBdp bdp - c.flow.limit).toNat = (capBdp bdp).toNat - c.flow.limit.toNat :=
      UInt32.toNat_sub_of_le _ _ (UInt32.le_of_lt hincreases)
    rw [UInt32.lt_iff_toNat_lt] at hincreases
    cases hstep
    refine ⟨.announce ?_ ?_ hhanded (by omega) (by omega), ?_⟩
    · simp only [updateEffectiveWindowSize]
      omega
    · simp only [updateEffectiveWindowSize]
      omega
    · simp [Published, updateEffectiveWindowSize]
  next => cases hstep

theorem step_balanced (h : c.Balanced) {call : TrInFlow.Call} (hstep : c.step call = some c') :
    c'.Balanced ∧ c'.Published := by
  cases call with
  | onData size => exact onData_balanced h size hstep
  | reset => exact reset_balanced h hstep
  | newLimit bdp => exact newLimit_balanced h bdp hstep

/-- After every sequence of calls. Nothing is published before the first of them. -/
theorem run_balanced {limit : UInt32} {calls : List TrInFlow.Call} {c : ConnWindow}
    (hrun : run step (start limit) calls = some c) : c.Balanced ∧ (calls ≠ [] → c.Published) := by
  refine run_invariant (fun past c => c.Balanced ∧ (past ≠ [] → c.Published))
    ⟨start_balanced limit, fun h => absurd rfl h⟩ ?_ hrun
  intro past c call c' _ ⟨hbalanced, _⟩ hstep
  obtain ⟨hbalanced', hpublished⟩ := step_balanced hbalanced hstep
  exact ⟨hbalanced', fun _ => hpublished⟩

theorem writeWindowUpdate_ok {w : UInt32} (hpos : 1 ≤ w.toNat) (hle : w.toNat ≤ 2 ^ 31 - 1)
    (streamID : UInt32) : ∃ bytes, writeWindowUpdate streamID w = .ok bytes := by
  unfold writeWindowUpdate
  rw [if_neg]
  · exact ⟨_, rfl⟩
  · rw [gt_iff_lt, UInt32.lt_iff_toNat_lt, UInt32.lt_iff_toNat_lt]
    simp
    omega

/-- The peer's window, after the increments announced so far, is the limit less what is not
announced. This is the effective window size that each call publishes, and the framer takes every
increment. -/
theorem peer_eq_effectiveWindowSize {limit : UInt32} {calls : List TrInFlow.Call}
    {c : ConnWindow} (hrun : run step (start limit) calls = some c) :
    c.peer = (c.flow.limit.toNat : Int) - c.flow.unacked.toNat ∧
      (calls ≠ [] → (c.flow.effectiveWindowSize.toNat : Int) = c.peer) ∧
      ∀ w ∈ c.handed, (1 ≤ w.toNat ∧ w.toNat ≤ 2 ^ 31 - 1) ∧
        ∃ bytes, writeWindowUpdate 0 w = .ok bytes := by
  obtain ⟨⟨hpeer, hunacked, hhanded⟩, hpublished⟩ := run_balanced hrun
  refine ⟨hpeer, fun hcalls => ?_, fun w hw => ⟨hhanded w hw, ?_⟩⟩
  · have hle : c.flow.unacked ≤ c.flow.limit := by
      rw [UInt32.le_iff_toNat_le]
      omega
    rw [hpublished hcalls, UInt32.toNat_sub_of_le _ _ hle, hpeer]
    omega
  · exact writeWindowUpdate_ok (hhanded w hw).1 (hhanded w hw).2 0

/-- The headers of three DATA frames of 20000, 100 and 7 bytes. The first is announced at once, the
second with the ping, and the third is not announced yet when the limit grows. -/
def dataThenPing : List TrInFlow.Call :=
  [.onData (.ofHeader [0, 0x4e, 0x20, 0, 0, 0, 0, 0, 1]),
    .onData (.ofHeader [0, 0, 100, 0, 0, 0, 0, 0, 1]), .reset,
    .onData (.ofHeader [0, 0, 7, 0, 0, 0, 0, 0, 1]), .newLimit 200000]

theorem peer_eq_effectiveWindowSize_dataThenPing :
    ∃ c, run step (start 65535) dataThenPing = some c ∧
      c.handed = [20000, 100, 134465] ∧ c.peer = 199993 ∧
      c.flow.effectiveWindowSize.toNat = c.peer ∧
      ∀ w ∈ c.handed, ∃ bytes, writeWindowUpdate 0 w = .ok bytes := by
  obtain ⟨c, hrun, hhanded, hpeer⟩ : ∃ c, run step (start 65535) dataThenPing = some c ∧
      c.handed = [20000, 100, 134465] ∧ c.peer = 199993 :=
    ⟨_, rfl, by decide +kernel, by decide +kernel⟩
  obtain ⟨-, heffective, hwrites⟩ := peer_eq_effectiveWindowSize hrun
  exact ⟨c, hrun, hhanded, hpeer, heffective (by simp [dataThenPing]),
    fun w hw => (hwrites w hw).2⟩

end ConnWindow

end Kitex.Http2
