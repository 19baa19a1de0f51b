import Kitex.Http2.ControlItems

/-! # Inbound flow control of a stream

The four counters of `inFlow`, in the unsigned arithmetic of the source, and
what its operations do to them as natural numbers as long as the counters stay
in range.
-/

namespace Kitex.Http2

structure InFlow where
  /-- the inbound flow control limit for pending data -/
  limit : UInt32
  /-- received and not yet consumed by the application -/
  pendingData : UInt32
  /-- consumed, with no window update sent yet -/
  pendingUpdate : UInt32
  /-- extra window given for a read larger than the limit -/
  delta : UInt32
  deriving DecidableEq, Repr

/-- The error of `onData`. -/
structure ExceedsLimit where
  rcvd : UInt32
  limit : UInt32
  deriving DecidableEq, Repr

def ExceedsLimit.message (e : ExceedsLimit) : String :=
  "received " ++ toString e.rcvd.toNat ++ "-bytes data exceeding the limit " ++
    toString e.limit.toNat ++ " bytes"

namespace InFlow

def newLimit (f : InFlow) (n : UInt32) : InFlow :=
  { f with limit := n }

def maxInt32 : UInt32 := 2147483647

def maybeAdjust (f : InFlow) (n : UInt32) : InFlow × UInt32 :=
  let n := if n > maxInt32 then maxInt32 else n
  -- both estimates may be negative, hence the signed comparison
  let estSenderQuota := (f.limit - (f.pendingData + f.pendingUpdate)).toInt32
  let estUntransmittedData := (n - f.pendingData).toInt32
  if estUntransmittedData > estSenderQuota then
    let delta := if f.limit + n > maxWindowSize then maxWindowSize - f.limit else n
    ({ f with delta := delta }, delta)
  else (f, 0)

def onData (f : InFlow) (n : UInt32) : InFlow × Except ExceedsLimit Unit :=
  let f := { f with pendingData := f.pendingData + n }
  if f.pendingData + f.pendingUpdate > f.limit + f.delta then
    (f, .error ⟨f.pendingData + f.pendingUpdate, f.limit⟩)
  else (f, .ok ())

def onRead (f : InFlow) (n : UInt32) : InFlow × UInt32 :=
  if f.pendingData = 0 then (f, 0)
  else
    let f := { f with pendingData := f.pendingData - n }
    let (f, n) :=
      if n > f.delta then ({ f with delta := 0 }, n - f.delta)
      else ({ f with delta := f.delta - n }, 0)
    let f := { f with pendingUpdate := f.pendingUpdate + n }
    if f.pendingUpdate ≥ f.limit / 4 then ({ f with pendingUpdate := 0 }, f.pendingUpdate)
    else (f, 0)

/-! ## The operations on natural numbers -/

section Specs

variable {f : InFlow} {n : UInt32}

theorem onData_pendingData : (f.onData n).1 = { f with pendingData := f.pendingData + n } := by
  unfold onData
  simp only
  split <;> rfl

/-- `onData` refuses exactly the data that exceed the limit and the extra window. -/
theorem onData_ok_iff (hsum : f.pendingData.toNat + n.toNat + f.pendingUpdate.toNat < 2 ^ 32)
    (hlimit : f.limit.toNat + f.delta.toNat < 2 ^ 32) : (f.onData n).2 = .ok () ↔
      f.pendingData.toNat + n.toNat + f.pendingUpdate.toNat ≤ f.limit.toNat + f.delta.toNat := by
  unfold onData
  simp only
  split
  next hexceeds =>
    rw [gt_iff_lt, UInt32.lt_iff_toNat_lt] at hexceeds
    simp only [UInt32.toNat_add] at hexceeds
    simp only [reduceCtorEq, false_iff]
    omega
  next hwithin =>
    rw [gt_iff_lt, UInt32.lt_iff_toNat_lt] at hwithin
    simp only [UInt32.toNat_add] at hwithin
    simp only [true_iff]
    omega

/-- The end of `onRead`: the update is sent when it reaches a quarter of the limit. -/
theorem quarter_spec (update limit : UInt32) :
    let sent := if update ≥ limit / 4 then ((0 : UInt32), update) else (update, 0)
    sent.1.toNat + sent.2.toNat = update.toNat ∧
      (0 < limit.toNat / 4 → sent.1.toNat < limit.toNat / 4) := by
  have hquarter : (limit / 4).toNat = limit.toNat / 4 := UInt32.toNat_div limit 4
  split
  next => simp
  next hless =>
    rw [ge_iff_le, UInt32.le_iff_toNat_le, hquarter] at hless
    simp only [UInt32.toNat_zero]
    omega

theorem onRead_eq (hdata : f.pendingData ≠ 0) :
    f.onRead n =
      let update := f.pendingUpdate + (if n > f.delta then n - f.delta else 0)
      let sent := if update ≥ f.limit / 4 then ((0 : UInt32), update) else (update, 0)
      ({ f with
        pendingData := f.pendingData - n
        delta := if n > f.delta then 0 else f.delta - n
        pendingUpdate := sent.1 }, sent.2) := by
  unfold onRead
  rw [if_neg hdata]
  by_cases hmore : n > f.delta
  · simp only [if_pos hmore]
    split <;> rfl
  · simp only [if_neg hmore]
    split <;> rfl

/-- Reading pays back the extra window first; what is left waits for an update
until it reaches a quarter of the limit. -/
theorem onRead_spec (hn : n.toNat ≤ f.pendingData.toNat)
    (hupdate : f.pendingUpdate.toNat + (n.toNat - f.delta.toNat) < 2 ^ 32)
    (hpending : f.pendingUpdate.toNat < f.limit.toNat / 4) : (f.onRead n).1.limit = f.limit ∧
      (f.onRead n).1.pendingData.toNat + n.toNat = f.pendingData.toNat ∧
      (f.onRead n).1.delta.toNat = f.delta.toNat - n.toNat ∧
      (f.onRead n).1.pendingUpdate.toNat + (f.onRead n).2.toNat =
        f.pendingUpdate.toNat + (n.toNat - f.delta.toNat) ∧
      (f.onRead n).1.pendingUpdate.toNat < f.limit.toNat / 4 := by
  by_cases hdata : f.pendingData = 0
  · have hzero : n.toNat = 0 := by simpa [hdata] using hn
    have heq : f.onRead n = (f, 0) := if_pos hdata
    rw [heq]
    exact ⟨rfl, by simp [hzero], by simp [hzero], by simp [hzero], hpending⟩
  · rw [onRead_eq hdata]
    -- what the read leaves after the extra window
    have hleft : (if n > f.delta then n - f.delta else 0).toNat = n.toNat - f.delta.toNat := by
      split
      next hmore => exact UInt32.toNat_sub_of_le _ _ (UInt32.le_of_lt hmore)
      next hless =>
        rw [gt_iff_lt, UInt32.lt_iff_toNat_lt] at hless
        simp only [UInt32.toNat_zero]
        omega
    have hdelta : (if n > f.delta then 0 else f.delta - n).toNat =
        f.delta.toNat - n.toNat := by
      split
      next hmore =>
        rw [gt_iff_lt, UInt32.lt_iff_toNat_lt] at hmore
        simp only [UInt32.toNat_zero]
        omega
      next hless => exact UInt32.toNat_sub_of_le _ _ (UInt32.not_lt.mp hless)
    have hpd : (f.pendingData - n).toNat = f.pendingData.toNat - n.toNat :=
      UInt32.toNat_sub_of_le _ _ (UInt32.le_iff_toNat_le.mpr hn)
    have hsum : (f.pendingUpdate + if n > f.delta then n - f.delta else 0).toNat =
        f.pendingUpdate.toNat + (n.toNat - f.delta.toNat) := by
      rw [UInt32.toNat_add, hleft]
      exact Nat.mod_eq_of_lt hupdate
    obtain ⟨hsent, hless⟩ := quarter_spec
      (f.pendingUpdate + if n > f.delta then n - f.delta else 0) f.limit
    refine ⟨rfl, ?_, hdelta, hsent.trans hsum, hless (by omega)⟩
    simp only
    omega

/-- A request adds at most what it asks for, and no more than keeps the limit
and the extra window together within the largest window. -/
theorem maybeAdjust_spec (hlimit : f.limit.toNat ≤ 2147483647) (hdelta : f.delta = 0) :
    (f.maybeAdjust n).1 = { f with delta := (f.maybeAdjust n).2 } ∧
      (f.maybeAdjust n).2.toNat ≤ n.toNat ∧
      f.limit.toNat + (f.maybeAdjust n).2.toNat ≤ 2147483647 := by
  unfold maybeAdjust
  obtain ⟨asked, hasked, hle, hmax⟩ : ∃ asked, (if n > maxInt32 then maxInt32 else n) = asked ∧
      asked.toNat ≤ n.toNat ∧ asked.toNat ≤ 2147483647 := by
    split
    next hlarge =>
      exact ⟨_, rfl, UInt32.le_iff_toNat_le.mp (UInt32.le_of_lt hlarge), by decide⟩
    next hsmall =>
      exact ⟨_, rfl, le_rfl, UInt32.le_iff_toNat_le.mp (UInt32.not_lt.mp hsmall)⟩
  simp only [hasked]
  split
  next =>
    have hsum : (f.limit + asked).toNat = f.limit.toNat + asked.toNat := by
      rw [UInt32.toNat_add]
      omega
    have hwindow : maxWindowSize.toNat = 2147483647 := rfl
    split
    next hexceeds =>
      have hroom : (maxWindowSize - f.limit).toNat = 2147483647 - f.limit.toNat :=
        UInt32.toNat_sub_of_le _ _ (UInt32.le_iff_toNat_le.mpr hlimit)
      rw [gt_iff_lt, UInt32.lt_iff_toNat_lt, hsum, hwindow] at hexceeds
      refine ⟨rfl, ?_, ?_⟩ <;> simp only [hroom] <;> omega
    next hfits =>
      rw [gt_iff_lt, UInt32.lt_iff_toNat_lt, hsum, hwindow] at hfits
      refine ⟨rfl, hle, ?_⟩
      simp only
      omega
  next =>
    refine ⟨by rw [← hdelta], by simp, by simpa using hlimit⟩

end Specs

end InFlow

end Kitex.Http2
