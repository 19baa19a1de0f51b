import Mathlib.Algebra.BigOperators.Group.List.Basic
import Kitex.Http2.InFlow
import Kitex.Machine.Run

/-! # A stream's receiver and its peer

The receiver of a stream is three parties on one `inFlow`: the transport's
reader, which takes DATA frames and the padding in them, the application, which
asks for bytes and reads them, and the estimator, which raises the limit. What
they return goes to the peer as window updates that may arrive late and out of
order. A frame counts against the peer's window when it arrives.
-/

namespace Kitex.Http2

/-- A DATA frame as `handleData` sees it. The reader of frames refuses longer
ones, and only a padded frame holds more than its data. -/
structure Arrival where
  size : UInt32
  dataLen : UInt32
  padded : Bool
  size_le : size.toNat ≤ http2MaxFrameLen
  dataLen_le : dataLen.toNat ≤ size.toNat
  unpadded : padded = false → dataLen = size

structure Inbound where
  fc : InFlow
  /-- closed by a flow control error -/
  closed : Bool
  /-- the frame that the reader has passed to `onData` and not dispatched yet -/
  handling : Option Arrival
  /-- bytes in the stream's buffer -/
  unread : Nat
  /-- bytes that the current call of `Stream.Read` still wants -/
  outstanding : Nat
  /-- the window the peer has been told, less what has arrived -/
  told : Int
  /-- increments on their way to the peer -/
  updates : List UInt32
  /-- bytes of the frame that exceeded the window -/
  lost : Nat

/-- The stream's window as agreed at its start: the limit, at least the default
and at most the largest window, and the part of it that the peer has not been
told yet. -/
structure Opening where
  limit : UInt32
  late : List UInt32
  limit_ge : defaultWindowSize.toNat ≤ limit.toNat
  limit_le : limit.toNat ≤ maxWindowSize.toNat
  late_le : (late.map UInt32.toNat).sum ≤ limit.toNat

inductive InboundEvent where
  | data (arrival : Arrival)
  | dispatch
  | request (n : Nat)
  | read (k : Nat)
  | newLimit (n : UInt32)
  | deliver (increment : UInt32)

namespace Inbound

/-- The increments on their way. -/
def onTheWay (s : Inbound) : Nat :=
  (s.updates.map UInt32.toNat).sum

/-- The window that the peer holds once it has seen all updates. -/
def window (s : Inbound) : Int :=
  s.told + s.onTheWay

/-- Bytes of the frame that is being handled. -/
def inHand (s : Inbound) : Nat :=
  match s.handling with
  | some arrival => arrival.size.toNat
  | none => 0

def start (opening : Opening) : Inbound where
  fc := ⟨opening.limit, 0, 0, 0⟩
  closed := false
  handling := none
  unread := 0
  outstanding := 0
  told := opening.limit.toNat - (opening.late.map UInt32.toNat).sum
  updates := opening.late
  lost := 0

/-- `controlBuf.put` of a window update, unless the increment is zero. -/
def send (s : Inbound) (increment : UInt32) : Inbound :=
  if increment > 0 then { s with updates := s.updates ++ [increment] } else s

/-- The first part of `handleData`. -/
def handleData (s : Inbound) (arrival : Arrival) : Inbound :=
  if arrival.size > 0 then
    let s := { s with told := s.told - arrival.size.toNat }
    match s.fc.onData arrival.size with
    | (fc, .error _) => { s with fc := fc, closed := true, lost := arrival.size.toNat }
    | (fc, .ok ()) => { s with fc := fc, handling := some arrival }
  else s

/-- The rest of `handleData`: padding counts as read, data go to the buffer. -/
def dispatch (s : Inbound) (arrival : Arrival) : Inbound :=
  let (fc, increment) :=
    if arrival.padded then s.fc.onRead (arrival.size - arrival.dataLen) else (s.fc, 0)
  { s with
    fc := fc
    handling := none
    unread := s.unread + arrival.dataLen.toNat }.send increment

/-- `Stream.Read` asks for the bytes it wants to read. -/
def requestRead (s : Inbound) (n : Nat) : Inbound :=
  let (fc, increment) := s.fc.maybeAdjust (UInt32.ofNat n)
  { s with fc := fc, outstanding := n }.send increment

/-- `transportReader.Read` has got `k` bytes. -/
def updateWindow (s : Inbound) (k : Nat) : Inbound :=
  let (fc, increment) := s.fc.onRead (UInt32.ofNat k)
  { s with
    fc := fc
    unread := s.unread - k
    outstanding := s.outstanding - k }.send increment

/-- The peer learns of a larger limit by a SETTINGS frame. -/
def updateFlowControl (s : Inbound) (n : UInt32) : Inbound :=
  { s with fc := s.fc.newLimit n, updates := s.updates ++ [n - s.fc.limit] }

/-- A frame arrives only at an open stream and when the reader is done with the
one before; a read is requested only when the last one has got all its bytes;
limits only grow. -/
def step (s : Inbound) : InboundEvent → Option Inbound
  | .data arrival =>
    if s.closed = false ∧ s.handling.isNone then some (s.handleData arrival) else none
  | .dispatch => s.handling.map s.dispatch
  | .request n => if s.outstanding = 0 then some (s.requestRead n) else none
  | .read k => if k ≤ s.unread ∧ k ≤ s.outstanding then some (s.updateWindow k) else none
  | .newLimit n =>
    if s.closed = false ∧ s.fc.limit < n ∧ n ≤ maxWindowSize then
      some (s.updateFlowControl n)
    else none
  | .deliver increment =>
    if increment ∈ s.updates then
      some { s with
        told := s.told + increment.toNat
        updates := s.updates.erase increment }
    else none

/-! ## The balance of the window -/

/-- The counters are in range and agree with the buffer, the requests and the
window that the peer will hold. -/
structure Counted (s : Inbound) (window : Int) : Prop where
  limit_ge : 65535 ≤ s.fc.limit.toNat
  limit_le : s.fc.limit.toNat ≤ 2147483647
  delta_outstanding : s.fc.delta.toNat ≤ s.outstanding
  delta_le : s.fc.delta.toNat + 65535 ≤ 2147483647
  pending : s.fc.pendingData.toNat = s.unread + s.inHand + s.lost
  accepted : s.unread + s.inHand + s.fc.pendingUpdate.toNat ≤
    s.fc.limit.toNat + s.fc.delta.toNat
  lost_le : s.lost ≤ 16384
  lost_closed : s.closed = false → s.lost = 0
  update_lt : s.fc.pendingUpdate.toNat < s.fc.limit.toNat / 4
  window_eq : window = s.fc.limit.toNat + s.fc.delta.toNat - s.fc.pendingData.toNat -
    s.fc.pendingUpdate.toNat

/-- What the receiver and its peer agree on. -/
structure Balanced (s : Inbound) : Prop where
  counted : s.Counted s.window
  updates_le : ∀ increment ∈ s.updates, increment.toNat ≤ 2147483647

variable {increment n : UInt32} {s next : Inbound} {event : InboundEvent}

/-- The increments on their way are what one of them and the others add. -/
theorem onTheWay_erase {updates : List UInt32} (hmem : increment ∈ updates) :
    increment.toNat + ((updates.erase increment).map UInt32.toNat).sum =
      (updates.map UInt32.toNat).sum :=
  List.sum_map_erase UInt32.toNat hmem

theorem start_balanced (opening : Opening) : (start opening).Balanced := by
  have hge : 65535 ≤ opening.limit.toNat := opening.limit_ge
  have hle : opening.limit.toNat ≤ 2147483647 := opening.limit_le
  have hlate := opening.late_le
  constructor
  · constructor
    all_goals simp [start, inHand, window, onTheWay]
    all_goals omega
  · intro increment hmem
    have hsum := onTheWay_erase hmem
    have hsame : (start opening).updates = opening.late := rfl
    rw [hsame] at hsum
    omega

/-- Sending an increment raises the window by it. -/
theorem Counted.send (hcounted : s.Counted (s.window + increment.toNat))
    (hle : increment.toNat ≤ 2147483647) (hupdates : ∀ sent ∈ s.updates, sent.toNat ≤ 2147483647) :
    (s.send increment).Balanced := by
  unfold Inbound.send
  split
  next =>
    constructor
    · have hwindow : window { s with updates := s.updates ++ [increment] } =
          s.window + increment.toNat := by
        simp [window, onTheWay]
        omega
      rw [hwindow]
      exact { hcounted with }
    · intro sent hsent
      rcases List.mem_append.mp hsent with hmem | hmem
      · exact hupdates sent hmem
      · rw [List.mem_singleton.mp hmem]
        exact hle
  next hzero =>
    have hnone : increment.toNat = 0 := by
      rw [gt_iff_lt, UInt32.lt_iff_toNat_lt] at hzero
      simpa using hzero
    rw [hnone] at hcounted
    exact ⟨by simpa using hcounted, hupdates⟩

section

variable (hbalanced : s.Balanced)
include hbalanced

/-- Consuming accepted bytes, by reading them or as padding. -/
theorem Balanced.consume (hn : n.toNat ≤ s.unread + s.inHand) (hfc : next.fc = (s.fc.onRead n).1)
    (hheld : next.unread + next.inHand + n.toNat = s.unread + s.inHand)
    (houtstanding : s.outstanding ≤ next.outstanding + n.toNat) (hclosed : next.closed = s.closed)
    (hlost : next.lost = s.lost) (htold : next.told = s.told)
    (hupdates : next.updates = s.updates) : (next.send (s.fc.onRead n).2).Balanced := by
  have hcounted := hbalanced.counted
  have hge := hcounted.limit_ge
  have hle := hcounted.limit_le
  have hdelta := hcounted.delta_outstanding
  have hdeltaLe := hcounted.delta_le
  have hpending := hcounted.pending
  have haccepted := hcounted.accepted
  have hlt := hcounted.update_lt
  have hwindow := hcounted.window_eq
  obtain ⟨hlimit, hdata, hspent, hupdate, hquarter⟩ := InFlow.onRead_spec
    (by omega : n.toNat ≤ s.fc.pendingData.toNat) (by omega) hlt
  rw [← hfc] at hlimit hdata hspent hupdate hquarter
  have hsame : next.window = s.window := by
    rw [window, window, onTheWay, onTheWay, htold, hupdates]
  have hlimitNat : next.fc.limit.toNat = s.fc.limit.toNat := by rw [hlimit]
  apply Counted.send _ (by omega) (hupdates ▸ hbalanced.updates_le)
  constructor
  case limit_ge => exact hlimitNat ▸ hge
  case limit_le => exact hlimitNat ▸ hle
  case lost_le => exact hlost ▸ hcounted.lost_le
  case lost_closed =>
    intro hopen
    rw [hlost]
    exact hcounted.lost_closed (hclosed ▸ hopen)
  case update_lt => exact hlimitNat ▸ hquarter
  -- what is read uses up the extra window first
  all_goals omega

/-- Receiving bytes, whether they are accepted or lost. -/
theorem Balanced.receive (hopen : s.closed = false)
    (hfc : next.fc = { s.fc with pendingData := s.fc.pendingData + n })
    (hheld : next.unread + next.inHand + next.lost = s.unread + s.inHand + n.toNat)
    (haccepted : next.unread + next.inHand + s.fc.pendingUpdate.toNat ≤
      s.fc.limit.toNat + s.fc.delta.toNat) (hlost : next.lost ≤ 16384)
    (hclosed : next.closed = false → next.lost = 0)
    (houtstanding : next.outstanding = s.outstanding) (htold : next.told = s.told - n.toNat)
    (hupdates : next.updates = s.updates) : next.Balanced := by
  obtain ⟨hge, hle, hdelta, hdeltaLe, hpending, hwithin, -, hnone, hlt, hwindow⟩ :=
    hbalanced.counted
  have hzero := hnone hopen
  have hsame : next.window = s.window - n.toNat := by
    rw [window, window, onTheWay, onTheWay, htold, hupdates]
    omega
  -- the limits keep the sum below the wrap, also when the peer exceeds them
  have hsum : (s.fc.pendingData + n).toNat = s.fc.pendingData.toNat + n.toNat := by
    rw [UInt32.toNat_add]
    omega
  have hlimit : next.fc.limit.toNat = s.fc.limit.toNat := by rw [hfc]
  have hextra : next.fc.delta.toNat = s.fc.delta.toNat := by rw [hfc]
  have hupdate : next.fc.pendingUpdate.toNat = s.fc.pendingUpdate.toNat := by rw [hfc]
  have hdata : next.fc.pendingData.toNat = s.fc.pendingData.toNat + n.toNat := by rw [hfc, ← hsum]
  refine ⟨?_, hupdates ▸ hbalanced.updates_le⟩
  constructor
  case limit_ge => exact hlimit ▸ hge
  case limit_le => exact hlimit ▸ hle
  case delta_le => exact hextra ▸ hdeltaLe
  case lost_le => exact hlost
  case lost_closed => exact hclosed
  case update_lt => exact hupdate ▸ hlimit ▸ hlt
  all_goals omega

theorem Balanced.handleData (hopen : s.closed = false)
    (hidle : s.handling = none) (arrival : Arrival) : (s.handleData arrival).Balanced := by
  obtain ⟨hge, hle, -, hdeltaLe, hpending, haccepted, -, hnone, -, -⟩ := hbalanced.counted
  have hsize : arrival.size.toNat ≤ 16384 := arrival.size_le
  have hzero := hnone hopen
  have hhand : s.inHand = 0 := by rw [inHand, hidle]
  have hok := InFlow.onData_ok_iff
    (by omega : s.fc.pendingData.toNat + arrival.size.toNat + s.fc.pendingUpdate.toNat < 2 ^ 32)
    (by omega)
  have hfc : (s.fc.onData arrival.size).1 =
      { s.fc with pendingData := s.fc.pendingData + arrival.size } := InFlow.onData_pendingData
  unfold Inbound.handleData
  split
  · simp only
    split
    next fc e heq =>
      rw [heq] at hfc
      exact hbalanced.receive hopen hfc rfl haccepted hsize (by simp) rfl rfl rfl
    next fc heq =>
      rw [heq] at hok hfc
      have hfits := hok.mp rfl
      refine hbalanced.receive hopen hfc ?_ ?_ (by simp [hzero]) hnone rfl rfl rfl
      · change s.unread + arrival.size.toNat + s.lost = _
        omega
      · change s.unread + arrival.size.toNat + _ ≤ _
        omega
  · exact hbalanced

theorem Balanced.dispatch {arrival : Arrival}
    (hhandling : s.handling = some arrival) : (s.dispatch arrival).Balanced := by
  have hhand : s.inHand = arrival.size.toNat := by rw [inHand, hhandling]
  have hdata := arrival.dataLen_le
  unfold Inbound.dispatch
  cases hpadded : arrival.padded with
  | true =>
    have hpadding : (arrival.size - arrival.dataLen).toNat =
        arrival.size.toNat - arrival.dataLen.toNat :=
      UInt32.toNat_sub_of_le _ _ (UInt32.le_iff_toNat_le.mpr hdata)
    refine hbalanced.consume (by omega) rfl ?_ (by simp) rfl rfl rfl rfl
    change s.unread + arrival.dataLen.toNat + 0 + _ = _
    omega
  | false =>
    have hwhole : arrival.dataLen.toNat = arrival.size.toNat := by
      rw [arrival.unpadded hpadded]
    obtain ⟨hge, hle, hdelta, hdeltaLe, hpending, haccepted, hlost, hnone, hlt, hwindow⟩ :=
      hbalanced.counted
    refine Counted.send ⟨hge, hle, hdelta, hdeltaLe, ?_, ?_, hlost, hnone, hlt, ?_⟩
      (by simp) hbalanced.updates_le
    · change s.fc.pendingData.toNat = s.unread + arrival.dataLen.toNat + 0 + s.lost
      omega
    · change s.unread + arrival.dataLen.toNat + 0 + s.fc.pendingUpdate.toNat ≤
        s.fc.limit.toNat + s.fc.delta.toNat
      omega
    · change s.window + _ = _
      simpa using hwindow

/-- A request adds the extra window that it returns. -/
theorem Balanced.requestRead (hdone : s.outstanding = 0) (n : Nat) :
    (s.requestRead n).Balanced := by
  obtain ⟨hge, hle, hdelta, hdeltaLe, hpending, haccepted, hlost, hnone, hlt, hwindow⟩ :=
    hbalanced.counted
  have hzero : s.fc.delta.toNat = 0 := by omega
  obtain ⟨hfc, hasked, hroom⟩ := InFlow.maybeAdjust_spec (n := UInt32.ofNat n) hle
    (UInt32.toNat_inj.mp hzero)
  have hn : (UInt32.ofNat n).toNat ≤ n := by
    exact Nat.mod_le _ _
  unfold Inbound.requestRead
  simp only
  rw [hfc]
  generalize (s.fc.maybeAdjust (UInt32.ofNat n)).2 = increment at *
  refine Counted.send ?_ (by omega) hbalanced.updates_le
  constructor
  case lost_closed => exact hnone
  case window_eq =>
    change s.window + _ = (s.fc.limit.toNat : Int) + increment.toNat - s.fc.pendingData.toNat -
      s.fc.pendingUpdate.toNat
    omega
  case accepted =>
    change s.unread + s.inHand + s.fc.pendingUpdate.toNat ≤ s.fc.limit.toNat + increment.toNat
    omega
  case delta_outstanding => exact hasked.trans hn
  case delta_le =>
    change increment.toNat + 65535 ≤ 2147483647
    omega
  all_goals assumption

theorem Balanced.updateWindow {k : Nat} (hunread : k ≤ s.unread)
    (hwanted : k ≤ s.outstanding) : (s.updateWindow k).Balanced := by
  obtain ⟨hge, hle, hdelta, hdeltaLe, hpending, haccepted, -, -, -, -⟩ := hbalanced.counted
  have hk : (UInt32.ofNat k).toNat = k := UInt32.toNat_ofNat_of_lt' (show k < 2 ^ 32 by omega)
  refine hbalanced.consume (by omega) rfl ?_ ?_ rfl rfl rfl rfl
  · change s.unread - k + s.inHand + _ = _
    omega
  · change s.outstanding ≤ s.outstanding - k + _
    omega

theorem Balanced.updateFlowControl (hlarger : s.fc.limit < n)
    (hmax : n ≤ maxWindowSize) : (s.updateFlowControl n).Balanced := by
  obtain ⟨hge, hle, hdelta, hdeltaLe, hpending, haccepted, hlost, hnone, hlt, hwindow⟩ :=
    hbalanced.counted
  have hlarger := UInt32.lt_iff_toNat_lt.mp hlarger
  have hmax : n.toNat ≤ 2147483647 := UInt32.le_iff_toNat_le.mp hmax
  have hraise : (n - s.fc.limit).toNat = n.toNat - s.fc.limit.toNat :=
    UInt32.toNat_sub_of_le _ _ (UInt32.le_iff_toNat_le.mpr (by omega))
  have hsame : (s.updateFlowControl n).window = s.window + (n.toNat - s.fc.limit.toNat : Nat) := by
    simp [window, onTheWay, Inbound.updateFlowControl, hraise]
    omega
  constructor
  · rw [hsame]
    constructor
    case lost_closed => exact hnone
    case window_eq =>
      change s.window + _ = (n.toNat : Int) + s.fc.delta.toNat - s.fc.pendingData.toNat -
        s.fc.pendingUpdate.toNat
      omega
    case accepted =>
      change s.unread + s.inHand + s.fc.pendingUpdate.toNat ≤ n.toNat + s.fc.delta.toNat
      omega
    case update_lt =>
      change s.fc.pendingUpdate.toNat < n.toNat / 4
      omega
    case limit_ge => exact hge.trans hlarger.le
    all_goals assumption
  · intro sent hsent
    rcases List.mem_append.mp hsent with hmem | hmem
    · exact hbalanced.updates_le sent hmem
    · rw [List.mem_singleton.mp hmem]
      omega

theorem Balanced.step (hnext : s.step event = some next) : next.Balanced := by
  cases event with
  | data arrival =>
    simp only [Inbound.step, Option.ite_none_right_eq_some, Option.some.injEq] at hnext
    obtain ⟨⟨hopen, hidle⟩, rfl⟩ := hnext
    exact hbalanced.handleData hopen (Option.isNone_iff_eq_none.mp hidle) arrival
  | dispatch =>
    obtain ⟨arrival, hhandling, rfl⟩ := Option.map_eq_some_iff.mp hnext
    exact hbalanced.dispatch hhandling
  | request n =>
    simp only [Inbound.step, Option.ite_none_right_eq_some, Option.some.injEq] at hnext
    obtain ⟨hdone, rfl⟩ := hnext
    exact hbalanced.requestRead hdone n
  | read k =>
    simp only [Inbound.step, Option.ite_none_right_eq_some, Option.some.injEq] at hnext
    obtain ⟨⟨hunread, hwanted⟩, rfl⟩ := hnext
    exact hbalanced.updateWindow hunread hwanted
  | newLimit n =>
    simp only [Inbound.step, Option.ite_none_right_eq_some, Option.some.injEq] at hnext
    obtain ⟨⟨-, hlarger, hmax⟩, rfl⟩ := hnext
    exact hbalanced.updateFlowControl hlarger hmax
  | deliver increment =>
    simp only [Inbound.step, Option.ite_none_right_eq_some, Option.some.injEq] at hnext
    obtain ⟨hmem, rfl⟩ := hnext
    obtain ⟨hge, hle, hdelta, hdeltaLe, hpending, haccepted, hlost, hnone, hlt, hwindow⟩ :=
      hbalanced.counted
    have hsum := onTheWay_erase hmem
    refine ⟨⟨hge, hle, hdelta, hdeltaLe, hpending, haccepted, hlost, hnone, hlt, ?_⟩, ?_⟩
    · rw [← hwindow]
      simp only [window, onTheWay]
      omega
    · exact fun sent hsent => hbalanced.updates_le sent (List.mem_of_mem_erase hsent)

end

/-! ## Every run -/

def run (opening : Opening) (events : List InboundEvent) : Option Inbound :=
  Machine.run step (start opening) events

theorem run_balanced {opening : Opening} {events : List InboundEvent}
    (hrun : run opening events = some s) : s.Balanced :=
  Machine.run_invariant (fun _ s => s.Balanced) (start_balanced opening)
    (fun _ _ _ _ _ hbalanced hnext => hbalanced.step hnext) hrun

/-- The unsigned subtractions that an event makes on the counters stay at or
above zero. -/
def NoUnderflow (s : Inbound) : InboundEvent → Prop
  | .dispatch => ∀ arrival, s.handling = some arrival →
      arrival.dataLen ≤ arrival.size ∧ arrival.size - arrival.dataLen ≤ s.fc.pendingData
  | .request _ => s.fc.limit ≤ maxWindowSize ∧
      (s.closed = false →
        s.fc.pendingData.toNat + s.fc.pendingUpdate.toNat ≤ s.fc.limit.toNat)
  | .read k => k ≤ s.fc.pendingData.toNat
  | _ => True

theorem Balanced.noUnderflow (hbalanced : s.Balanced) (hnext : s.step event = some next) :
    s.NoUnderflow event := by
  obtain ⟨-, hle, hdelta, -, hpending, haccepted, -, hnone, -, -⟩ := hbalanced.counted
  cases event with
  | dispatch =>
    intro arrival hhandling
    have hhand : s.inHand = arrival.size.toNat := by rw [inHand, hhandling]
    have hdata : arrival.dataLen ≤ arrival.size :=
      UInt32.le_iff_toNat_le.mpr arrival.dataLen_le
    refine ⟨hdata, ?_⟩
    rw [UInt32.le_iff_toNat_le, UInt32.toNat_sub_of_le _ _ hdata]
    omega
  | request n =>
    simp only [Inbound.step, Option.ite_none_right_eq_some] at hnext
    refine ⟨UInt32.le_iff_toNat_le.mpr hle, fun hopen => ?_⟩
    have hzero := hnone hopen
    omega
  | read k =>
    simp only [Inbound.step, Option.ite_none_right_eq_some] at hnext
    obtain ⟨⟨hunread, -⟩, -⟩ := hnext
    change k ≤ s.fc.pendingData.toNat
    omega
  | data | newLimit | deliver => trivial

/-- In every state that the receiver and its peer reach: the window that the
peer holds once it has seen all updates is `limit + delta - pendingData -
pendingUpdate`; a frame within the window that the peer has been told so far is
accepted; when an open stream has no received byte unread the window is positive; and every
further step returns increments of at most `2 ^ 31 - 1`, without underflow. -/
theorem run_flowControl {opening : Opening} {events : List InboundEvent} {s : Inbound}
    (hrun : run opening events = some s) :
    s.window = (s.fc.limit.toNat : Int) + s.fc.delta.toNat - s.fc.pendingData.toNat -
        s.fc.pendingUpdate.toNat ∧
      (∀ arrival : Arrival, (arrival.size.toNat : Int) ≤ s.told →
        (s.fc.onData arrival.size).2 = .ok ()) ∧
      (s.closed = false → s.handling = none → s.unread = 0 → 0 < s.window) ∧
      ∀ event next, s.step event = some next →
        s.NoUnderflow event ∧ ∀ increment ∈ next.updates, increment.toNat ≤ 2147483647 := by
  have hbalanced := run_balanced hrun
  obtain ⟨hge, hle, -, hdeltaLe, hpending, -, -, hlost, hlt, hwindow⟩ := hbalanced.counted
  refine ⟨hwindow, ?_, ?_, ?_⟩
  · intro arrival htold
    have hfits : s.fc.pendingData.toNat + arrival.size.toNat + s.fc.pendingUpdate.toNat ≤
        s.fc.limit.toNat + s.fc.delta.toNat := by
      rw [window] at hwindow
      omega
    exact (InFlow.onData_ok_iff (by omega) (by omega)).mpr hfits
  · intro hopen hidle hunread
    have hhand : s.inHand = 0 := by rw [inHand, hidle]
    rw [hlost hopen] at hpending
    omega
  · intro event next hnext
    exact ⟨hbalanced.noUnderflow hnext, (hbalanced.step hnext).updates_le⟩

/-- A stream with the default window. -/
def Opening.default : Opening :=
  ⟨defaultWindowSize, [], Nat.le_refl _, by decide, by decide⟩

/-- A request, a padded frame with four bytes of data, and the read of them. -/
def readOnce : List InboundEvent :=
  [.request 100000, .data ⟨6, 4, true, by decide, by decide, by simp⟩, .deliver 100000, .dispatch,
    .read 4]

theorem run_flowControl_request : ∃ s, run Opening.default readOnce = some s ∧
      s.closed = false ∧ s.handling = none ∧ s.unread = 0 ∧ 0 < s.window ∧
      s.window = (s.fc.limit.toNat : Int) + s.fc.delta.toNat - s.fc.pendingData.toNat -
        s.fc.pendingUpdate.toNat := by
  obtain ⟨s, hrun, hopen, hidle, hunread⟩ : ∃ s, run Opening.default readOnce = some s ∧
      s.closed = false ∧ s.handling = none ∧ s.unread = 0 := ⟨_, rfl, rfl, rfl, rfl⟩
  obtain ⟨hwindow, -, hpositive, -⟩ := run_flowControl hrun
  exact ⟨s, hrun, hopen, hidle, hunread, hpositive hopen hidle hunread, hwindow⟩

end Inbound

end Kitex.Http2
