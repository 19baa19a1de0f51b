import Kitex.Http2.ControlItems

/-! # SETTINGS frames

A SETTINGS frame has six bytes for each entry: a 16-bit identifier and a 32-bit
value, both big-endian. The parser checks the initial window size through
`Value`, which stops at the first entry with the identifier, while the
transports go on to use every entry.
-/

namespace Kitex.Http2

structure FrameHeader where
  flags : UInt8
  length : UInt32
  streamID : UInt32
  deriving DecidableEq, Repr

/-- `Flags.Has`. -/
def FrameHeader.has (fh : FrameHeader) (v : UInt8) : Bool :=
  decide (fh.flags &&& v = v)

def flagSettingsAck : UInt8 := 1

def bigEndian (bytes : Bytes) : Nat :=
  bytes.foldl (fun number byte => number * 256 + byte.toNat) 0

/-- Go's `buf[lo:hi]`. -/
def slice (buf : Bytes) (lo hi : Nat) : Bytes :=
  (buf.drop lo).take (hi - lo)

structure SettingsFrame where
  header : FrameHeader
  p : Bytes
  deriving DecidableEq, Repr

namespace SettingsFrame

def isAck (f : SettingsFrame) : Bool :=
  f.header.has flagSettingsAck

def numSettings (f : SettingsFrame) : Nat :=
  f.p.length / 6

def setting (f : SettingsFrame) (i : Nat) : Setting where
  id := UInt16.ofNat (bigEndian (slice f.p (i * 6) (i * 6 + 2)))
  val := UInt32.ofNat (bigEndian (slice f.p (i * 6 + 2) (i * 6 + 6)))

/-- The value of the first entry with an identifier. -/
def value (f : SettingsFrame) (id : UInt16) : Option UInt32 :=
  (List.range f.numSettings).findSome? fun i =>
    if (f.setting i).id = id then some (f.setting i).val else none

/-- The entries that `ForeachSetting` visits, in order. -/
def settings (f : SettingsFrame) : List Setting :=
  (List.range f.numSettings).map f.setting

/-- The values that a frame has for the initial window size, in order. -/
def windowSizes (f : SettingsFrame) : List UInt32 :=
  f.settings.filterMap fun s => if s.id = Setting.initialWindowSize then some s.val else none

theorem mem_windowSizes {f : SettingsFrame} {s : Setting} (hmem : s ∈ f.settings)
    (hid : s.id = Setting.initialWindowSize) : s.val ∈ f.windowSizes :=
  List.mem_filterMap.mpr ⟨s, hmem, by rw [if_pos hid]⟩

/-- `Value` sees the first of the window sizes only. -/
theorem value_initialWindowSize (f : SettingsFrame) :
    f.value Setting.initialWindowSize = f.windowSizes.head? := by
  rw [windowSizes, List.head?_filterMap, settings, List.findSome?_map]
  rfl

end SettingsFrame

/-- Window sizes that the HTTP/2 specification allows. -/
def InBounds (sizes : List UInt32) : Prop :=
  ∀ v ∈ sizes, v ≤ maxWindowSize

instance (sizes : List UInt32) : Decidable (InBounds sizes) :=
  List.decidableBAll (· ≤ maxWindowSize) sizes

theorem inBounds_iff_head_tail (sizes : List UInt32) :
    InBounds sizes ↔ InBounds sizes.head?.toList ∧ InBounds sizes.tail := by
  cases sizes with
  | nil | cons first rest => simp [InBounds]

def parseSettingsFrame (fh : FrameHeader) (p : Bytes) : Except ErrCode SettingsFrame :=
  if fh.has flagSettingsAck = true ∧ fh.length > 0 then .error ErrCode.frameSize
  else if fh.streamID ≠ 0 then .error ErrCode.protocol
  else if p.length % 6 ≠ 0 then .error ErrCode.frameSize
  else
    let f : SettingsFrame := ⟨fh, p⟩
    match f.value Setting.initialWindowSize with
    | some v => if v > maxWindowSize then .error ErrCode.flowControl else .ok f
    | none => .ok f

/-- What `ReadFrame` hands to the parser: the payload has the length that the
header announces. -/
structure RawFrame where
  header : FrameHeader
  payload : Bytes
  length_eq : payload.length = header.length.toNat

namespace RawFrame

def parse (raw : RawFrame) : Except ErrCode SettingsFrame :=
  parseSettingsFrame raw.header raw.payload

/-- The frame with its entries, whether the parser accepts it or not. -/
def settingsFrame (raw : RawFrame) : SettingsFrame :=
  ⟨raw.header, raw.payload⟩

/-- A SETTINGS frame of the right shape: it is about the connection, it has
whole entries, and none if it is an acknowledgement. -/
def WellFormed (raw : RawFrame) : Prop :=
  (raw.settingsFrame.isAck = true → raw.payload = []) ∧ raw.header.streamID = 0 ∧
    raw.payload.length % 6 = 0

instance (raw : RawFrame) : Decidable raw.WellFormed :=
  inferInstanceAs (Decidable (_ ∧ _ ∧ _))

/-- A frame of the right shape whose first initial window size is within bounds
has no later one out of bounds. -/
def Guarded (raw : RawFrame) : Prop :=
  raw.WellFormed → InBounds raw.settingsFrame.windowSizes.head?.toList →
    InBounds raw.settingsFrame.windowSizes.tail

instance (raw : RawFrame) : Decidable raw.Guarded :=
  inferInstanceAs (Decidable (_ → _ → _))

/-- The parser accepts the frames of the right shape whose first initial window
size is within bounds. -/
theorem parse_cases (raw : RawFrame) : raw.parse = .ok raw.settingsFrame ∧ raw.WellFormed ∧
        InBounds raw.settingsFrame.windowSizes.head?.toList ∨
      (∃ e, raw.parse = .error e) ∧
        ¬(raw.WellFormed ∧ InBounds raw.settingsFrame.windowSizes.head?.toList) := by
  have hempty : raw.payload = [] ↔ ¬raw.header.length > 0 := by
    rw [← List.length_eq_zero_iff, raw.length_eq, gt_iff_lt, UInt32.lt_iff_toNat_lt,
      UInt32.toNat_zero]
    omega
  unfold parse parseSettingsFrame
  split
  next hack =>
    refine .inr ⟨⟨_, rfl⟩, fun hgood => ?_⟩
    exact hempty.mp (hgood.1.1 hack.1) hack.2
  next hack =>
    split
    next hstream => exact .inr ⟨⟨_, rfl⟩, fun hgood => hstream hgood.1.2.1⟩
    next hstream =>
      split
      next hlength => exact .inr ⟨⟨_, rfl⟩, fun hgood => hlength hgood.1.2.2⟩
      next hlength =>
        have hshape : raw.WellFormed :=
          ⟨fun hisAck => hempty.mpr fun hpos => hack ⟨hisAck, hpos⟩, not_not.mp hstream,
            not_not.mp hlength⟩
        rw [← raw.settingsFrame.value_initialWindowSize, settingsFrame]
        simp only
        split
        next v hvalue =>
          rw [hvalue]
          split
          next hlarge =>
            refine .inr ⟨⟨_, rfl⟩, fun hgood => ?_⟩
            exact UInt32.not_le.mpr hlarge (hgood.2 v List.mem_cons_self)
          next hsmall =>
            refine .inl ⟨rfl, hshape, fun w hw => ?_⟩
            exact List.mem_singleton.mp hw ▸ UInt32.not_lt.mp hsmall
        next hvalue =>
          rw [hvalue]
          exact .inl ⟨rfl, hshape, by simp [InBounds]⟩

/-- An accepted frame keeps to the bounds throughout, if it is guarded. -/
theorem inBounds_of_parse {raw : RawFrame} {f : SettingsFrame} (hguarded : raw.Guarded)
    (hparse : raw.parse = .ok f) : InBounds f.windowSizes := by
  rcases raw.parse_cases with ⟨hok, hshape, hfirst⟩ | ⟨⟨e, herror⟩, -⟩
  · obtain rfl := Except.ok.inj (hok.symm.trans hparse)
    exact (inBounds_iff_head_tail _).mpr ⟨hfirst, hguarded hshape hfirst⟩
  · cases herror.symm.trans hparse

/-- Only a guarded frame is certain to be rejected for an initial window size
out of bounds. -/
theorem rejected_iff_guarded (raw : RawFrame) :
    (¬InBounds raw.settingsFrame.windowSizes → ∃ e, raw.parse = .error e) ↔ raw.Guarded := by
  constructor
  · intro hrejects hshape hfirst
    by_contra hlater
    obtain ⟨e, herror⟩ := hrejects fun hall => hlater ((inBounds_iff_head_tail _).mp hall).2
    rcases raw.parse_cases with ⟨hok, -, -⟩ | ⟨-, hbad⟩
    · cases herror.symm.trans hok
    · exact hbad ⟨hshape, hfirst⟩
  · intro hguarded hlarge
    rcases raw.parse_cases with ⟨hok, -, -⟩ | ⟨herror, -⟩
    · exact absurd (inBounds_of_parse hguarded hok) hlarge
    · exact herror

end RawFrame

end Kitex.Http2
