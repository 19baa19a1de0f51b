import Kitex.Codec.Unmarshal

/-! # What decoding consumes of a frame

A message with protobuf payload is in a frame: four bytes with the length of the payload, and the
payload. The length of the method name in it is independent of the length of the frame, and nothing
compares the two.
-/

namespace Kitex.Codec

open Kitex.Thrift Kitex.Thrift.Binary Kitex.Machine.Fallible Decode

variable {D I α β : Type} {lib : Runtime D I} {c : CodecConfig} {s : Decoding D I}

/-- The bytes that are left, also after an error. -/
def bytesLeft : EStateM.Result CodecError (Decoding D I) α → Bytes
  | .ok _ s => s.input.bytes
  | .error _ s => s.input.bytes

/-! ## The reader moves forward -/

/-- Whatever happens, the reader is at the same place or further on. -/
def Forward (x : Decode D I α) : Prop :=
  ∀ s, ∃ k ≤ s.input.bytes.length, bytesLeft (x s) = s.input.bytes.drop k

variable {x : Decode D I α} {s' : Decoding D I} {flagBuf : Bytes} {isTTHeader : Bool} {n : Nat}

theorem forward_of_same (h : ∀ s, bytesLeft (x s) = s.input.bytes) :
    Forward x := fun s => ⟨0, by simp, by simp [h s]⟩

theorem Forward.bind {f : α → Decode D I β} (hx : Forward x) (hf : ∀ a, Forward (f a)) :
    Forward (x >>= f) := by
  intro s
  obtain ⟨k, hk, hleft⟩ := hx s
  cases hr : x s with
  | error e t =>
    rw [bind_of_error hr]
    rw [hr] at hleft
    exact ⟨k, hk, hleft⟩
  | ok a t =>
    rw [bind_of_ok hr]
    rw [hr] at hleft
    obtain ⟨k', hk', hleft'⟩ := hf a t
    change t.input.bytes = _ at hleft
    rw [hleft, List.length_drop] at hk'
    rw [hleft, List.drop_drop] at hleft'
    exact ⟨k + k', by omega, hleft'⟩

theorem Forward.adaptExcept (hx : Forward x) (g : CodecError → CodecError) :
    Forward (EStateM.adaptExcept g x) := by
  intro s
  obtain ⟨k, hk, hleft⟩ := hx s
  cases hr : x s with
  | ok a t =>
    rw [adaptExcept_of_ok hr]
    rw [hr] at hleft
    exact ⟨k, hk, hleft⟩
  | error e t =>
    rw [adaptExcept_of_error hr]
    rw [hr] at hleft
    exact ⟨k, hk, hleft⟩

theorem bytesLeft_onMessage {f : EStateM CodecError (Message D I) α} :
    bytesLeft (onMessage f s) = s.input.bytes := by
  unfold onMessage
  cases f s.message <;> rfl

theorem forward_onMessage (f : EStateM CodecError (Message D I) α) :
    Forward (onMessage f) := forward_of_same fun _ => bytesLeft_onMessage

theorem forward_pure (a : α) : Forward (pure a : Decode D I α) := forward_of_same fun _ => rfl

theorem forward_throw (e : CodecError) : Forward (throw e : Decode D I α) :=
  forward_of_same fun _ => rfl

theorem next_negative {n : Int} (hn : n < 0) : bytesLeft (next n s) = s.input.bytes := by
  rw [next, if_pos hn]
  cases s.input.negativeErr <;> rfl

theorem forward_next (n : Int) : Forward (next n : Decode D I Bytes) := by
  intro s
  rcases Int.lt_or_le n 0 with hn | hn
  · exact ⟨0, by simp, by simp [next_negative hn]⟩
  · obtain ⟨n, rfl⟩ := Int.eq_ofNat_of_zero_le hn
    by_cases hle : n ≤ s.input.bytes.length
    · exact ⟨n, hle, by rw [next_of_le hle]; rfl⟩
    · exact ⟨0, by simp, by rw [next_of_lt (by omega)]; simp [bytesLeft]⟩

theorem forward_readUint32 : Forward (readUint32 : Decode D I Nat) :=
  (forward_next 4).bind fun _ => forward_pure _

theorem forward_readSeqIDAndBuf (msgType : Nat) (actualMsgLen : Int) :
    Forward (readSeqIDAndBuf msgType actualMsgLen : Decode D I Bytes) :=
  (forward_readUint32.adaptExcept _).bind fun _ =>
    (forward_onMessage _).bind fun _ => (forward_next _).adaptExcept _

/-! ## Within a frame -/

/-- Of the bytes only a frame has been consumed, and after success all of it. -/
def Within (bytes : Bytes) (size : Nat) : EStateM.Result CodecError (Decoding D I) α → Prop
  | .ok _ s => size ≤ bytes.length ∧ s.input.bytes = bytes.drop size
  | .error _ s => ∃ k ≤ size, s.input.bytes = bytes.drop k

/-- More than a frame has been consumed. -/
def Past (bytes : Bytes) (size : Nat) (r : EStateM.Result CodecError (Decoding D I) α) : Prop :=
  ∃ k, size < k ∧ k ≤ bytes.length ∧ bytesLeft r = bytes.drop k

section Frame

variable {bytes : Bytes} {size p : Nat} {r : EStateM.Result CodecError (Decoding D I) α}

theorem Past.not_within (h : Past bytes size r) : ¬ Within bytes size r := by
  obtain ⟨k, hk, hlength, hleft⟩ := h
  intro hwithin
  cases r with
  | ok a t =>
    have heq := congrArg List.length (hleft.symm.trans hwithin.2)
    simp only [List.length_drop] at heq
    omega
  | error e t =>
    obtain ⟨k', hk', hleft'⟩ := hwithin
    have heq := congrArg List.length (hleft.symm.trans hleft')
    simp only [List.length_drop] at heq
    omega

variable {x : Decode D I α} {f : α → EStateM CodecError (Message D I) β}
  {g : CodecError → CodecError} {P : Prop} {msgType : Nat}

/-- Whoever is past the frame stays past it. -/
theorem Forward.past (hx : Forward x) (hs : s.input.bytes = bytes.drop p) (hp : size < p)
    (hlength : p ≤ bytes.length) : Past bytes size (x s) := by
  obtain ⟨k, hk, hleft⟩ := hx s
  rw [hs, List.length_drop] at hk
  rw [hs, List.drop_drop] at hleft
  exact ⟨p + k, by omega, by omega, hleft⟩

theorem Past.onMessage (h : Past bytes size (x s)) :
    Past bytes size ((x >>= fun a => onMessage (f a)) s) := by
  obtain ⟨k, hk, hlength, hleft⟩ := h
  cases hr : x s with
  | error e t =>
    rw [bind_of_error hr]
    rw [hr] at hleft
    exact ⟨k, hk, hlength, hleft⟩
  | ok a t =>
    rw [bind_of_ok hr]
    rw [hr] at hleft
    exact ⟨k, hk, hlength, bytesLeft_onMessage.trans hleft⟩

theorem Within.onMessage (h : Within bytes size (x s)) :
    Within bytes size ((x >>= fun a => Decode.onMessage (f a)) s) := by
  cases hr : x s with
  | error e t =>
    rw [bind_of_error hr]
    rw [hr] at h
    exact h
  | ok a t =>
    rw [bind_of_ok hr]
    rw [hr] at h
    obtain ⟨hlength, hleft⟩ := h
    unfold Decode.onMessage
    cases f a t.message with
    | ok b m => exact ⟨hlength, hleft⟩
    | error e m => exact ⟨size, le_refl _, hleft⟩

/-- A condition decides which of the two it is. -/
def Decided (bytes : Bytes) (size : Nat) (P : Prop)
    (r : EStateM.Result CodecError (Decoding D I) α) : Prop :=
  (P → Within bytes size r) ∧ (¬ P → Past bytes size r)

theorem Decided.within_iff (h : Decided bytes size P r) : Within bytes size r ↔ P := by
  refine ⟨fun hwithin => ?_, h.1⟩
  by_contra hnot
  exact (h.2 hnot).not_within hwithin

theorem Decided.congr {P Q : Prop} (h : Decided bytes size P r) (hiff : Q ↔ P) :
    Decided bytes size Q r := ⟨fun hq => h.1 (hiff.mp hq), fun hq => h.2 fun hp => hq (hiff.mpr hp)⟩

theorem Decided.onMessage (h : Decided bytes size P (x s)) :
    Decided bytes size P ((x >>= fun a => onMessage (f a)) s) :=
  ⟨fun hp => (h.1 hp).onMessage, fun hp => (h.2 hp).onMessage⟩

/-- What follows succeeds and reads nothing. -/
theorem Decided.bind_same {f : α → Decode D I β} (h : Decided bytes size P (x s))
    (hf : ∀ a t, ∃ b t', f a t = .ok b t' ∧ t'.input.bytes = t.input.bytes) :
    Decided bytes size P ((x >>= f) s) := by
  cases hr : x s with
  | ok a t =>
    rw [bind_of_ok hr]
    rw [hr] at h
    obtain ⟨b, t', hok, hinput⟩ := hf a t
    rw [hok]
    simpa only [Decided, Within, Past, bytesLeft, hinput] using h
  | error e t =>
    rw [bind_of_error hr]
    rw [hr] at h
    exact h

section

variable (hs : s.input.bytes = bytes.drop p)
include hs

theorem consume_bytes (n : Nat) : (s.consume n).input.bytes = bytes.drop (p + n) := by
  simp [Decoding.consume, ByteBuffer.advance, hs, List.drop_drop]

/-- A read: if there are the bytes for it then they have to be in the frame. -/
theorem decided_next {f : Bytes → Decode D I α} (hp : p ≤ size) (hlength : p ≤ bytes.length)
    (hforward : ∀ a, Forward (f a))
    (hf : p + n ≤ bytes.length → p + n ≤ size →
      Decided bytes size P (f ((bytes.drop p).take n) (s.consume n))) :
    Decided bytes size (p + n ≤ bytes.length → p + n ≤ size ∧ P)
      ((EStateM.adaptExcept g (next n) >>= f) s) := by
  have hbytes : s.input.bytes.length = bytes.length - p := by rw [hs, List.length_drop]
  by_cases hread : p + n ≤ bytes.length
  · rw [bind_of_ok (adaptExcept_of_ok (next_of_le (by omega))), hs]
    by_cases hfit : p + n ≤ size
    · exact (hf hread hfit).congr ⟨fun h => (h hread).2, fun h _ => ⟨hfit, h⟩⟩
    · refine ⟨fun h => absurd (h hread).1 hfit, fun _ => ?_⟩
      exact (hforward _).past (consume_bytes hs n) (by omega) hread
  · rw [bind_of_error (adaptExcept_of_error (next_of_lt (by omega)))]
    exact ⟨fun _ => ⟨p, hp, hs⟩, fun h => absurd (fun hle => absurd hle hread) h⟩

theorem decided_onMessage {g : EStateM CodecError (Message D I) β} {f : β → Decode D I α}
    {P : Message D I → Prop} (hp : p ≤ size)
    (hf : ∀ a m, g s.message = .ok a m → Decided bytes size (P m) (f a { s with message := m })) :
    Decided bytes size (∀ a m, g s.message = .ok a m → P m)
      ((onMessage g >>= f) s) := by
  cases hg : g s.message with
  | ok a m =>
    rw [bind_of_ok (decodeOnMessage_of_ok hg)]
    refine (hf a m hg).congr ⟨fun h => h a m rfl, fun h a' m' heq => ?_⟩
    cases heq
    exact h
  | error e m =>
    have herror : onMessage g s = .error e { s with message := m } := by
      simp [onMessage, hg]
    rw [bind_of_error herror]
    exact ⟨fun _ => ⟨p, hp, hs⟩, fun h => absurd (fun a m heq => by cases heq) h⟩

end

theorem readUint32_bind {f : Nat → Decode D I α} : (EStateM.adaptExcept g readUint32 >>= f) s =
      (EStateM.adaptExcept g (next (4 : Nat)) >>= fun buf => f (uint32 buf)) s := by
  rw [readUint32, adaptExcept_bind, bind_assoc]
  rfl

theorem readString_bind {f : Bytes × Int → Decode D I α} :
    (EStateM.adaptExcept g readString >>= f) s =
      (EStateM.adaptExcept g (next (4 : Nat)) >>= fun buf =>
        if uint32 buf = 0 then throw (g (.other "invalid string length in ReadString"))
        else EStateM.adaptExcept g (next (uint32 buf)) >>= fun str =>
          f (str, uint32 buf + 4)) s := by
  rw [readString, adaptExcept_bind, bind_assoc, readUint32_bind]
  refine congrFun (bind_congr fun buf => ?_) s
  split
  · rfl
  · rw [adaptExcept_bind, bind_assoc]
    rfl

/-- After the method name: the sequence id has to be in the frame. Then the bytes of the data are up
to its end. -/
theorem decided_readSeqIDAndBuf (hs : s.input.bytes = bytes.drop p) (hp : p ≤ size)
    (hlength : p ≤ bytes.length) : Decided bytes size (p + 4 ≤ bytes.length → p + 4 ≤ size)
      (readSeqIDAndBuf msgType ((size : Int) - p - 4) s) := by
  rw [readSeqIDAndBuf, readUint32_bind]
  refine (decided_next (P := True) hs hp hlength (fun _ => (forward_onMessage _).bind fun _ =>
    (forward_next _).adaptExcept _) fun hread hfit => ?_).congr (by simp)
  have hs' := consume_bytes hs 4
  refine (decided_onMessage (P := fun _ => True) hs' hfit fun _ m _ => ?_).congr (by simp)
  refine ⟨fun _ => ?_, fun h => absurd trivial h⟩
  -- the rest of the frame is read, or it has not arrived
  have hrest : (size : Int) - p - 4 = (size - (p + 4) : Nat) := by omega
  rw [hrest]
  by_cases hall : size ≤ bytes.length
  · rw [adaptExcept_of_ok (next_of_le (by simp only [hs', List.length_drop]; omega))]
    refine ⟨hall, ?_⟩
    rw [consume_bytes (s := { s.consume 4 with message := m }) hs']
    congr 1
    omega
  · rw [adaptExcept_of_error (next_of_lt (by simp only [hs', List.length_drop]; omega))]
    exact ⟨p + 4, hfit, hs'⟩

/-- From the method name on: its length, the name and the sequence id have to be in the frame, as
far as they are read. -/
def MethodFits (lib : Runtime D I) (msgType : Nat) (m : Message D I) (bytes : Bytes)
    (size p : Nat) : Prop :=
  let nameLen := uint32 (bytes.drop p)
  p + 4 ≤ bytes.length →
    p + 4 ≤ size ∧ (nameLen ≠ 0 → p + 4 + nameLen ≤ bytes.length →
      p + 4 + nameLen ≤ size ∧
        ∀ m', ignoreErr (msgType == 3)
            (setOrCheckMethodName lib ((bytes.drop (p + 4)).take nameLen)) m = .ok () m' →
          p + 4 + nameLen + 4 ≤ bytes.length → p + 4 + nameLen + 4 ≤ size)

theorem forward_readMethodAndBuf (msgType : Nat) (payloadLen : Int) :
    Forward (readMethodAndBuf lib msgType payloadLen) := by
  have hstring : Forward (readString : Decode D I (Bytes × Int)) := by
    refine forward_readUint32.bind fun strLen => ?_
    split
    · exact (forward_throw _).bind fun _ => (forward_next _).bind fun _ => forward_pure _
    · exact (forward_next _).bind fun _ => forward_pure _
  exact (hstring.adaptExcept _).bind fun _ => (forward_onMessage _).bind fun _ =>
    (forward_readSeqIDAndBuf _ _).bind fun _ => forward_pure _

theorem decided_readMethodAndBuf (hs : s.input.bytes = bytes.drop p) (hp : p ≤ size)
    (hlength : p ≤ bytes.length) :
    Decided bytes size (MethodFits lib msgType s.message bytes size p)
      (readMethodAndBuf lib msgType ((size : Int) - p + 4) s) := by
  have hforward : ∀ nameLen : Nat, ∀ str : Bytes, Forward (do
      onMessage (ignoreErr (msgType == 3) (setOrCheckMethodName lib str))
      let actualMsgBuf ← readSeqIDAndBuf msgType
        ((size : Int) - p + 4 - metaInfoFixLen - (nameLen + 4))
      return (str, actualMsgBuf)) := fun _ _ => (forward_onMessage _).bind fun _ =>
    (forward_readSeqIDAndBuf _ _).bind fun _ => forward_pure _
  rw [readMethodAndBuf, readString_bind]
  refine decided_next hs hp hlength (fun buf => ?_) fun hread hfit => ?_
  · split
    · exact forward_throw _
    · exact ((forward_next _).adaptExcept _).bind (hforward _)
  have huint32 : uint32 ((bytes.drop p).take 4) = uint32 (bytes.drop p) := by
    simp [uint32, List.take_take]
  have hs₁ := consume_bytes hs 4
  rw [huint32]
  by_cases hzero : uint32 (bytes.drop p) = 0
  · rw [if_pos hzero]
    exact ⟨fun _ => ⟨p + 4, hfit, hs₁⟩, fun h => absurd (fun hne => absurd hzero hne) h⟩
  rw [if_neg hzero]
  refine (decided_next hs₁ hfit hread (hforward _) fun hread' hfit' => ?_).congr
    ⟨fun h => h hzero, fun h _ => h⟩
  have hs₂ := consume_bytes hs₁ (uint32 (bytes.drop p))
  refine (decided_onMessage hs₂ hfit' fun _ m hm => ?_).congr
    ⟨fun h a m => h m, fun h m => h () m⟩
  refine Decided.bind_same ?_ fun a t => ⟨_, t, rfl, rfl⟩
  have hlen : (size : Int) - p + 4 - metaInfoFixLen - (uint32 (bytes.drop p) + 4) =
      (size : Int) - (p + 4 + uint32 (bytes.drop p) : Nat) - 4 := by
    rw [metaInfoFixLen]
    omega
  rw [hlen]
  exact decided_readSeqIDAndBuf hs₂ hfit' hread'

end Frame

/-! ## Decoding a frame -/

theorem peek_eq_ok {g : CodecError → CodecError} {buf : Bytes}
    (h : EStateM.adaptExcept g (peek n) s = .ok buf s') :
    s' = s ∧ buf = s.input.bytes.take n ∧ n ≤ s.input.bytes.length := by
  by_cases hle : n ≤ s.input.bytes.length
  · rw [adaptExcept_of_ok (peek_of_le hle)] at h
    cases h
    exact ⟨rfl, rfl, hle⟩
  · have herror : peek n s = .error (.other s.input.err) s := if_neg hle
    rw [adaptExcept_of_error herror] at h
    cases h

theorem payloadChecksumValidate_input {pv : PayloadValidator}
    (h : payloadChecksumValidate pv s = .ok () s') : s'.input = s.input := by
  simp only [payloadChecksumValidate, modify_bind, get_bind] at h
  obtain ⟨payload, t, hpeek, h⟩ := bind_eq_ok h
  obtain ⟨rfl, -, -⟩ := peek_eq_ok (g := id) (adaptExcept_of_ok hpeek)
  generalize pv.validate _ payload = result at h
  cases result with
  | error err => cases h
  | ok pass =>
    dsimp only at h
    split at h
    · cases h
    · cases h
      rfl

/-- After the headers the next bytes are known. -/
theorem decodeHeaders_eq_ok (h : decodeHeaders lib c s = .ok (flagBuf, isTTHeader) s') :
    flagBuf = s'.input.bytes.take 8 ∧ 8 ≤ s'.input.bytes.length := by
  obtain ⟨first, t, hfirst, h⟩ := bind_eq_ok h
  obtain ⟨rfl, rfl, hlength⟩ := peek_eq_ok hfirst
  split at h
  · obtain ⟨-, t₁, -, h⟩ := bind_eq_ok h
    obtain ⟨buf, t₂, hbuf, h⟩ := bind_eq_ok h
    obtain ⟨rfl, rfl, hlength'⟩ := peek_eq_ok hbuf
    cases hpv : c.payloadValidator with
    | none =>
      rw [hpv] at h
      cases h
      exact ⟨rfl, hlength'⟩
    | some pv =>
      rw [hpv] at h
      obtain ⟨_, t₃, hvalidate, h⟩ := bind_eq_ok h
      cases h
      rw [payloadChecksumValidate_input hvalidate]
      exact ⟨rfl, hlength'⟩
  · split at h
    · simp only [modify_bind] at h
      obtain ⟨-, t₁, -, h⟩ := bind_eq_ok h
      obtain ⟨buf, t₂, hbuf, h⟩ := bind_eq_ok h
      obtain ⟨rfl, rfl, hlength'⟩ := peek_eq_ok hbuf
      cases h
      exact ⟨rfl, hlength'⟩
    · cases h
      exact ⟨rfl, hlength⟩

theorem sniff_eq_protobuf (h : sniff flagBuf = .ok (protobuf, true)) :
    uint32 (flagBuf.drop 4) &&& magicMask = protobufV1Magic := by
  unfold sniff at h
  split at h
  · cases h
  · split at h
    · cases h
    · split at h
      · simpa [isProtobufKitex] using ‹isProtobufKitex flagBuf = true›
      · cases h

/-- The fields of the message that are read are in the frame. -/
def Fits (lib : Runtime D I) (c : CodecConfig) (isTTHeader : Bool) (s : Decoding D I) : Prop :=
  let bytes := s.input.bytes
  let size := 4 + uint32 bytes
  let msgType := uint32 (bytes.drop 4) &&& frontMask
  checkPayloadSize (uint32 bytes) c.maxSize = .ok () →
    8 ≤ size ∧ ∀ m,
      updateMsgType msgType (s.message.sniffed (bytes.take 8) isTTHeader true protobuf) =
          .ok () m →
        MethodFits lib msgType m bytes size 8

theorem decided_protobufUnmarshal {bytes : Bytes} {size : Nat} {m : Message D I}
    {input : ByteBuffer} (hinput : input.bytes = bytes.drop 4) (hlength : 8 ≤ bytes.length)
    (hmagic : uint32 (bytes.drop 4) &&& magicMask = protobufV1Magic)
    (hsize : m.payloadLen = (size : Int) - 4) (hfour : 4 ≤ size) :
    Decided bytes size (8 ≤ size ∧ ∀ m',
        updateMsgType (uint32 (bytes.drop 4) &&& frontMask) m = .ok () m' →
          MethodFits lib (uint32 (bytes.drop 4) &&& frontMask) m' bytes size 8)
      (protobufUnmarshal lib ⟨m, input⟩) := by
  refine Decided.onMessage ?_
  have hs : (⟨m, input⟩ : Decoding D I).input.bytes = bytes.drop 4 := hinput
  have hs' := consume_bytes hs 4
  have hread : readUint32 ⟨m, input⟩ =
      .ok (uint32 (bytes.drop 4)) (Decoding.consume ⟨m, input⟩ 4) := by
    rw [readUint32_of_le (by simp only [hinput, List.length_drop]; omega), hinput]
  simp only [readMetaInfo, get_bind]
  rw [bind_of_ok hread]
  simp only [hmagic, ne_eq, not_true, if_false]
  by_cases hfit : 8 ≤ size
  · refine (decided_onMessage hs' hfit fun _ m' hm' => ?_).congr
      ⟨fun h _ m' => h.2 m', fun h => ⟨hfit, fun m' => h () m'⟩⟩
    have hlen : m.payloadLen = (size : Int) - (8 : Nat) + 4 := by omega
    rw [hlen]
    exact decided_readMethodAndBuf (s := ⟨m', _⟩) hs' hfit hlength
  · refine ⟨fun h => absurd h.1 hfit, fun _ => ?_⟩
    exact ((forward_onMessage _).bind fun _ => forward_readMethodAndBuf _ _).past hs' (by omega)
      hlength

theorem checkPayload_of_limit {codec maxSize : Int} {err : CodecError}
    (hsniff : sniff flagBuf = .ok (codec, true)) (hlength : 4 ≤ s.input.bytes.length)
    (hlimit : checkPayloadSize (uint32 flagBuf) maxSize = .error err) :
    ∃ s', checkPayload flagBuf isTTHeader maxSize s = .error err s' ∧
      s'.input.bytes = s.input.bytes.drop 4 := by
  simp only [checkPayload, hsniff, if_true, modify_bind]
  rw [bind_of_ok (skip_of_le (by exact hlength))]
  simp only [get_bind, hlimit]
  exact ⟨_, rfl, rfl⟩

/-- A message with protobuf payload is decoded within its frame, and all of the frame if decoding
succeeds, if and only if the fields of the message that are read are in the frame. -/
theorem decode_within_iff_fits {thriftUnmarshal : Decode D I Unit} {flagBuf : Bytes}
    {isTTHeader : Bool} {s' : Decoding D I}
    (hheaders : decodeHeaders lib c s = .ok (flagBuf, isTTHeader) s')
    (hsniff : sniff flagBuf = .ok (protobuf, true))
    (hcodec : s'.message.payloadCodec.getD protobuf = protobuf) :
    Within s'.input.bytes (4 + uint32 s'.input.bytes) (decode lib c thriftUnmarshal s) ↔
      Fits lib c isTTHeader s' := by
  obtain ⟨rfl, hlength⟩ := decodeHeaders_eq_ok hheaders
  have hfirst : uint32 (s'.input.bytes.take 8) = uint32 s'.input.bytes := by
    simp [uint32, List.take_take]
  have hmagic := sniff_eq_protobuf hsniff
  rw [show uint32 ((s'.input.bytes.take 8).drop 4) = uint32 (s'.input.bytes.drop 4) by
    simp [uint32, List.drop_take, List.take_take]] at hmagic
  refine Decided.within_iff ?_
  cases hlimit : checkPayloadSize (uint32 s'.input.bytes) c.maxSize with
  | error err =>
    obtain ⟨t, hcheck, hleft⟩ : ∃ t, checkPayload (s'.input.bytes.take 8) isTTHeader c.maxSize s' =
        .error err t ∧ t.input.bytes = s'.input.bytes.drop 4 :=
      checkPayload_of_limit hsniff (by omega) (by rw [hfirst]; exact hlimit)
    have hmeta : decodeMeta lib c s = .error err t := by
      rw [decodeMeta, bind_of_ok hheaders]
      exact hcheck
    rw [decode, bind_of_error hmeta]
    refine ⟨fun _ => ⟨4, by omega, hleft⟩, fun h => absurd (fun hok => ?_) h⟩
    rw [hlimit] at hok
    cases hok
  | ok _ =>
    have hmeta : decodeMeta lib c s =
        .ok () ⟨s'.message.sniffed (s'.input.bytes.take 8) isTTHeader true protobuf,
          s'.input.advance 4⟩ := by
      rw [decodeMeta, bind_of_ok hheaders]
      exact checkPayload_of_sniff hsniff (fun _ => by omega) (by simpa [hfirst] using hlimit)
    rw [decode, bind_of_ok hmeta]
    have hproto : getPayloadCodec
        (s'.message.sniffed (s'.input.bytes.take 8) isTTHeader true protobuf) = protobuf := hcodec
    have hne : ¬ protobuf = thrift := by decide
    simp only [decodePayload, get_bind, hproto, if_neg hne, if_true]
    have hunmarshal : Decided s'.input.bytes (4 + uint32 s'.input.bytes) _ (protobufUnmarshal lib
        ⟨s'.message.sniffed (s'.input.bytes.take 8) isTTHeader true protobuf,
          s'.input.advance 4⟩) :=
      decided_protobufUnmarshal rfl hlength hmagic (by simp [Message.sniffed, hfirst]) (by omega)
    refine (hunmarshal.bind_same fun _ t => ?_).congr ⟨fun h => h hlimit, fun h _ => h⟩
    simp only [get_bind]
    split
    · exact ⟨_, _, rfl, rfl⟩
    · exact ⟨_, _, rfl, rfl⟩

/-- A frame that is as long as its message, before the next one. -/
def plainFrame : ByteBuffer :=
  ⟨[0, 0, 0, 16, 144, 1, 0, 1, 0, 0, 0, 1, 101, 0, 0, 0, 7, 1, 2, 3] ++ [9], "EOF", none, 0⟩

set_option maxRecDepth 4000 in
theorem decode_within_plainFrame :
    Within plainFrame.bytes 20 (decode plainRuntime newDefaultCodec (pure ())
      ⟨plainMessage .server .call purePayload thrift, plainFrame⟩) := by
  have hheaders : decodeHeaders plainRuntime newDefaultCodec
      ⟨plainMessage .server .call purePayload thrift, plainFrame⟩ =
        .ok (plainFrame.bytes.take 8, false)
          ⟨plainMessage .server .call purePayload thrift, plainFrame⟩ := rfl
  refine (decode_within_iff_fits hheaders rfl rfl).mpr fun _ => ⟨by decide +kernel, fun m _ => ?_⟩
  exact fun _ => ⟨by decide +kernel, fun _ _ => ⟨by decide +kernel, fun _ _ _ => by decide +kernel⟩⟩

set_option maxRecDepth 4000 in
/-- The length of a frame is 8, which leaves no room for a method name. Its message has the length
of a name all the same. Decoding succeeds, and five bytes of the next message are gone. -/
theorem exists_decode_past_frame : ∃ (frame following : Bytes) (s' : Decoding Bytes Unit),
      frame.length = 4 + uint32 frame ∧ following = [101, 0, 0, 0, 7, 42] ∧
      decode plainRuntime newDefaultCodec (pure ())
        ⟨plainMessage .server .call purePayload thrift, ⟨frame ++ following, "EOF", none, 0⟩⟩ =
          .ok () s' ∧
      s'.input.bytes = [42] :=
  ⟨[0, 0, 0, 8, 144, 1, 0, 1, 0, 0, 0, 1], _, _, by decide +kernel, rfl, rfl, rfl⟩

end Kitex.Codec
