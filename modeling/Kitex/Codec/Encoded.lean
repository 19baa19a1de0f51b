import Kitex.Codec.DefaultCodec
import Kitex.Machine.Fallible

/-! # The bytes of an encoded message

A message is its header, if its protocol has one, its length field, if its protocol has one, and the
payload.
-/

namespace Kitex.Codec

open Kitex.Thrift Kitex.Thrift.Binary Kitex.Machine.Fallible Message

variable {D I : Type}

/-! ## Layout -/

/-- The magic number that payloads of a codec begin with. -/
def magicOf (codec : Int) : Nat := if codec = thrift then thriftV1Magic else protobufV1Magic

namespace Message

variable (m : Message D I)

def hasTTHeader : Bool := m.config.transportProtocol &&& ttHeader = ttHeader

def isFramed : Bool := m.config.transportProtocol &&& framed = framed

/-- The protocol that a message is encoded over. -/
def protocol : Nat := protocolOf m.hasTTHeader m.isFramed

def metaInfo : Bytes :=
  bigEndian 4 (magicOf (getPayloadCodec m) + m.messageType.toNat) ++
    (bigEndian 4 m.methodName.length ++ (m.methodName ++ bigEndian 4 (seqIDBits m.seqID)))

def payload (body : Bytes) : Bytes := m.metaInfo ++ body

/-- The payload with its length field. -/
def frame (body : Bytes) : Bytes :=
  if m.isFramed then bigEndian 4 (m.payload body).length ++ m.payload body else m.payload body

/-- The bytes of the data. -/
def body (lib : Runtime D I) : Except CodecError Bytes :=
  match newDataIfNeeded lib m with
  | .error err _ => .error err
  | .ok data _ =>
    if getPayloadCodec m = thrift then lib.writeThrift m.messageType data
    else (getValidData lib m data).bind fun writer => writer.body m.methodName

/-- What goes into the header. -/
def headerParam : EncodeParam :=
  ⟨m.headerFlags.getD 0, m.seqID, 0, m.transIntInfo, m.transStrInfo⟩

end Message

variable {lib : Runtime D I} {c : CodecConfig} {m : Message D I} {s s' : Encoding D I}

theorem newDataIfNeeded_eq_ok {data : D} {m' : Message D I}
    (h : newDataIfNeeded lib m = .ok data m') : m' = { m with data := some data } := by
  simp only [newDataIfNeeded, get_bind] at h
  cases hdata : m.data with
  | some data =>
    simp only [hdata] at h
    cases h
    rw [← hdata]
  | none =>
    simp only [hdata] at h
    cases hargs : m.methodInfo.bind lib.newArgs with
    | some data =>
      simp only [hargs] at h
      cases h
      rfl
    | none =>
      simp only [hargs] at h
      cases h

theorem onMessage_eq_ok {α : Type} {f : EStateM CodecError (Message D I) α} {a : α}
    (h : Encode.onMessage f s = .ok a s') : f s.message = .ok a s'.message ∧ s'.out = s.out := by
  simp only [Encode.onMessage] at h
  split at h
  · cases h
    exact ⟨‹_›, rfl⟩
  · cases h

theorem thriftMagic_or (messageType : MessageType) :
    thriftV1Magic ||| messageType.toNat = thriftV1Magic + messageType.toNat := by
  cases messageType <;> decide

/-- A payload codec has succeeded, and the bytes have been written. -/
structure Wrote (lib : Runtime D I) (s s' : Encoding D I) (body bytes : Bytes) : Prop where
  body_eq : s.message.body lib = .ok body
  codec : getPayloadCodec s.message = thrift ∨ getPayloadCodec s.message = protobuf
  methodName_ne : s.message.methodName ≠ []
  message : ∃ data, s'.message = { s.message with data := some data }
  out : s'.out = s.out ++ bytes

theorem thriftMarshal_eq_ok (hcodec : getPayloadCodec s.message = thrift)
    (h : thriftMarshal lib s = .ok () s') :
    ∃ body, Wrote lib s s' body (s.message.payload body) := by
  simp only [thriftMarshal, get_bind] at h
  split at h
  · simp at h
  · rename_i hname
    obtain ⟨data, t, hdata, h⟩ := bind_eq_ok h
    obtain ⟨hdata, hout⟩ := onMessage_eq_ok hdata
    cases hbody : lib.writeThrift s.message.messageType data with
    | error err =>
      simp only [hbody] at h
      cases h
    | ok body =>
      simp only [hbody, writeUint32, writeString, writeBinary] at h
      cases h
      refine ⟨body, ?_, .inl hcodec, hname, ⟨data, newDataIfNeeded_eq_ok hdata⟩, ?_⟩
      · simp [Message.body, hdata, hcodec, hbody]
      · simp [Message.payload, Message.metaInfo, magicOf, hcodec, thriftMagic_or, hout]

theorem protobufMarshal_eq_ok (hcodec : getPayloadCodec s.message = protobuf)
    (h : protobufMarshal lib s = .ok () s') :
    ∃ body, Wrote lib s s' body (s.message.payload body) := by
  simp only [protobufMarshal, get_bind] at h
  split at h
  · simp at h
  · rename_i hname
    obtain ⟨data, t, hdata, h⟩ := bind_eq_ok h
    obtain ⟨hdata, hout⟩ := onMessage_eq_ok hdata
    have hthrift : ¬ protobuf = thrift := by decide
    cases hwriter : getValidData lib s.message data with
    | error err =>
      simp only [hwriter] at h
      cases h
    | ok writer =>
      simp only [hwriter, writeUint32, writeString, writeBinary, modify_bind] at h
      cases hbody : writer.body s.message.methodName with
      | error err =>
        simp only [hbody] at h
        cases h
      | ok body =>
        simp only [hbody] at h
        cases h
        refine ⟨body, ?_, .inr hcodec, hname, ⟨data, newDataIfNeeded_eq_ok hdata⟩, ?_⟩
        · simp [Message.body, hdata, hcodec, hthrift, hwriter, hbody, Except.bind]
        · simp [Message.payload, Message.metaInfo, magicOf, hcodec, hthrift, hout]

theorem marshal_eq_ok (h : marshal lib s = .ok () s') :
    ∃ body, Wrote lib s s' body (s.message.payload body) := by
  simp only [marshal, get_bind] at h
  split at h
  · exact thriftMarshal_eq_ok ‹_› h
  · split at h
    · exact protobufMarshal_eq_ok ‹_› h
    · cases h

theorem malloc_bind {β : Type} {n : Nat} {f : Nat → Encode D I β} :
    (malloc n >>= f) s = f s.out.length { s with out := s.out ++ List.replicate n 0 } := rfl

/-- The length field is filled in at its place. -/
theorem fill_replicate (before rest : Bytes) (n : Nat) :
    (before ++ List.replicate 4 0 ++ rest).take before.length ++ bigEndian 4 n ++
        (before ++ List.replicate 4 0 ++ rest).drop (before.length + 4) =
      before ++ (bigEndian 4 n ++ rest) := by
  simp

theorem encodeFramed_eq_ok {payloadLen : Int}
    (h : encodeFramed lib s.message.isFramed s = .ok payloadLen s') :
    ∃ body, Wrote lib s s' body (s.message.frame body) ∧
      payloadLen = if s.message.isFramed then ((s.message.payload body).length : Int) else 0 := by
  simp only [encodeFramed, get_bind] at h
  cases hframed : s.message.isFramed with
  | true =>
    simp only [hframed, if_true, malloc_bind] at h
    obtain ⟨_, t, hmarshal, h⟩ := bind_eq_ok h
    obtain ⟨body, hbody⟩ := marshal_eq_ok hmarshal
    cases h
    have hlength : t.out.length - (s.out.length + 4) = (s.message.payload body).length := by
      rw [hbody.out]
      simp only [List.length_append, List.length_replicate]
      omega
    refine ⟨body, { hbody with out := ?_ }, ?_⟩
    · simp only [hlength, frame, hframed, if_true]
      rw [hbody.out, fill_replicate]
    · simp only [hlength, if_true]
  | false =>
    simp only [hframed, Bool.false_eq_true, if_false] at h
    obtain ⟨_, t, hmarshal, h⟩ := bind_eq_ok h
    obtain ⟨body, hbody⟩ := marshal_eq_ok hmarshal
    split at h
    · cases h
    · cases h
      refine ⟨body, { hbody with out := ?_ }, rfl⟩
      rw [hbody.out]
      simp [frame, hframed]

/-- The length that `EncodePayload` compares with the limit: of all that is in its buffer after
the first four bytes, if there is a header, and else of the payload in its frame. -/
def Message.measuredLen (m : Message D I) (body written : Bytes) : Int :=
  if m.hasTTHeader then written.length - 4
  else if m.isFramed then (m.payload body).length else 0

theorem encodePayload_eq_ok (h : encodePayload lib c s = .ok () s') :
    ∃ body, Wrote lib s s' body (s.message.frame body) ∧
      checkPayloadSize (s.message.measuredLen body s'.out) c.maxSize = .ok () := by
  simp only [encodePayload, get_bind] at h
  obtain ⟨payloadLen, t, hframed, h⟩ := bind_eq_ok h
  simp only [get_bind] at h
  obtain ⟨body, hbody, hlen⟩ := encodeFramed_eq_ok hframed
  cases hchecked : checkPayloadSize _ _ with
  | error err =>
    rw [hchecked] at h
    cases h
  | ok _ =>
    rw [hchecked] at h
    cases h
    refine ⟨body, hbody, ?_⟩
    simpa [measuredLen, hasTTHeader, hlen] using hchecked

/-- The bytes of a message with a given body. The message that was sent has the maps that went into
the header. -/
def Encoded (lib : Runtime D I) (m sent : Message D I) (body bytes : Bytes) : Prop :=
  if m.hasTTHeader then
    ∃ header, lib.ttHeaderEncode sent.headerParam = .ok header ∧
      bytes = bigEndian 4 (header.length + (m.frame body).length) ++ (header ++ m.frame body)
  else bytes = m.frame body

theorem ttHeaderEncode_eq_ok {place : Nat} (h : ttHeaderEncode lib s = .ok place s') :
    ∃ header, lib.ttHeaderEncode s.message.headerParam = .ok header ∧ place = s.out.length ∧
      s' = { s with out := s.out ++ List.replicate 4 0 ++ header } := by
  simp only [ttHeaderEncode, get_bind] at h
  cases hheader : lib.ttHeaderEncode s.message.headerParam with
  | error err =>
    rw [headerParam] at hheader
    simp only [hheader] at h
    cases h
  | ok header =>
    rw [headerParam] at hheader
    simp only [hheader, malloc_bind] at h
    cases h
    exact ⟨header, rfl, rfl, rfl⟩

/-- The header and the frame after it, once the length of both is filled in. -/
theorem fillTotalLen_apply (m : Message D I) (header frame : Bytes) :
    fillTotalLen 0 ⟨m, List.replicate 4 0 ++ header ++ frame⟩ =
      .ok () ⟨m, bigEndian 4 (header.length + frame.length) ++ (header ++ frame)⟩ := by
  have hlength : (List.replicate 4 (0 : UInt8) ++ header ++ frame).length - 4 =
      header.length + frame.length := by
    simp only [List.length_append, List.length_replicate]
    omega
  have hfill := fill_replicate [] (header ++ frame) (header.length + frame.length)
  simp only [List.nil_append, List.length_nil, ← List.append_assoc] at hfill
  simp only [fillTotalLen, get_bind, putUint32, modify_apply, hlength]
  rw [hfill, List.append_assoc]

/-- With a validator the payload has a buffer of its own when it is measured. -/
theorem encodeMetaAndPayload_eq_ok (h : encodeMetaAndPayload lib c ⟨m, []⟩ = .ok () s') :
    ∃ body, m.body lib = .ok body ∧ m.methodName ≠ [] ∧
      (getPayloadCodec m = thrift ∨ getPayloadCodec m = protobuf) ∧
      Encoded lib m s'.message body s'.out ∧
      checkPayloadSize (m.measuredLen body
        (if c.payloadValidator.isSome then m.frame body else s'.out)) c.maxSize = .ok () := by
  simp only [encodeMetaAndPayload, get_bind] at h
  cases htt : m.hasTTHeader with
  | false =>
    have hnot : ¬ m.config.transportProtocol &&& ttHeader = ttHeader := by
      simpa [hasTTHeader] using htt
    rw [if_neg hnot] at h
    obtain ⟨body, hbody, hmeasured⟩ := encodePayload_eq_ok h
    refine ⟨body, hbody.body_eq, hbody.methodName_ne, hbody.codec, ?_, ?_⟩
    · simpa [Encoded, htt] using hbody.out
    · simpa [measuredLen, htt] using hmeasured
  | true =>
    have hpos : m.config.transportProtocol &&& ttHeader = ttHeader := by
      simpa [hasTTHeader] using htt
    rw [if_pos hpos] at h
    simp only [Encoded, htt, if_true]
    cases hvalidator : c.payloadValidator with
    | none =>
      simp only [hvalidator] at h
      obtain ⟨place, t, hheader, h⟩ := bind_eq_ok h
      obtain ⟨header, hencode, rfl, rfl⟩ := ttHeaderEncode_eq_ok hheader
      obtain ⟨_, ⟨message, out⟩, hpayload, h⟩ := bind_eq_ok h
      obtain ⟨body, hbody, hmeasured⟩ := encodePayload_eq_ok hpayload
      obtain ⟨data, rfl⟩ := hbody.message
      obtain rfl := hbody.out
      simp only [List.nil_append, List.length_nil] at h
      rw [fillTotalLen_apply] at h
      cases h
      refine ⟨body, hbody.body_eq, hbody.methodName_ne, hbody.codec, ⟨header, hencode, rfl⟩, ?_⟩
      exact hmeasured
    | some pv =>
      simp only [hvalidator, encodeMetaAndPayloadWithPayloadValidator, get_bind, modify_bind] at h
      obtain ⟨_, t, hpayload, h⟩ := bind_eq_ok h
      obtain ⟨body, hbody, hmeasured⟩ := encodePayload_eq_ok hpayload
      simp only [get_bind] at h
      obtain ⟨_, t', hchecksum, h⟩ := bind_eq_ok h
      simp only [modify_bind] at h
      obtain ⟨place, t'', hheader, h⟩ := bind_eq_ok h
      obtain ⟨header, hencode, rfl, rfl⟩ := ttHeaderEncode_eq_ok hheader
      have hout := hbody.out
      simp only [writeBinary, modify_bind, List.nil_append, List.length_nil, hout] at h
      rw [fillTotalLen_apply] at h
      cases h
      refine ⟨body, hbody.body_eq, hbody.methodName_ne, hbody.codec, ⟨header, hencode, rfl⟩, ?_⟩
      simpa [hout] using hmeasured

end Kitex.Codec
