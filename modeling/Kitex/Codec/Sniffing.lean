import Kitex.Codec.Encoded

/-! # Decoding the meta of an encoded message

The first two words of a message tell its protocol and its payload codec: no length and no length of
a name looks like a magic number.
-/

namespace Kitex.Codec

open Kitex.Thrift Kitex.Thrift.Binary Kitex.Machine.Fallible Message

variable {D I : Type} {lib : Runtime D I} {c : CodecConfig} {m sent receiver : Message D I}
  {body following bytes : Bytes} {n : Nat}

/-! ## Words -/

theorem uint32_append (hn : n < 2 ^ 32) (rest : Bytes) : uint32 (bigEndian 4 n ++ rest) = n := by
  rw [uint32, List.take_append_of_le_length (by simp), List.take_of_length_le (by simp)]
  exact fromBigEndian_bigEndian hn

theorem and_magicMask (hn : n < 2 ^ 32) : n &&& magicMask = n / 2 ^ 16 * 2 ^ 16 := by
  apply Nat.eq_of_testBit_eq
  intro i
  rw [show magicMask = (2 ^ 16 - 1) <<< 16 by decide, ← Nat.shiftLeft_eq, Nat.testBit_and,
    Nat.testBit_shiftLeft, Nat.testBit_two_pow_sub_one, Nat.testBit_shiftLeft,
    Nat.testBit_div_two_pow]
  by_cases hlow : 16 ≤ i
  · by_cases hhigh : i < 32
    · have hroom : i - 16 < 16 := by omega
      simp [hlow, hroom]
    · have hbit : n.testBit i = false :=
        Nat.testBit_lt_two_pow (lt_of_lt_of_le hn (Nat.pow_le_pow_right (by decide) (by omega)))
      simp [hlow, hbit]
  · simp [hlow]

/-- The first two words of the bytes. -/
structure Words (bytes : Bytes) (first second : Nat) : Prop where
  first_lt : first < 2 ^ 32
  second_lt : second < 2 ^ 32
  eq : ∃ rest, bytes = bigEndian 4 first ++ (bigEndian 4 second ++ rest)

namespace Words

variable {first second : Nat} (h : Words bytes first second)

include h

theorem length_le : 8 ≤ bytes.length := by
  obtain ⟨rest, rfl⟩ := h.eq
  simp only [List.length_append, length_bigEndian]
  omega

theorem uint32_first : uint32 (bytes.take 8) = first := by
  obtain ⟨rest, rfl⟩ := h.eq
  exact uint32_append h.first_lt _

theorem uint32_second : uint32 ((bytes.take 8).drop 4) = second := by
  obtain ⟨rest, rfl⟩ := h.eq
  exact uint32_append h.second_lt _

end Words

/-! ## The words of a message -/

theorem magicOf_le (codec : Int) :
    magicOf codec = thriftV1Magic ∨ magicOf codec = protobufV1Magic := by
  unfold magicOf
  split
  · exact .inl rfl
  · exact .inr rfl

theorem messageType_lt (messageType : MessageType) : messageType.toNat < 7 := by
  cases messageType <;> decide

/-- The word with the magic number. -/
def magicWord (m : Message D I) : Nat := magicOf (getPayloadCodec m) + m.messageType.toNat

theorem magicWord_bounds (m : Message D I) : 2 ^ 31 ≤ magicWord m ∧ magicWord m < 0xffaf0000 ∧
      magicWord m / 2 ^ 16 * 2 ^ 16 = magicOf (getPayloadCodec m) := by
  have htype := messageType_lt m.messageType
  unfold magicWord
  rcases magicOf_le (getPayloadCodec m) with h | h <;> rw [h]
  · simp only [thriftV1Magic]
    omega
  · simp only [protobufV1Magic]
    omega

theorem frame_words (following : Bytes) (hname : m.methodName.length < 2 ^ 28)
    (hpayload : (m.payload body).length < 2 ^ 31) :
    Words (m.frame body ++ following) (if m.isFramed then (m.payload body).length else magicWord m)
      (if m.isFramed then magicWord m else m.methodName.length) := by
  have hmagic : magicWord m < 2 ^ 32 := by
    have hbounds := magicWord_bounds m
    omega
  cases hframed : m.isFramed with
  | true =>
    simp only [if_true]
    refine ⟨by omega, hmagic, ?_⟩
    simp only [frame, hframed, if_true, payload, metaInfo,
      List.append_assoc]
    exact ⟨_, rfl⟩
  | false =>
    simp only [Bool.false_eq_true, if_false]
    refine ⟨hmagic, by omega, ?_⟩
    simp only [frame, hframed, Bool.false_eq_true, if_false, payload,
      metaInfo, List.append_assoc]
    exact ⟨_, rfl⟩

/-- The payload codec is one that the protocol of the message can carry. -/
def Carries (m : Message D I) : Prop :=
  getPayloadCodec m = thrift ∨ getPayloadCodec m = protobuf ∧ m.isFramed

theorem sniff_frame (following : Bytes) (hcarries : Carries m)
    (hname : m.methodName.length < 2 ^ 28) (hpayload : (m.payload body).length < 2 ^ 31) :
    sniff ((m.frame body ++ following).take 8) = .ok (getPayloadCodec m, m.isFramed) := by
  have hwords := frame_words following hname hpayload
  obtain ⟨-, hlt, hmagic⟩ := magicWord_bounds m
  have hword : magicWord m &&& magicMask = magicOf (getPayloadCodec m) := by
    rw [and_magicMask (by omega), hmagic]
  simp only [sniff, isThriftBinary, isThriftFramedBinary, isProtobufKitex, hwords.uint32_first,
    hwords.uint32_second]
  cases hframed : m.isFramed with
  | true =>
    have hlength : ¬ (m.payload body).length &&& magicMask = thriftV1Magic := by
      rw [and_magicMask (by omega)]
      simp only [thriftV1Magic]
      omega
    simp only [if_true, decide_eq_true_eq, if_neg hlength, hword]
    rcases hcarries with hcodec | ⟨hcodec, -⟩
    · simp [hcodec, magicOf]
    · rw [hcodec]
      rfl
  | false =>
    simp only [Bool.false_eq_true, if_false, decide_eq_true_eq, hword]
    rcases hcarries with hcodec | ⟨-, hframed'⟩
    · simp [hcodec, magicOf]
    · rw [hframed] at hframed'
      cases hframed'

/-- A message without a header is not taken for one with a header. -/
theorem not_header_frame (following : Bytes) (hname : m.methodName.length < 2 ^ 28)
    (hpayload : (m.payload body).length < 2 ^ 31) :
    isTTHeader ((m.frame body ++ following).take 8) = false ∧
      isMeshHeader ((m.frame body ++ following).take 8) = false := by
  have hwords := frame_words following hname hpayload
  obtain ⟨hge, hlt, -⟩ := magicWord_bounds m
  simp only [isTTHeader, isMeshHeader, hwords.uint32_first, hwords.uint32_second,
    decide_eq_false_iff_not]
  cases hframed : m.isFramed with
  | true =>
    simp only [if_true]
    rw [and_magicMask (by omega), and_magicMask (by omega)]
    simp only [ttHeaderMagic, meshHeaderMagic]
    omega
  | false =>
    simp only [Bool.false_eq_true, if_false]
    rw [and_magicMask (by omega), and_magicMask (by omega)]
    simp only [ttHeaderMagic, meshHeaderMagic]
    omega

/-! ## Headers -/

/-- The library of headers reads what it has written: the header has its magic number after the
length field, it is not larger than its own length field allows, and decoding it gives what was
encoded and the length of what follows it. -/
structure TTHeaderRoundTrips (lib : Runtime D I) : Prop where
  magic : ∀ {param header}, lib.ttHeaderEncode param = .ok header →
    4 ≤ header.length ∧ uint32 header &&& magicMask = ttHeaderMagic
  length_lt : ∀ {param header}, lib.ttHeaderEncode param = .ok header → header.length < 2 ^ 20
  decode : ∀ {param header}, lib.ttHeaderEncode param = .ok header →
    ∀ payload following : Bytes, header.length + payload.length < 2 ^ 32 →
      lib.ttHeaderDecode
          (bigEndian 4 (header.length + payload.length) ++ (header ++ (payload ++ following))) =
        (.ok ⟨param.flags, param.seqID, param.protocolID, param.intInfo, param.strInfo,
          payload.length⟩, payload ++ following)

/-- The receiver's validator, if it has one, accepts what comes after the header. -/
def Validates (c : CodecConfig) (strInfo : AList fun _ : Bytes => Bytes) (payload : Bytes) : Prop :=
  ∀ pv ∈ c.payloadValidator,
    pv.validate ((strInfo.lookup (getValidatorKey pv)).getD []) payload = .ok true

variable {s : Decoding D I} {payload following : Bytes} {c' : CodecConfig}

theorem peek_of_le (h : n ≤ s.input.bytes.length) :
    peek n s = .ok (s.input.bytes.take n) s := if_pos h

theorem decodeHeaders_of_not_header (hlength : 8 ≤ s.input.bytes.length)
    (htt : isTTHeader (s.input.bytes.take 8) = false)
    (hmesh : isMeshHeader (s.input.bytes.take 8) = false) :
    decodeHeaders lib c s = .ok (s.input.bytes.take 8, false) s := by
  rw [decodeHeaders, bind_of_ok (adaptExcept_of_ok (peek_of_le hlength)), htt, hmesh]
  rfl

theorem fillBasicInfo_keeps (m : Message D I) : (fillBasicInfoOfTTHeader m).config = m.config ∧
      (fillBasicInfoOfTTHeader m).transStrInfo = m.transStrInfo := by
  unfold fillBasicInfoOfTTHeader
  cases m.rpcRole <;> exact ⟨rfl, rfl⟩

theorem fillRPCInfo_keeps (m : Message D I) : (fillRPCInfoBeforeValidate m).config = m.config ∧
      (fillRPCInfoBeforeValidate m).payloadLen = m.payloadLen ∧
      (fillRPCInfoBeforeValidate m).transStrInfo = m.transStrInfo := by
  unfold fillRPCInfoBeforeValidate
  cases m.rpcRole <;> exact ⟨rfl, rfl, rfl⟩

/-- A sequence id in the header is taken or not, and nothing else of the message changes. -/
theorem setOrCheckSeqID_cases (seqID : Int32) (m : Message D I) :
    setOrCheckSeqID seqID m = .ok () { m with seqID } ∧
        (m.messageType = .call ∨ m.messageType = .oneway) ∨
      setOrCheckSeqID seqID m = .ok () m ∧ m.messageType ≠ .call ∧ m.messageType ≠ .oneway ∧
        (m.messageType = .reply → m.seqID = seqID) ∨
      (∃ err, setOrCheckSeqID seqID m = .error err m) ∧ m.messageType = .reply ∧
        m.seqID ≠ seqID := by
  unfold setOrCheckSeqID
  simp only [get_bind]
  cases htype : m.messageType with
  | call => exact .inl ⟨rfl, .inl rfl⟩
  | oneway => exact .inl ⟨rfl, .inr rfl⟩
  | reply =>
    by_cases hseq : m.seqID = seqID
    · refine .inr (.inl ⟨?_, by simp, by simp, fun _ => hseq⟩)
      simp only [hseq, ne_eq, not_true, if_false]
      rfl
    · refine .inr (.inr ⟨?_, rfl, hseq⟩)
      simp only [ne_eq, hseq, not_false_eq_true, if_true]
      exact ⟨_, rfl⟩
  | _ => exact .inr (.inl ⟨rfl, by simp, by simp, by simp⟩)

theorem setDecodeParam_keeps (param : DecodeParam) (m : Message D I) :
    (setDecodeParam param m).config = m.config ∧
      (setDecodeParam param m).payloadLen = param.payloadLen ∧
      (setDecodeParam param m).transStrInfo = param.strInfo ∪ m.transStrInfo := by
  -- the message after the flags and the sequence id
  let flagged := if m.messageType = .call then { m with headerFlags := some param.flags } else m
  have hflagged : flagged.config = m.config ∧ flagged.transStrInfo = m.transStrInfo := by
    simp only [flagged]
    split <;> exact ⟨rfl, rfl⟩
  unfold setDecodeParam
  rcases setOrCheckSeqID_cases param.seqID flagged with ⟨h, -⟩ | ⟨h, -⟩ | ⟨⟨err, h⟩, -⟩ <;>
    simp only [flagged] at h <;> simp only [h, fillBasicInfo_keeps] <;>
    exact ⟨hflagged.1, trivial, congrArg _ hflagged.2⟩

/-- The validator accepts the payload, or the message is refused with its error. -/
theorem payloadChecksumValidate_cases (pv : PayloadValidator)
    (hbytes : s.input.bytes = payload ++ following)
    (hlen : s.message.payloadLen = payload.length) :
    pv.validate ((s.message.transStrInfo.lookup (getValidatorKey pv)).getD []) payload = .ok true ∧
        payloadChecksumValidate pv s =
          .ok () { s with message := fillRPCInfoBeforeValidate s.message } ∨
      pv.validate ((s.message.transStrInfo.lookup (getValidatorKey pv)).getD []) payload ≠
          .ok true ∧
        ∃ msg s', payloadChecksumValidate pv s = .error (.other msg) s' := by
  obtain ⟨-, hpayloadLen, hstr⟩ := fillRPCInfo_keeps s.message
  simp only [payloadChecksumValidate, modify_bind, get_bind, hpayloadLen, hlen, Int.toNat_natCast]
  rw [bind_of_ok (peek_of_le (by simp [hbytes]))]
  simp only [hbytes, List.take_left, hstr]
  cases hvalidate : pv.validate _ payload with
  | error err => exact .inr ⟨by simp, _, _, rfl⟩
  | ok pass =>
    cases pass with
    | true => exact .inl ⟨rfl, rfl⟩
    | false => exact .inr ⟨by simp, _, _, rfl⟩

theorem decodeHeaders_ttHeader (hlib : TTHeaderRoundTrips lib) {param : EncodeParam}
    {header : Bytes} (hheader : lib.ttHeaderEncode param = .ok header)
    (hpayload : 8 ≤ payload.length) (htotal : header.length + payload.length < 2 ^ 32)
    (hbytes : s.input.bytes =
      bigEndian 4 (header.length + payload.length) ++ (header ++ (payload ++ following))) :
    Validates c (param.strInfo ∪ s.message.transStrInfo) payload ∧
      (∃ s', decodeHeaders lib c s = .ok ((payload ++ following).take 8, true) s' ∧
        s'.input.bytes = payload ++ following ∧ s'.message.config = s.message.config ∧
        s'.message.payloadLen = payload.length) ∨
    ¬ Validates c (param.strInfo ∪ s.message.transStrInfo) payload ∧
      ∃ msg s', decodeHeaders lib c s = .error (.other msg) s' := by
  obtain ⟨hfour, hmagic⟩ := hlib.magic hheader
  have hflag : isTTHeader (s.input.bytes.take 8) = true := by
    have hdrop : (s.input.bytes.take 8).drop 4 = header.take 4 := by
      rw [hbytes, List.drop_take, List.drop_append_of_le_length (by simp),
        List.drop_of_length_le (by simp), List.nil_append, List.take_append_of_le_length hfour]
    rw [uint32] at hmagic
    simp [isTTHeader, hdrop, uint32, List.take_take, hmagic]
  have hlength : 8 ≤ s.input.bytes.length := by
    simp only [hbytes, List.length_append, length_bigEndian]
    omega
  have hdecode := hlib.decode hheader payload following htotal
  rw [← hbytes] at hdecode
  rw [decodeHeaders, bind_of_ok (adaptExcept_of_ok (peek_of_le hlength)), if_pos hflag,
    bind_of_ok (a := ()) (by rw [ttHeaderDecode, hdecode])]
  obtain ⟨hconfig, hlen, hstr⟩ := setDecodeParam_keeps
    ⟨param.flags, param.seqID, param.protocolID, param.intInfo, param.strInfo, payload.length⟩
    s.message
  rw [bind_of_ok (adaptExcept_of_ok (peek_of_le (by simp; omega)))]
  cases hpv : c.payloadValidator with
  | none =>
    exact .inl ⟨fun pv h => absurd (hpv.symm.trans h) (by simp), _, rfl, rfl, hconfig, hlen⟩
  | some pv =>
    simp only
    generalize setDecodeParam _ s.message = received at hconfig hlen hstr ⊢
    generalize hrest : ByteBuffer.mk (payload ++ following) .. = rest
    have hbytes : rest.bytes = payload ++ following := by rw [← hrest]
    rcases payloadChecksumValidate_cases (s := ⟨received, rest⟩) pv hbytes hlen with
      ⟨hpass, haccept⟩ | ⟨hrefuse, msg, s', herror⟩
    · rw [bind_of_ok haccept]
      rw [hstr] at hpass
      refine .inl ⟨fun other hother => ?_, _, rfl, hbytes, ?_, ?_⟩
      · rw [hpv] at hother
        cases hother
        exact hpass
      · exact (fillRPCInfo_keeps _).1.trans hconfig
      · exact (fillRPCInfo_keeps _).2.1.trans hlen
    · rw [bind_of_error herror]
      rw [hstr] at hrefuse
      exact .inr ⟨fun hvalid => hrefuse (hvalid pv hpv), msg, s', rfl⟩

/-! ## `checkPayload` -/

theorem skip_of_le (h : n ≤ s.input.bytes.length) :
    skip n s = .ok () { s with input := s.input.advance n } := if_pos h

/-- The message after `checkPayload`. -/
def Message.sniffed (m : Message D I) (flagBuf : Bytes) (isTTHeader isFramed : Bool) (codec : Int) :
    Message D I :=
  { m with
    payloadLen := if isFramed then uint32 flagBuf else m.payloadLen
    config := (m.config.call (.setTransportProtocol (protocolOf isTTHeader isFramed))).call
      (.setPayloadCodec codec) }

theorem checkPayload_of_sniff {flagBuf : Bytes} {isTTHeader isFramed : Bool} {codec maxSize : Int}
    (hsniff : sniff flagBuf = .ok (codec, isFramed)) (hlength : isFramed → 4 ≤ s.input.bytes.length)
    (hlimit : checkPayloadSize (if isFramed then uint32 flagBuf else s.message.payloadLen) maxSize =
      .ok ()) : checkPayload flagBuf isTTHeader maxSize s =
      .ok () ⟨s.message.sniffed flagBuf isTTHeader isFramed codec,
        if isFramed then s.input.advance 4 else s.input⟩ := by
  simp only [checkPayload, hsniff]
  cases isFramed with
  | true =>
    simp only [if_true] at hlimit ⊢
    simp only [modify_bind]
    rw [bind_of_ok (skip_of_le (by exact hlength rfl))]
    simp only [get_bind, hlimit]
    rfl
  | false =>
    simp only [Bool.false_eq_true, if_false] at hlimit ⊢
    simp only [get_bind, hlimit]
    rfl

/-! ## `DecodeMeta` -/

/-- What `DecodeMeta` gives for a message: the payload codec, the protocol in addition to what the
receiver has, and the payload with its length. -/
structure MetaOf (m : Message D I) (payload following : Bytes) (receiver : Message D I)
    (s : Decoding D I) : Prop where
  bytes : s.input.bytes = payload ++ following
  payloadCodec : s.message.config.payloadCodec = getPayloadCodec m
  transportProtocol : s.message.config.transportProtocol =
    (receiver.config.call (.setTransportProtocol m.protocol)).transportProtocol
  payloadLen : m.protocol ≠ purePayload → s.message.payloadLen = payload.length

theorem decodeMeta_of_frame (hcarries : Carries m) (hname : m.methodName.length < 2 ^ 28)
    (hpayload : (m.payload body).length < 2 ^ 31)
    {s' : Decoding D I} (hheaders : decodeHeaders lib c' s =
      .ok ((m.frame body ++ following).take 8, m.hasTTHeader) s')
    (hbytes : s'.input.bytes = m.frame body ++ following)
    (hconfig : s'.message.config = receiver.config)
    (hlen : m.isFramed = false → m.hasTTHeader → s'.message.payloadLen = (m.payload body).length)
    (hlimit : checkPayloadSize
      (if m.isFramed then (m.payload body).length else s'.message.payloadLen) c'.maxSize = .ok ()) :
    ∃ s'', decodeMeta lib c' s = .ok () s'' ∧ MetaOf m (m.payload body) following receiver s'' := by
  have hsniff := sniff_frame following hcarries hname hpayload
  have hwords := frame_words following hname hpayload
  have hfirst := hwords.uint32_first
  rw [decodeMeta, bind_of_ok hheaders]
  dsimp only
  cases hframed : m.isFramed with
  | true =>
    simp only [hframed, if_true] at hfirst hlimit hsniff
    rw [checkPayload_of_sniff hsniff
      (fun _ => by have := hwords.length_le; rw [hbytes]; omega) (by simpa [hfirst] using hlimit)]
    refine ⟨_, rfl, ?_, rfl, ?_, fun _ => ?_⟩
    · have hdrop : (m.frame body ++ following).drop 4 = m.payload body ++ following := by
        simp only [frame, hframed, if_true, List.append_assoc]
        rfl
      simp only [if_true, ByteBuffer.advance, hbytes, hdrop]
    · simp only [sniffed, hconfig, protocol, hframed]
      rfl
    · simp only [sniffed, if_true, hfirst]
  | false =>
    simp only [hframed, Bool.false_eq_true, if_false] at hlimit hsniff
    rw [checkPayload_of_sniff hsniff (by simp) (by simpa using hlimit)]
    refine ⟨_, rfl, ?_, rfl, ?_, fun hpure => ?_⟩
    · simp [hbytes, frame, hframed]
    · simp only [sniffed, hconfig, protocol, hframed]
      rfl
    · apply hlen hframed
      cases htt : m.hasTTHeader with
      | true => rfl
      | false => exact absurd (by simp [protocol, htt, hframed, protocolOf]) hpure

/-- The length that the receiver compares with its limit: the length of the payload, and without one
what the receiver has. -/
def checkedLen (m : Message D I) (body : Bytes) (receiver : Message D I) : Int :=
  if m.protocol = purePayload then receiver.payloadLen else (m.payload body).length

theorem protocol_eq_purePayload :
    m.protocol = purePayload ↔ m.hasTTHeader = false ∧ m.isFramed = false := by
  unfold protocol
  cases m.hasTTHeader <;> cases m.isFramed <;> decide

/-- The meta of an encoded message is decoded, unless the validator refuses the message. -/
theorem decodeMeta_of_encoded (hlib : TTHeaderRoundTrips lib) (hcarries : Carries m)
    (hname : m.methodName.length < 2 ^ 28) (hpayload : (m.payload body).length < 2 ^ 31)
    (hencoded : Encoded lib m sent body bytes) {input : ByteBuffer}
    (hbytes : input.bytes = bytes ++ following)
    (hlimit : checkPayloadSize (checkedLen m body receiver) c'.maxSize = .ok ()) :
    (∃ s, decodeMeta lib c' ⟨receiver, input⟩ = .ok () s ∧
      MetaOf m (m.payload body) following receiver s) ∨ m.hasTTHeader = true ∧
      ¬ Validates c' (sent.transStrInfo ∪ receiver.transStrInfo) (m.frame body) ∧
      ∃ msg s, decodeMeta lib c' ⟨receiver, input⟩ = .error (.other msg) s := by
  have hframe : (m.frame body).length ≤ (m.payload body).length + 4 ∧
      12 ≤ (m.frame body).length := by
    simp only [frame, payload, metaInfo]
    split <;> simp only [List.length_append, length_bigEndian] <;> omega
  unfold Encoded at hencoded
  unfold checkedLen at hlimit
  simp only [protocol_eq_purePayload] at hlimit
  cases htt : m.hasTTHeader with
  | false =>
    simp only [htt, Bool.false_eq_true, if_false] at hencoded
    subst hencoded
    obtain ⟨hnot, hmesh⟩ := not_header_frame following hname hpayload
    rw [← hbytes] at hnot hmesh
    have hlength : 8 ≤ input.bytes.length := by
      simp only [hbytes, List.length_append]
      omega
    have hheaders : decodeHeaders lib c' ⟨receiver, input⟩ = .ok (input.bytes.take 8, false) _ :=
      decodeHeaders_of_not_header hlength hnot hmesh
    rw [hbytes, ← htt] at hheaders
    refine .inl (decodeMeta_of_frame hcarries hname hpayload hheaders hbytes rfl
      (fun _ h => by rw [htt] at h; cases h) ?_)
    cases hframed : m.isFramed <;> simpa [htt, hframed] using hlimit
  | true =>
    simp only [htt, if_true] at hencoded
    obtain ⟨header, hheader, rfl⟩ := hencoded
    have hlt := hlib.length_lt hheader
    rw [List.append_assoc, List.append_assoc] at hbytes
    rcases decodeHeaders_ttHeader (s := ⟨receiver, input⟩) (c := c') hlib hheader (by omega)
        (by omega) hbytes with
      ⟨-, s', hheaders, hbytes', hconfig, hlen⟩ | ⟨hrefused, msg, s', herror⟩
    · rw [← htt] at hheaders
      refine .inl (decodeMeta_of_frame hcarries hname hpayload hheaders hbytes' hconfig
        (fun hframed _ => ?_) ?_)
      · simpa [frame, hframed] using hlen
      · cases hframed : m.isFramed with
        | true => simpa [htt, hframed] using hlimit
        | false =>
          rw [hlen]
          simpa [frame, htt, hframed] using hlimit
    · rw [decodeMeta, bind_of_error herror]
      exact .inr ⟨rfl, hrefused, msg, s', rfl⟩

end Kitex.Codec
