import Kitex.Codec.Sniffing

/-! # Decoding an encoded message with protobuf payload

`protobufCodec.Unmarshal` after `DecodeMeta`, at a receiver that knows the method and expects the
sequence id: it gets what `protobufCodec.Marshal` has written.
-/

namespace Kitex.Codec

open Kitex.Thrift Kitex.Thrift.Binary Kitex.Machine.Fallible

variable {D I : Type} {lib : Runtime D I} {m sent receiver : Message D I}
  {body following bytes : Bytes} {s : Decoding D I} {n : Nat}

/-! ## Reading -/

/-- The reader has taken bytes. -/
def Decoding.consume (s : Decoding D I) (n : Nat) : Decoding D I :=
  { s with input := { s.input.advance n with readSize := s.input.readSize + n } }

theorem next_of_le (h : n ≤ s.input.bytes.length) :
    next n s = .ok (s.input.bytes.take n) (s.consume n) := by
  rw [next, if_neg (by omega), Int.toNat_natCast, if_pos h]
  rfl

theorem next_of_lt (h : s.input.bytes.length < n) : next n s = .error (.other s.input.err) s := by
  rw [next, if_neg (by omega), Int.toNat_natCast, if_neg (by omega)]

theorem readUint32_of_le (h : 4 ≤ s.input.bytes.length) :
    readUint32 s = .ok (uint32 s.input.bytes) (s.consume 4) := by
  have hnext : next 4 s = .ok (s.input.bytes.take 4) (s.consume 4) := next_of_le h
  rw [readUint32, bind_of_ok hnext]
  simp [uint32, List.take_take]

theorem readUint32_append {rest : Bytes} (hn : n < 2 ^ 32)
    (hbytes : s.input.bytes = bigEndian 4 n ++ rest) :
    readUint32 s = .ok n (s.consume 4) ∧ (s.consume 4).input.bytes = rest := by
  constructor
  · rw [readUint32_of_le (by simp [hbytes]), hbytes, uint32_append hn]
  · simp [Decoding.consume, ByteBuffer.advance, hbytes]

theorem readString_append {str rest : Bytes} (hne : str ≠ []) (hlt : str.length < 2 ^ 32)
    (hbytes : s.input.bytes = bigEndian 4 str.length ++ (str ++ rest)) :
    readString s = .ok (str, str.length + 4) ((s.consume 4).consume str.length) ∧
      ((s.consume 4).consume str.length).input.bytes = rest := by
  obtain ⟨hread, hrest⟩ := readUint32_append hlt hbytes
  have hlength : str.length ≠ 0 := by simpa using hne
  constructor
  · rw [readString, bind_of_ok hread]
    simp only [if_neg hlength]
    have hnext : next str.length (s.consume 4) = .ok _ _ := next_of_le (by simp [hrest])
    rw [hrest, List.take_left] at hnext
    exact bind_of_ok hnext
  · simp [Decoding.consume, ByteBuffer.advance] at hrest ⊢
    rw [← List.drop_drop, hrest, List.drop_left]

/-! ## The receiver -/

/-- A receiver takes messages of the type. -/
def TakesType (role : RPCRole) (own type : MessageType) : Prop :=
  type = own ∨
    match role with
    | .server => type = .call ∨ type = .oneway ∨ type = .stream
    | .client => type = .reply ∨ type = .exception ∨ type = .stream

instance (role : RPCRole) (own type : MessageType) : Decidable (TakesType role own type) := by
  unfold TakesType
  cases role <;> infer_instance

def KnowsMethod (lib : Runtime D I) (receiver : Message D I) (methodName : Bytes) : Prop :=
  match receiver.rpcRole with
  | .client => receiver.methodName = methodName
  | .server =>
    ∃ svcInfo methodInfo,
      lib.searchService receiver.serviceName methodName receiver.config.payloadCodec =
        some svcInfo ∧ svcInfo.methodInfo methodName = some methodInfo

/-- A receiver takes messages of the type of the message, knows the method and expects the sequence
id, which it does not know before a request. -/
structure Receives (lib : Runtime D I) (receiver m : Message D I) : Prop where
  type : TakesType receiver.rpcRole receiver.messageType m.messageType
  method : KnowsMethod lib receiver m.methodName
  seqID : m.messageType ≠ .call → m.messageType ≠ .oneway → receiver.seqID = m.seqID

theorem MessageType.toNat_inj {t t' : MessageType} : t.toNat = t'.toNat ↔ t = t' := by
  cases t <;> cases t' <;> decide

theorem updateMsgType_of_takes {type : MessageType}
    (h : TakesType receiver.rpcRole receiver.messageType type) :
    updateMsgType type.toNat receiver = .ok () { receiver with messageType := type } := by
  unfold updateMsgType
  simp only [get_bind, MessageType.toNat_inj]
  by_cases hown : type = receiver.messageType
  · subst hown
    simp
  · simp only [hown, if_false, TakesType, false_or] at h ⊢
    cases hrole : receiver.rpcRole with
    | server | client =>
      simp only [hrole] at h
      rcases h with rfl | rfl | rfl <;> rfl

theorem setOrCheckMethodName_of_knows {methodName : Bytes} (hne : methodName ≠ [])
    (h : KnowsMethod lib receiver methodName) :
    ∃ m', setOrCheckMethodName lib methodName receiver = .ok () m' ∧ m'.methodName = methodName ∧
      m'.messageType = receiver.messageType ∧ m'.seqID = receiver.seqID := by
  unfold setOrCheckMethodName
  simp only [get_bind, if_neg hne]
  unfold KnowsMethod at h
  cases hrole : receiver.rpcRole with
  | client =>
    simp only [hrole] at h
    exact ⟨receiver, by simp [h], h, rfl, rfl⟩
  | server =>
    simp only [hrole] at h
    obtain ⟨svcInfo, methodInfo, hsvc, hmethod⟩ := h
    simp only [reduceCtorEq, if_false, set_bind, hsvc, hmethod]
    exact ⟨_, rfl, rfl, rfl, rfl⟩

theorem ignoreErr_of_ok {σ : Type} {ignore : Bool} {f : EStateM CodecError σ Unit} {t t' : σ}
    (h : f t = .ok () t') : ignoreErr ignore f t = .ok () t' := by
  simp [ignoreErr, h]

theorem decodeOnMessage_of_ok {α : Type} {f : EStateM CodecError (Message D I) α} {a : α}
    {m' : Message D I} (h : f s.message = .ok a m') :
    Decode.onMessage f s = .ok a { s with message := m' } := by
  simp [Decode.onMessage, h]

theorem seqIDOfBits_seqIDBits (seqID : Int32) : seqIDOfBits (seqIDBits seqID) = seqID := by
  simp [seqIDOfBits, seqIDBits]

theorem seqIDBits_lt (seqID : Int32) : seqIDBits seqID < 2 ^ 32 := seqID.toUInt32.toNat_lt

theorem magicWord_and_frontMask : magicWord m &&& frontMask = m.messageType.toNat := by
  have htype := messageType_lt m.messageType
  rw [show frontMask = 2 ^ 16 - 1 by decide, Nat.and_two_pow_sub_one_eq_mod]
  unfold magicWord
  rcases magicOf_le (getPayloadCodec m) with h | h <;> rw [h]
  · simp only [thriftV1Magic]
    omega
  · simp only [protobufV1Magic]
    omega

/-- What has been written is read: the data gets the bytes of the data, in a message of the type,
the method name and the sequence id. -/
theorem protobufUnmarshal_payload (hcodec : getPayloadCodec m = protobuf)
    (hne : m.methodName ≠ []) (hname : m.methodName.length < 2 ^ 28)
    (hbytes : s.input.bytes = m.payload body ++ following)
    (hlen : s.message.payloadLen = (m.payload body).length) (hreceives : Receives lib s.message m) :
    ∃ s', protobufUnmarshal lib s = Decode.onMessage (readMessageBuf lib m.methodName body) s' ∧
      s'.input.bytes = following ∧ s'.message.messageType = m.messageType ∧
      s'.message.methodName = m.methodName ∧ s'.message.seqID = m.seqID := by
  have hthrift : ¬ protobuf = thrift := by decide
  have hword : magicWord m &&& magicMask = protobufV1Magic := by
    obtain ⟨-, hlt, hmagic⟩ := magicWord_bounds m
    rw [and_magicMask (by omega), hmagic, magicOf, hcodec, if_neg hthrift]
  have hlayout : m.payload body ++ following = bigEndian 4 (magicWord m) ++
      (bigEndian 4 m.methodName.length ++
        (m.methodName ++ (bigEndian 4 (seqIDBits m.seqID) ++ (body ++ following)))) := by
    simp [Message.payload, Message.metaInfo, magicWord]
  have hpayloadLen : (m.payload body).length = m.methodName.length + 12 + body.length := by
    simp only [Message.payload, Message.metaInfo, List.length_append, length_bigEndian]
    omega
  rw [hlayout] at hbytes
  have hmagicLt : magicWord m < 2 ^ 32 := by
    obtain ⟨-, hlt, -⟩ := magicWord_bounds m
    omega
  obtain ⟨hread, hrest⟩ := readUint32_append hmagicLt hbytes
  -- the message after its type, its method name and its sequence id
  have htype := updateMsgType_of_takes hreceives.type
  let typed : Message D I := { s.message with messageType := m.messageType }
  let s₁ : Decoding D I := { s.consume 4 with message := typed }
  obtain ⟨hstring, hrest₁⟩ : readString s₁ = _ ∧ _ := readString_append hne (by omega) hrest
  have hknows : KnowsMethod lib typed m.methodName := hreceives.method
  obtain ⟨named, hnamed, hmethodName, hmessageType, hseq⟩ :=
    setOrCheckMethodName_of_knows hne hknows
  let s₂ : Decoding D I := { (s₁.consume 4).consume m.methodName.length with message := named }
  obtain ⟨hseqID, hrest₂⟩ : readUint32 s₂ = _ ∧ _ :=
    readUint32_append (seqIDBits_lt m.seqID) hrest₁
  obtain ⟨final, hfinal, hfields⟩ : ∃ final, setOrCheckSeqID m.seqID named = .ok () final ∧
      final.messageType = m.messageType ∧ final.methodName = m.methodName ∧
      final.seqID = m.seqID := by
    rcases setOrCheckSeqID_cases m.seqID named with
      ⟨h, -⟩ | ⟨h, hcall, honeway, -⟩ | ⟨-, hreply, hne⟩
    · exact ⟨_, h, hmessageType, hmethodName, rfl⟩
    · rw [hmessageType] at hcall honeway
      exact ⟨_, h, hmessageType, hmethodName, hseq.trans (hreceives.seqID hcall honeway)⟩
    · have hreply' : m.messageType = .reply := hmessageType.symm.trans hreply
      exact absurd (hseq.trans (hreceives.seqID (by simp [hreply']) (by simp [hreply']))) hne
  let s₃ : Decoding D I := { s₂.consume 4 with message := final }
  have hrest₃ : s₃.input.bytes = body ++ following := hrest₂
  have hbody : next (s.message.payloadLen - metaInfoFixLen - (m.methodName.length + 4)) s₃ =
      .ok body (s₃.consume body.length) := by
    have hlength : s.message.payloadLen - metaInfoFixLen - (m.methodName.length + 4) =
        (body.length : Int) := by
      rw [hlen, hpayloadLen, metaInfoFixLen]
      omega
    rw [hlength, next_of_le (by simp [hrest₃]), hrest₃, List.take_left]
  have hmeta : readMetaInfo lib s = .ok (m.methodName, body) (s₃.consume body.length) := by
    have hstep₁ : Decode.onMessage (updateMsgType m.messageType.toNat) (s.consume 4) = .ok () s₁ :=
      decodeOnMessage_of_ok htype
    have hstep₂ : ∀ ignore, Decode.onMessage
        (ignoreErr ignore (setOrCheckMethodName lib m.methodName)) _ = .ok () s₂ :=
      fun _ => decodeOnMessage_of_ok (ignoreErr_of_ok hnamed)
    have hstep₃ : ∀ ignore, Decode.onMessage (ignoreErr ignore (setOrCheckSeqID m.seqID)) _ =
        .ok () s₃ :=
      fun _ => decodeOnMessage_of_ok (ignoreErr_of_ok hfinal)
    simp only [readMetaInfo, get_bind]
    rw [bind_of_ok hread]
    simp only [hword, ne_eq, not_true, if_false, magicWord_and_frontMask]
    rw [bind_of_ok hstep₁, readMethodAndBuf, bind_of_ok (adaptExcept_of_ok hstring)]
    dsimp only
    rw [bind_of_ok (hstep₂ _)]
    refine bind_of_ok ?_
    rw [readSeqIDAndBuf, bind_of_ok (adaptExcept_of_ok hseqID), seqIDOfBits_seqIDBits,
      bind_of_ok (hstep₃ _), adaptExcept_of_ok hbody]
  refine ⟨s₃.consume body.length, ?_, ?_, hfields⟩
  · rw [protobufUnmarshal, bind_of_ok hmeta]
  · simp only [Decoding.consume, ByteBuffer.advance, hrest₃, List.drop_left]

/-! ## Encoded messages -/

/-- `SetTransportProtocol` adds a protocol to those that the config has, or removes them all. -/
theorem setTransportProtocol_eq_iff (config : Kitex.RpcInfo.RPCConfig) (tp : Nat) :
    (config.call (.setTransportProtocol tp)).transportProtocol = tp ↔
      tp = purePayload ∨ config.transportProtocol ||| tp = tp := by
  simp only [Kitex.RpcInfo.RPCConfig.call, purePayload]
  split
  · exact ⟨fun _ => .inl ‹_›, fun _ => rfl⟩
  · exact ⟨.inr, fun h => h.resolve_left ‹_›⟩

/-- What has been encoded over a protocol that carries its payload codec is decoded: `DecodeMeta`
gives the payload codec and the length of the payload, adds the protocol to those of the receiver's
config, and leaves the payload to be read. After it `protobufCodec.Unmarshal` gives the bytes of the
data to a message of the same type, method name and sequence id. -/
theorem decode_encoded (hlib : TTHeaderRoundTrips lib) {c : CodecConfig} {out : Encoding D I}
    (hencode : encodeMetaAndPayload lib c ⟨m, []⟩ = .ok () out) (hbody : m.body lib = .ok body)
    (hcarries : getPayloadCodec m = protobuf → m.isFramed)
    (hname : m.methodName.length < 2 ^ 28) (hpayload : (m.payload body).length < 2 ^ 31)
    (c' : CodecConfig) (receiver : Message D I) (input : ByteBuffer)
    (hbytes : input.bytes = out.out ++ following)
    (hlimit : checkPayloadSize (checkedLen m body receiver) c'.maxSize = .ok ())
    (hvalid : m.hasTTHeader →
      Validates c' (out.message.transStrInfo ∪ receiver.transStrInfo) (m.frame body)) :
    ∃ s, decodeMeta lib c' ⟨receiver, input⟩ = .ok () s ∧
      MetaOf m (m.payload body) following receiver s ∧
      (s.message.config.transportProtocol = m.protocol ↔
        m.protocol = purePayload ∨
          receiver.config.transportProtocol ||| m.protocol = m.protocol) ∧
      (getPayloadCodec m = protobuf → Receives lib s.message m →
        ∃ s', protobufUnmarshal lib s = Decode.onMessage (readMessageBuf lib m.methodName body) s' ∧
          s'.input.bytes = following ∧ s'.message.messageType = m.messageType ∧
          s'.message.methodName = m.methodName ∧ s'.message.seqID = m.seqID) := by
  obtain ⟨body', hbody', hne, hcodec, hencoded, -⟩ := encodeMetaAndPayload_eq_ok hencode
  obtain rfl : body = body' := Except.ok.inj (hbody.symm.trans hbody')
  have hcarries' : Carries m := hcodec.imp_right fun h => ⟨h, hcarries h⟩
  obtain ⟨s, hdecode, hmeta⟩ :=
    (decodeMeta_of_encoded hlib hcarries' hname hpayload hencoded hbytes hlimit).resolve_right
      fun hrefused => hrefused.2.1 (hvalid hrefused.1)
  refine ⟨s, hdecode, hmeta, ?_, fun hproto hreceives => ?_⟩
  · rw [hmeta.transportProtocol, setTransportProtocol_eq_iff]
  · have hpure : m.protocol ≠ purePayload := by
      intro hpure
      rw [protocol_eq_purePayload, hcarries hproto] at hpure
      exact absurd hpure.2 (by decide)
    exact protobufUnmarshal_payload hproto hne hname hmeta.bytes (hmeta.payloadLen hpure) hreceives

/-- A header without any info, after the length field: the magic number and the flags, the sequence
id, the size of the rest in words, the protocol id, no transforms, and two bytes of padding. -/
def plainHeader (seqID : Int32) : Bytes :=
  [0x10, 0x00, 0, 0] ++ bigEndian 4 (seqIDBits seqID) ++ [0, 1, 0, 0, 0, 0]

/-- Data is bytes, every method is known, and headers have nothing but a sequence id. -/
def plainRuntime : Runtime Bytes Unit where
  ttHeaderEncode param :=
    if param.intInfo.entries = [] ∧ param.strInfo.entries = [] ∧ param.flags = 0 ∧
        param.protocolID = 0 then .ok (plainHeader param.seqID)
    else .error "not supported"
  ttHeaderDecode bytes :=
    let seqID := seqIDOfBits (uint32 (bytes.drop 8))
    if (bytes.drop 4).take 14 = plainHeader seqID then
      (.ok ⟨0, seqID, 0, ∅, ∅, uint32 bytes - 14⟩, bytes.drop 18)
    else (.error "not supported", bytes.drop 4)
  searchService _ _ _ := some ⟨[], [], fun _ => some ()⟩
  newArgs _ := some []
  asTransError _ := none
  asError _ := none
  writeThrift _ data := .ok data
  pbWriter data := .marshal (.ok data)
  pbReader _ := ⟨none, none, some fun buf => .ok buf⟩
  pbErrorMarshal _ _ := .ok []
  pbErrorUnmarshal _ := .error "not supported"

theorem ttHeaderEncode_plainRuntime {param : EncodeParam} {header : Bytes}
    (h : plainRuntime.ttHeaderEncode param = .ok header) :
    param = ⟨0, param.seqID, 0, ∅, ∅⟩ ∧ header = plainHeader param.seqID := by
  obtain ⟨flags, seqID, protocolID, intInfo, strInfo⟩ := param
  simp only [plainRuntime] at h
  split at h
  · rename_i hplain
    obtain ⟨hint, hstr, rfl, rfl⟩ := hplain
    cases h
    obtain rfl : intInfo = ∅ := AList.ext hint
    obtain rfl : strInfo = ∅ := AList.ext hstr
    exact ⟨rfl, rfl⟩
  · cases h

theorem length_plainHeader (seqID : Int32) : (plainHeader seqID).length = 14 := by
  simp [plainHeader]

theorem uint32_plainHeader (seqID : Int32) (rest : Bytes) :
    uint32 ((plainHeader seqID ++ rest).drop 4) = seqIDBits seqID := by
  simp only [plainHeader, List.append_assoc]
  exact uint32_append (seqIDBits_lt seqID) _

theorem ttHeaderRoundTrips_plainRuntime : TTHeaderRoundTrips plainRuntime := by
  refine ⟨fun h => ?_, fun h => ?_, fun {param header} h payload following hlt => ?_⟩
  · obtain ⟨-, rfl⟩ := ttHeaderEncode_plainRuntime h
    have hfirst (seqID : Int32) : uint32 (plainHeader seqID) = 0x10000000 := rfl
    rw [length_plainHeader, hfirst]
    decide
  · obtain ⟨-, rfl⟩ := ttHeaderEncode_plainRuntime h
    rw [length_plainHeader]
    decide
  · obtain ⟨hparam, rfl⟩ := ttHeaderEncode_plainRuntime h
    rw [hparam]
    have hlength := length_plainHeader param.seqID
    have hdrop (rest : Bytes) (n : Nat) :
        (bigEndian 4 ((plainHeader param.seqID).length + payload.length) ++ rest).drop (4 + n) =
          rest.drop n := by
      rw [← List.drop_drop, List.drop_left' (by simp)]
    have hseq := uint32_plainHeader param.seqID (payload ++ following)
    simp only [plainRuntime, uint32_append hlt, hdrop _ 0, hdrop _ 4, hdrop _ 14, hseq,
      seqIDOfBits_seqIDBits, List.drop_zero, List.take_left' hlength, List.drop_left' hlength,
      if_true, Prod.mk.injEq, and_true, Except.ok.injEq, DecodeParam.mk.injEq, true_and]
    omega

/-- A message without data, with the protocol and the payload codec of its config. -/
def plainMessage (rpcRole : RPCRole) (messageType : MessageType) (transportProtocol : Nat)
    (payloadCodec : Int) : Message Bytes Unit where
  rpcRole
  messageType
  payloadLen := 0
  data := none
  payloadCodec := none
  headerFlags := none
  meshHeader := false
  transIntInfo := ∅
  transStrInfo := ∅
  config := { Kitex.RpcInfo.RPCConfig.initialized with transportProtocol, payloadCodec }
  packageName := []
  serviceName := []
  methodName := []
  methodInfo := none
  seqID := 0
  caller := ⟨[], [], none⟩
  callee := ⟨[], [], none⟩

/-- A request with protobuf payload over `TTHeaderFramed`. -/
def plainRequest : Message Bytes Unit :=
  { plainMessage .client .call ttHeaderFramed protobuf with
    data := some [1, 2, 3]
    methodName := [101]
    seqID := 7 }

/-- The request with its header and its length field. -/
def plainRequestBytes : Bytes :=
  [0, 0, 0, 34, 16, 0, 0, 0, 0, 0, 0, 7, 0, 1, 0, 0, 0, 0] ++ [0, 0, 0, 16] ++
    [144, 1, 0, 1, 0, 0, 0, 1, 101, 0, 0, 0, 7, 1, 2, 3]

set_option maxRecDepth 4000 in
/-- A server decodes the request, before the next one. -/
theorem decode_encoded_request :
    ∃ out s s', encodeMetaAndPayload plainRuntime newDefaultCodec ⟨plainRequest, []⟩ = .ok () out ∧
      out.out = plainRequestBytes ∧
      decodeMeta plainRuntime newDefaultCodec
        ⟨plainMessage .server .call purePayload thrift,
          ⟨plainRequestBytes ++ [9], "EOF", none, 0⟩⟩ = .ok () s ∧
      s.message.config.transportProtocol = ttHeaderFramed ∧
      s.message.config.payloadCodec = protobuf ∧ s.message.payloadLen = 16 ∧
      protobufUnmarshal plainRuntime s =
        Decode.onMessage (readMessageBuf plainRuntime [101] [1, 2, 3]) s' ∧
      s'.input.bytes = [9] ∧ s'.message.messageType = .call ∧ s'.message.methodName = [101] ∧
      s'.message.seqID = 7 := by
  obtain ⟨out, hencode, hout⟩ : ∃ out,
      encodeMetaAndPayload plainRuntime newDefaultCodec ⟨plainRequest, []⟩ = .ok () out ∧
        out.out = plainRequestBytes := ⟨_, rfl, by decide +kernel⟩
  obtain ⟨t, heval, hrole, htype⟩ : ∃ t,
      decodeMeta plainRuntime newDefaultCodec
        ⟨plainMessage .server .call purePayload thrift,
          ⟨plainRequestBytes ++ [9], "EOF", none, 0⟩⟩ = .ok () t ∧
      t.message.rpcRole = .server ∧ t.message.messageType = .call := ⟨_, rfl, rfl, rfl⟩
  obtain ⟨s, hdecode, hmeta, htp, hunmarshal⟩ :=
    decode_encoded ttHeaderRoundTrips_plainRuntime hencode rfl (by decide) (by decide)
      (by decide +kernel) newDefaultCodec (plainMessage .server .call purePayload thrift)
      ⟨plainRequestBytes ++ [9], "EOF", none, 0⟩ (by rw [hout]) rfl (fun _ pv hpv => by cases hpv)
  obtain rfl : t = s := by
    rw [heval] at hdecode
    cases hdecode
    rfl
  have hreceives : Receives plainRuntime t.message plainRequest := by
    refine ⟨?_, ?_, fun hcall => absurd rfl hcall⟩
    · rw [hrole, htype]
      decide
    · rw [KnowsMethod, hrole]
      exact ⟨_, (), rfl, rfl⟩
  obtain ⟨s', hread, hrest, htype', hmethod, hseq⟩ := hunmarshal rfl hreceives
  exact ⟨out, t, s', hencode, hout, hdecode, htp.mpr (.inr rfl), hmeta.payloadCodec,
    hmeta.payloadLen (by decide), hread, hrest, htype', hmethod, hseq⟩

set_option maxRecDepth 4000 in
/-- A client that calls over `Framed` gets a reply over `TTHeader`, and its config has both. -/
theorem exists_protocol_not_recovered :
    ∃ (m : Message Bytes Unit) (bytes : Bytes) (out : Encoding Bytes Unit)
      (s : Decoding Bytes Unit),
      m.protocol = ttHeader ∧
      encodeMetaAndPayload plainRuntime newDefaultCodec ⟨m, []⟩ = .ok () out ∧ out.out = bytes ∧
      decodeMeta plainRuntime newDefaultCodec
        ⟨plainMessage .client .reply framed thrift, ⟨bytes, "EOF", none, 0⟩⟩ = .ok () s ∧
      s.message.config.transportProtocol = ttHeaderFramed ∧ ttHeaderFramed ≠ ttHeader :=
  ⟨{ plainMessage .server .reply ttHeader thrift with data := some [0], methodName := [101] },
    [0, 0, 0, 28, 16, 0, 0, 0, 0, 0, 0, 0, 0, 1, 0, 0, 0, 0, 128, 1, 0, 2, 0, 0, 0, 1, 101, 0, 0, 0,
      0, 0], _, _, by decide, rfl, by decide +kernel, rfl, rfl, by decide⟩

end Kitex.Codec
