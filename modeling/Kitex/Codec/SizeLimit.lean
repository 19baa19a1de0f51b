import Kitex.Codec.Unmarshal

/-! # The limit of the payload size

Both sides compare the size of a payload with a limit. The encoder measures what it has written,
at different places for different protocols, and the decoder takes a length from the wire. With a
validator and `TTHeader` alone the encoder measures four bytes too few: it leaves out the length
field of a header that is not in its buffer.
-/

namespace Kitex.Codec

open Kitex.Thrift Kitex.Thrift.Binary Kitex.Machine.Fallible

variable {D I : Type} {lib : Runtime D I} {m : Message D I} {following : Bytes}

theorem checkPayloadSize_eq_ok {payloadLen maxSize : Int} (hmax : 0 < maxSize) :
    checkPayloadSize payloadLen maxSize = .ok () ↔ payloadLen ≤ maxSize := by
  unfold checkPayloadSize
  split
  next h => exact iff_of_false (by simp) (by omega)
  next h => exact iff_of_true rfl (by omega)

/-- The payload is measured together with all that the decoder takes for it. -/
def CodecConfig.Measures (c : CodecConfig) (m : Message D I) : Prop :=
  c.payloadValidator = none ∨ m.hasTTHeader = false ∨ m.isFramed = true

/-- What passes the check of the encoder passes that of a decoder with the same limit. -/
theorem checkedLen_le {c : CodecConfig} {sent receiver : Message D I} {body out : Bytes}
    (hfits : c.Measures m ∨ (m.payload body).length ≤ c.maxSize) (hmax : 0 < c.maxSize)
    (hreceiver : receiver.payloadLen = 0)
    (hencoded : Encoded lib m sent body out) (hmeasured : checkPayloadSize (m.measuredLen body
      (if c.payloadValidator.isSome then m.frame body else out)) c.maxSize = .ok ()) :
    checkPayloadSize (checkedLen m body receiver) c.maxSize = .ok () := by
  rw [checkPayloadSize_eq_ok hmax] at hmeasured ⊢
  unfold Message.measuredLen at hmeasured
  unfold checkedLen
  simp only [protocol_eq_purePayload, hreceiver]
  rcases hfits with hmeasures | hshort
  swap
  · split <;> omega
  have hframe : (m.frame body).length =
      (if m.isFramed then 4 else 0) + (m.payload body).length := by
    unfold Message.frame
    split <;> simp
  cases htt : m.hasTTHeader with
  | false =>
    cases hframed : m.isFramed <;> simp_all
  | true =>
    simp only [htt, if_true, Bool.true_eq_false, false_and, if_false] at hmeasured ⊢
    split at hmeasured
    next hvalidator =>
      have hframed : m.isFramed = true := by
        rcases hmeasures with h | h | h
        · rw [h] at hvalidator
          cases hvalidator
        · rw [htt] at h
          cases h
        · exact h
      rw [hframe, hframed] at hmeasured
      simp only [if_true] at hmeasured
      omega
    next =>
      simp only [Encoded, htt, if_true] at hencoded
      obtain ⟨header, -, rfl⟩ := hencoded
      simp only [List.length_append, length_bigEndian, hframe] at hmeasured
      omega

/-- A payload that is too long is refused by the validator, or else for its size. -/
theorem decodeMeta_of_long (hlib : TTHeaderRoundTrips lib) {c : CodecConfig}
    {sent receiver : Message D I} {body out : Bytes} (hcarries : Carries m)
    (hname : m.methodName.length < 2 ^ 28) (hpayload : (m.payload body).length < 2 ^ 31)
    (hencoded : Encoded lib m sent body out) {input : ByteBuffer}
    (hbytes : input.bytes = out ++ following) (htt : m.hasTTHeader = true)
    (hframed : m.isFramed = false) (hmax : 0 < c.maxSize)
    (hlong : c.maxSize < (m.payload body).length) :
    Validates c (sent.transStrInfo ∪ receiver.transStrInfo) (m.frame body) ∧
        (∃ msg s, decodeMeta lib c ⟨receiver, input⟩ = .error (.protocol 1 msg) s) ∨
      ¬ Validates c (sent.transStrInfo ∪ receiver.transStrInfo) (m.frame body) ∧
        ∃ msg s, decodeMeta lib c ⟨receiver, input⟩ = .error (.other msg) s := by
  have hframe : m.frame body = m.payload body := by simp [Message.frame, hframed]
  have hlength : 8 ≤ (m.payload body).length := by
    simp only [Message.payload, Message.metaInfo, List.length_append, length_bigEndian]
    omega
  simp only [Encoded, htt, if_true] at hencoded
  obtain ⟨header, hheader, rfl⟩ := hencoded
  have hlt := hlib.length_lt hheader
  have hsniff := sniff_frame following hcarries hname hpayload
  rw [hframe] at hbytes hsniff ⊢
  rw [List.append_assoc, List.append_assoc] at hbytes
  rcases decodeHeaders_ttHeader (s := ⟨receiver, input⟩) (c := c) hlib hheader hlength (by omega)
      hbytes with ⟨hvalid, s, hheaders, -, -, hlen⟩ | ⟨hrefused, msg, s, herror⟩
  · have hlimit : checkPayloadSize s.message.payloadLen c.maxSize = .error (.protocol 1 _) :=
      if_pos ⟨hmax, by omega, by omega⟩
    rw [decodeMeta, bind_of_ok hheaders]
    simp only [checkPayload, hsniff, hframed, Bool.false_eq_true, if_false, get_bind, hlimit]
    exact .inl ⟨hvalid, _, _, rfl⟩
  · rw [decodeMeta, bind_of_error herror]
    exact .inr ⟨hrefused, msg, s, rfl⟩

/-- What is encoded under a limit is not refused for its size under that limit if and only if the
payload is measured as a whole, or is within the limit, or is refused by the validator. -/
theorem decodeMeta_within_limit (hlib : TTHeaderRoundTrips lib) {c : CodecConfig}
    (hmax : 0 < c.maxSize) {out : Encoding D I}
    (hencode : encodeMetaAndPayload lib c ⟨m, []⟩ = .ok () out) {body : Bytes}
    (hbody : m.body lib = .ok body) (hcarries : getPayloadCodec m = protobuf → m.isFramed)
    (hname : m.methodName.length < 2 ^ 28) (hpayload : (m.payload body).length < 2 ^ 31)
    (receiver : Message D I) (hreceiver : receiver.payloadLen = 0) (input : ByteBuffer)
    (hbytes : input.bytes = out.out ++ following) :
    (∃ s, decodeMeta lib c ⟨receiver, input⟩ = .ok () s) ∨
        c.payloadValidator.isSome ∧
          (∃ msg s, decodeMeta lib c ⟨receiver, input⟩ = .error (.other msg) s) ↔
      c.Measures m ∨ (m.payload body).length ≤ c.maxSize ∨
        ¬ Validates c (out.message.transStrInfo ∪ receiver.transStrInfo) (m.frame body) := by
  obtain ⟨body', hbody', -, hcodec, hencoded, hmeasured⟩ := encodeMetaAndPayload_eq_ok hencode
  obtain rfl : body = body' := Except.ok.inj (hbody.symm.trans hbody')
  have hcarries' : Carries m := hcodec.imp_right fun h => ⟨h, hcarries h⟩
  have hsome {info : AList fun _ : Bytes => Bytes} {frame : Bytes}
      (hrefused : ¬ Validates c info frame) : c.payloadValidator.isSome := by
    by_contra hnone
    exact hrefused fun pv hpv => absurd (Option.isSome_iff_exists.mpr ⟨pv, hpv⟩) hnone
  rw [← or_assoc]
  by_cases hfits : c.Measures m ∨ (m.payload body).length ≤ c.maxSize
  · refine iff_of_true ?_ (.inl hfits)
    have hlimit := checkedLen_le hfits hmax hreceiver hencoded hmeasured
    rcases decodeMeta_of_encoded hlib hcarries' hname hpayload hencoded hbytes hlimit with
      ⟨s, hdecode, -⟩ | ⟨-, hrefused, herror⟩
    · exact .inl ⟨s, hdecode⟩
    · exact .inr ⟨hsome hrefused, herror⟩
  · rw [or_iff_right hfits]
    simp only [CodecConfig.Measures, not_or, Bool.not_eq_false, Bool.not_eq_true, not_le] at hfits
    obtain ⟨⟨-, htt, hframed⟩, hlong⟩ := hfits
    rcases @decodeMeta_of_long _ _ _ _ _ hlib c _ receiver _ _ hcarries' hname hpayload hencoded _
      hbytes htt hframed hmax hlong with ⟨hvalid, msg, s, hdecode⟩ | ⟨hrefused, herror⟩
    · simp [hdecode, hvalid]
    · exact iff_of_true (.inr ⟨hsome hrefused, herror⟩) hrefused

/-- A limit of 16 bytes, and a validator that accepts everything. -/
def limitedCodec (validator : Bool) : CodecConfig where
  maxSize := 16
  payloadValidator :=
    if validator then
      some { crc := true, key := [], generate := fun _ => .ok (false, []),
             validate := fun _ _ => .ok true }
    else none

set_option maxRecDepth 4000 in
/-- The framed request has a payload of 16 bytes. -/
theorem decodeMeta_within_limit_request : ∃ s,
    decodeMeta plainRuntime (limitedCodec true) ⟨plainMessage .server .call purePayload thrift,
      ⟨plainRequestBytes, "EOF", none, 0⟩⟩ = .ok () s := by
  obtain ⟨out, hencode, hout⟩ : ∃ out,
      encodeMetaAndPayload plainRuntime (limitedCodec true) ⟨plainRequest, []⟩ = .ok () out ∧
        out.out = plainRequestBytes := ⟨_, rfl, by decide +kernel⟩
  have hbytes : plainRequestBytes = out.out ++ [] := by rw [hout, List.append_nil]
  have hdecode := decodeMeta_within_limit ttHeaderRoundTrips_plainRuntime (by decide) hencode rfl
    (by decide) (by decide) (by decide +kernel) (plainMessage .server .call purePayload thrift) rfl
    ⟨plainRequestBytes, "EOF", none, 0⟩ hbytes
  exact (hdecode.mpr (.inl (.inr (.inr rfl)))).elim id fun hrefused => ⟨_, rfl⟩

set_option maxRecDepth 4000 in
/-- With a validator a payload of 20 bytes passes the encoder, and the decoder refuses it. -/
theorem validator_exceeds_limit :
    ∃ (m : Message Bytes Unit) (out : Encoding Bytes Unit) (s : Decoding Bytes Unit),
      encodeMetaAndPayload plainRuntime (limitedCodec true) ⟨m, []⟩ = .ok () out ∧
      decodeMeta plainRuntime (limitedCodec true)
        ⟨plainMessage .server .call purePayload thrift, ⟨out.out, "EOF", none, 0⟩⟩ =
          .error (.protocol 1 "invalid data: payload size(20) larger than the limit(16)") s :=
  ⟨{ plainMessage .client .call ttHeader thrift with
      data := some [1, 2, 3, 4, 5, 6, 7], methodName := [101] }, _, _, rfl, by rfl⟩

end Kitex.Codec
