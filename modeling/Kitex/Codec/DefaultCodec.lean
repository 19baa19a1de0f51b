import Kitex.Codec.Payload

/-! # The default codec

`default_codec.go` with `header_codec.go` and `validate.go`. `DecodeMeta` finds out from magic
numbers which transport protocol and which payload codec a message has.
-/

namespace Kitex.Codec

open Kitex.Thrift Kitex.Thrift.Binary

variable {D I : Type} (lib : Runtime D I)

/-- `transport.PurePayload`. -/
def purePayload : Nat := 0

/-- `transport.TTHeader`. -/
def ttHeader : Nat := 2

/-- `transport.Framed`. -/
def framed : Nat := 4

/-- `transport.TTHeaderFramed`. -/
def ttHeaderFramed : Nat := ttHeader ||| framed

def ttHeaderMagic : Nat := 0x10000000

def meshHeaderMagic : Nat := 0xffaf0000

/-- `PayloadValidator`; `crc` for the one that Kitex has itself. -/
structure PayloadValidator where
  crc : Bool
  key : Bytes
  /-- `need` and the checksum -/
  generate : Bytes → Except String (Bool × Bytes)
  validate : Bytes → Bytes → Except String Bool

structure CodecConfig where
  maxSize : Int
  payloadValidator : Option PayloadValidator

def newDefaultCodec : CodecConfig := ⟨0, none⟩

/-- The prefix is `PV_`. -/
def getValidatorKey (p : PayloadValidator) : Bytes := if p.crc then p.key else [80, 86, 95] ++ p.key

def checkPayloadSize (payloadLen maxSize : Int) : Except CodecError Unit :=
  if 0 < maxSize ∧ 0 < payloadLen ∧ maxSize < payloadLen then
    .error (.protocol 1
      s!"invalid data: payload size({payloadLen}) larger than the limit({maxSize})")
  else .ok ()

/-- `remote.GetPayloadCodec`, by type. -/
def getPayloadCodec (m : Message D I) : Int := m.payloadCodec.getD m.config.payloadCodec

/-! ## Encoding -/

/-- `defaultCodec.encodePayload`. -/
def marshal : Encode D I Unit := do
  let codec := getPayloadCodec (← get).message
  if codec = thrift then thriftMarshal lib
  else if codec = protobuf then protobufMarshal lib
  else throw (.other s!"payload codec not found with codecType={codec}")

/-- The payload with its length field, if the protocol has one. The length of the payload is the
result, and 0 without the field. -/
def encodeFramed (isFramed : Bool) : Encode D I Int := do
  let s ← get
  if isFramed then
    let framedLenField ← malloc 4
    let headerLen := s.out.length + 4
    marshal lib
    let payloadLen := (← get).out.length - headerLen
    putUint32 framedLenField payloadLen
    return payloadLen
  else
    marshal lib
    if s.message.config.payloadCodec = protobuf then
      throw (.protocol 0 "protobuf just support 'framed' trans proto")
    return 0

def encodePayload (c : CodecConfig) : Encode D I Unit := do
  let tp := (← get).message.config.transportProtocol
  let payloadLen ← encodeFramed lib (tp &&& framed = framed)
  let writtenLen := (← get).out.length
  match checkPayloadSize (if tp &&& ttHeader = ttHeader then writtenLen - 4 else payloadLen)
      c.maxSize with
  | .error err => throw err
  | .ok () => return

/-- `ttHeader.encode`. The place of the length field is the result. -/
def ttHeaderEncode : Encode D I Nat := do
  let s ← get
  let m := s.message
  match lib.ttHeaderEncode
      ⟨m.headerFlags.getD 0, m.seqID, 0, m.transIntInfo, m.transStrInfo⟩ with
  | .error err => throw (.protocol 0 err)
  | .ok header =>
    let totalLenField ← malloc 4
    writeBinary header
    return totalLenField

/-- The length of all that has been written, in the length field of the header. -/
def fillTotalLen (totalLenField : Nat) : Encode D I Unit := do
  let writtenLen := (← get).out.length
  putUint32 totalLenField (writtenLen - 4)

/-- `maxPayloadChecksumLength` is 4096. -/
def payloadChecksumGenerate (pv : PayloadValidator) (outboundPayload : Bytes) :
    EStateM CodecError (Message D I) Unit := do
  match pv.generate outboundPayload with
  | .error err => throw (.other s!"payload validation error: generate failed, err={err}")
  | .ok (need, value) =>
    if need then
      if 4096 < value.length then
        throw (.other ("payload validation error: payload checksum value exceeds the limit, " ++
          s!"actual length={value.length}, limit=4096"))
      modify fun m => { m with transStrInfo := m.transStrInfo.insert (getValidatorKey pv) value }

def encodeMetaAndPayloadWithPayloadValidator (c : CodecConfig) (pv : PayloadValidator) :
    Encode D I Unit := do
  let out := (← get).out
  -- the payload is encoded to a buffer of its own
  modify fun s => { s with out := [] }
  encodePayload lib c
  let payload := (← get).out
  Encode.onMessage (payloadChecksumGenerate pv payload)
  modify fun s => { message := { s.message with payloadLen := payload.length }, out }
  let totalLenField ← ttHeaderEncode lib
  writeBinary payload
  fillTotalLen totalLenField

def encodeMetaAndPayload (c : CodecConfig) : Encode D I Unit := do
  let tp := (← get).message.config.transportProtocol
  if tp &&& ttHeader = ttHeader then
    match c.payloadValidator with
    | some pv => encodeMetaAndPayloadWithPayloadValidator lib c pv
    | none =>
      let totalLenField ← ttHeaderEncode lib
      encodePayload lib c
      fillTotalLen totalLenField
  else encodePayload lib c

/-! ## Decoding -/

def isTTHeader (flagBuf : Bytes) : Bool := uint32 (flagBuf.drop 4) &&& magicMask = ttHeaderMagic

def isMeshHeader (flagBuf : Bytes) : Bool := uint32 flagBuf &&& magicMask = meshHeaderMagic

def isProtobufKitex (flagBuf : Bytes) : Bool :=
  uint32 (flagBuf.drop 4) &&& magicMask = protobufV1Magic

def isThriftBinary (flagBuf : Bytes) : Bool := uint32 flagBuf &&& magicMask = thriftV1Magic

def isThriftFramedBinary (flagBuf : Bytes) : Bool :=
  uint32 (flagBuf.drop 4) &&& magicMask = thriftV1Magic

/-- `HeaderTransRemoteAddr`: `rip`. -/
def headerTransRemoteAddr : Bytes := [114, 105, 112]

/-- `HeaderIDLServiceName`: `isn`. -/
def headerIDLServiceName : Bytes := [105, 115, 110]

/-- A name is overwritten by the value of a key, unless there is none or it is empty. -/
def overwrite (name : Bytes) (value : Option Bytes) : Bytes := (value.filter (· ≠ [])).getD name

def overwriteAddress (address value : Option Bytes) : Option Bytes :=
  (value.filter (· ≠ [])).or address

/-- `FromService` is 3. -/
def fillBasicInfoOfTTHeader (m : Message D I) : Message D I :=
  match m.rpcRole with
  | .server =>
    { m with
      caller := { m.caller with
        address := overwriteAddress m.caller.address (m.transStrInfo.lookup headerTransRemoteAddr)
        serviceName := overwrite m.caller.serviceName (m.transIntInfo.lookup 3) }
      serviceName := (m.transStrInfo.lookup headerIDLServiceName).getD m.serviceName }
  | .client =>
    { m with
      callee := { m.callee with
        address :=
          overwriteAddress m.callee.address (m.transStrInfo.lookup headerTransRemoteAddr) } }

/-- What `ttHeader.decode` does to the message. -/
def setDecodeParam (param : DecodeParam) (m : Message D I) : Message D I :=
  let m := if m.messageType = .call then { m with headerFlags := some param.flags } else m
  -- a wrong sequence id is only logged
  let m := match setOrCheckSeqID param.seqID m with
    | .ok _ m => m
    | .error _ m => m
  let m := { m with
    transIntInfo := param.intInfo ∪ m.transIntInfo
    transStrInfo := param.strInfo ∪ m.transStrInfo }
  { fillBasicInfoOfTTHeader m with payloadLen := param.payloadLen }

/-- `ttHeader.decode`. -/
def ttHeaderDecode : Decode D I Unit := fun s =>
  let (result, rest) := lib.ttHeaderDecode s.input.bytes
  let input := { s.input with
    bytes := rest
    readSize := s.input.readSize + (s.input.bytes.length - rest.length) }
  match result with
  | .error err => .error (.protocol 0 err) { s with input }
  | .ok param => .ok () { message := setDecodeParam param s.message, input }

def bytes2Uint16 (bytes : Bytes) (off : Nat) : Except String Nat :=
  if (bytes.length : Int) - off < 2 then .error "EOF" else .ok (uint16 (bytes.drop off))

/-- The index after the string comes with it. -/
def readString2BLen (bytes : Bytes) (off : Nat) : Except String (Bytes × Nat) := do
  let strLen ← bytes2Uint16 bytes off
  if (bytes.length : Int) - (off + 2) < strLen then .error "EOF"
  return ((bytes.drop (off + 2)).take strLen, off + 2 + strLen)

/-- The loop of `readStrKVInfo`; `size` entries are left. -/
def readStrKVs (buf : Bytes) :
    Nat → Nat → AList (fun _ : Bytes => Bytes) → Except String (AList fun _ : Bytes => Bytes)
  | 0, _, info => .ok info
  | size + 1, idx, info => do
      let (key, idx) ← readString2BLen buf idx
      let (val, idx) ← readString2BLen buf idx
      readStrKVs buf size idx (info.insert key val)

def readStrKVInfo (buf : Bytes) (info : AList fun _ : Bytes => Bytes) :
    Except String (AList fun _ : Bytes => Bytes) := do
  let kvSize ← (bytes2Uint16 buf 0).mapError fun err => s!"error reading str kv info size: {err}"
  (readStrKVs buf kvSize 2 info).mapError fun err => s!"error reading str kv info: {err}"

/-- `meshHeader.decode`. The map that it had begun to fill when it fails is not kept. -/
def meshHeaderDecode : Decode D I Unit := do
  let headerMeta ← (next 4).adaptExcept
    fun err => .protocol 0 s!"meshHeader read header meta failed, {err.msg}"
  if !isMeshHeader headerMeta then throw (.protocol 0 "not MeshHeader protocol")
  let headerLen := uint16 (headerMeta.drop 2)
  let headerInfo ← (next headerLen).adaptExcept
    fun err => .protocol 0 s!"meshHeader read header buf failed, {err.msg}"
  match readStrKVInfo headerInfo (← get).message.transStrInfo with
  | .error err => throw (.protocol 0 s!"meshHeader read kv info failed, {err}")
  | .ok info =>
    modify fun s =>
      { s with message := fillBasicInfoOfTTHeader { s.message with transStrInfo := info } }

/-- `FromMethod` is 20, `ToMethod` is 9 and `ToService` is 6. -/
def fillRPCInfoBeforeValidate (m : Message D I) : Message D I :=
  match m.rpcRole with
  | .client => m
  | .server =>
    { m with
      caller := { m.caller with
        serviceName := overwrite m.caller.serviceName (m.transIntInfo.lookup 3)
        method := overwrite m.caller.method (m.transIntInfo.lookup 20) }
      callee := { m.callee with
        method := overwrite m.callee.method (m.transIntInfo.lookup 9)
        serviceName := overwrite m.callee.serviceName (m.transIntInfo.lookup 6) } }

/-- The length of a payload is not negative here. -/
def payloadChecksumValidate (pv : PayloadValidator) : Decode D I Unit := do
  modify fun s => { s with message := fillRPCInfoBeforeValidate s.message }
  let m := (← get).message
  let expectedValue := (m.transStrInfo.lookup (getValidatorKey pv)).getD []
  let payload ← peek m.payloadLen.toNat
  match pv.validate expectedValue payload with
  | .error err => throw (.other s!"payload validation error: validation failed, err={err}")
  | .ok pass =>
    if !pass then throw (.other "payload validation error: validation failed")

/-- A number as `%#x` shows it. -/
def hex (n : Nat) : String := "0x" ++ String.ofList (Nat.toDigits 16 n)

/-- What `checkPayload` finds: the payload codec, and whether the payload has a length field. -/
def sniff (flagBuf : Bytes) : Except CodecError (Int × Bool) :=
  if isThriftBinary flagBuf then .ok (thrift, false)
  else if isThriftFramedBinary flagBuf then .ok (thrift, true)
  else if isProtobufKitex flagBuf then .ok (protobuf, true)
  else
    .error (.protocol 0 (s!"invalid payload (first4Bytes={hex (uint32 flagBuf)}, " ++
      s!"second4Bytes={hex (uint32 (flagBuf.drop 4))})"))

/-- The protocol of a message by whether there is a header and a length field. -/
def protocolOf (isTTHeader isFramed : Bool) : Nat :=
  match isTTHeader, isFramed with
  | true, false => ttHeader
  | false, false => purePayload
  | true, true => ttHeaderFramed
  | false, true => framed

def checkPayload (flagBuf : Bytes) (isTTHeader : Bool) (maxPayloadSize : Int) :
    Decode D I Unit := do
  match sniff flagBuf with
  | .error err => throw err
  | .ok (codecType, isFramed) =>
    if isFramed then
      modify fun s => { s with message := { s.message with payloadLen := uint32 flagBuf } }
      skip 4
    match checkPayloadSize (← get).message.payloadLen maxPayloadSize with
    | .error err => throw err
    | .ok () =>
      modify fun s =>
        { s with message := { s.message with
          config := (s.message.config.call
            (.setTransportProtocol (protocolOf isTTHeader isFramed))).call
              (.setPayloadCodec codecType) } }

/-- The first part of `DecodeMeta`: the headers. The next bytes come with whether there is a
TTHeader. -/
def decodeHeaders (c : CodecConfig) : Decode D I (Bytes × Bool) := do
  let flagBuf ← (peek 8).adaptExcept (.withErrMsg fun err => s!"default codec read failed: {err}")
  if isTTHeader flagBuf then
    ttHeaderDecode lib
    let flagBuf ← (peek 8).adaptExcept
      (.withErrMsg fun err => s!"ttheader read payload first 8 byte failed: {err}")
    match c.payloadValidator with
    | some pv => payloadChecksumValidate pv
    | none => pure ()
    return (flagBuf, true)
  else if isMeshHeader flagBuf then
    modify fun s => { s with message := { s.message with meshHeader := true } }
    meshHeaderDecode
    let flagBuf ← (peek 8).adaptExcept
      (.withErrMsg fun err => s!"meshHeader read payload first 8 byte failed: {err}")
    return (flagBuf, false)
  else return (flagBuf, false)

def decodeMeta (c : CodecConfig) : Decode D I Unit := do
  let (flagBuf, isTTHeader) ← decodeHeaders lib c
  checkPayload flagBuf isTTHeader c.maxSize

/-- `DecodePayload`, with the thrift codec as it may be. -/
def decodePayload (thriftUnmarshal : Decode D I Unit) : Decode D I Unit := do
  let hasRead := (← get).input.readSize
  let codec := getPayloadCodec (← get).message
  if codec = thrift then thriftUnmarshal
  else if codec = protobuf then protobufUnmarshal lib
  else throw (.other s!"payload codec not found with codecType={codec}")
  let s ← get
  if s.message.payloadLen = 0 then
    set { s with message := { s.message with payloadLen := s.input.readSize - hasRead } }

def decode (c : CodecConfig) (thriftUnmarshal : Decode D I Unit) : Decode D I Unit := do
  decodeMeta lib c
  decodePayload lib thriftUnmarshal

end Kitex.Codec
