import Kitex.Codec.ByteBuffer

/-! # Payload codecs

`thriftCodec.Marshal` and the protobuf codec of Kitex. Both begin a payload with a magic number and
the type of the message, the method name with its length, and the sequence id.
-/

namespace Kitex.Codec

open Kitex.Thrift Kitex.Thrift.Binary

variable {D I : Type} (lib : Runtime D I)

def thriftV1Magic : Nat := 0x80010000

def protobufV1Magic : Nat := 0x90010000

def magicMask : Nat := 0xffff0000

def frontMask : Nat := 0x0000ffff

/-- `serviceinfo.Thrift`. -/
def thrift : Int := 0

/-- `serviceinfo.Protobuf`. -/
def protobuf : Int := 1

/-- `uint32` of a sequence id, and back. -/
def seqIDBits (seqID : Int32) : Nat := seqID.toUInt32.toNat

def seqIDOfBits (bits : Nat) : Int32 := (UInt32.ofNat bits).toInt32

/-! ## Marshal -/

/-- The bytes of data in the payload of a protobuf message. -/
def PbWriter.body (methodName : Bytes) : PbWriter → Except CodecError Bytes
  | .fast buf => .ok buf
  | .marshal (.ok buf) => .ok buf
  | .marshal (.error err) => .error (.protocol 0 s!"protobuf marshal message failed: {err}")
  | .writePb actualMsg =>
    match actualMsg methodName with
    | .error err => .error (.protocol 0 s!"protobuf marshal message failed: {err}")
    -- the text of an error that is nil
    | .ok none => .error .panic
    | .ok (some buf) => .ok buf
  | .mismatch => .error (.trans 9 "encode failed, codec msg type not match with protobufCodec")

/-- `getValidData`, by the way to get its bytes. -/
def getValidData (m : Message D I) (data : D) : Except CodecError PbWriter :=
  if m.messageType ≠ .exception then .ok (lib.pbWriter data)
  else
    match lib.asTransError data with
    | some (typeID, msg) => .ok (.marshal (lib.pbErrorMarshal typeID msg))
    | none =>
      match lib.asError data with
      | some msg => .ok (.marshal (lib.pbErrorMarshal 6 msg))
      | none => .error (.other "exception relay need error type data")

/-- `protobufCodec.Marshal`. -/
def protobufMarshal : Encode D I Unit := do
  let m := (← get).message
  if m.methodName = [] then throw (.other "empty methodName in protobuf Marshal")
  let data ← Encode.onMessage (newDataIfNeeded lib)
  match getValidData lib m data with
  | .error err => throw err
  | .ok writer =>
    writeUint32 (protobufV1Magic + m.messageType.toNat)
    writeString m.methodName
    writeUint32 (seqIDBits m.seqID)
    match writer.body m.methodName with
    | .error err => throw err
    | .ok actualMsgBuf => writeBinary actualMsgBuf

/-- `thriftCodec.Marshal`. Each of the codecs writes the message begin of the strict binary protocol
before the data. -/
def thriftMarshal : Encode D I Unit := do
  let m := (← get).message
  if m.methodName = [] then throw (.other "empty methodName in thrift Marshal")
  let data ← Encode.onMessage (newDataIfNeeded lib)
  match lib.writeThrift m.messageType data with
  | .error err => throw err
  | .ok body =>
    writeUint32 (thriftV1Magic ||| m.messageType.toNat)
    writeString m.methodName
    writeUint32 (seqIDBits m.seqID)
    writeBinary body

/-! ## `protobufCodec.Unmarshal` -/

def metaInfoFixLen : Int := 8

/-- The sequence id and the bytes of the data. -/
def readSeqIDAndBuf (msgType : Nat) (actualMsgLen : Int) : Decode D I Bytes := do
  let seqID ← readUint32.adaptExcept
    (.withErrMsg fun err => s!"protobuf unmarshal, read seqID failed: {err}")
  Decode.onMessage (ignoreErr (msgType == 3) (setOrCheckSeqID (seqIDOfBits seqID)))
  (next actualMsgLen).adaptExcept
    (.withErrMsg fun err => s!"protobuf unmarshal, read message buffer failed: {err}")

/-- From the method name on. -/
def readMethodAndBuf (msgType : Nat) (payloadLen : Int) : Decode D I (Bytes × Bytes) := do
  let (methodName, methodFieldLen) ← readString.adaptExcept
    (.withErrMsg fun err => s!"protobuf unmarshal, read method name failed: {err}")
  Decode.onMessage (ignoreErr (msgType == 3) (setOrCheckMethodName lib methodName))
  let actualMsgBuf ← readSeqIDAndBuf msgType (payloadLen - metaInfoFixLen - methodFieldLen)
  return (methodName, actualMsgBuf)

/-- Up to the bytes of the data, which come with the method name. -/
def readMetaInfo : Decode D I (Bytes × Bytes) := do
  let payloadLen := (← get).message.payloadLen
  let magicAndMsgType ← readUint32
  if magicAndMsgType &&& magicMask ≠ protobufV1Magic then
    throw (.protocol 4 "Bad version in protobuf Unmarshal")
  let msgType := magicAndMsgType &&& frontMask
  Decode.onMessage (updateMsgType msgType)
  readMethodAndBuf lib msgType payloadLen

/-- The data of the message after it has read the bytes. -/
def readData (methodName actualMsgBuf : Bytes) (data : D) : Except CodecError D :=
  match (lib.pbReader data).fast with
  | some fastRead =>
    if actualMsgBuf = [] then general
    else (fastRead actualMsgBuf).mapError (.trans 7)
  | none => general
where
  general : Except CodecError D :=
    match (lib.pbReader data).readPb with
    | some readPb => readPb methodName actualMsgBuf
    | none =>
      match (lib.pbReader data).unmarshal with
      | some unmarshal => (unmarshal actualMsgBuf).mapError (.trans 7)
      | none => .error (.trans 9 "decode failed, codec msg type not match with protobufCodec")

/-- From the bytes of the data on. -/
def readMessageBuf (methodName actualMsgBuf : Bytes) : EStateM CodecError (Message D I) Unit := do
  let m ← get
  if m.messageType = .exception then
    match lib.pbErrorUnmarshal actualMsgBuf with
    | .error err => throw (.protocol 0 s!"protobuf unmarshal Exception failed: {err}")
    | .ok (typeID, msg) => throw (.trans typeID.toInt msg)
  let data ← newDataIfNeeded lib
  match readData lib methodName actualMsgBuf data with
  | .error err => throw err
  | .ok data => modify fun m => { m with data := some data }

def protobufUnmarshal : Decode D I Unit := do
  let (methodName, actualMsgBuf) ← readMetaInfo lib
  Decode.onMessage (readMessageBuf lib methodName actualMsgBuf)

end Kitex.Codec
