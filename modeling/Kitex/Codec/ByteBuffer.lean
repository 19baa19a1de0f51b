import Mathlib.Data.List.AList
import Kitex.RpcInfo.RpcInfo
import Kitex.Thrift.Binary

/-! # Buffers and messages of the codecs

`bytebuf_util.go` and `util.go` of package `codec`, over the byte buffer of a connection. Encoding
and decoding keep what they have done when they fail: a failed read leaves the reader where it is,
and the reads before it have moved it.
-/

namespace Kitex.Codec

open Kitex.Thrift Kitex.Thrift.Binary

/-- An error by its type, if it is of one of the two kinds that have types, and its text. -/
inductive CodecError where
  /-- `perrors.ProtocolError` -/
  | protocol (typeID : Nat) (msg : String)
  /-- `remote.TransError` -/
  | trans (typeID : Int) (msg : String)
  | other (msg : String)
  /-- a nil pointer is dereferenced -/
  | panic
  deriving DecidableEq, Repr

namespace CodecError

def msg : CodecError → String
  | protocol _ msg => msg
  | trans _ msg => msg
  | other msg => msg
  | panic => ""

/-- `perrors.NewProtocolErrorWithErrMsg`. -/
def withErrMsg (errMsg : String → String) : CodecError → CodecError
  | protocol typeID msg => protocol typeID msg
  | err => protocol 0 (errMsg err.msg)

end CodecError

/-- A Go string in an error text. -/
def display (s : Bytes) : String := String.ofList (s.map fun b => Char.ofNat b.toNat)

/-! ## Messages -/

inductive MessageType where
  | invalidMessageType
  | call
  | reply
  | exception
  | oneway
  | stream
  | heartbeat
  deriving DecidableEq, Repr

def MessageType.toNat : MessageType → Nat
  | invalidMessageType => 0
  | call => 1
  | reply => 2
  | exception => 3
  | oneway => 4
  | stream => 5
  | heartbeat => 6

inductive RPCRole where
  | server
  | client
  deriving DecidableEq, Repr

/-- `rpcinfo.EndpointInfo`, as far as codecs write it. -/
structure Endpoint where
  serviceName : Bytes
  method : Bytes
  address : Option Bytes
  deriving DecidableEq, Repr

/-- A message with its call, as far as codecs read and write them: `D` are the values of `Data`, and
`I` are method infos. -/
structure Message (D I : Type) where
  rpcRole : RPCRole
  messageType : MessageType
  payloadLen : Int
  data : Option D
  /-- `PayloadCodec`, by its type -/
  payloadCodec : Option Int
  /-- the tag `HeaderFlagsKey` -/
  headerFlags : Option UInt16
  /-- the tag `MeshHeader` -/
  meshHeader : Bool
  transIntInfo : AList fun _ : UInt16 => Bytes
  transStrInfo : AList fun _ : Bytes => Bytes
  /-- `RPCInfo().Config()` -/
  config : Kitex.RpcInfo.RPCConfig
  /-- `RPCInfo().Invocation()` -/
  packageName : Bytes
  serviceName : Bytes
  methodName : Bytes
  methodInfo : Option I
  seqID : Int32
  /-- `RPCInfo().From()` -/
  caller : Endpoint
  /-- `RPCInfo().To()` -/
  callee : Endpoint

/-- `serviceinfo.ServiceInfo`. -/
structure ServiceInfo (I : Type) where
  packageName : Bytes
  serviceName : Bytes
  methodInfo : Bytes → Option I

/-- `ttheader.EncodeParam`. -/
structure EncodeParam where
  flags : UInt16
  seqID : Int32
  protocolID : UInt8
  intInfo : AList fun _ : UInt16 => Bytes
  strInfo : AList fun _ : Bytes => Bytes

/-- `ttheader.DecodeParam`. -/
structure DecodeParam where
  flags : UInt16
  seqID : Int32
  protocolID : UInt8
  intInfo : AList fun _ : UInt16 => Bytes
  strInfo : AList fun _ : Bytes => Bytes
  payloadLen : Int

/-- How `protobufCodec.Marshal` can get the bytes of data. -/
inductive PbWriter where
  /-- `fastpb.Writer`: the buffer of `Size` bytes after `FastWrite` -/
  | fast (buf : Bytes)
  | marshal (buf : Except String Bytes)
  /-- `MessageWriterWithContext`, which may give something that is no `[]byte` -/
  | writePb (actualMsg : Bytes → Except String (Option Bytes))
  | mismatch

/-- How `protobufCodec.Unmarshal` can give bytes to data. -/
structure PbReader (D : Type) where
  /-- `fastpb.Reader` -/
  fast : Option (Bytes → Except String D)
  /-- `MessageReaderWithMethodWithContext` -/
  readPb : Option (Bytes → Bytes → Except CodecError D)
  unmarshal : Option (Bytes → Except String D)

/-- Generated code and the libraries that codecs use. -/
structure Runtime (D I : Type) where
  /-- `ttheader.Encode`: what it writes after the length field, which is filled in later -/
  ttHeaderEncode : EncodeParam → Except String Bytes
  /-- `ttheader.Decode`, and the bytes that it leaves -/
  ttHeaderDecode : Bytes → Except String DecodeParam × Bytes
  /-- `remote.GetServiceSearcher(ctx).SearchService`, with `strict` false -/
  searchService : Bytes → Bytes → Int → Option (ServiceInfo I)
  newArgs : I → Option D
  /-- `data.(*remote.TransError)` -/
  asTransError : D → Option (Int32 × String)
  /-- `data.(error)` -/
  asError : D → Option String
  /-- what the thrift codecs write of data, or of an exception, after the message begin -/
  writeThrift : MessageType → D → Except CodecError Bytes
  pbWriter : D → PbWriter
  pbReader : D → PbReader D
  pbErrorMarshal : Int32 → String → Except String Bytes
  pbErrorUnmarshal : Bytes → Except String (Int32 × String)

/-! ## Byte buffers -/

/-- A byte buffer over a connection. Some readers refuse a negative number of bytes, and some give
nothing. -/
structure ByteBuffer where
  /-- what arrives on the connection and has not been read -/
  bytes : Bytes
  /-- the error of a read past the bytes -/
  err : String
  /-- the error of a read of a negative number of bytes, if it is one -/
  negativeErr : Option String
  /-- `ReadLen` -/
  readSize : Int
  deriving DecidableEq, Repr

namespace ByteBuffer

variable (b : ByteBuffer)

/-- The reader moves forward. -/
def advance (n : Nat) : ByteBuffer := { b with bytes := b.bytes.drop n }

end ByteBuffer

/-- What a decoder works on. -/
structure Decoding (D I : Type) where
  message : Message D I
  input : ByteBuffer

abbrev Decode (D I : Type) := EStateM CodecError (Decoding D I)

section Decode

variable {D I : Type}

/-- A function of the message that a decoder calls. -/
def Decode.onMessage {α : Type} (f : EStateM CodecError (Message D I) α) : Decode D I α := fun s =>
  match f s.message with
  | .ok a message => .ok a { s with message }
  | .error err message => .error err { s with message }

/-- The error of a function is not looked at. -/
def ignoreErr {σ : Type} (ignore : Bool) (f : EStateM CodecError σ Unit) :
    EStateM CodecError σ Unit := fun s =>
  match f s with
  | .ok a s' => .ok a s'
  | .error err s' => if ignore then .ok () s' else .error err s'

def peek (n : Nat) : Decode D I Bytes := fun s =>
  if n ≤ s.input.bytes.length then .ok (s.input.bytes.take n) s else .error (.other s.input.err) s

def next (n : Int) : Decode D I Bytes := fun s =>
  if n < 0 then
    match s.input.negativeErr with
    | some err => .error (.other err) s
    | none => .ok [] { s with input := { s.input with readSize := s.input.readSize + n } }
  else if n.toNat ≤ s.input.bytes.length then
    .ok (s.input.bytes.take n.toNat)
      { s with input := { s.input.advance n.toNat with readSize := s.input.readSize + n } }
  else .error (.other s.input.err) s

/-- Bytes that are skipped are not counted. -/
def skip (n : Nat) : Decode D I Unit := fun s =>
  if n ≤ s.input.bytes.length then .ok () { s with input := s.input.advance n }
  else .error (.other s.input.err) s

/-- `binary.BigEndian.Uint32`. -/
def uint32 (buf : Bytes) : Nat := fromBigEndian (buf.take 4)

def uint16 (buf : Bytes) : Nat := fromBigEndian (buf.take 2)

def readUint32 : Decode D I Nat := do return uint32 (← next 4)

/-- The length of the field comes with the string. -/
def readString : Decode D I (Bytes × Int) := do
  let strLen ← readUint32
  if strLen = 0 then throw (.other "invalid string length in ReadString")
  let str ← next strLen
  return (str, strLen + 4)

end Decode

/-- What an encoder works on. -/
structure Encoding (D I : Type) where
  message : Message D I
  out : Bytes

abbrev Encode (D I : Type) := EStateM CodecError (Encoding D I)

section Encode

variable {D I : Type}

/-- A function of the message that an encoder calls. -/
def Encode.onMessage {α : Type} (f : EStateM CodecError (Message D I) α) : Encode D I α := fun s =>
  match f s.message with
  | .ok a message => .ok a { s with message }
  | .error err message => .error err { s with message }

def writeBinary (buf : Bytes) : Encode D I Unit := modify fun s => { s with out := s.out ++ buf }

def writeUint32 (val : Nat) : Encode D I Unit := writeBinary (bigEndian 4 val)

def writeString (val : Bytes) : Encode D I Unit := do
  writeUint32 val.length
  writeBinary val

/-- A buffer that is filled in later, by its place. -/
def malloc (n : Nat) : Encode D I Nat := do
  let s ← get
  writeBinary (List.replicate n 0)
  return s.out.length

/-- `binary.BigEndian.PutUint32` to the buffer at a place. -/
def putUint32 (place : Nat) (val : Nat) : Encode D I Unit := modify fun s =>
  { s with out := s.out.take place ++ bigEndian 4 val ++ s.out.drop (place + 4) }

end Encode

/-! ## `util.go` -/

section Util

variable {D I : Type} (lib : Runtime D I)

def setOrCheckMethodName (methodName : Bytes) : EStateM CodecError (Message D I) Unit := do
  let m ← get
  if methodName = [] then throw (.other "method name that receive is empty")
  if m.rpcRole = .client then
    if m.methodName = methodName then return
    throw (.other
      s!"wrong method name, expect={display m.methodName}, actual={display methodName}")
  set { m with methodName }
  match lib.searchService m.serviceName methodName m.config.payloadCodec with
  | none =>
    throw (.trans 20
      s!"unknown service {display m.serviceName}, method {display methodName}")
  | some svcInfo =>
    match svcInfo.methodInfo methodName with
    | none =>
      throw (.trans 1
        s!"unknown method {display methodName} (service {display m.serviceName})")
    | some methodInfo =>
      set { m with
        methodName
        packageName := svcInfo.packageName
        serviceName := svcInfo.serviceName
        methodInfo := some methodInfo
        callee := { m.callee with method := methodName } }

def setOrCheckSeqID (seqID : Int32) : EStateM CodecError (Message D I) Unit := do
  let m ← get
  match m.messageType with
  | .call | .oneway => set { m with seqID }
  | .reply =>
    if m.seqID ≠ seqID then
      throw (.trans 4 (s!"method[{display m.methodName}] out of order sequence response, " ++
        s!"expect[{m.seqID}], receive[{seqID}]"))
  | _ => return

def updateMsgType (msgType : Nat) : EStateM CodecError (Message D I) Unit := do
  let m ← get
  if msgType = m.messageType.toNat then return
  match m.rpcRole, msgType with
  | .server, 1 => set { m with messageType := .call }
  | .server, 4 => set { m with messageType := .oneway }
  | .server, 5 => set { m with messageType := .stream }
  | .client, 2 => set { m with messageType := .reply }
  | .client, 3 => set { m with messageType := .exception }
  | .client, 5 => set { m with messageType := .stream }
  | .server, _ => throw (.trans 2 s!"server side, invalid message type {msgType}")
  | .client, _ => throw (.trans 2 s!"client side, invalid message type {msgType}")

/-- With `message.NewData`. -/
def newDataIfNeeded : EStateM CodecError (Message D I) D := do
  let m ← get
  match m.data with
  | some data => return data
  | none =>
    match m.methodInfo.bind lib.newArgs with
    | some data =>
      set { m with data := some data }
      return data
    | none => throw (.trans 6 "message data for codec is nil")

end Util

end Kitex.Codec
