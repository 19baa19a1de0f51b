import Kitex.Generic.Text
import Kitex.Thrift.Binary

/-! # The readers of the generic codec

`read.go`. A read that fails returns an error or panics, and it has taken its bytes and reserved
its slots all the same.
-/

namespace Kitex.Generic

open Thrift (Bytes)
open Container (assign)

/-- What a protobuf message of a reader option accepts, and the messages of its fields. -/
structure PbDescriptor where
  accepts : Int16 → GoValue → Bool
  messageType : Int16 → Option Nat

/-- The codec of an IDL: the wire, the conversions of texts, the structs of the IDL and the
protobuf messages. -/
structure Codec where
  wire : Thrift.Wire
  texts : Text
  structs : Nat → StructDescriptor
  pbMessages : Nat → PbDescriptor

/-- The codec of an IDL over the binary protocol, for texts that are handed on as they are. -/
def binaryCodec (structs : Nat → StructDescriptor) : Codec where
  wire := Thrift.binary
  texts := { formatFloat := fun _ => [], encodeBase64 := id }
  structs := structs
  pbMessages _ := { accepts := fun _ _ => true, messageType := fun _ => none }

def assertType (expected but : UInt8) : Except CodecError Unit :=
  if expected = but then pure () else throw (.needType expected but)

/-- `TypeDescriptor.Struct`, which is nil for a type without fields. -/
def Codec.structOf (c : Codec) (t : TypeDescriptor) : Option StructDescriptor :=
  match t with
  | .struct ref _ => some (c.structs ref)
  | .void => some .empty
  | _ => none

/-- What is left of the input, and how many slots of lists and maps were reserved so far. -/
structure Input where
  bytes : Bytes
  slots : Nat

/-- What makes a reader panic. -/
inductive ReadPanic where
  /-- A field of a descriptor without a struct. -/
  | nilStruct
  /-- A slice or map as the key of a map. -/
  | unhashableKey
  /-- `reflect.MapOf` with a key type that has no equality. -/
  | invalidKeyType
  | unsupportedType

inductive Fail where
  | error (e : CodecError)
  | panic (p : ReadPanic)
  | outOfFuel

abbrev In := ExceptT Fail (StateM Input)

/-- The outcome of a reader, and the input it leaves. -/
def runIn {α : Type} (m : In α) (input : Input) : Except Fail α × Input := m.run.run input

/-- A read of the wire. -/
def take {α : Type} (read : Thrift.Read α) : In α := do
  let input ← get
  match read input.bytes with
  | some (a, rest) =>
    set { input with bytes := rest }
    pure a
  | none => throw (.error .endOfInput)

/-- `make` with room for `count` entries. -/
def reserve (count : Nat) : In Unit :=
  modify fun input => { input with slots := input.slots + count }

def ofExcept {α : Type} : Except CodecError α → In α
  | .ok a => pure a
  | .error e => throw (.error e)

/-- `readerOption`. `pbDsc` is the message of the current level; the empty message is the first of
the codec's table. -/
structure ReaderOption where
  forJSON : Bool := false
  throwException : Bool := false
  http : Bool := false
  binaryWithBase64 : Bool := false
  binaryWithByteSlice : Bool := false
  setFieldsForEmptyStruct : UInt8 := 0
  pbDsc : Option Nat := none

section

variable (c : Codec)

/-- `unnestPb`: the option for the field with the given number. -/
def ReaderOption.unnestPb (opt : ReaderOption) (id : Int16) : ReaderOption :=
  match opt.pbDsc with
  | none => opt
  | some pbDsc => { opt with pbDsc := some (((c.pbMessages pbDsc).messageType id).getD 0) }

/-- `nextReader`: the type on the wire must be the type of the descriptor, whose reader is
`readValue`. -/
def nextReader (tt : UInt8) (t : TypeDescriptor) : In Unit := ofExcept (assertType tt t.type)

/-- Whether `reflect.MapOf` and Go maps accept the type that `getRType` makes as a key. -/
def comparable : TypeDescriptor → Bool
  | .binary | .list _ | .set _ | .map .. | .struct .. => false
  | _ => true

/-- Whether `getRType` makes a type. -/
def getRType : TypeDescriptor → Except ReadPanic Unit
  | .void => throw .unsupportedType
  | .list elem | .set elem => getRType elem
  | .map key elem => do
    getRType key
    getRType elem
    if comparable key then pure () else throw .invalidKeyType
  | _ => pure ()

def readEmptyValue (t : TypeDescriptor) : Except ReadPanic GoValue :=
  match t with
  | .bool => pure (.bool false)
  | .byte => pure (.uint8 0)
  | .i8 => pure (.int8 0)
  | .i16 => pure (.int16 0)
  | .i32 => pure (.int32 0)
  | .i64 => pure (.int64 0)
  | .double => pure (.float64 0)
  | .binary => pure (.bytes [])
  | .string => pure (.string [])
  | .list _ | .set _ | .map .. => do
    getRType t
    pure (.zero t)
  | .struct .. => pure (.stringMap [])
  | .void => throw .unsupportedType

/-- A `fieldSetter`: the fields read so far are the entries of a map or, with a message
descriptor, the fields of a message. -/
def setField (opt : ReaderOption) (st : GoValue) (field : FieldDescriptor) (val : GoValue) :
    Except CodecError GoValue :=
  match st, opt.pbDsc with
  | .stringMap entries, _ => pure (.stringMap (assign (· == ·) field.name val entries))
  | .message fields, some pbDsc =>
    if (c.pbMessages pbDsc).accepts field.id val then
      pure (.message (assign (· == ·) field.id val fields))
    else throw (.rejected field.id)
  | st, _ => pure st

/-- The struct before its first field is read. -/
def newStruct (opt : ReaderOption) : GoValue :=
  match opt.pbDsc with
  | none => .stringMap []
  | some _ => .message []

/-- The field with the empty value of its type, if the option asks for it. -/
def setEmptyField (opt : ReaderOption) (st : GoValue) (field : FieldDescriptor) : In GoValue :=
  if opt.setFieldsForEmptyStruct = 1 ∧ field.requiredness = .optional then pure st
  else
    match readEmptyValue field.type with
    | .ok val => ofExcept (setField c opt st field val)
    | .error p => throw (.panic p)

/-- The field with its default value, if it has one. -/
def setDefault (opt : ReaderOption) (st : GoValue) (field : FieldDescriptor) : In GoValue :=
  match field.defaultValue with
  | none => pure st
  | some val => do
    let val ← ofExcept (field.response val)
    ofExcept (setField c opt st field val)

/-- The part of `readStruct` before its loop. -/
def initStruct (opt : ReaderOption) (t : TypeDescriptor) : In GoValue :=
  match c.structOf t with
  | none => pure (newStruct opt)
  | some sd => do
    let st ← if opt.setFieldsForEmptyStruct ≠ 0
      then sd.fields.foldlM (setEmptyField c opt) (newStruct opt)
      else pure (newStruct opt)
    sd.fields.foldlM (setDefault c opt) st

section Containers

/-! The readers of containers, over the reader of the values inside. -/

variable (read : ReaderOption → TypeDescriptor → In GoValue)

/-- The loop of `readList`. -/
def readTimes {α : Type} (reader : In α) : Nat → In (List α)
  | 0 => pure []
  | count + 1 => do
    let item ← reader
    let items ← readTimes reader count
    pure (item :: items)

def readList (opt : ReaderOption) (elem : TypeDescriptor) : In GoValue := do
  let (elemType, length) ← take c.wire.readListBegin
  nextReader elemType elem
  reserve length
  let elems ← readTimes (read opt elem) length
  pure (.list elems)

/-- The loop of `readInterfaceMap`. -/
def readEntries (opt : ReaderOption) (key elem : TypeDescriptor) :
    Nat → List (GoValue × GoValue) → In (List (GoValue × GoValue))
  | 0, m => pure m
  | count + 1, m => do
    let k ← read (opt.unnestPb c 1) key
    let v ← read (opt.unnestPb c 2) elem
    if k.hashable then readEntries opt key elem count (assign GoValue.keyEq k v m)
    else throw (.panic .unhashableKey)

def readInterfaceMap (opt : ReaderOption) (key elem : TypeDescriptor) : In GoValue := do
  let (keyType, elemType, length) ← take c.wire.readMapBegin
  reserve length
  if length = 0 then pure (.interfaceMap [])
  else
    nextReader keyType key
    nextReader elemType elem
    let m ← readEntries c read opt key elem length []
    pure (.interfaceMap m)

/-- The loop of `readStringMap`. -/
def readStringEntries (opt : ReaderOption) (key elem : TypeDescriptor) :
    Nat → List (Bytes × GoValue) → In (List (Bytes × GoValue))
  | 0, m => pure m
  | count + 1, m => do
    let k ← read opt key
    let v ← read opt elem
    readStringEntries opt key elem count
      (assign (· == ·) (buildinTypeIntoString c.texts k) v m)

def readStringMap (opt : ReaderOption) (key elem : TypeDescriptor) : In GoValue := do
  let (keyType, elemType, length) ← take c.wire.readMapBegin
  reserve length
  if length = 0 then pure (.stringMap [])
  else
    nextReader keyType key
    nextReader elemType elem
    let m ← readStringEntries c read opt key elem length []
    pure (.stringMap m)

def readMap (opt : ReaderOption) (key elem : TypeDescriptor) : In GoValue :=
  if opt.forJSON then readStringMap c read opt key elem else readInterfaceMap c read opt key elem

/-- The loop that `readStruct` and `readHTTPResponse` share: the fields up to the stop, each handed
to `set` with its value. -/
def readFields {σ : Type} (opt : ReaderOption) (t : TypeDescriptor)
    (set : σ → FieldDescriptor → GoValue → Except CodecError σ) : Nat → σ → List Int16 → In σ
  | 0, _, _ => throw .outOfFuel
  | n + 1, st, ids => do
    let (fieldType, fieldID) ← take c.wire.readFieldBegin
    if fieldType = Thrift.stop then
      match c.structOf t with
      | none => pure st
      | some sd =>
        ofExcept (sd.checkRequired ids)
        pure st
    else
      match c.structOf t with
      | none => throw (.panic .nilStruct)
      | some sd =>
        match sd.fieldByID fieldID with
        | none =>
          take (c.wire.skip fieldType)
          readFields opt t set n st (fieldID :: ids)
        | some field =>
          nextReader fieldType field.type
          let val ← read (opt.unnestPb c field.id) field.type
          let val ← ofExcept (field.response val)
          let st ← ofExcept (set st field val)
          readFields opt t set n st (fieldID :: ids)

/-- `readStruct`, for less than `n` fields. -/
def readStruct (n : Nat) (opt : ReaderOption) (t : TypeDescriptor) : In GoValue := do
  let st ← initStruct c opt t
  readFields c read opt t (setField c opt) n st []

/-- The response of an HTTP call: the parts that the mappings set. -/
structure HTTPResponse where
  header : List (Bytes × GoValue)
  statusCode : Option GoValue
  body : GoValue

/-- `HTTPMapping.Response`. A header and the status keep the value they are converted from. -/
def respond (opt : ReaderOption) (resp : HTTPResponse) (field : FieldDescriptor) (val : GoValue) :
    Except CodecError HTTPResponse :=
  match field.httpMapping with
  | .apiHeader value => pure { resp with header := assign (· == ·) value val resp.header }
  | .apiHTTPCode => pure { resp with statusCode := some val }
  | .apiBody value => do
    pure { resp with body := ← setField c opt resp.body { field with name := value } val }
  | _ => pure resp

def readHTTPResponse (n : Nat) (opt : ReaderOption) (t : TypeDescriptor) : In HTTPResponse :=
  match c.structOf t with
  | none => throw (.panic .nilStruct)
  | some sd => do
    let resp : HTTPResponse := ⟨[], none, newStruct opt⟩
    let resp ← sd.fields.foldlM (fun resp field =>
      match field.defaultValue with
      | none => pure resp
      | some val => do
        let val ← ofExcept (field.response val)
        ofExcept (respond c opt resp field val)) resp
    readFields c read opt t (respond c opt) n resp []

end Containers

/-- The reader that `nextReader` chooses, for inputs shorter than the fuel. -/
def readValue : Nat → ReaderOption → TypeDescriptor → In GoValue
  | 0, _, _ => throw .outOfFuel
  | n + 1, opt, t =>
    match t with
    | .void => do
      let _ ← readStruct c (readValue n) (n + 1) opt t
      pure .void
    | .bool => do pure (.bool (← take c.wire.readBool))
    | .byte | .i8 => do
      let i ← take c.wire.readByte
      if opt.pbDsc.isSome then pure (.int32 i.toInt32) else pure (.int8 i)
    | .i16 => do
      let i ← take c.wire.readI16
      if opt.pbDsc.isSome then pure (.int32 i.toInt32) else pure (.int16 i)
    | .i32 => do pure (.int32 (← take c.wire.readI32))
    | .i64 => do pure (.int64 (← take c.wire.readI64))
    | .double => do pure (.float64 (← take c.wire.readDouble))
    | .string => do pure (.string (← take c.wire.readString))
    | .binary => do
      let b ← take c.wire.readString
      if opt.binaryWithByteSlice then pure (.bytes b)
      else if opt.binaryWithBase64 then pure (.string (c.texts.encodeBase64 b))
      else pure (.string b)
    | .list elem | .set elem => readList c (readValue n) opt elem
    | .map key elem => readMap c (readValue n) opt key elem
    | .struct .. => readStruct c (readValue n) (n + 1) opt t

/-- What a call returns: the result of an HTTP call is a response. -/
inductive Reply where
  | value (v : GoValue)
  | http (resp : HTTPResponse)

/-- The loop of `skipStructReader`. -/
def skipFields (fuel : Nat) (opt : ReaderOption) (t : TypeDescriptor) : Nat → Reply → In Reply
  | 0, _ => throw .outOfFuel
  | n + 1, v => do
    let (fieldType, fieldID) ← take c.wire.readFieldBegin
    if fieldType = Thrift.stop then pure v
    else
      match c.structOf t with
      | none => throw (.panic .nilStruct)
      | some sd =>
        match sd.fieldByID fieldID with
        | none =>
          take (c.wire.skip fieldType)
          skipFields fuel opt t n v
        | some field =>
          nextReader fieldType field.type
          if field.isException ∧ opt.throwException then
            let _ ← readValue c fuel opt field.type
            throw (.error .exception)
          else if opt.http then
            let resp ← readHTTPResponse c (readValue c fuel) fuel opt field.type
            skipFields fuel opt t n (.http resp)
          else
            let val ← readValue c fuel opt field.type
            skipFields fuel opt t n (.value val)

/-- `skipStructReader`: the value of the field inside the struct that wraps a request or
response. -/
def skipStructReader (fuel : Nat) (opt : ReaderOption) (t : TypeDescriptor) : In Reply :=
  skipFields c fuel opt t fuel (.value .nil)

/-- `ReadStruct.Read` and its like: a message of a streaming method is not wrapped. -/
def readMessage (fuel : Nat) (opt : ReaderOption) (isWithoutWrapping : Bool) (t : TypeDescriptor) :
    In Reply :=
  if isWithoutWrapping then do pure (.value (← readStruct c (readValue c fuel) fuel opt t))
  else skipStructReader c fuel opt t

end

end Kitex.Generic
