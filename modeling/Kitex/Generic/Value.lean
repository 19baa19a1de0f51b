import Kitex.Container.Lookup
import Kitex.Thrift.Wire

/-! # Descriptors and values of the generic codec

A type descriptor refers to a struct by its place in a table, so that a struct may occur among
its own fields. A Go value is tagged with the dynamic type that the writers switch on.
-/

namespace Kitex.Generic

open Thrift (Bytes)

/-- `descriptor.TypeDescriptor`, with one constructor for each name of `builtinTypes` and for
each container. -/
inductive TypeDescriptor where
  | void
  | bool
  | byte
  | i8
  | i16
  | i32
  | i64
  | double
  | string
  | binary
  | list (elem : TypeDescriptor)
  | set (elem : TypeDescriptor)
  | map (key elem : TypeDescriptor)
  | struct (ref : Nat) (isRequestBase : Bool)
  deriving DecidableEq, Repr

namespace TypeDescriptor

/-- `TypeDescriptor.Type`: the code of the type on the wire. -/
def type : TypeDescriptor → UInt8
  | void => 1
  | bool => 2
  | byte | i8 => 3
  | double => 4
  | i16 => 6
  | i32 => 8
  | i64 => 10
  | string | binary => 11
  | struct .. => 12
  | map .. => 13
  | set _ => 14
  | list _ => 15

end TypeDescriptor

/-- What `gjson.Result` answers to the calls of the writers: whether it is null, its value as a
boolean, number or text, its elements, its members, and what `Get` finds under a name. -/
inductive Json where
  | mk (null bool : Bool) (int : Int64) (float : UInt64) (string : Bytes) (array : List Json)
      (map get : List (Bytes × Json))

/-- The representations of a request body that the mapping of a body field knows. -/
inductive ContentType where
  | json
  | protobuf
  | other
  deriving DecidableEq, Repr

/-- A Go value of type `interface{}`, by its dynamic type.

- `number` is a `json.Number`, `string` and `bytes` are `string` and `[]byte`.
- A map is the list of its entries in the order in which a `range` over it visits them.
- `message` is a `proto.Message` with the fields that `TryGetFieldByNumber` finds.
- `request` is a `*descriptor.HTTPRequest`: texts by query, path, header and cookie name, the body
  as a JSON object or a message, and the raw body.
- `zero` is the nil slice or map of the Go type that `getRType` makes for a descriptor.
- `shared` is a list or map that was made when the IDL was parsed and lies at an address.
- `other` has any dynamic type that no writer knows. -/
inductive GoValue where
  | nil
  | void
  | bool (b : Bool)
  | int8 (i : Int8)
  | uint8 (i : UInt8)
  | int16 (i : Int16)
  | int32 (i : Int32)
  | int64 (i : Int64)
  | float64 (bits : UInt64)
  | number (text : Bytes)
  | string (s : Bytes)
  | bytes (b : Bytes)
  | list (elems : List GoValue)
  | interfaceMap (entries : List (GoValue × GoValue))
  | stringMap (entries : List (Bytes × GoValue))
  | message (fields : List (Int16 × GoValue))
  | request (contentType : ContentType) (query path header cookie : List (Bytes × Bytes))
      (body : List (Bytes × GoValue)) (generalBody : List (Int16 × GoValue)) (rawBody : Bytes)
  | result (json : Json)
  | zero (t : TypeDescriptor)
  | shared (addr : Nat)
  | other

namespace GoValue

/-- Whether a value may be the key of a Go map: slices and maps may not. -/
def hashable : GoValue → Bool
  | bytes _ | list _ | interfaceMap _ | stringMap _ | zero _ | shared _ => false
  | _ => true

/-- The bits of a number that is not a number. -/
def isNaN (bits : UInt64) : Bool :=
  9218868437227405312 < bits &&& 9223372036854775807

/-- `==` on doubles: a NaN differs from itself and the two zeros are equal. -/
def floatEq (a b : UInt64) : Bool :=
  !isNaN a && !isNaN b && (a == b || (a ||| b) &&& 9223372036854775807 == 0)

/-- `==` on the keys of a map. Messages, requests and results are pointers, and every read makes
new ones. -/
def keyEq : GoValue → GoValue → Bool
  | nil, nil | void, void => true
  | bool a, bool b => a == b
  | int8 a, int8 b => a == b
  | uint8 a, uint8 b => a == b
  | int16 a, int16 b => a == b
  | int32 a, int32 b => a == b
  | int64 a, int64 b => a == b
  | float64 a, float64 b => floatEq a b
  | number a, number b | string a, string b => a == b
  | _, _ => false

end GoValue

inductive Requiredness where
  | required
  | optional
  | default
  deriving DecidableEq, Repr

/-- An error of the codec. `depth` is met by no run with enough fuel. -/
inductive CodecError where
  | needType (expected but : UInt8)
  | unsupportedType (expected : UInt8)
  | beyondRange (t : UInt8) (value : Int)
  | badText (text : Bytes)
  | contentType
  | endOfInput
  | requiredMissing (id : Int16) (name : Bytes)
  | rejected (id : Int16)
  | exception
  | mapping
  | depth

/-- `descriptor.ValueMapping`. -/
structure ValueMapping where
  request : GoValue → Except CodecError GoValue
  response : GoValue → Except CodecError GoValue

/-- The mappings of `http_mapping.go`, with the name each was made with. -/
inductive HTTPMapping where
  | apiQuery (value : Bytes)
  | apiPath (value : Bytes)
  | apiHeader (value : Bytes)
  | apiCookie (value : Bytes)
  | apiBody (value : Bytes)
  | apiHTTPCode
  | apiNone
  | apiRawBody

/-- `descriptor.FieldDescriptor`. The name is what `FieldName` returns; field ids have 16 bits on
the wire. -/
structure FieldDescriptor where
  name : Bytes
  id : Int16
  requiredness : Requiredness
  defaultValue : Option GoValue := none
  isException : Bool := false
  type : TypeDescriptor
  httpMapping : HTTPMapping := .apiBody name
  valueMapping : Option ValueMapping := none

namespace FieldDescriptor

/-- The value mapping of the field applied to a value that is written. -/
def request (field : FieldDescriptor) (val : GoValue) : Except CodecError GoValue :=
  match field.valueMapping with
  | none => pure val
  | some mapping => mapping.request val

/-- The value mapping of the field applied to a value that was read. -/
def response (field : FieldDescriptor) (val : GoValue) : Except CodecError GoValue :=
  match field.valueMapping with
  | none => pure val
  | some mapping => mapping.response val

end FieldDescriptor

/-- `descriptor.StructDescriptor`: `FieldsByID` and `FieldsByName` are two indices of one list of
fields, so neither an id nor a name occurs twice. -/
structure StructDescriptor where
  fields : List FieldDescriptor
  ids_nodup : (fields.map FieldDescriptor.id).Nodup
  names_nodup : (fields.map FieldDescriptor.name).Nodup

namespace StructDescriptor

/-- The struct of the void type. -/
def empty : StructDescriptor where
  fields := []
  ids_nodup := List.nodup_nil
  names_nodup := List.nodup_nil

def fieldByID (sd : StructDescriptor) (id : Int16) : Option FieldDescriptor :=
  sd.fields.find? fun field => field.id == id

def requiredFields (sd : StructDescriptor) : List FieldDescriptor :=
  sd.fields.filter fun field => field.requiredness = .required

/-- `CheckRequired`: every required field is among the ids that were read. -/
def checkRequired (sd : StructDescriptor) (readFields : List Int16) : Except CodecError Unit :=
  match sd.requiredFields.find? fun field => !readFields.contains field.id with
  | some field => throw (.requiredMissing field.id field.name)
  | none => pure ()

end StructDescriptor

/-- Text conversions of the Go libraries whose results are only handed on. -/
structure Text where
  formatFloat : UInt64 → Bytes
  encodeBase64 : Bytes → Bytes

end Kitex.Generic
