import Mathlib.Data.List.Basic

/-! # The wire of thrift

What `thrift.BufferReader` takes from the wire. Only what bounds a reader of the protocol is
required: a read takes at least the bytes of its smallest value, and a count has 32 bits.
-/

namespace Kitex.Thrift

abbrev Bytes := List UInt8

/-- A read takes a value from the front of the input. -/
abbrev Read (α : Type) := Bytes → Option (α × Bytes)

/-- A read that succeeds takes at least `size` bytes. -/
def Takes {α : Type} (read : Read α) (size : Nat) : Prop :=
  ∀ {input a rest}, read input = some (a, rest) → rest.length + size ≤ input.length

/-- The code of the type that ends a struct. -/
def stop : UInt8 := 0

/-- One past the largest count of a list or map header. -/
def countLimit : Nat := 4294967296

/-- The reads of a protocol, with the least that they take. -/
structure Wire where
  readBool : Read Bool
  readByte : Read Int8
  readI16 : Read Int16
  readI32 : Read Int32
  readI64 : Read Int64
  readDouble : Read UInt64
  /-- Strings and binaries. -/
  readString : Read Bytes
  readListBegin : Read (UInt8 × Nat)
  readMapBegin : Read (UInt8 × UInt8 × Nat)
  readFieldBegin : Read (UInt8 × Int16)
  /-- Passes over a value of the given type. -/
  skip : UInt8 → Read Unit
  takes_bool : Takes readBool 1
  takes_byte : Takes readByte 1
  takes_i16 : Takes readI16 2
  takes_i32 : Takes readI32 4
  takes_i64 : Takes readI64 8
  takes_double : Takes readDouble 8
  takes_string : Takes readString 4
  takes_listBegin : Takes readListBegin 5
  takes_mapBegin : Takes readMapBegin 6
  takes_fieldBegin : Takes readFieldBegin 1
  takes_skip : ∀ t, Takes (skip t) 0
  listBegin_count : ∀ {input t n rest}, readListBegin input = some ((t, n), rest) → n < countLimit
  mapBegin_count : ∀ {input k t n rest},
    readMapBegin input = some ((k, t, n), rest) → n < countLimit

end Kitex.Thrift
