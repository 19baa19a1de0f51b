import Mathlib.Data.List.Basic
import Kitex.Generic.Value

/-! # Texts of numbers

`buildinTypeIntoString` of `util.go`, the parsing of integers and the conversion of texts by
`apiJSConv`.
-/

namespace Kitex.Generic

open Thrift (Bytes)

/-- The integer types of thrift. -/
inductive IntType where
  | i8
  | i16
  | i32
  | i64
  deriving DecidableEq, Repr

namespace IntType

/-- One past the largest number of the type. -/
def limit : IntType → Int
  | i8 => 128
  | i16 => 32768
  | i32 => 2147483648
  | i64 => 9223372036854775808

def Holds (w : IntType) (n : Int) : Prop := -w.limit ≤ n ∧ n < w.limit

instance (w : IntType) (n : Int) : Decidable (w.Holds n) :=
  inferInstanceAs (Decidable (_ ∧ _))

end IntType

/-- The value of a row of decimal digits. -/
def digits (text : Bytes) : Option Nat :=
  if text ≠ [] ∧ text.all (fun d => 48 ≤ d && d ≤ 57) then
    some (text.foldl (fun n d => n * 10 + (d.toNat - 48)) 0)
  else none

/-- The value of a decimal literal with an optional sign. -/
def decimal : Bytes → Option Int
  | 43 :: text => (digits text).map fun n => (n : Int)
  | 45 :: text => (digits text).map fun n => -(n : Int)
  | text => (digits text).map fun n => (n : Int)

/-- `strconv.ParseInt` in base 10 with the bit size of an integer type. -/
def parseInt (w : IntType) (text : Bytes) : Except CodecError Int :=
  match decimal text with
  | none => throw (.badText text)
  | some n => if w.Holds n then pure n else throw (.badText text)

/-- `strconv.FormatInt` in base 10. -/
def formatInt (n : Int) : Bytes :=
  let text := (Nat.toDigits 10 n.natAbs).map fun d => UInt8.ofNat d.toNat
  if n < 0 then 45 :: text else text

def textTrue : Bytes := [116, 114, 117, 101]

def textFalse : Bytes := [102, 97, 108, 115, 101]

def buildinTypeIntoString (texts : Text) : GoValue → Bytes
  | .bool b => if b then textTrue else textFalse
  | .int8 i => formatInt i.toInt
  | .int16 i => formatInt i.toInt
  | .int32 i => formatInt i.toInt
  | .int64 i => formatInt i.toInt
  | .float64 bits => texts.formatFloat bits
  | .string s => s
  | _ => []

/-- `strconv.ParseInt` in base 10 with 64 bits when its error is dropped: a number beyond the range
becomes the limit, and any other text zero. -/
def parseIntDropped (text : Bytes) : Int64 :=
  match decimal text with
  | none => 0
  | some n => Int64.ofInt (max (-9223372036854775808) (min n 9223372036854775807))

mutual

/-- `apiJSConv.Request`. A list is converted if all its elements are texts. -/
def jsConvRequest : GoValue → GoValue
  | .string s => .int64 (parseIntDropped s)
  | .list elems =>
    match elems.mapM (fun | .string s => some (.int64 (parseIntDropped s)) | _ => none) with
    | some res => .list res
    | none => .list elems
  | .interfaceMap entries => .interfaceMap (jsConvEntries entries)
  | .stringMap entries => .stringMap (jsConvMembers entries)
  | val => val

def jsConvEntries : List (GoValue × GoValue) → List (GoValue × GoValue)
  | [] => []
  | (key, value) :: entries => (key, jsConvRequest value) :: jsConvEntries entries

def jsConvMembers : List (Bytes × GoValue) → List (Bytes × GoValue)
  | [] => []
  | (key, value) :: entries => (key, jsConvRequest value) :: jsConvMembers entries

end

end Kitex.Generic
