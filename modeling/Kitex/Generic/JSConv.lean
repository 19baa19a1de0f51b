import Kitex.Generic.Text

/-! # Integers as texts for JavaScript

`api.js_conv` sends 64-bit integers as texts: `Response` writes them, in lists and maps,
and `Request` reads them back. `Request` drops the errors of the numbers, so that a text
that is no number becomes zero, and it gives up on a list with an element that is no text.
-/

namespace Kitex.Generic

open Thrift (Bytes)

mutual

/-- `apiJSConv.Response`. A list is converted if all its elements are 64-bit integers. -/
def jsConvResponse : GoValue → GoValue
  | .int64 i => .string (formatInt i.toInt)
  | .list elems =>
    match elems.mapM (fun | .int64 i => some (.string (formatInt i.toInt)) | _ => none) with
    | some res => .list res
    | none => .list elems
  | .interfaceMap entries => .interfaceMap (jsConvResponseEntries entries)
  | .stringMap entries => .stringMap (jsConvResponseMembers entries)
  | val => val

def jsConvResponseEntries : List (GoValue × GoValue) → List (GoValue × GoValue)
  | [] => []
  | (key, value) :: entries => (key, jsConvResponse value) :: jsConvResponseEntries entries

def jsConvResponseMembers : List (Bytes × GoValue) → List (Bytes × GoValue)
  | [] => []
  | (key, value) :: entries => (key, jsConvResponse value) :: jsConvResponseMembers entries

end

/-! ## What the comment of `Request` promises -/

/-- The 64-bit integer that a text is, if it is one. -/
def int64OfText (s : Bytes) : Option Int64 :=
  match decimal s with
  | some n => if IntType.i64.Holds n then some (Int64.ofInt n) else none
  | none => none

mutual

/-- Each text that is a 64-bit integer is replaced, and everything else is kept. -/
def integersOfTexts : GoValue → GoValue
  | .string s => (int64OfText s).elim (.string s) .int64
  | .list elems => .list (integersOfElems elems)
  | .interfaceMap entries => .interfaceMap (integersOfEntries entries)
  | .stringMap entries => .stringMap (integersOfMembers entries)
  | val => val

def integersOfElems : List GoValue → List GoValue
  | [] => []
  | value :: elems => integersOfTexts value :: integersOfElems elems

def integersOfEntries : List (GoValue × GoValue) → List (GoValue × GoValue)
  | [] => []
  | (key, value) :: entries => (key, integersOfTexts value) :: integersOfEntries entries

def integersOfMembers : List (Bytes × GoValue) → List (Bytes × GoValue)
  | [] => []
  | (key, value) :: entries => (key, integersOfTexts value) :: integersOfMembers entries

end

end Kitex.Generic
