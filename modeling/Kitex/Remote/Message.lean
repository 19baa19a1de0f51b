import Mathlib.Data.List.AList
import Mathlib.Data.UInt
import Mathlib.Logic.Function.Basic

/-! # Messages and their transport information

`message.go`. Maps are references: `PutTransStrInfo` may keep the map of its caller, and
`TransStrInfo` gives the map away, so that others can write to the maps of a transport info as well.
`V` are the values of interface types other than nil.
-/

namespace Kitex.Remote

/-! ## `transInfo` -/

/-- The contents of the maps. -/
structure Maps where
  str : Nat → AList fun _ : String => String
  int : Nat → AList fun _ : UInt16 => String

/-- The references to its maps. -/
structure TransInfo where
  strInfo : Nat
  intInfo : Nat
  deriving DecidableEq, Repr

inductive TransInfoCall where
  | putTransStrInfo (kvInfo : Option Nat)
  | putTransIntInfo (kvInfo : Option Nat)
  /-- somebody writes to a map that `TransStrInfo` or `TransIntInfo` gives, or to their own -/
  | writeStr (ref : Nat) (key value : String)
  | writeInt (ref : Nat) (key : UInt16) (value : String)

structure TransInfoView where
  transStrInfo : String → Option String
  transIntInfo : UInt16 → Option String

/-- A transport info and the maps. -/
structure TransInfoState where
  maps : Maps
  info : TransInfo

namespace TransInfoState

variable (s : TransInfoState)

def setStr (ref : Nat) (content : AList fun _ : String => String) : TransInfoState :=
  { s with maps := { s.maps with str := Function.update s.maps.str ref content } }

def setInt (ref : Nat) (content : AList fun _ : UInt16 => String) : TransInfoState :=
  { s with maps := { s.maps with int := Function.update s.maps.int ref content } }

/-- `newTransInfo`, with new maps at a reference. -/
def newTransInfo (maps : Maps) (ref : Nat) : TransInfoState where
  maps := ⟨Function.update maps.str ref ∅, Function.update maps.int ref ∅⟩
  info := ⟨ref, ref⟩

/-- A map is kept if there are no entries, and copied otherwise. -/
def call : TransInfoCall → TransInfoState
  | .putTransStrInfo none | .putTransIntInfo none => s
  | .putTransStrInfo (some ref) =>
    if (s.maps.str s.info.strInfo).entries = [] then { s with info.strInfo := ref }
    else s.setStr s.info.strInfo (s.maps.str ref ∪ s.maps.str s.info.strInfo)
  | .putTransIntInfo (some ref) =>
    if (s.maps.int s.info.intInfo).entries = [] then { s with info.intInfo := ref }
    else s.setInt s.info.intInfo (s.maps.int ref ∪ s.maps.int s.info.intInfo)
  | .writeStr ref key value => s.setStr ref ((s.maps.str ref).insert key value)
  | .writeInt ref key value => s.setInt ref ((s.maps.int ref).insert key value)

/-- `zero`, before the info is put back into the pool. -/
def zero : TransInfoState := (s.setInt s.info.intInfo ∅).setStr s.info.strInfo ∅

def view : TransInfoView where
  transStrInfo key := (s.maps.str s.info.strInfo).lookup key
  transIntInfo key := (s.maps.int s.info.intInfo).lookup key

/-- Its maps are empty, as they are for a new one. -/
def Empty : Prop := s.maps.str s.info.strInfo = ∅ ∧ s.maps.int s.info.intInfo = ∅

theorem empty_newTransInfo (maps : Maps) (ref : Nat) : (newTransInfo maps ref).Empty := by
  constructor <;> simp [newTransInfo]

theorem empty_zero : s.zero.Empty := by
  constructor <;> simp [zero, setInt, setStr]

end TransInfoState

/-! ## `message` -/

structure Message (V : Type) where
  msgType : Int32
  data : Option V
  rpcInfo : Option V
  rpcRole : Int
  compressType : Int
  payloadSize : Int
  transInfo : Option TransInfo
  tags : AList fun _ : String => Option V
  payloadCodec : Option V

/-- The arguments of `NewMessage`. -/
structure MessageArgs (V : Type) where
  data : Option V
  rpcInfo : Option V
  msgType : Int32
  rpcRole : Int

inductive MessageCall (V : Type) where
  /-- with what the method info of the call makes for the arguments -/
  | newData (args : Option V)
  | setMessageType (mt : Int32)
  | setPayloadLen (size : Int)
  | setPayloadCodec (pc : Option V)
  /-- writes to the map that `Tags` gives -/
  | setTag (key : String) (value : Option V)
  | deleteTag (key : String)

/-- What the interface `Message` gives; `ProtocolInfo` is computed from the RPC info. -/
structure MessageView (V : Type) where
  rpcInfo : Option V
  data : Option V
  messageType : Int32
  rpcRole : Int
  payloadLen : Int
  transInfo : TransInfoView
  tags : String → Option (Option V)
  payloadCodec : Option V

namespace Message

variable {V : Type} (m : Message V)

/-- An object that `messagePool` makes. -/
def fresh : Message V := ⟨0, none, none, 0, 0, 0, none, ∅, none⟩

/-- `NewMessage`, with an object and a transport info of the pools. -/
def newMessage (args : MessageArgs V) (info : TransInfo) : Message V :=
  { m with
    data := args.data
    rpcInfo := args.rpcInfo
    msgType := args.msgType
    rpcRole := args.rpcRole
    transInfo := some info }

/-- The transport info is recycled as well. -/
def zero : Message V :=
  { m with
    msgType := 0
    data := none
    rpcInfo := none
    rpcRole := -1
    compressType := 0
    payloadSize := 0
    transInfo := none
    tags := ∅ }

def call : MessageCall V → Message V
  | .newData args => if m.data.isSome then m else { m with data := args }
  | .setMessageType mt => { m with msgType := mt }
  | .setPayloadLen size => { m with payloadSize := size }
  | .setPayloadCodec pc => { m with payloadCodec := pc }
  | .setTag key value => { m with tags := m.tags.insert key value }
  | .deleteTag key => { m with tags := m.tags.erase key }

/-- What can be read from a message with this transport info. -/
def view (info : TransInfoState) : MessageView V where
  rpcInfo := m.rpcInfo
  data := m.data
  messageType := m.msgType
  rpcRole := m.rpcRole
  payloadLen := m.payloadSize
  transInfo := info.view
  tags key := m.tags.lookup key
  payloadCodec := m.payloadCodec

end Message

/-- The payload codec after a call. -/
def MessageCall.codec {V : Type} (old : Option V) : MessageCall V → Option V
  | setPayloadCodec pc => pc
  | _ => old

end Kitex.Remote
