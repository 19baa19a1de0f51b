import Mathlib.Data.List.AList
import Mathlib.Data.UInt

/-! # The information about a call

The parts of an `RPCInfo` of package `rpcinfo`, with the methods that change them and what can be
read from them through their interfaces. `V` are the values of interface types other than nil:
addresses, method infos, errors, and what users store.
-/

namespace Kitex.RpcInfo

/-! ## `invocation` -/

structure Invocation (V : Type) where
  packageName : String
  serviceName : String
  methodInfo : Option V
  methodName : String
  streamingMode : Nat
  seqID : Int32
  bizErr : Option V
  extra : AList fun _ : String => Option V

inductive InvocationCall (V : Type) where
  | setPackageName (name : String)
  | setServiceName (name : String)
  | setMethodName (name : String)
  | setMethodInfo (methodInfo : Option V)
  | setStreamingMode (mode : Nat)
  | setSeqID (seqID : Int32)
  | setBizStatusErr (err : Option V)
  | setExtra (key : String) (value : Option V)
  | reset

/-- What the interface `Invocation` gives. -/
structure InvocationView (V : Type) where
  packageName : String
  serviceName : String
  methodName : String
  methodInfo : Option V
  streamingMode : Nat
  seqID : Int32
  bizStatusErr : Option V
  extra : String → Option V

namespace Invocation

variable {V : Type} (i : Invocation V)

def newInvocation : Invocation V := ⟨"", "", none, "", 0, 0, none, ∅⟩

def zero : Invocation V :=
  { i with
    seqID := 0
    packageName := ""
    serviceName := ""
    methodName := ""
    methodInfo := none
    bizErr := none
    extra := ∅ }

def call : InvocationCall V → Invocation V
  | .setPackageName name => { i with packageName := name }
  | .setServiceName name => { i with serviceName := name }
  | .setMethodName name => { i with methodName := name }
  | .setMethodInfo methodInfo => { i with methodInfo }
  | .setStreamingMode mode => { i with streamingMode := mode }
  | .setSeqID seqID => { i with seqID }
  | .setBizStatusErr err => { i with bizErr := err }
  | .setExtra key value => { i with extra := i.extra.insert key value }
  | .reset => i.zero

def view : InvocationView V where
  packageName := i.packageName
  serviceName := i.serviceName
  methodName := i.methodName
  methodInfo := i.methodInfo
  streamingMode := i.streamingMode
  seqID := i.seqID
  bizStatusErr := i.bizErr
  extra key := (i.extra.lookup key).join

end Invocation

/-- The streaming mode after a call. -/
def InvocationCall.mode {V : Type} (old : Nat) : InvocationCall V → Nat
  | setStreamingMode mode => mode
  | _ => old

/-! ## `endpointInfo` -/

structure EndpointBasicInfo where
  serviceName : String
  method : String
  tags : AList fun _ : String => String

structure EndpointInfo (V : Type) where
  serviceName : String
  method : String
  address : Option V
  tags : AList fun _ : String => String

inductive EndpointCall (V : Type) where
  | setServiceName (serviceName : String)
  | setMethod (method : String)
  | setAddress (addr : Option V)
  | setTag (key value : String)
  | reset
  | resetFromBasicInfo (bi : EndpointBasicInfo)

/-- What the interface `EndpointInfo` gives; `DefaultTag` is computed from `Tag`. -/
structure EndpointView (V : Type) where
  serviceName : String
  method : String
  address : Option V
  tag : String → Option String

namespace EndpointInfo

variable {V : Type} (ei : EndpointInfo V)

def zero : EndpointInfo V := ⟨"", "", none, ∅⟩

/-- The tags are deleted, and those of the basic info are copied. -/
def resetFromBasicInfo (bi : EndpointBasicInfo) : EndpointInfo V :=
  ⟨bi.serviceName, bi.method, none, bi.tags⟩

def call : EndpointCall V → EndpointInfo V
  | .setServiceName serviceName => { ei with serviceName }
  | .setMethod method => { ei with method }
  | .setAddress addr => { ei with address := addr }
  | .setTag key value => { ei with tags := ei.tags.insert key value }
  | .reset => zero
  | .resetFromBasicInfo bi => resetFromBasicInfo bi

def view : EndpointView V where
  serviceName := ei.serviceName
  method := ei.method
  address := ei.address
  tag key := ei.tags.lookup key

end EndpointInfo

/-! ## `rpcConfig` -/

/-- `streaming.TimeoutConfig` -/
structure StreamTimeout where
  timeout : Int
  disableCancelRemote : Bool
  deriving DecidableEq, Repr

/-- All of it can be read: the mask by the locks that it makes. Durations are in nanoseconds. -/
structure RPCConfig where
  readOnlyMask : Nat
  rpcTimeout : Int
  connectTimeout : Int
  readWriteTimeout : Int
  ioBufferSize : Int
  transportProtocol : Nat
  interactionMode : Int32
  payloadCodec : Int
  streamRecvTimeout : Int
  streamRecvTimeoutConfig : StreamTimeout
  deriving DecidableEq, Repr

inductive ConfigCall where
  | lockConfig (bits : Nat)
  | setRPCTimeout (timeout : Int)
  | setConnectTimeout (timeout : Int)
  | setReadWriteTimeout (timeout : Int)
  | setIOBufferSize (sz : Int)
  | setTransportProtocol (tp : Nat)
  | setInteractionMode (mode : Int32)
  | setPayloadCodec (codec : Int)
  | setStreamRecvTimeout (timeout : Int)
  | setStreamRecvTimeoutConfig (cfg : StreamTimeout)
  | copyFrom (from_ : RPCConfig)

namespace RPCConfig

variable (r : RPCConfig)

def initialized : RPCConfig :=
  ⟨0, 0, 50000000, 5000000000, 4096, 0, 0, 0, 0, ⟨0, false⟩⟩

/-- One of the mask bits, which are 1, 2, 4 and 8 for the RPC timeout, the connect timeout, the
read-write timeout and the buffer size. -/
def locked (bit : Nat) : Bool := r.readOnlyMask &&& bit ≠ 0

def call : ConfigCall → RPCConfig
  | .lockConfig bits => { r with readOnlyMask := r.readOnlyMask ||| bits }
  | .setRPCTimeout timeout => if r.locked 1 then r else { r with rpcTimeout := timeout }
  | .setConnectTimeout timeout => if r.locked 2 then r else { r with connectTimeout := timeout }
  | .setReadWriteTimeout timeout => if r.locked 4 then r else { r with readWriteTimeout := timeout }
  | .setIOBufferSize sz => if r.locked 8 then r else { r with ioBufferSize := sz }
  | .setTransportProtocol tp =>
    -- `PurePayload` is 0
    if tp = 0 then { r with transportProtocol := tp }
    else { r with transportProtocol := r.transportProtocol ||| tp }
  | .setInteractionMode mode => { r with interactionMode := mode }
  | .setPayloadCodec codec => { r with payloadCodec := codec }
  | .setStreamRecvTimeout timeout => { r with streamRecvTimeout := timeout }
  | .setStreamRecvTimeoutConfig cfg => { r with streamRecvTimeoutConfig := cfg }
  | .copyFrom from_ => from_

end RPCConfig

/-! ## `rpcStats` -/

/-- `stats.Event` -/
structure StatsEvent where
  index : Nat
  level : Int
  deriving DecidableEq, Repr

inductive EventState where
  | unset
  | updating
  | recorded
  | stale
  deriving DecidableEq, Repr

/-- What the interface `Event` gives. -/
structure EventView where
  event : Option StatsEvent
  status : Int
  info : String
  time : Int
  deriving DecidableEq, Repr

structure EventRecord where
  state : EventState
  data : EventView
  deriving DecidableEq, Repr

structure RPCStats (V : Type) where
  level : Int
  eventMap : List EventRecord
  sendSize : UInt64
  lastSendSize : UInt64
  recvSize : UInt64
  lastRecvSize : UInt64
  err : Option V
  panicErr : Option V
  copied : Bool

inductive StatsCall (V : Type) where
  | record (e : StatsEvent) (status : Int) (info : String) (time : Int)
  | setSendSize (size : UInt64)
  | incrSendSize (size : UInt64)
  | setRecvSize (size : UInt64)
  | incrRecvSize (size : UInt64)
  | setError (err : Option V)
  | setPanicked (x : Option V)
  | setLevel (level : Int)
  | reset

/-- What the interface `RPCStats` gives. -/
structure StatsView (V : Type) where
  level : Int
  sendSize : UInt64
  lastSendSize : UInt64
  recvSize : UInt64
  lastRecvSize : UInt64
  error : Option V
  panicked : Bool × Option V
  getEvent : Nat → Option EventView

namespace RPCStats

variable {V : Type} (r : RPCStats V)

def newRPCStats (maxEventNum : Nat) : RPCStats V :=
  ⟨0, List.replicate maxEventNum ⟨.unset, none, 0, "", 0⟩, 0, 0, 0, 0, none, none, false⟩

/-- `Record` takes a record that is unset, or a stale one of copied stats. -/
def record (e : StatsEvent) (status : Int) (info : String) (time : Int) : RPCStats V :=
  if r.level < e.level then r
  else { r with
    eventMap := r.eventMap.modify e.index fun ev =>
      if ev.state = .unset ∨ (r.copied = true ∧ ev.state = .stale) then
        ⟨.recorded, some e, status, info, time⟩
      else ev }

/-- Of the records only the state is reset. -/
def reset : RPCStats V :=
  { r with
    level := 0
    err := none
    panicErr := none
    recvSize := 0
    sendSize := 0
    eventMap := r.eventMap.map fun ev => { ev with state := .unset } }

def call : StatsCall V → RPCStats V
  | .record e status info time => r.record e status info time
  | .setSendSize size => { r with sendSize := size }
  | .incrSendSize size => { r with sendSize := r.sendSize + size, lastSendSize := size }
  | .setRecvSize size => { r with recvSize := size }
  | .incrRecvSize size => { r with recvSize := r.recvSize + size, lastRecvSize := size }
  | .setError err => { r with err }
  | .setPanicked x => { r with panicErr := x }
  | .setLevel level => { r with level }
  | .reset => r.reset

/-- An event is seen if the bit of `eventRecorded` is set. -/
def getEvent (index : Nat) : Option EventView :=
  r.eventMap[index]?.bind fun ev =>
    if ev.state = .recorded ∨ ev.state = .stale then some ev.data else none

def view : StatsView V where
  level := r.level
  sendSize := r.sendSize
  lastSendSize := r.lastSendSize
  recvSize := r.recvSize
  lastRecvSize := r.lastRecvSize
  error := r.err
  panicked := (r.panicErr.isSome, r.panicErr)
  getEvent := r.getEvent

theorem getEvent_reset (index : Nat) : r.reset.getEvent index = none := by
  simp only [getEvent, reset, List.getElem?_map]
  cases r.eventMap[index]? <;> rfl

end RPCStats

/-! ## `inlineRPCInfo` -/

structure RPCInfo (V : Type) where
  fromInfo : EndpointInfo V
  toInfo : EndpointInfo V
  invocation : Invocation V
  config : RPCConfig
  stats : RPCStats V

inductive RPCInfoCall (V : Type) where
  | fromInfo (call : EndpointCall V)
  | toInfo (call : EndpointCall V)
  | invocation (call : InvocationCall V)
  | config (call : ConfigCall)
  | stats (call : StatsCall V)

structure RPCInfoView (V : Type) where
  fromInfo : EndpointView V
  toInfo : EndpointView V
  invocation : InvocationView V
  config : RPCConfig
  stats : StatsView V

namespace RPCInfo

variable {V : Type} (ri : RPCInfo V)

def call : RPCInfoCall V → RPCInfo V
  | .fromInfo call => { ri with fromInfo := ri.fromInfo.call call }
  | .toInfo call => { ri with toInfo := ri.toInfo.call call }
  | .invocation call => { ri with invocation := ri.invocation.call call }
  | .config call => { ri with config := ri.config.call call }
  | .stats call => { ri with stats := ri.stats.call call }

def calls (calls : List (RPCInfoCall V)) : RPCInfo V := calls.foldl call ri

def view : RPCInfoView V where
  fromInfo := ri.fromInfo.view
  toInfo := ri.toInfo.view
  invocation := ri.invocation.view
  config := ri.config
  stats := ri.stats.view

def newInlineRPCInfo (maxEventNum : Nat) : RPCInfo V :=
  ⟨.zero, .zero, .newInvocation, .initialized, .newRPCStats maxEventNum⟩

/-- `Recycle`, before the info is put back into the pool. -/
def recycle : RPCInfo V :=
  ⟨.zero, .zero, ri.invocation.zero, .initialized, ri.stats.reset⟩

end RPCInfo

end Kitex.RpcInfo
