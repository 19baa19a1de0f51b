import Kitex.RpcInfo.RpcInfo

/-! # The information about a remote peer

`remoteInfo.go`. An instance is one of package `discovery`, which is a parameter: it has an address
and tags, and it may be able to give an instance with another address.
-/

namespace Kitex.RpcInfo

/-- `discovery.Instance`, and `RefreshInstanceWithAddr` if there is one. -/
structure Instances (V I : Type) where
  address : I → Option V
  tag : I → String → Option String
  refreshInstanceWithAddr : I → Option (Option V → Option I)

structure RemoteInfo (I : Type) where
  serviceName : String
  method : String
  tags : AList fun _ : String => String
  inst : Option I
  tagLocks : AList fun _ : String => Unit

inductive RemoteInfoCall (V I : Type) where
  | setServiceName (name : String)
  | setTag (key value : String)
  | forceSetTag (key value : String)
  | setTagLock (key : String)
  | setInstance (inst : Option I)
  | setRemoteAddr (addr : Option V)

/-- What the interface `RemoteInfo` gives; a key is locked if `SetTag` fails for it. -/
structure RemoteInfoView (V I : Type) where
  serviceName : String
  method : String
  address : Option V
  tag : String → Option String
  inst : Option I
  locked : String → Bool

namespace RemoteInfo

variable {V I : Type} (ri : RemoteInfo I)

/-- An object that `remoteInfoPool` makes. -/
def fresh : RemoteInfo I := ⟨"", "", ∅, none, ∅⟩

/-- `NewRemoteInfo`, with an object of the pool. -/
def newRemoteInfo (basicInfo : EndpointBasicInfo) (method : String) : RemoteInfo I :=
  { ri with
    serviceName := basicInfo.serviceName
    method := method
    tags := basicInfo.tags ∪ ri.tags }

def zero (_ : RemoteInfo I) : RemoteInfo I where
  serviceName := ""
  method := ""
  inst := none
  tags := ∅
  tagLocks := ∅

def locked (key : String) : Bool := (ri.tagLocks.lookup key).isSome

def call (ops : Instances V I) : RemoteInfoCall V I → RemoteInfo I
  | .setServiceName name => { ri with serviceName := name }
  | .setTag key value =>
    if ri.locked key then ri else { ri with tags := ri.tags.insert key value }
  | .forceSetTag key value => { ri with tags := ri.tags.insert key value }
  | .setTagLock key => { ri with tagLocks := ri.tagLocks.insert key () }
  | .setInstance inst => { ri with inst }
  | .setRemoteAddr addr =>
    match ri.inst.bind ops.refreshInstanceWithAddr with
    | none => ri
    | some refresh => { ri with inst := refresh addr }

/-- A tag of the instance comes before one of the info. -/
def view (ops : Instances V I) : RemoteInfoView V I where
  serviceName := ri.serviceName
  method := ri.method
  address := ri.inst.bind ops.address
  tag key := (ri.inst.bind fun inst => ops.tag inst key) <|> ri.tags.lookup key
  inst := ri.inst
  locked := ri.locked

end RemoteInfo

end Kitex.RpcInfo
