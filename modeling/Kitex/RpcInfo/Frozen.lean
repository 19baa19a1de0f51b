import Kitex.RpcInfo.RemoteInfo

/-! # Frozen copies

`freeze` of `copy.go` gives a copy of an `RPCInfo` that can only be read. The tags of an endpoint
are a map, which is a reference: maps lie at addresses, and a copy is a map of its own. The copy of
an endpoint has the tags of an `endpointInfo` only, not those of a `remoteInfo` or its instance, and
that of the config has neither the payload codec nor the timeouts of streams.
-/

namespace Kitex.RpcInfo

variable {V I : Type}

abbrev Tags := AList fun _ : String => String

/-! ## Endpoints with their maps -/

/-- An `endpointInfo` with the address of its tags. -/
structure EndpointObject (V : Type) where
  serviceName : String
  method : String
  address : Option V
  tags : Nat

/-- A `remoteInfo` with the address of its tags. -/
structure RemoteObject (I : Type) where
  serviceName : String
  method : String
  tags : Nat
  inst : Option I
  tagLocks : AList fun _ : String => Unit

inductive Endpoint (V I : Type) where
  | endpointInfo (ei : EndpointObject V)
  | remoteInfo (ri : RemoteObject I)

def tagsAt (maps : List Tags) (addr : Nat) : Tags := maps[addr]?.getD ∅

def EndpointObject.load (ei : EndpointObject V) (maps : List Tags) : EndpointInfo V :=
  ⟨ei.serviceName, ei.method, ei.address, tagsAt maps ei.tags⟩

def RemoteObject.load (ri : RemoteObject I) (maps : List Tags) : RemoteInfo I :=
  ⟨ri.serviceName, ri.method, tagsAt maps ri.tags, ri.inst, ri.tagLocks⟩

namespace Endpoint

def tags : Endpoint V I → Nat
  | endpointInfo ei => ei.tags
  | remoteInfo ri => ri.tags

/-- What the interface `EndpointInfo` gives. -/
def view (ops : Instances V I) (maps : List Tags) : Endpoint V I → EndpointView V
  | endpointInfo ei => (ei.load maps).view
  | remoteInfo ri =>
    let view := (ri.load maps).view ops
    ⟨view.serviceName, view.method, view.address, view.tag⟩

/-- `copyEndpointInfo`, with the map for the address at which the tags will lie. -/
def copy (ops : Instances V I) (maps : List Tags) (addr : Nat) (e : Endpoint V I) :
    EndpointObject V × Tags :=
  let view := e.view ops maps
  (⟨view.serviceName, view.method, view.address, addr⟩,
    match e with
    | endpointInfo ei => tagsAt maps ei.tags
    | remoteInfo _ => ∅)

end Endpoint

/-! ## The info and its copy -/

/-- The parts of an `RPCInfo` that are copied, and all maps. -/
structure World (V I : Type) where
  maps : List Tags
  fromInfo : Endpoint V I
  toInfo : Endpoint V I
  invocation : Invocation V
  config : RPCConfig

/-- `plainRPCInfo`. -/
structure PlainRPCInfo (V : Type) where
  fromInfo : EndpointObject V
  toInfo : EndpointObject V
  invocation : Invocation V
  config : RPCConfig

/-- What can be asked of both: the config without its locks, and no extra info. -/
structure Answers (V : Type) where
  fromInfo : EndpointView V
  toInfo : EndpointView V
  invocation : InvocationView V
  config : RPCConfig

def copyInvocation (i : Invocation V) : Invocation V := { i with extra := ∅ }

def copyRPCConfig (cfg : RPCConfig) : RPCConfig where
  readOnlyMask := 0
  rpcTimeout := cfg.rpcTimeout
  connectTimeout := cfg.connectTimeout
  readWriteTimeout := cfg.readWriteTimeout
  ioBufferSize := cfg.ioBufferSize
  transportProtocol := cfg.transportProtocol
  interactionMode := cfg.interactionMode
  payloadCodec := 0
  streamRecvTimeout := 0
  streamRecvTimeoutConfig := ⟨0, false⟩

def PlainRPCInfo.answers (maps : List Tags) (p : PlainRPCInfo V) : Answers V where
  fromInfo := (p.fromInfo.load maps).view
  toInfo := (p.toInfo.load maps).view
  invocation := p.invocation.view
  config := p.config

namespace World

variable (ops : Instances V I) (w : World V I)

def answers : Answers V where
  fromInfo := w.fromInfo.view ops w.maps
  toInfo := w.toInfo.view ops w.maps
  invocation := { w.invocation.view with extra := fun _ => none }
  config := { w.config with readOnlyMask := 0 }

def freeze : World V I × PlainRPCInfo V :=
  let (fromInfo, fromTags) := w.fromInfo.copy ops w.maps w.maps.length
  let (toInfo, toTags) := w.toInfo.copy ops w.maps (w.maps.length + 1)
  ({ w with maps := w.maps ++ [fromTags, toTags] },
    ⟨fromInfo, toInfo, copyInvocation w.invocation, copyRPCConfig w.config⟩)

end World

/-! ## Changes of the info -/

/-- What happens to an endpoint: a call on its implementation, and the recycling and reuse of a
`remoteInfo`. Those of an `endpointInfo` are calls. -/
inductive EndpointChange (V I : Type) where
  | endpointInfo (call : EndpointCall V)
  | remoteInfo (call : RemoteInfoCall V I)
  | zeroRemoteInfo
  | newRemoteInfo (basicInfo : EndpointBasicInfo) (method : String)

inductive InfoChange (V I : Type) where
  | fromInfo (change : EndpointChange V I)
  | toInfo (change : EndpointChange V I)
  | invocation (call : InvocationCall V)
  | config (call : ConfigCall)

def EndpointObject.store (ei : EndpointObject V) (info : EndpointInfo V) : EndpointObject V :=
  ⟨info.serviceName, info.method, info.address, ei.tags⟩

def RemoteObject.store (ri : RemoteObject I) (info : RemoteInfo I) : RemoteObject I :=
  ⟨info.serviceName, info.method, ri.tags, info.inst, info.tagLocks⟩

/-- The endpoint after a change, and its tags. A change for another implementation does nothing. -/
def Endpoint.change (ops : Instances V I) (maps : List Tags) :
    Endpoint V I → EndpointChange V I → Endpoint V I × Tags
  | endpointInfo ei, .endpointInfo call =>
    let info := (ei.load maps).call call
    (endpointInfo (ei.store info), info.tags)
  | remoteInfo ri, .remoteInfo call =>
    let info := (ri.load maps).call ops call
    (remoteInfo (ri.store info), info.tags)
  | remoteInfo ri, .zeroRemoteInfo =>
    let info := (ri.load maps).zero
    (remoteInfo (ri.store info), info.tags)
  | remoteInfo ri, .newRemoteInfo basicInfo method =>
    let info := (ri.load maps).newRemoteInfo basicInfo method
    (remoteInfo (ri.store info), info.tags)
  | e, _ => (e, tagsAt maps e.tags)

namespace World

/-- The tags are written at the address of the map. -/
def change (ops : Instances V I) (w : World V I) : InfoChange V I → World V I
  | .fromInfo change =>
    let (fromInfo, tags) := w.fromInfo.change ops w.maps change
    { w with fromInfo, maps := w.maps.set w.fromInfo.tags tags }
  | .toInfo change =>
    let (toInfo, tags) := w.toInfo.change ops w.maps change
    { w with toInfo, maps := w.maps.set w.toInfo.tags tags }
  | .invocation call => { w with invocation := w.invocation.call call }
  | .config call => { w with config := w.config.call call }

end World

/-! ## What is copied -/

/-- No tag is lost: an `endpointInfo`, or a `remoteInfo` that answers no tag. -/
def Endpoint.Copied (ops : Instances V I) (maps : List Tags) : Endpoint V I → Prop
  | endpointInfo _ => True
  | remoteInfo ri => ∀ key, ((ri.load maps).view ops).tag key = none

theorem Endpoint.view_copy_iff (ops : Instances V I) {maps later : List Tags} {addr : Nat}
    (e : Endpoint V I) (hlater : tagsAt later addr = (e.copy ops maps addr).2) :
    ((e.copy ops maps addr).1.load later).view = e.view ops maps ↔ e.Copied ops maps := by
  cases e with
  | endpointInfo ei =>
    refine iff_of_true ?_ trivial
    simp only [copy, EndpointObject.load, EndpointInfo.view, view] at hlater ⊢
    rw [hlater]
  | remoteInfo ri =>
    simp only [copy, EndpointObject.load, EndpointInfo.view, view, Copied, EndpointView.mk.injEq,
      true_and] at hlater ⊢
    rw [hlater, funext_iff]
    exact forall_congr' fun key => ⟨fun h => h.symm, fun h => h.symm⟩

theorem copyRPCConfig_eq_iff (cfg : RPCConfig) :
    copyRPCConfig cfg = { cfg with readOnlyMask := 0 } ↔
      cfg.payloadCodec = 0 ∧ cfg.streamRecvTimeout = 0 ∧
        cfg.streamRecvTimeoutConfig = ⟨0, false⟩ := by
  simp only [copyRPCConfig, RPCConfig.mk.injEq, true_and]
  exact and_congr eq_comm (and_congr eq_comm eq_comm)

theorem Endpoint.tags_change (ops : Instances V I) (maps : List Tags) (e : Endpoint V I)
    (change : EndpointChange V I) : (e.change ops maps change).1.tags = e.tags := by
  cases e <;> cases change <;> rfl

namespace World

variable (ops : Instances V I) {w : World V I} {addr : Nat}

/-- The maps of the endpoints lie below an address. -/
def Below (w : World V I) (addr : Nat) : Prop := w.fromInfo.tags < addr ∧ w.toInfo.tags < addr

theorem Below.change (hbelow : w.Below addr) (change : InfoChange V I) :
    (w.change ops change).Below addr ∧
      ∀ other, addr ≤ other → tagsAt (w.change ops change).maps other = tagsAt w.maps other := by
  have hset {place : Nat} (hplace : place < addr) (tags : Tags) (other : Nat)
      (hother : addr ≤ other) :
      tagsAt (w.maps.set place tags) other = tagsAt w.maps other := by
    rw [tagsAt, tagsAt, List.getElem?_set_ne (by omega)]
  cases change with
  | fromInfo change =>
    exact ⟨⟨(w.fromInfo.tags_change ops w.maps change).trans_lt hbelow.1, hbelow.2⟩,
      hset hbelow.1 _⟩
  | toInfo change =>
    exact ⟨⟨hbelow.1, (w.toInfo.tags_change ops w.maps change).trans_lt hbelow.2⟩,
      hset hbelow.2 _⟩
  | invocation call | config call => exact ⟨hbelow, fun _ _ => rfl⟩

theorem Below.changes (hbelow : w.Below addr) (changes : List (InfoChange V I)) (other : Nat)
    (hother : addr ≤ other) :
    tagsAt (changes.foldl (World.change ops) w).maps other = tagsAt w.maps other := by
  induction changes generalizing w with
  | nil => rfl
  | cons change changes ih =>
    obtain ⟨hnext, hkeep⟩ := hbelow.change ops change
    exact (ih hnext).trans (hkeep other hother)

/-- The copy answers as the info did exactly if no tags were lost, and neither a payload codec nor
a timeout of streams was set; and it answers the same after any changes of the info. -/
theorem freeze_answers (w : World V I) (hbelow : w.Below w.maps.length)
    (changes : List (InfoChange V I)) :
    ((w.freeze ops).2.answers (w.freeze ops).1.maps = w.answers ops ↔
      w.fromInfo.Copied ops w.maps ∧ w.toInfo.Copied ops w.maps ∧ w.config.payloadCodec = 0 ∧
        w.config.streamRecvTimeout = 0 ∧ w.config.streamRecvTimeoutConfig = ⟨0, false⟩) ∧
    (w.freeze ops).2.answers (changes.foldl (change ops) (w.freeze ops).1).maps =
      (w.freeze ops).2.answers (w.freeze ops).1.maps := by
  have hfrozen : (w.freeze ops).1.Below w.maps.length := hbelow
  constructor
  · simp only [PlainRPCInfo.answers, answers, Answers.mk.injEq]
    refine and_congr (w.fromInfo.view_copy_iff ops ?_) (and_congr (w.toInfo.view_copy_iff ops ?_)
      ((and_iff_right rfl).trans (copyRPCConfig_eq_iff _)))
    · simp [tagsAt, freeze]
    · simp [tagsAt, freeze]
  · simp only [PlainRPCInfo.answers, EndpointObject.load]
    rw [hfrozen.changes ops changes (w.freeze ops).2.fromInfo.tags (Nat.le_refl _),
      hfrozen.changes ops changes (w.freeze ops).2.toInfo.tags (Nat.le_succ _)]

/-- An info whose endpoints are `endpointInfo`s, with a tag of the remote one. -/
def plainWorld (config : RPCConfig) : World Unit Unit where
  maps := [∅, AList.singleton "cluster" "default"]
  fromInfo := .endpointInfo ⟨"caller", "", none, 0⟩
  toInfo := .endpointInfo ⟨"callee", "m", none, 1⟩
  invocation := .newInvocation
  config

/-- Instances without an address and tags. -/
def noInstances : Instances Unit Unit := ⟨fun _ => none, fun _ _ => none, fun _ => none⟩

/-- The info is recycled after it was frozen. -/
theorem freeze_answers_plain :
    let w := plainWorld .initialized
    let (frozen, p) := w.freeze noInstances
    p.answers frozen.maps = w.answers noInstances ∧
      p.answers ([.toInfo (.endpointInfo .reset), .invocation .reset].foldl (change noInstances)
        frozen).maps = p.answers frozen.maps := by
  intro w
  have hanswers := freeze_answers noInstances w ⟨by decide, by decide⟩
    [.toInfo (.endpointInfo .reset), .invocation .reset]
  exact ⟨hanswers.1.mpr ⟨trivial, trivial, rfl, rfl, rfl⟩, hanswers.2⟩

/-- The payload codec is not copied. -/
theorem freeze_loses_payloadCodec :
    let w := plainWorld { RPCConfig.initialized with payloadCodec := 1 }
    let (frozen, p) := w.freeze noInstances
    (w.answers noInstances).config.payloadCodec = 1 ∧
      (p.answers frozen.maps).config.payloadCodec = 0 := by
  exact ⟨rfl, rfl⟩

end World

end Kitex.RpcInfo
