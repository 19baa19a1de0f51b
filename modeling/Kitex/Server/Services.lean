import Mathlib.Data.List.AList

/-! # Services of a server

Services are registered by name. A request whose service name is missing or unknown is served by a
service that has its method.
-/

namespace Kitex.Server

/-- `serviceinfo.ServiceInfo`. -/
structure ServiceInfo where
  serviceName : String
  /-- The keys of `Methods`. -/
  methods : List String
  nodup : methods.Nodup
  /-- The methods that `GenericMethod` finds if binary generic methods are not allowed. The ones
  that `registerBinaryGenericMethodFunc` adds are not among them. -/
  genericMethod : String → Bool := fun _ => false
  /-- `Extra` has the `CombineServiceKey`. -/
  combineService : Bool := false

namespace ServiceInfo

/-- `MethodInfo` with `notAllowBinaryGenericCtx` finds a method. -/
def hasMethod (name : String) (info : ServiceInfo) : Bool :=
  info.methods.contains name || info.genericMethod name

def genericService : String := "$GenericService"

/-- A service of generated code that is not a combine service. -/
structure Generated (info : ServiceInfo) : Prop where
  genericMethod_eq : ∀ name, info.genericMethod name = false
  combineService_eq : info.combineService = false
  serviceName_ne : info.serviceName ≠ genericService

theorem Generated.hasMethod_iff {info : ServiceInfo} (h : info.Generated) {name : String} :
    info.hasMethod name = true ↔ name ∈ info.methods := by
  simp [hasMethod, h.genericMethod_eq name]

end ServiceInfo

structure RegisterOptions where
  isFallbackService : Bool := false
  isUnknownService : Bool := false
  deriving DecidableEq, Repr

/-- A failed registration ends in a panic, so that the services have different names and pointers
to them are compared by name. Handlers are left out. -/
structure Services where
  knownSvcMap : List ServiceInfo := []
  fallbackSvc : Option ServiceInfo := none
  nonFallbackSvcs : List ServiceInfo := []
  /-- The services made for unknown names. -/
  unknownSvc : Option (List ServiceInfo) := none
  binaryThriftGenericV1SvcInfo : Option ServiceInfo := none
  combineSvcInfo : Option ServiceInfo := none
  refuseTrafficWithoutServiceName : Bool := false

/-- An argument of `RegisterService`. -/
structure Registration where
  svcInfo : ServiceInfo
  isFallback : Bool

namespace Services

def newServices : Services := {}

variable (s : Services)

def known (name : String) : Option ServiceInfo := s.knownSvcMap.find? (·.serviceName == name)

def addService (svcInfo : ServiceInfo) (registerOpts : RegisterOptions) : Except String Services :=
  if registerOpts.isUnknownService then
    if s.unknownSvc.isSome then .error "multiple unknown services cannot be registered"
    else .ok { s with unknownSvc := some [] }
  else
    match registerOpts.isFallbackService, s.fallbackSvc with
    | true, some other => .error <| "multiple fallback services cannot be registered. [" ++
        other.serviceName ++ "] is already registered as a fallback service"
    | fallback, _ =>
      if (s.known svcInfo.serviceName).isSome then
        .error ("service [" ++ svcInfo.serviceName ++ "] has already been registered")
      else .ok { s with
        knownSvcMap := s.knownSvcMap ++ [svcInfo]
        fallbackSvc := if fallback then some svcInfo else s.fallbackSvc
        nonFallbackSvcs :=
          if fallback then s.nonFallbackSvcs else s.nonFallbackSvcs ++ [svcInfo] }

def register (r : Registration) : Except String Services :=
  s.addService r.svcInfo { isFallbackService := r.isFallback }

/-- The orders in which the loops of `check` go through the maps. -/
structure Iteration where
  svcs : List ServiceInfo
  svcs_perm : svcs.Perm s.knownSvcMap
  counted : List ServiceInfo
  counted_perm : counted.Perm s.knownSvcMap
  methods : ServiceInfo → List String
  methods_perm : ∀ info, (methods info).Perm info.methods
  conflicts : List (Sigma fun _ : String => Int) → List (Sigma fun _ : String => Int)
  conflicts_perm : ∀ entries, (conflicts entries).Perm entries

/-- How many services have a method; minus one if the fallback service has it. -/
abbrev MethodCounts : Type := AList fun _ : String => Int

def countMethod (fallback : Bool) (counts : MethodCounts) (method : String) : MethodCounts :=
  if fallback then counts.insert method (-1)
  else
    let num := (counts.lookup method).getD 0
    if 0 ≤ num then counts.insert method (num + 1) else counts

def isFallbackSvc (svc : ServiceInfo) : Bool :=
  s.fallbackSvc.any (·.serviceName == svc.serviceName)

variable {s} (it : s.Iteration)

def countMethods (counts : MethodCounts) (svc : ServiceInfo) : MethodCounts :=
  (it.methods svc).foldl (countMethod (s.isFallbackSvc svc)) counts

def fallbackCheckingMap : MethodCounts := it.counted.foldl (countMethods it) ∅

variable (s)

/-- A service that does not go together with others. -/
def checkAlone (what : String) (checked : Services) : Except String Services :=
  if 1 < s.knownSvcMap.length then .error (what ++ " doesn't support multi services")
  else if s.unknownSvc.isSome then .error (what ++ " doesn't support unknown service")
  else .ok checked

def check (refuseTrafficWithoutServiceName : Bool) : Except String Services :=
  if s.knownSvcMap.isEmpty && s.unknownSvc.isNone then
    .error "run: no service. Use RegisterService to set one"
  else
    match it.svcs.find? fun svc =>
      svc.serviceName == ServiceInfo.genericService || svc.combineService with
    | some svc =>
      if svc.serviceName = ServiceInfo.genericService then
        s.checkAlone "binary thrift generic v1" { s with binaryThriftGenericV1SvcInfo := some svc }
      else s.checkAlone "combine service" { s with combineSvcInfo := some svc }
    | none =>
      if refuseTrafficWithoutServiceName then .ok { s with refuseTrafficWithoutServiceName := true }
      else
        match (it.conflicts (fallbackCheckingMap it).entries).find? (1 < ·.2) with
        | some entry => .error ("method name [" ++ entry.1 ++
            "] is conflicted between services but no fallback service is specified")
        | none => .ok s

def searchByMethodName (methodName : String) : Option ServiceInfo :=
  (s.fallbackSvc.filter (ServiceInfo.hasMethod methodName)).or
    (s.nonFallbackSvcs.find? (ServiceInfo.hasMethod methodName))

/-- The loop of `searchUniqueByMethodName`. -/
def searchUnique (methodName : String) : Option ServiceInfo → List ServiceInfo → Option ServiceInfo
  | unique, [] => unique
  | unique, svc :: svcs =>
    if svc.hasMethod methodName then
      match unique with
      | none => searchUnique methodName (some svc) svcs
      | some _ => none
    else searchUnique methodName unique svcs

def searchUniqueByMethodName (methodName : String) : Option ServiceInfo :=
  searchUnique methodName (s.fallbackSvc.filter (ServiceInfo.hasMethod methodName))
    s.nonFallbackSvcs

inductive PayloadCodec where
  | thrift
  | protobuf
  | hessian2
  deriving DecidableEq, Repr

/-- Only binary generic methods are found in the service it makes. -/
def getOrStoreSvc (svcs : List ServiceInfo) (svcName : String) (codecType : PayloadCodec) :
    Option (ServiceInfo × List ServiceInfo) :=
  match svcs.find? (·.serviceName == svcName), codecType with
  | some svc, _ => some (svc, svcs)
  | none, .hessian2 => none
  | none, _ =>
    let svc : ServiceInfo := { serviceName := svcName, methods := [], nodup := List.nodup_nil }
    some (svc, svc :: svcs)

def searchService (svcName methodName : String) (strict : Bool) (codecType : PayloadCodec) :
    Except String (Option ServiceInfo × Services) :=
  let found :=
    if strict || s.refuseTrafficWithoutServiceName then s.known svcName
    else s.binaryThriftGenericV1SvcInfo.or <| s.combineSvcInfo.or <|
      if svcName = "" then s.searchByMethodName methodName
      else (s.known svcName).or (s.searchUniqueByMethodName methodName)
  match found, s.unknownSvc with
  | some svcInfo, _ => .ok (some svcInfo, s)
  | none, none => .ok (none, s)
  | none, some svcs =>
    match getOrStoreSvc svcs svcName codecType with
    | none => .error "invalid memory address or nil pointer dereference"
    | some (svc, svcs) => .ok (some svc, { s with unknownSvc := some svcs })

end Services

end Kitex.Server
