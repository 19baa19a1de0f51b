import Kitex.Machine.Reuse
import Kitex.RpcInfo.RpcInfo

/-! # One `RPCInfo` for the requests of a connection

`initOrResetRPCInfoFunc` of `server.go` and what `OnRead` of the default server handler does to the
`RPCInfo`. The requests of a connection use one after another the info that was initialised when the
connection became active. A reset leaves the streaming mode and the sizes of the last messages, and
nothing else.
-/

namespace Kitex.RpcInfo

open Kitex.Machine

structure ServerOptions where
  svr : EndpointBasicInfo
  configs : RPCConfig
  statsLevel : Option Int

/-- What happens to the info in a call of `OnRead`. -/
structure Request (V : Type) where
  /-- the server is in graceful shutdown -/
  shutdown : Bool
  /-- what the codecs, the tracers and the handler call, also after an error -/
  calls : List (RPCInfoCall V)
  panicErr : Option V

/-- What no reset changes. -/
structure Residue where
  streamingMode : Nat
  lastSendSize : UInt64
  lastRecvSize : UInt64
  deriving DecidableEq, Repr

def RPCInfoCall.leave {V : Type} (old : Residue) : RPCInfoCall V → Residue
  | .invocation (.setStreamingMode mode) => { old with streamingMode := mode }
  | .stats (.incrSendSize size) => { old with lastSendSize := size }
  | .stats (.incrRecvSize size) => { old with lastRecvSize := size }
  | _ => old

namespace RPCInfo

variable {V : Type}

/-- `initOrResetRPCInfoFunc` for an info that there is. -/
def resetRPCInfo (opt : ServerOptions) (rAddr : Option V) (ri : RPCInfo V) : RPCInfo V :=
  let stats := ri.stats.reset
  { fromInfo := EndpointInfo.zero.call (.setAddress rAddr)
    toInfo := .resetFromBasicInfo opt.svr
    invocation := ri.invocation.zero
    config := opt.configs
    stats := match opt.statsLevel with
      | none => stats
      | some level => stats.call (.setLevel level) }

/-- `initOrResetRPCInfoFunc` for the info that comes from the pool. -/
def initRPCInfo (opt : ServerOptions) (rAddr : Option V) (ri : RPCInfo V) : RPCInfo V :=
  { ri with
    toInfo := .resetFromBasicInfo opt.svr
    config := opt.configs
    stats := match opt.statsLevel with
      | none => ri.stats
      | some level => ri.stats.call (.setLevel level)
    fromInfo := ri.fromInfo.call (.setAddress rAddr) }

/-- `newCtxWithRPCInfo` marks the responses of a server that shuts down. -/
def newCtxWithRPCInfo (request : Request V) (ri : RPCInfo V) : RPCInfo V :=
  if request.shutdown then ri.call (.toInfo (.setTag "crrst" "1")) else ri

/-- `finishTracer`, apart from the tracers: the stats are cleared but for the level. -/
def finishTracer (panicErr : Option V) (ri : RPCInfo V) : RPCInfo V :=
  let stats := if panicErr.isSome then ri.stats.call (.setPanicked panicErr) else ri.stats
  { ri with stats := stats.reset.call (.setLevel stats.level) }

/-- `OnRead`, with pooling on. -/
def onRead (opt : ServerOptions) (rAddr : Option V) (ri : RPCInfo V) (request : Request V) :
    RPCInfo V :=
  let served := (ri.newCtxWithRPCInfo request).calls request.calls
  (served.finishTracer request.panicErr).resetRPCInfo opt rAddr

def residue (ri : RPCInfo V) : Residue :=
  ⟨ri.invocation.streamingMode, ri.stats.lastSendSize, ri.stats.lastRecvSize⟩

/-- What can be read from an info with this residue at the start of a request. -/
def readyView (opt : ServerOptions) (rAddr : Option V) (r : Residue) : RPCInfoView V where
  fromInfo := ⟨"", "", rAddr, fun _ => none⟩
  toInfo := ⟨opt.svr.serviceName, opt.svr.method, none, fun key => opt.svr.tags.lookup key⟩
  invocation := ⟨"", "", "", none, r.streamingMode, 0, none, fun _ => none⟩
  config := opt.configs
  stats :=
    ⟨opt.statsLevel.getD 0, 0, r.lastSendSize, 0, r.lastRecvSize, none, (false, none),
      fun _ => none⟩

variable (opt : ServerOptions) (rAddr : Option V) (ri : RPCInfo V)

theorem residue_call (call : RPCInfoCall V) : (ri.call call).residue = call.leave ri.residue := by
  cases call with
  | fromInfo | toInfo | config => rfl
  | invocation call => cases call <;> rfl
  | stats call =>
    cases call with
    | record e status info time =>
      simp only [residue, RPCInfo.call, RPCStats.call, RPCStats.record, RPCInfoCall.leave]
      split <;> rfl
    | _ => rfl

theorem residue_calls (calls : List (RPCInfoCall V)) :
    (ri.calls calls).residue = calls.foldl RPCInfoCall.leave ri.residue :=
  (List.foldl_hom residue fun ri call => (residue_call ri call).symm).symm

theorem residue_resetRPCInfo : (ri.resetRPCInfo opt rAddr).residue = ri.residue := by
  simp only [residue, resetRPCInfo]
  cases opt.statsLevel <;> rfl

theorem residue_onRead (request : Request V) : (onRead opt rAddr ri request).residue =
      request.calls.foldl RPCInfoCall.leave ri.residue := by
  have hmark : (ri.newCtxWithRPCInfo request).residue = ri.residue := by
    unfold newCtxWithRPCInfo
    split <;> rfl
  have hfinish : ∀ (panicErr : Option V) (ri : RPCInfo V),
      (ri.finishTracer panicErr).residue = ri.residue := by
    intro panicErr ri
    cases panicErr <;> rfl
  rw [onRead, residue_resetRPCInfo, hfinish, residue_calls, hmark]

theorem view_resetRPCInfo : (ri.resetRPCInfo opt rAddr).view =
      readyView opt rAddr (ri.resetRPCInfo opt rAddr).residue := by
  have hevents : ri.stats.reset.getEvent = fun _ => none := funext ri.stats.getEvent_reset
  simp only [view, resetRPCInfo, readyView]
  cases opt.statsLevel with
  | none =>
    simp only [RPCStats.view, hevents]
    rfl
  | some level =>
    have hsame : (ri.stats.reset.call (.setLevel level)).getEvent = fun _ => none := hevents
    simp only [RPCStats.view, hsame]
    rfl

/-- Two infos with which a request can start are told apart by their residues. -/
theorem readyView_inj {r r' : Residue} :
    readyView opt rAddr r = readyView opt rAddr r' ↔ r = r' := by
  constructor
  · intro heq
    cases r
    cases r'
    simp_all [readyView]
  · rintro rfl
    rfl

def serverReuse : Reuse (RPCInfo V) (Request V) (RPCInfoView V) Residue where
  serve := onRead opt rAddr
  view := view
  residue := residue
  leave r request := request.calls.foldl RPCInfoCall.leave r
  Ready ri := ri.view = readyView opt rAddr ri.residue
  residue_serve := residue_onRead opt rAddr
  ready_serve _ _ _ := view_resetRPCInfo opt rAddr _
  view_eq_iff _ _ hready hready' := by rw [hready, hready', readyView_inj]

/-- Before each request of a connection the same can be read from its info if and only if each
request leaves the streaming mode and the sizes of the last messages that there were before the
first one. -/
theorem isolated_iff_leave (requests : List (Request V)) :
    (∀ first second, requests = first ++ second →
        (first.foldl (onRead opt rAddr) (initRPCInfo opt rAddr ri.recycle)).view =
          (initRPCInfo opt rAddr ri.recycle).view) ↔
      ∀ request ∈ requests, request.calls.foldl RPCInfoCall.leave ri.residue = ri.residue := by
  have hready := view_resetRPCInfo opt rAddr ri
  have hiff := (serverReuse opt rAddr).isolated_iff hready requests
  have hresidue := residue_resetRPCInfo opt rAddr ri
  simp only [serverReuse, hresidue] at hiff
  exact hiff

/-- A handler sets the streaming mode, and the next request of the connection reads it. -/
theorem exists_not_isolated :
    ∃ (opt : ServerOptions) (request : Request Nat),
      let first := initRPCInfo opt none (newInlineRPCInfo 0)
      let second := onRead opt none first request
      first.view.invocation.streamingMode = 0 ∧ second.view.invocation.streamingMode = 6 ∧
        second.view ≠ first.view := by
  refine ⟨⟨⟨"", "", ∅⟩, .initialized, none⟩,
    ⟨false, [.invocation (.setStreamingMode 6)], none⟩, rfl, rfl, fun heq => ?_⟩
  have hmode := congrArg (fun v => v.invocation.streamingMode) heq
  exact absurd (show (6 : Nat) = 0 from hmode) (by decide)

end RPCInfo

end Kitex.RpcInfo
