import Kitex.Machine.Reuse
import Kitex.Remote.Message
import Kitex.RpcInfo.RemoteInfo

/-! # Objects that come from a pool

A message, its transport info, an invocation and a remote info are taken from a pool, used, cleared
and put back, any number of times. A message keeps its payload codec and an invocation its streaming
mode. Apart from these an object from the pool cannot be told from a new one.
-/

namespace Kitex.Remote

open Kitex.Machine Kitex.RpcInfo

/-! ## Messages -/

/-- A use of a message: how it is acquired, and what is called before it is recycled. -/
structure MessageUse (V : Type) where
  args : MessageArgs V
  info : TransInfo
  calls : List (MessageCall V)

namespace Message

variable {V : Type}

def use (m : Message V) (u : MessageUse V) : Message V :=
  (u.calls.foldl call (m.newMessage u.args u.info)).zero

/-- What is readable of a message that is made of an object. -/
def acquired (m : Message V) (args : MessageArgs V) (info : TransInfoState) : MessageView V :=
  (m.newMessage args info.info).view info

theorem payloadCodec_use (m : Message V) (u : MessageUse V) :
    (m.use u).payloadCodec = u.calls.foldl MessageCall.codec m.payloadCodec := by
  have hcall : ∀ (m : Message V) (c : MessageCall V),
      c.codec m.payloadCodec = (m.call c).payloadCodec := by
    intro m c
    cases c with
    | newData args =>
      simp only [call]
      split <;> rfl
    | _ => rfl
  exact (List.foldl_hom payloadCodec hcall).symm

/-- The objects of the pool, and what is left in them. -/
def reuse : Reuse (Message V) (MessageUse V) (MessageArgs V → TransInfoState → MessageView V)
    (Option V) where
  serve := use
  view := acquired
  residue := payloadCodec
  leave codec u := u.calls.foldl MessageCall.codec codec
  Ready m := m.payloadSize = 0 ∧ m.tags = ∅
  residue_serve := payloadCodec_use
  ready_serve _ _ _ := ⟨rfl, rfl⟩
  view_eq_iff := by
    rintro m m' ⟨hsize, htags⟩ ⟨hsize', htags'⟩
    constructor
    · intro hviews
      have hview := congrFun (congrFun hviews ⟨none, none, 0, 0⟩) ⟨⟨fun _ => ∅, fun _ => ∅⟩, 0, 0⟩
      exact congrArg MessageView.payloadCodec hview
    · intro hcodec
      funext args info
      simp only [acquired, newMessage, view, hsize, hsize', htags, htags', hcodec]

end Message

/-! ## Transport infos -/

namespace TransInfoState

/-- A use of a transport info, with all the writes to maps meanwhile. -/
def use (s : TransInfoState) (calls : List TransInfoCall) : TransInfoState :=
  (calls.foldl call s).zero

theorem empty_uses {s : TransInfoState} (hempty : s.Empty) (uses : List (List TransInfoCall)) :
    (uses.foldl use s).Empty := by
  induction uses generalizing s with
  | nil => exact hempty
  | cons calls uses ih => exact ih (empty_zero _)

theorem view_of_empty {s s' : TransInfoState} (h : s.Empty) (h' : s'.Empty) : s.view = s'.view := by
  simp only [view, h.1, h.2, h'.1, h'.2]

end TransInfoState

end Kitex.Remote

namespace Kitex.RpcInfo

open Kitex.Machine

/-! ## Invocations -/

/-- The arguments of `NewInvocation`, with the sequence id that is drawn. -/
structure InvocationArgs where
  seqID : Int32
  service : String
  method : String
  pkg : Option String

/-- A use of an invocation, of `NewInvocation` or `NewServerInvocation`. -/
structure InvocationUse (V : Type) where
  args : Option InvocationArgs
  calls : List (InvocationCall V)

namespace Invocation

variable {V : Type}

/-- `NewInvocation`, or `NewServerInvocation` if there are no arguments, with an object of the
pool. -/
def acquire (i : Invocation V) : Option InvocationArgs → Invocation V
  | none => i
  | some args =>
    { i with
      seqID := args.seqID
      serviceName := args.service
      methodName := args.method
      packageName := args.pkg.getD i.packageName }

def use (i : Invocation V) (u : InvocationUse V) : Invocation V :=
  (u.calls.foldl call (i.acquire u.args)).zero

theorem streamingMode_use (i : Invocation V) (u : InvocationUse V) :
    (i.use u).streamingMode = u.calls.foldl InvocationCall.mode i.streamingMode := by
  have hcall : ∀ (i : Invocation V) (c : InvocationCall V),
      c.mode i.streamingMode = (i.call c).streamingMode := by
    intro i c
    cases c <;> rfl
  have hacquire : (i.acquire u.args).streamingMode = i.streamingMode := by
    cases u.args <;> rfl
  exact (hacquire ▸ List.foldl_hom streamingMode hcall).symm

/-- The objects of the pool, and what is left in them. -/
def reuse :
    Reuse (Invocation V) (InvocationUse V) (Option InvocationArgs → InvocationView V) Nat where
  serve := use
  view i args := (i.acquire args).view
  residue := streamingMode
  leave mode u := u.calls.foldl InvocationCall.mode mode
  Ready i := i.zero = i
  residue_serve := streamingMode_use
  ready_serve _ _ _ := rfl
  view_eq_iff := by
    intro i i' hready hready'
    constructor
    · intro hviews
      exact congrArg InvocationView.streamingMode (congrFun hviews none)
    · intro hmode
      rw [← hready, ← hready']
      simp only [zero, hmode]

end Invocation

/-! ## Remote infos -/

structure RemoteInfoUse (V I : Type) where
  basicInfo : EndpointBasicInfo
  method : String
  calls : List (RemoteInfoCall V I)

namespace RemoteInfo

variable {V I : Type}

def use (ops : Instances V I) (ri : RemoteInfo I) (u : RemoteInfoUse V I) : RemoteInfo I :=
  (u.calls.foldl (fun ri c => ri.call ops c) (ri.newRemoteInfo u.basicInfo u.method)).zero

/-- Nothing is left in a remote info. -/
theorem foldl_use_fresh (ops : Instances V I) (uses : List (RemoteInfoUse V I)) :
    uses.foldl (use ops) fresh = fresh := by
  induction uses with
  | nil => rfl
  | cons u uses ih => exact ih

end RemoteInfo

end Kitex.RpcInfo

/-! ## All of them -/

namespace Kitex.Remote

open Kitex.RpcInfo Message

/-- The uses of the objects before they are acquired again. -/
structure Histories (V I : Type) where
  message : List (MessageUse V)
  transInfo : List (List TransInfoCall)
  invocation : List (InvocationUse V)
  remoteInfo : List (RemoteInfoUse V I)

/-- What is acquired is like what is made of new objects with the same arguments. -/
structure LikeNew {V I : Type} (ops : Instances V I) (info : TransInfoState)
    (h : Histories V I) : Prop where
  message : ∀ args,
    (h.message.foldl Message.use .fresh).acquired args (h.transInfo.foldl TransInfoState.use info) =
      Message.fresh.acquired args info
  transInfo : (h.transInfo.foldl TransInfoState.use info).view = info.view
  invocation : ∀ args,
    ((h.invocation.foldl Invocation.use .newInvocation).acquire args).view =
      (Invocation.newInvocation.acquire args).view
  remoteInfo : ∀ basicInfo method,
    ((h.remoteInfo.foldl (RemoteInfo.use ops) .fresh).newRemoteInfo basicInfo method).view ops =
      (RemoteInfo.fresh.newRemoteInfo basicInfo method).view ops

/-- The payload codec that was set last on the message is nil, and the streaming mode that was set
last on the invocation is none. -/
def Clean {V I : Type} (h : Histories V I) : Prop :=
  (h.message.flatMap (·.calls)).foldl MessageCall.codec none = none ∧
    (h.invocation.flatMap (·.calls)).foldl InvocationCall.mode 0 = 0

section

variable {V I : Type} (ops : Instances V I) {info : TransInfoState} (h : Histories V I)

theorem view_transInfo_uses (hempty : info.Empty) :
    (h.transInfo.foldl TransInfoState.use info).view = info.view :=
  TransInfoState.view_of_empty (TransInfoState.empty_uses hempty _) hempty

theorem likeNew_message_iff (hempty : info.Empty) :
    (∀ args, (h.message.foldl use .fresh).acquired args
        (h.transInfo.foldl TransInfoState.use info) = fresh.acquired args info) ↔
      (h.message.flatMap (·.calls)).foldl MessageCall.codec none = none := by
  have hcodec : (h.message.foldl use .fresh).payloadCodec =
      (h.message.flatMap (·.calls)).foldl MessageCall.codec none := by
    rw [List.foldl_flatMap]
    exact reuse.residue_foldl h.message
  rw [← hcodec]
  constructor
  · intro hviews
    exact congrArg MessageView.payloadCodec (hviews ⟨none, none, 0, 0⟩)
  · intro hnone args
    have hready : reuse.Ready (fresh : Message V) := ⟨rfl, rfl⟩
    have hviews := (reuse.view_eq_iff _ _ (reuse.ready_foldl hready h.message)
      hready).mpr hnone
    refine Eq.trans ?_ (congrFun (congrFun hviews args) info)
    simp only [reuse, acquired, view, view_transInfo_uses h hempty]
    rfl

theorem likeNew_invocation_iff :
    (∀ args, ((h.invocation.foldl Invocation.use .newInvocation).acquire args).view =
        (Invocation.newInvocation.acquire args).view) ↔
      (h.invocation.flatMap (·.calls)).foldl InvocationCall.mode 0 = 0 := by
  have hready : Invocation.reuse.Ready (Invocation.newInvocation : Invocation V) := rfl
  rw [List.foldl_flatMap]
  exact funext_iff.symm.trans (Invocation.reuse.view_foldl_eq_iff hready h.invocation)

end

/-- Objects from the pools are like new ones if and only if the payload codec that was set last on
the message is nil and the streaming mode that was set last on the invocation is none. -/
theorem likeNew_iff_clean {V I : Type} (ops : Instances V I) (maps : Maps) (ref : Nat)
    (h : Histories V I) : LikeNew ops (.newTransInfo maps ref) h ↔ Clean h := by
  have hempty := TransInfoState.empty_newTransInfo maps ref
  constructor
  · intro hlike
    exact ⟨(likeNew_message_iff h hempty).mp hlike.message,
      (likeNew_invocation_iff h).mp hlike.invocation⟩
  · rintro ⟨hcodec, hmode⟩
    refine ⟨(likeNew_message_iff h hempty).mpr hcodec, view_transInfo_uses h hempty,
      (likeNew_invocation_iff h).mpr hmode, fun basicInfo method => ?_⟩
    rw [RemoteInfo.foldl_use_fresh]

/-- A message on which a payload codec was set is recycled: the next message of the pool has this
codec, and a new one has none. -/
theorem exists_not_likeNew : ∃ (ops : Instances Nat Nat) (u : MessageUse Nat),
      (Message.fresh.use u).payloadCodec = some 7 ∧
      ∀ info, ¬ LikeNew ops info ⟨[u], [], [], []⟩ := by
  refine ⟨⟨fun _ => none, fun _ _ => none, fun _ => none⟩,
    ⟨⟨none, none, 1, 1⟩, ⟨0, 0⟩, [.setPayloadCodec (some 7)]⟩, rfl, fun info hlike => ?_⟩
  have hcodec := congrArg MessageView.payloadCodec (hlike.message ⟨none, none, 1, 1⟩)
  cases hcodec

end Kitex.Remote
