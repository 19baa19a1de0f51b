import Kitex.Machine.Run

/-! # How a call with a timeout ends

`timeoutTask` and `timeoutContext` of `rpctimeout_pool.go`, with the middleware of `rpctimeout.go`
that reports the error. `Run` and `Wait` of a task are two goroutines. `Run` says that the endpoint
has finished by cancelling the context of the task, and `Wait` cancels the same context when the
deadline or the parent ends the wait. The first of them decides what `Err` of the context is.
-/

namespace Kitex.Client

open Kitex.Machine

/-- `context.Canceled` and `context.DeadlineExceeded`. -/
inductive CtxErr where
  | canceled
  | deadlineExceeded
  deriving DecidableEq, Repr

inductive CallErr where
  | ctx (e : CtxErr)
  /-- the error that is made of a panic of the endpoint -/
  | panicked
  | other (n : Nat)
  deriving DecidableEq, Repr

/-- `Done` of a context is closed if its error is set. -/
structure TimeoutContext where
  /-- `Err` of the parent -/
  parent : Option CtxErr
  err : Option CtxErr
  deriving DecidableEq, Repr

namespace TimeoutContext

/-- `Err` -/
def getErr (c : TimeoutContext) : Option CtxErr := c.err <|> c.parent

def cancel (c : TimeoutContext) (e : Option CtxErr) : TimeoutContext :=
  if c.err.isNone then { c with err := e } else c

end TimeoutContext

inductive WaitEnd where
  | finished
  | parent
  | deadline
  deriving DecidableEq, Repr

/-- What `Run` does next. -/
inductive RunStep where
  | call
  | cancel
  | recycle
  deriving DecidableEq, Repr

/-- What `Wait` does next. -/
inductive WaitStep where
  | start
  | select
  | load
  | cancel (by_ : WaitEnd) (e : Option CtxErr)
  | returned (by_ : WaitEnd) (err : Option CallErr)
  deriving DecidableEq, Repr

structure TimeoutTask where
  /-- the context has a deadline -/
  deadline : Bool
  ctx : TimeoutContext
  err : Option CallErr
  run : RunStep
  wait : WaitStep
  /-- what the endpoint has returned, when it has -/
  result : Option (Option CallErr)
  deriving DecidableEq, Repr

inductive WaitChoice where
  | go
  /-- the deadline has passed before the wait starts -/
  | expired
  /-- the ready events of a select: the context, its parent, the timer -/
  | done
  | parent
  | timer
  deriving DecidableEq, Repr

inductive TaskEvent where
  /-- the parent context ends -/
  | parentDone (e : CtxErr)
  /-- the endpoint returns or panics -/
  | endpoint (err : Option CallErr)
  /-- the deferred function of `Run` cancels the context -/
  | cancel
  | wait (choice : WaitChoice)
  deriving DecidableEq, Repr

namespace TimeoutTask

variable (t : TimeoutTask)

def newTimeoutTask (deadline : Bool) (parent : Option CtxErr) : TimeoutTask :=
  ⟨deadline, ⟨parent, none⟩, none, .call, .start, none⟩

/-- The next step of `Wait` and `waitNoTimeout`. -/
def stepWait (choice : WaitChoice) : Option TimeoutTask :=
  match t.wait with
  | .start =>
    match choice with
    | .go => some { t with wait := .select }
    | .expired =>
      if t.deadline then some { t with wait := .cancel .deadline (some .deadlineExceeded) }
      else none
    | _ => none
  | .select =>
    match choice with
    | .done => if t.ctx.err.isSome then some { t with wait := .load } else none
    | .parent =>
      if t.ctx.parent.isSome then some { t with wait := .cancel .parent t.ctx.parent } else none
    | .timer =>
      if t.deadline then some { t with wait := .cancel .deadline (some .deadlineExceeded) }
      else none
    | _ => none
  | .load => some { t with wait := .returned .finished t.err }
  | .cancel by_ e =>
    let ctx := t.ctx.cancel e
    some { t with ctx, wait := .returned by_ (ctx.getErr.map .ctx) }
  | .returned _ _ => none

def step : TaskEvent → Option TimeoutTask
  | .parentDone e =>
    if t.ctx.parent.isNone then some { t with ctx := { t.ctx with parent := some e } } else none
  | .endpoint err =>
    -- only an error is stored
    if t.run = .call then some { t with err, result := some err, run := .cancel } else none
  | .cancel =>
    if t.run = .cancel then
      some { t with ctx := t.ctx.cancel (some .canceled), run := .recycle }
    else none
  | .wait choice => t.stepWait choice

end TimeoutTask

/-! ## The middleware -/

/-- An error of the middleware. -/
inductive RPCError where
  | canceledByBusiness (msg : String)
  | timeoutByBusiness (msg : String)
  /-- with the error of the context that the cause wraps -/
  | rpcTimeout (msg : String) (wraps : Option CtxErr)
  | endpoint (err : CallErr)
  deriving DecidableEq, Repr

/-- The error says that the call was cancelled by the business. -/
def RPCError.canceled : RPCError → Bool
  | canceledByBusiness _ => true
  | rpcTimeout _ wraps => wraps = some .canceled
  | _ => false

/-- What `makeTimeoutErr` reads of the call and of the global settings. Times and durations are in
nanoseconds. -/
structure TimeoutSettings where
  serviceName : String
  method : String
  address : Option String
  needFineGrainedErrCode : Bool
  businessTimeoutThreshold : Int
  showDuration : Int → String

def isBusinessTimeout (start kitexTimeout actualDDL threshold : Int) : Bool :=
  if kitexTimeout ≤ 0 then true else actualDDL + threshold < start + kitexTimeout

namespace TimeoutSettings

variable (cfg : TimeoutSettings)

def timeoutMsg (timeout : Int) : String :=
  let errMsg := "timeout=" ++ cfg.showDuration timeout ++ ", to=" ++ cfg.serviceName ++
    ", method=" ++ cfg.method ++ ", location=kitex.rpcTimeoutMW"
  match cfg.address with
  | none => errMsg
  | some target => errMsg ++ ", remote=" ++ target

def makeTimeoutErr (ctxErr : Option CtxErr) (deadline : Option Int) (start timeout : Int) :
    RPCError :=
  let errMsg := cfg.timeoutMsg timeout
  if ctxErr = some .canceled then
    if cfg.needFineGrainedErrCode then .canceledByBusiness errMsg
    else .rpcTimeout (errMsg ++ ": context canceled by business") ctxErr
  else
    match deadline with
    | none => .rpcTimeout (errMsg ++ ", unknown error: context deadline not set?") none
    | some ddl =>
      let isBizTimeout := isBusinessTimeout start timeout ddl cfg.businessTimeoutThreshold
      let roundTimeout := timeout - 1000000
      let errMsg :=
        if isBizTimeout then
          errMsg ++ ", timeout by business, actual=" ++ cfg.showDuration (ddl - start)
        else if 0 ≤ roundTimeout ∧ ddl < start + roundTimeout then
          errMsg ++ ", context deadline earlier than timeout, actual=" ++
            cfg.showDuration (ddl - start)
        else errMsg
      if cfg.needFineGrainedErrCode && isBizTimeout then .timeoutByBusiness errMsg
      else .rpcTimeout errMsg none

/-- What `rpcTimeoutMW` makes of the context and the error that `RunTask` returns. -/
def report (ctx : TimeoutContext) (err : Option CallErr) (deadline : Option Int)
    (start timeout : Int) : Option RPCError :=
  err.map fun err =>
    if ctx.getErr.map .ctx = some err then cfg.makeTimeoutErr ctx.getErr deadline start timeout
    else .endpoint err

/-- A call is reported as cancelled by the business if `RunTask` returns the error of a context that
is cancelled. -/
theorem canceled_report {ctx : TimeoutContext} {err : Option CallErr} {deadline : Option Int}
    {start timeout : Int}
    (hcanceled : (cfg.report ctx err deadline start timeout).any RPCError.canceled) :
    err = some (.ctx .canceled) := by
  cases err with
  | none => cases hcanceled
  | some err =>
    simp only [report, Option.map_some, Option.any_some] at hcanceled
    split at hcanceled
    next heq =>
      rw [← heq]
      by_cases hctx : ctx.getErr = some .canceled
      · rw [hctx]
        rfl
      · simp only [makeTimeoutErr, if_neg hctx] at hcanceled
        split at hcanceled
        · cases hcanceled
        · split at hcanceled <;> cases hcanceled
    next => cases hcanceled

end TimeoutSettings

end Kitex.Client
