import Kitex.Machine.Run

/-! # The loops of the retryers

`Do` of the failure, backup and mixed retryers. The failure retryer makes its
calls itself, one after another. The other two start each call in a goroutine
that reports on a buffered channel, and wait for a result or for their timer.
What the code asks the policy, the clock or the circuit breaker is an input of
the step that asks.
-/

namespace Kitex.Retry

inductive Retryer where
  | failure
  | backup
  | mixed
  deriving DecidableEq, Repr

/-- The outcome of a question to the policy, `ShouldRetry` or `isRetryResult`.
The latter runs functions of the user, which may panic. -/
inductive Decision where
  | yes
  | no
  | panics
  deriving DecidableEq, Repr

/-- Where a call stands: its goroutine has not yet looked at the abort flag,
`rpcCall` is running, it has returned or panicked, its result has been
reported, or the goroutine has found the flag set and made no call. -/
inductive CallStage where
  | spawned
  | running
  | completed
  | reported
  | aborted
  deriving DecidableEq, Repr

/-- What `Do` returns: the result of a call, the error of
`isExceedMaxDuration`, or the error of a policy function that panicked. -/
inductive DoResult where
  | ofCall (call : Nat)
  | maxDuration
  | policyPanic
  deriving DecidableEq, Repr

inductive DoStage where
  /-- The head of the loop, with a call to be made. -/
  | head
  /-- In `rpcCall`, for the failure retryer. -/
  | calling
  /-- In the `select`, for the other two. -/
  | select
  /-- `ShouldRetry` says yes, and sleeps in `backOff.Wait`. -/
  | backOff
  | returned (result : DoResult)
  deriving DecidableEq, Repr

/-- The variables of `Do`. -/
structure DoState where
  retryTimes : Nat
  maxDuration : Nat
  stage : DoStage := .head
  /-- Every call started, so that their number is `callCount`. -/
  calls : List CallStage := []
  /-- The channel `callDone`, whose capacity is `retryTimes + 1`. -/
  callDone : List Nat := []
  /-- How many results have come. -/
  doneCount : Nat := 0
  /-- The timer runs. -/
  armed : Bool := false
  /-- The timer's channel holds a value. -/
  fired : Bool := false
  abort : Bool := false
  /-- The results that have been judged, and whether they need a retry. -/
  judged : List (Nat × Bool) := []
  deriving DecidableEq, Repr

inductive DoEvent where
  /-- The step at the head of the loop, `elapsed` after the start. -/
  | loop (elapsed : Nat) (shouldRetry : Decision)
  /-- `backOff.Wait` returns. -/
  | wake
  /-- The call of the failure retryer returns, or panics. -/
  | finish (panics : Bool) (isRetryResult : Decision)
  | fire
  /-- The `select` takes the value of the timer. -/
  | timer (shouldRetry : Decision)
  /-- The `select` takes a result. -/
  | receive (isRetryResult shouldRetry : Decision)
  /-- A goroutine looks at the abort flag. -/
  | enter (call : Nat)
  | complete (call : Nat)
  /-- A goroutine sends its result, once the channel has room. -/
  | report (call : Nat)
  deriving DecidableEq, Repr

/-- `Do` has read the policy. -/
def newDo (retryer : Retryer) (retryTimes maxDuration : Nat) : DoState where
  retryTimes
  maxDuration
  armed := retryer != .failure

namespace DoState

def setStage (s : DoState) (stage : DoStage) : DoState := { s with stage }

/-- `Do` returns, and its deferred function stops the timer. -/
def ret (s : DoState) (result : DoResult) : DoState :=
  { s with stage := .returned result, armed := false }

def judge (s : DoState) (call : Nat) (needsRetry : Bool) : DoState :=
  { s with judged := s.judged ++ [(call, needsRetry)] }

def setCall (s : DoState) (call : Nat) (stage : CallStage) : DoState :=
  { s with calls := s.calls.modify call fun _ => stage }

def exceedsMaxDuration (s : DoState) (elapsed : Nat) : Bool :=
  0 < s.maxDuration && s.maxDuration < elapsed

/-! ## The failure retryer -/

def startCall (s : DoState) : DoState :=
  { s with calls := s.calls ++ [.running], stage := .calling }

/-- The head of the loop. From the second round on it looks at the duration
and asks whether to retry, and keeps the last result if not. -/
def failureLoop (s : DoState) (elapsed : Nat) (shouldRetry : Decision) : DoState :=
  if s.calls = [] then s.startCall
  else if s.exceedsMaxDuration elapsed then s.ret .maxDuration
  else match shouldRetry with
    | .yes => s.setStage .backOff
    | .no => s.ret (.ofCall (s.calls.length - 1))
    | .panics => s.ret .policyPanic

/-- The end of a round. A call that panics takes `Do` with it. -/
def failureFinish (s : DoState) (panics : Bool) (isRetryResult : Decision) : DoState :=
  let call := s.calls.length - 1
  let s : DoState := { s.setCall call .reported with doneCount := s.doneCount + 1 }
  if panics then s.ret (.ofCall call)
  else match isRetryResult with
    | .yes =>
      let s : DoState := s.judge call true
      if s.calls.length ≤ s.retryTimes then s.setStage .head else s.ret (.ofCall call)
    | .no => (s.judge call false).ret (.ofCall call)
    | .panics => s.ret .policyPanic

def failureStep (s : DoState) : DoEvent → Option DoState
  | .loop elapsed shouldRetry =>
    if s.stage = .head then some (s.failureLoop elapsed shouldRetry) else none
  | .wake => if s.stage = .backOff then some s.startCall else none
  | .finish panics isRetryResult =>
    if s.stage = .calling then some (s.failureFinish panics isRetryResult) else none
  | _ => none

/-! ## The goroutines of the backup and mixed retryers -/

/-- `GoFunc` with the function that makes the call. -/
def spawn (s : DoState) : DoState := { s with calls := s.calls ++ [.spawned], stage := .select }

def fireTimer (s : DoState) : DoState := { s with armed := false, fired := true }

/-- `timer.Reset`, and another round of the loop. -/
def again (s : DoState) : DoState := { s with stage := .head, armed := true }

/-- The result of a call is returned, and calls that have not begun are not
made any more. -/
def deliver (s : DoState) (call : Nat) : DoState :=
  { s.ret (.ofCall call) with abort := true }

/-- The `select` takes the first result of the channel. -/
def takeResult (s : DoState) (rest : List Nat) : DoState :=
  { s with callDone := rest, doneCount := s.doneCount + 1 }

/-- A step of a goroutine or of the timer. -/
def callStep (s : DoState) : DoEvent → Option DoState
  | .fire => if s.armed then some s.fireTimer else none
  | .enter call =>
    if s.calls[call]? = some .spawned then
      some (s.setCall call (if s.abort then .aborted else .running))
    else none
  | .complete call =>
    if s.calls[call]? = some .running then some (s.setCall call .completed) else none
  | .report call =>
    if s.calls[call]? = some .completed ∧ s.callDone.length < s.retryTimes + 1 then
      some { s.setCall call .reported with callDone := s.callDone ++ [call] }
    else none
  | _ => none

/-! ## The backup retryer -/

def backupTimer (s : DoState) (shouldRetry : Decision) : DoState :=
  match shouldRetry with
  | .yes => if s.calls.length ≤ s.retryTimes then s.again else s
  | .no => s
  | .panics => s.ret .policyPanic

/-- The first result is taken as it is. -/
def backupReceive (s : DoState) (call : Nat) : DoState := (s.judge call false).deliver call

def backupStep (s : DoState) : DoEvent → Option DoState
  | .loop _ _ => if s.stage = .head then some s.spawn else none
  | .timer shouldRetry =>
    if s.stage = .select ∧ s.fired = true then
      some ({ s with fired := false }.backupTimer shouldRetry)
    else none
  | .receive _ _ =>
    match s.stage, s.callDone with
    | .select, call :: rest => some ((s.takeResult rest).backupReceive call)
    | _, _ => none
  | event => s.callStep event

/-! ## The mixed retryer -/

def mixedLoop (s : DoState) (elapsed : Nat) : DoState :=
  if s.calls ≠ [] ∧ s.exceedsMaxDuration elapsed = true then s.ret .maxDuration else s.spawn

def mixedTimer (s : DoState) (shouldRetry : Decision) : DoState :=
  match shouldRetry with
  | .yes => s.setStage .backOff
  | .no => s
  | .panics => s.ret .policyPanic

/-- A result that needs a retry is retried while calls are left. When all have
been started, the loop waits for the others, and the last result is returned
in any case. -/
def mixedReceive (s : DoState) (call : Nat) (isRetryResult shouldRetry : Decision) : DoState :=
  if s.doneCount < s.retryTimes + 1 then
    match isRetryResult with
    | .yes =>
      let s : DoState := s.judge call true
      if s.calls.length < s.retryTimes + 1 then
        match shouldRetry with
        | .yes => s.setStage .backOff
        | .no => s.deliver call
        | .panics => s.ret .policyPanic
      else s
    | .no => (s.judge call false).deliver call
    | .panics => s.ret .policyPanic
  else s.deliver call

/-- The call is made if one is left, which may have changed for the timer. -/
def mixedWake (s : DoState) : DoState :=
  if s.calls.length < s.retryTimes + 1 then s.again else s.setStage .select

def mixedStep (s : DoState) : DoEvent → Option DoState
  | .loop elapsed _ => if s.stage = .head then some (s.mixedLoop elapsed) else none
  | .wake => if s.stage = .backOff then some s.mixedWake else none
  | .timer shouldRetry =>
    if s.stage = .select ∧ s.fired = true then
      some ({ s with fired := false }.mixedTimer shouldRetry)
    else none
  | .receive isRetryResult shouldRetry =>
    match s.stage, s.callDone with
    | .select, call :: rest =>
      some ((s.takeResult rest).mixedReceive call isRetryResult shouldRetry)
    | _, _ => none
  | event => s.callStep event

def step : Retryer → DoState → DoEvent → Option DoState
  | .failure => failureStep
  | .backup => backupStep
  | .mixed => mixedStep

/-- `Do` waits: in a call of its own, in the `select` with nothing to take, or
in the sleep of `backOff.Wait`. -/
def waits (s : DoState) : Bool :=
  match s.stage with
  | .calling | .backOff => true
  | .select => s.callDone.isEmpty && !s.fired
  | _ => false

/-- A timer runs: that of the loop, or of the sleep. -/
def timerArmed (s : DoState) : Bool := s.armed || s.stage == .backOff

end DoState

/-- The call has been started and has not reported. -/
def CallStage.outstanding : CallStage → Bool
  | spawned | running | completed => true
  | reported | aborted => false

end Kitex.Retry
