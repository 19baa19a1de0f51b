import Kitex.Container.Slots
import Kitex.Retry.Do

/-! # What `Do` of the retryers does in every run

`Do` starts no more calls than its policy allows, never waits for nothing, and
returns the result of one of its calls or an error of its own. The channel has
room for all results, so a goroutine that is left behind when `Do` returns does
not block.
-/

namespace Kitex.Retry

open Kitex.Container Kitex.Machine

/-- The first result that was judged not to need a retry. -/
def firstAccepted (judged : List (Nat × Bool)) : Option Nat :=
  (judged.find? fun judgement => !judgement.2).map (·.1)

/-- No result has been accepted while `Do` goes on, and one that has been
accepted is returned. -/
def JudgedSound (judged : List (Nat × Bool)) : DoStage → Prop
  | .returned result => ∀ call, firstAccepted judged = some call → result = .ofCall call
  | _ => ∀ judgement ∈ judged, judgement.2 = true

section Judged

variable {judged : List (Nat × Bool)}

variable (hall : ∀ judgement ∈ judged, judgement.2 = true)
include hall

theorem find?_judged_eq_none : judged.find? (fun judgement => !judgement.2) = none := by
  rw [List.find?_eq_none]
  intro judgement hmem
  simp [hall judgement hmem]

theorem judgedSound_returned (result : DoResult) : JudgedSound judged (.returned result) := by
  intro call hcall
  rw [firstAccepted, find?_judged_eq_none hall] at hcall
  nomatch hcall

theorem judgedSound_accepted (call : Nat) :
    JudgedSound (judged ++ [(call, false)]) (.returned (.ofCall call)) := by
  intro found hfound
  rw [firstAccepted, List.find?_append, find?_judged_eq_none hall] at hfound
  exact congrArg DoResult.ofCall (Option.some.inj hfound)

theorem forall_judged_concat (call : Nat) :
    ∀ judgement ∈ judged ++ [(call, true)], judgement.2 = true := by
  intro judgement hmem
  rcases List.mem_append.mp hmem with hmem | hmem
  · exact hall judgement hmem
  · obtain rfl := List.mem_singleton.mp hmem
    rfl

end Judged

namespace DoState

variable {s next : DoState} {retryTimes : Nat} {event : DoEvent} {result : DoResult} {call : Nat}
  {rest : List Nat} {retryer : Retryer} {n : Nat}

/-- What every run of `Do` satisfies. -/
structure Sound (retryTimes : Nat) (s : DoState) : Prop where
  retryTimes_eq : s.retryTimes = retryTimes
  calls_le : s.calls.length ≤ s.retryTimes + 1
  waits : s.waits = true →
    (∃ stage ∈ s.calls, stage.outstanding = true) ∨ s.timerArmed = true
  reports : ∀ call : Nat, s.calls[call]? = some .completed → s.callDone.length < s.retryTimes + 1
  returned : ∀ result, s.stage = .returned result →
    (∀ call, result = .ofCall call → s.calls[call]? = some .reported) ∧
    ∀ call, firstAccepted s.judged = some call → result = .ofCall call

/-! ## The failure retryer -/

/-- The calls of the failure retryer have all returned but the one it is in. -/
def FailureCalls (retryTimes : Nat) (calls : List CallStage) : DoStage → Prop
  | .head | .backOff => ∃ n ≤ retryTimes, calls = List.replicate n .reported
  | .calling => ∃ n ≤ retryTimes, calls = List.replicate n .reported ++ [.running]
  | .select => False
  | .returned result => ∃ n ≤ retryTimes + 1, calls = List.replicate n .reported ∧
      ∀ call, result = .ofCall call → call < n

structure FailureRun (retryTimes : Nat) (s : DoState) : Prop where
  retryTimes_eq : s.retryTimes = retryTimes
  callDone : s.callDone = []
  calls : FailureCalls s.retryTimes s.calls s.stage
  judged : JudgedSound s.judged s.stage

namespace FailureRun

theorem startCall (hretry : s.retryTimes = retryTimes) (hdone : s.callDone = [])
    (hn : n ≤ s.retryTimes) (hcalls : s.calls = List.replicate n .reported)
    (hall : ∀ judgement ∈ s.judged, judgement.2 = true) : FailureRun retryTimes s.startCall where
  retryTimes_eq := hretry
  callDone := hdone
  calls := ⟨n, hn, by rw [DoState.startCall, hcalls]⟩
  judged := hall

theorem ret (hretry : s.retryTimes = retryTimes) (hdone : s.callDone = [])
    (hn : n ≤ s.retryTimes + 1) (hcalls : s.calls = List.replicate n .reported)
    (hresult : ∀ call, result = .ofCall call → call < n)
    (hjudged : JudgedSound s.judged (.returned result)) : FailureRun retryTimes (s.ret result) where
  retryTimes_eq := hretry
  callDone := hdone
  calls := ⟨n, hn, hcalls, hresult⟩
  judged := hjudged

theorem loop (hrun : FailureRun retryTimes s) (hstage : s.stage = .head) (elapsed : Nat)
    (shouldRetry : Decision) : FailureRun retryTimes (s.failureLoop elapsed shouldRetry) := by
  obtain ⟨hretry, hdone, hcalls, hall⟩ := hrun
  rw [hstage] at hcalls hall
  obtain ⟨n, hn, hcalls⟩ := hcalls
  have hret : ∀ {result : DoResult}, (∀ call, result = .ofCall call → call < n) →
      FailureRun retryTimes (s.ret result) :=
    fun hresult =>
      ret hretry hdone (Nat.le_succ_of_le hn) hcalls hresult (judgedSound_returned hall _)
  unfold failureLoop
  split
  next => exact startCall hretry hdone hn hcalls hall
  next hsome =>
    have hpos : 0 < n := Nat.pos_of_ne_zero fun hzero => hsome (by rw [hcalls, hzero]; rfl)
    split
    next => exact hret fun _ hcall => nomatch hcall
    next =>
      cases shouldRetry with
      | yes =>
        exact
          { retryTimes_eq := hretry
            callDone := hdone
            calls := ⟨n, hn, hcalls⟩
            judged := hall }
      | no =>
        apply hret
        rintro call ⟨⟩
        rw [hcalls, List.length_replicate]
        omega
      | panics => exact hret fun _ hcall => nomatch hcall

theorem wake (hrun : FailureRun retryTimes s) (hstage : s.stage = .backOff) :
    FailureRun retryTimes s.startCall := by
  obtain ⟨hretry, hdone, hcalls, hall⟩ := hrun
  rw [hstage] at hcalls hall
  obtain ⟨n, hn, hcalls⟩ := hcalls
  exact startCall hretry hdone hn hcalls hall

theorem modify_replicate_concat (n : Nat) (stage : CallStage) :
    (List.replicate n CallStage.reported ++ [stage]).modify n (fun _ => .reported) =
      List.replicate (n + 1) .reported := by
  induction n with
  | zero => rfl
  | succ n ih =>
    rw [List.replicate_succ, List.cons_append, List.modify_succ_cons, ih]
    rfl

variable (hrun : FailureRun retryTimes s)
include hrun

theorem finish (hstage : s.stage = .calling) (panics : Bool)
    (isRetryResult : Decision) : FailureRun retryTimes (s.failureFinish panics isRetryResult) := by
  obtain ⟨hretry, hdone, hcalls, hall⟩ := hrun
  rw [hstage] at hcalls hall
  obtain ⟨n, hn, hcalls⟩ := hcalls
  have hlast : s.calls.length - 1 = n := by simp [hcalls]
  have hreported : s.calls.modify n (fun _ => .reported) = List.replicate (n + 1) .reported := by
    rw [hcalls, modify_replicate_concat]
  have hself : ∀ call, DoResult.ofCall n = .ofCall call → call < n + 1 := by
    rintro call ⟨⟩
    exact Nat.lt_succ_self n
  simp only [failureFinish, setCall, hlast, hreported]
  split
  next => exact ret hretry hdone (Nat.succ_le_succ hn) rfl hself (judgedSound_returned hall _)
  next =>
    cases isRetryResult with
    | yes =>
      have hjudged := forall_judged_concat hall n
      simp only
      split
      next hle =>
        have hle' : n + 1 ≤ s.retryTimes := by simpa [judge] using hle
        exact
          { retryTimes_eq := hretry
            callDone := hdone
            calls := ⟨n + 1, hle', rfl⟩
            judged := hjudged }
      next =>
        exact ret hretry hdone (Nat.succ_le_succ hn) rfl hself (judgedSound_returned hjudged _)
    | no => exact ret hretry hdone (Nat.succ_le_succ hn) rfl hself (judgedSound_accepted hall n)
    | panics =>
      exact ret hretry hdone (Nat.succ_le_succ hn) rfl (fun _ hcall => nomatch hcall)
        (judgedSound_returned hall _)

theorem step (hstep : s.failureStep event = some next) : FailureRun retryTimes next := by
  cases event with
  | loop elapsed shouldRetry =>
    obtain ⟨hstage, heq⟩ := Option.ite_none_right_eq_some.mp hstep
    exact Option.some.inj heq ▸ hrun.loop hstage elapsed shouldRetry
  | wake =>
    obtain ⟨hstage, heq⟩ := Option.ite_none_right_eq_some.mp hstep
    exact Option.some.inj heq ▸ hrun.wake hstage
  | finish panics isRetryResult =>
    obtain ⟨hstage, heq⟩ := Option.ite_none_right_eq_some.mp hstep
    exact Option.some.inj heq ▸ hrun.finish hstage panics isRetryResult
  | _ => nomatch hstep

theorem calls_length_le : s.calls.length ≤ s.retryTimes + 1 := by
  have hcalls := hrun.calls
  cases hstage : s.stage with
  | select => exact (hstage ▸ hcalls : FailureCalls _ _ .select).elim
  | returned result =>
    obtain ⟨n, hn, hcalls, _⟩ : FailureCalls _ _ (.returned result) := hstage ▸ hcalls
    rwa [hcalls, List.length_replicate]
  | calling =>
    obtain ⟨n, hn, hcalls⟩ : FailureCalls _ _ .calling := hstage ▸ hcalls
    rw [hcalls, List.length_append, List.length_replicate]
    exact Nat.succ_le_succ hn
  | head | backOff =>
    rw [hstage] at hcalls
    obtain ⟨n, hn, hcalls⟩ := hcalls
    rw [hcalls, List.length_replicate]
    exact Nat.le_succ_of_le hn

theorem sound : Sound retryTimes s where
  retryTimes_eq := hrun.retryTimes_eq
  calls_le := hrun.calls_length_le
  waits hwaits := by
    have hcalls := hrun.calls
    unfold DoState.waits at hwaits
    split at hwaits
    next hstage =>
      obtain ⟨n, _, hcalls⟩ : FailureCalls _ _ .calling := hstage ▸ hcalls
      refine .inl ⟨.running, ?_, rfl⟩
      rw [hcalls]
      exact List.mem_append_right _ List.mem_cons_self
    next hstage => exact .inr (by simp [timerArmed, hstage])
    next hstage => exact (hstage ▸ hcalls : FailureCalls _ _ .select).elim
    next => nomatch hwaits
  reports call _ := by
    rw [hrun.callDone]
    exact Nat.succ_pos _
  returned result hstage := by
    have hjudged := hrun.judged
    obtain ⟨n, _, hcalls, hlt⟩ : FailureCalls _ _ (.returned result) := hstage ▸ hrun.calls
    rw [hstage] at hjudged
    refine ⟨fun call hcall => ?_, hjudged⟩
    rw [hcalls, List.getElem?_replicate, if_pos (hlt call hcall)]

end FailureRun

/-! ## The backup and mixed retryers -/

/-- The calls whose result has been sent. -/
def reported (s : DoState) : Nat := s.calls.countP (· == .reported)

/-- What the loop knows at each of its places: a call is left to be started, or
a result is still to come. -/
def LoopCalls (s : DoState) : DoStage → Prop
  | .head => s.calls.length ≤ s.retryTimes
  | .select => s.doneCount < s.calls.length
  | .backOff => s.doneCount < s.calls.length ∨ s.calls.length ≤ s.retryTimes
  | .calling => False
  | .returned result => ∀ call, result = .ofCall call → s.calls[call]? = some .reported

def isReturned (s : DoState) : Bool :=
  match s.stage with
  | .returned _ => true
  | _ => false

/-- The calls and the channel, wherever the loop is. -/
structure ChannelRun (retryTimes : Nat) (s : DoState) : Prop where
  retryTimes_eq : s.retryTimes = retryTimes
  calls_le : s.calls.length ≤ s.retryTimes + 1
  counted : s.callDone.length + s.doneCount = s.reported
  received : ∀ call ∈ s.callDone, s.calls[call]? = some .reported
  /-- No call is given up before `Do` has returned. -/
  kept : s.isReturned = false → s.abort = false ∧ .aborted ∉ s.calls

structure LoopRun (retryTimes : Nat) (s : DoState) : Prop extends ChannelRun retryTimes s where
  loop : s.LoopCalls s.stage
  judged : JudgedSound s.judged s.stage

namespace LoopRun

/-! ### Goroutines -/

variable {call : Nat} {stage old : CallStage}

theorem loopCalls_setCall {place : DoStage}
    (hstay : ∀ other : Nat, s.calls[other]? = some CallStage.reported →
      (s.setCall call stage).calls[other]? = some .reported) (hloop : s.LoopCalls place) :
    (s.setCall call stage).LoopCalls place := by
  have hlength : (s.setCall call stage).calls.length = s.calls.length := List.length_modify ..
  cases place with
  | returned result => exact fun other hresult => hstay other (hloop other hresult)
  | head => exact Nat.le_trans (Nat.le_of_eq hlength) hloop
  | select => exact Nat.lt_of_lt_of_eq hloop hlength.symm
  | backOff =>
    exact hloop.imp (Nat.lt_of_lt_of_eq · hlength.symm) (Nat.le_trans (Nat.le_of_eq hlength) ·)
  | calling => exact hloop

theorem kept_setCall (hrun : LoopRun retryTimes s) (habort : stage = .aborted → s.abort = true) :
    s.isReturned = false → s.abort = false ∧ .aborted ∉ (s.setCall call stage).calls := by
  intro hreturned
  obtain ⟨hfalse, hnone⟩ := hrun.kept hreturned
  refine ⟨hfalse, fun hmem => ?_⟩
  rcases mem_modify_cases hmem with hfound | ⟨_, _, heq⟩
  · exact hnone hfound
  · rw [habort heq.symm] at hfalse
    nomatch hfalse

theorem stay_setCall (hcall : s.calls[call]? = some old) (hold : old ≠ .reported) (other : Nat)
    (hother : s.calls[other]? = some CallStage.reported) :
    (s.setCall call stage).calls[other]? = some .reported := by
  have hne : other ≠ call := by
    rintro rfl
    exact hold (Option.some.inj (hcall.symm.trans hother))
  exact (getElem?_modify_ne hne ..).trans hother

variable (hrun : LoopRun retryTimes s)
include hrun

/-- A goroutine goes on without having sent its result. -/
theorem setCall (hcall : s.calls[call]? = some old)
    (hold : old ≠ .reported) (hstage : stage ≠ .reported)
    (habort : stage = .aborted → s.abort = true) : LoopRun retryTimes (s.setCall call stage) :=
  { hrun with
    calls_le := (List.length_modify ..).symm ▸ hrun.calls_le
    counted := by
      have hcount := countP_modify hcall (· == CallStage.reported) fun _ => stage
      simp only [beq_iff_eq, hold, hstage, if_false] at hcount
      exact hrun.counted.trans hcount.symm
    received other hmem := stay_setCall hcall hold other (hrun.received other hmem)
    loop := loopCalls_setCall (stay_setCall hcall hold) hrun.loop
    kept := kept_setCall hrun habort }

/-- A goroutine sends its result. -/
theorem report (hcall : s.calls[call]? = some .completed) :
    LoopRun retryTimes { s.setCall call .reported with callDone := s.callDone ++ [call] } :=
  { hrun with
    calls_le := (List.length_modify ..).symm ▸ hrun.calls_le
    counted := by
      have hcount := countP_modify hcall (· == CallStage.reported) fun _ => .reported
      have hcounted := hrun.counted
      simp only [DoState.reported, DoState.setCall, List.length_append, List.length_singleton,
        beq_self_eq_true, if_true, reduceCtorEq, beq_iff_eq, if_false] at hcount hcounted ⊢
      omega
    received other hmem := by
      rcases List.mem_append.mp hmem with hmem | hmem
      · exact stay_setCall hcall nofun other (hrun.received other hmem)
      · obtain rfl := List.mem_singleton.mp hmem
        exact getElem?_modify_self hcall _
    loop := loopCalls_setCall (stay_setCall hcall nofun) hrun.loop
    kept := kept_setCall hrun nofun }

theorem callStep (hstep : s.callStep event = some next) : LoopRun retryTimes next := by
  cases event with
  | fire =>
    obtain ⟨_, heq⟩ := Option.ite_none_right_eq_some.mp hstep
    exact Option.some.inj heq ▸ { hrun with }
  | enter call =>
    obtain ⟨hcall, heq⟩ := Option.ite_none_right_eq_some.mp hstep
    cases heq
    apply hrun.setCall hcall nofun
    · split <;> nofun
    · intro hstage
      split at hstage
      next habort => exact habort
      next => nomatch hstage
  | complete call =>
    obtain ⟨hcall, heq⟩ := Option.ite_none_right_eq_some.mp hstep
    exact Option.some.inj heq ▸ hrun.setCall hcall nofun nofun nofun
  | report call =>
    obtain ⟨⟨hcall, _⟩, heq⟩ := Option.ite_none_right_eq_some.mp hstep
    exact Option.some.inj heq ▸ hrun.report hcall
  | _ => nomatch hstep

end LoopRun

/-! ### The loop -/

namespace ChannelRun

variable (hrun : ChannelRun retryTimes s)
include hrun

/-- `Do` returns. -/
theorem ret (hresult : ∀ call, result = .ofCall call → s.calls[call]? = some .reported)
    (hjudged : JudgedSound s.judged (.returned result)) : LoopRun retryTimes (s.ret result) :=
  { hrun with
    loop := hresult
    judged := hjudged
    kept := nofun }

theorem deliver (hcall : s.calls[call]? = some .reported)
    (hjudged : JudgedSound s.judged (.returned (.ofCall call))) :
    LoopRun retryTimes (s.deliver call) :=
  { hrun with
    loop := by
      rintro other ⟨⟩
      exact hcall
    judged := hjudged
    kept := nofun }

/-- A result is taken from the channel. -/
theorem take (hdone : s.callDone = call :: rest) : ChannelRun retryTimes (s.takeResult rest) ∧
      s.calls[call]? = some .reported := by
  have hcounted := hrun.counted
  have hreceived := hrun.received
  rw [hdone] at hcounted hreceived
  refine ⟨{ hrun with counted := ?_, received := ?_ }, hreceived call List.mem_cons_self⟩
  · rw [List.length_cons] at hcounted
    change rest.length + (s.doneCount + 1) = s.reported
    omega
  · exact fun other hmem => hreceived other (List.mem_cons_of_mem call hmem)

/-- No more results have been taken than calls started. -/
theorem doneCount_le : s.doneCount ≤ s.calls.length := by
  have hcounted := hrun.counted
  have hreported : s.reported ≤ s.calls.length := List.countP_le_length
  omega

theorem spawn (hstage : s.isReturned = false)
    (hle : s.calls.length ≤ s.retryTimes) (hall : ∀ judgement ∈ s.judged, judgement.2 = true) :
    LoopRun retryTimes s.spawn where
  retryTimes_eq := hrun.retryTimes_eq
  calls_le := by
    change (s.calls ++ [_]).length ≤ _
    rw [List.length_append]
    exact Nat.succ_le_succ hle
  counted := by
    change _ = (s.calls ++ [_]).countP _
    rw [List.countP_append]
    exact hrun.counted
  received call hmem := by
    have hcall := hrun.received call hmem
    have hlt := (List.getElem?_eq_some_iff.mp hcall).1
    exact (List.getElem?_append_left hlt).trans hcall
  loop := by
    change s.doneCount < (s.calls ++ [_]).length
    rw [List.length_append]
    exact Nat.lt_succ_of_le hrun.doneCount_le
  judged := hall
  kept _ := by
    obtain ⟨habort, hnone⟩ := hrun.kept hstage
    refine ⟨habort, fun hmem => ?_⟩
    rcases List.mem_append.mp hmem with hmem | hmem
    · exact hnone hmem
    · nomatch List.mem_singleton.mp hmem

end ChannelRun

namespace LoopRun

/-- `Do` ends with an error of its own. -/
theorem retError (hrun : ChannelRun retryTimes s)
    (hall : ∀ judgement ∈ s.judged, judgement.2 = true) (hresult : ∀ call, result ≠ .ofCall call) :
    LoopRun retryTimes (s.ret result) :=
  hrun.ret (fun call hcall => absurd hcall (hresult call)) (judgedSound_returned hall result)

variable (hrun : LoopRun retryTimes s)
include hrun

theorem again (hstage : s.isReturned = false)
    (hall : ∀ judgement ∈ s.judged, judgement.2 = true) (hle : s.calls.length ≤ s.retryTimes) :
    LoopRun retryTimes s.again :=
  { hrun with
    loop := hle
    judged := hall
    kept := fun _ => hrun.kept hstage }

/-! ### The backup retryer -/

theorem backupTimer (hstage : s.stage = .select) (shouldRetry : Decision) :
    LoopRun retryTimes ({ s with fired := false }.backupTimer shouldRetry) := by
  have hfired : LoopRun retryTimes { s with fired := false } := { hrun with }
  have hall := hrun.judged
  rw [hstage] at hall
  cases shouldRetry with
  | yes =>
    unfold DoState.backupTimer
    simp only
    split
    next hle => exact hfired.again (by simp [isReturned, hstage]) hall hle
    next => exact hfired
  | no => exact hfired
  | panics => exact retError hfired.toChannelRun hall nofun

theorem backupReceive (hstage : s.stage = .select) (hdone : s.callDone = call :: rest) :
    LoopRun retryTimes ((s.takeResult rest).backupReceive call) := by
  have hall := hrun.judged
  rw [hstage] at hall
  obtain ⟨htaken, hcall⟩ := hrun.take hdone
  have hjudged : ChannelRun retryTimes ((s.takeResult rest).judge call false) := { htaken with }
  exact hjudged.deliver hcall (judgedSound_accepted hall call)

theorem backupStep (hstep : s.backupStep event = some next) : LoopRun retryTimes next := by
  cases event with
  | loop elapsed shouldRetry =>
    obtain ⟨hstage, heq⟩ := Option.ite_none_right_eq_some.mp hstep
    have hle := hrun.loop
    have hall := hrun.judged
    rw [hstage] at hle hall
    exact Option.some.inj heq ▸ hrun.spawn (by simp [isReturned, hstage]) hle hall
  | timer shouldRetry =>
    obtain ⟨⟨hstage, _⟩, heq⟩ := Option.ite_none_right_eq_some.mp hstep
    exact Option.some.inj heq ▸ hrun.backupTimer hstage shouldRetry
  | receive isRetryResult shouldRetry =>
    simp only [DoState.backupStep] at hstep
    split at hstep
    next call rest hstage hdone =>
      exact Option.some.inj hstep ▸ hrun.backupReceive hstage hdone
    next => nomatch hstep
  | _ =>
    simp only [DoState.backupStep] at hstep
    exact hrun.callStep hstep

/-! ### The mixed retryer -/

theorem mixedLoop (hstage : s.stage = .head) (elapsed : Nat) :
    LoopRun retryTimes (s.mixedLoop elapsed) := by
  have hle := hrun.loop
  have hall := hrun.judged
  rw [hstage] at hle hall
  unfold DoState.mixedLoop
  split
  next => exact retError hrun.toChannelRun hall nofun
  next => exact hrun.spawn (by simp [isReturned, hstage]) hle hall

theorem mixedWake (hstage : s.stage = .backOff) : LoopRun retryTimes s.mixedWake := by
  have hloop := hrun.loop
  have hall := hrun.judged
  rw [hstage] at hloop hall
  have hreturned : s.isReturned = false := by simp [isReturned, hstage]
  unfold DoState.mixedWake
  split
  next hlt => exact hrun.again hreturned hall (Nat.le_of_lt_succ hlt)
  next hge =>
    exact { hrun with
      loop := hloop.resolve_right fun hle => hge (Nat.lt_succ_of_le hle)
      judged := hall
      kept := fun _ => hrun.kept hreturned }

theorem mixedTimer (hstage : s.stage = .select) (shouldRetry : Decision) :
    LoopRun retryTimes ({ s with fired := false }.mixedTimer shouldRetry) := by
  have hfired : LoopRun retryTimes { s with fired := false } := { hrun with }
  have hloop := hrun.loop
  have hall := hrun.judged
  rw [hstage] at hloop hall
  cases shouldRetry with
  | yes =>
    exact { hfired with
      loop := .inl hloop
      judged := hall
      kept := fun _ => hrun.kept (by simp [isReturned, hstage]) }
  | no => exact hfired
  | panics => exact retError hfired.toChannelRun hall nofun

theorem mixedReceive (hstage : s.stage = .select) (hdone : s.callDone = call :: rest)
    (isRetryResult shouldRetry : Decision) :
    LoopRun retryTimes ((s.takeResult rest).mixedReceive call isRetryResult shouldRetry) := by
  have hall := hrun.judged
  rw [hstage] at hall
  obtain ⟨htaken, hcall⟩ := hrun.take hdone
  have hkept := hrun.kept (by simp [isReturned, hstage])
  unfold DoState.mixedReceive
  split
  next hmore =>
    cases isRetryResult with
    | yes =>
      have hneeds := forall_judged_concat hall call
      have hjudged : ChannelRun retryTimes ((s.takeResult rest).judge call true) :=
        { htaken with }
      simp only
      split
      next hlt =>
        cases shouldRetry with
        | yes =>
          exact { hjudged with
            loop := .inr (Nat.le_of_lt_succ hlt)
            judged := hneeds
            kept := fun _ => hkept }
        | no => exact hjudged.deliver hcall (judgedSound_returned hneeds _)
        | panics => exact retError hjudged hneeds nofun
      next hge =>
        -- all calls have been started, and one more has yet to report
        have hwait : LoopCalls _ DoStage.select := Nat.lt_of_lt_of_le hmore (Nat.not_lt.mp hge)
        rw [← hstage] at hwait
        exact { hjudged with
          loop := hwait
          judged := hstage ▸ hneeds }
    | no =>
      have hjudged : ChannelRun retryTimes ((s.takeResult rest).judge call false) :=
        { htaken with }
      exact hjudged.deliver hcall (judgedSound_accepted hall call)
    | panics => exact retError htaken hall nofun
  next => exact htaken.deliver hcall (judgedSound_returned hall _)

theorem mixedStep (hstep : s.mixedStep event = some next) : LoopRun retryTimes next := by
  cases event with
  | loop elapsed shouldRetry =>
    obtain ⟨hstage, heq⟩ := Option.ite_none_right_eq_some.mp hstep
    exact Option.some.inj heq ▸ hrun.mixedLoop hstage elapsed
  | wake =>
    obtain ⟨hstage, heq⟩ := Option.ite_none_right_eq_some.mp hstep
    exact Option.some.inj heq ▸ hrun.mixedWake hstage
  | timer shouldRetry =>
    obtain ⟨⟨hstage, _⟩, heq⟩ := Option.ite_none_right_eq_some.mp hstep
    exact Option.some.inj heq ▸ hrun.mixedTimer hstage shouldRetry
  | receive isRetryResult shouldRetry =>
    simp only [DoState.mixedStep] at hstep
    split at hstep
    next call rest hstage hdone =>
      exact Option.some.inj hstep ▸ hrun.mixedReceive hstage hdone isRetryResult shouldRetry
    next => nomatch hstep
  | _ =>
    simp only [DoState.mixedStep] at hstep
    exact hrun.callStep hstep

/-- Results are missing as long as not all calls have reported. -/
theorem exists_outstanding (hreturned : s.isReturned = false)
    (hlt : s.reported < s.calls.length) : ∃ stage ∈ s.calls, stage.outstanding = true := by
  by_contra hnone
  apply Nat.ne_of_lt hlt
  refine List.countP_eq_length.mpr fun stage hmem => ?_
  cases stage with
  | reported => rfl
  | aborted => exact absurd hmem (hrun.kept hreturned).2
  | spawned | running | completed => exact absurd ⟨_, hmem, rfl⟩ hnone

theorem sound : Sound retryTimes s where
  retryTimes_eq := hrun.retryTimes_eq
  calls_le := hrun.calls_le
  waits hwaits := by
    have hloop := hrun.loop
    have hcounted := hrun.counted
    unfold DoState.waits at hwaits
    split at hwaits
    next hstage => exact (hstage ▸ hloop : LoopCalls s .calling).elim
    next hstage => exact .inr (by simp [timerArmed, hstage])
    next hstage =>
      rw [hstage] at hloop
      obtain ⟨hempty, _⟩ := Bool.and_eq_true_iff.mp hwaits
      rw [List.isEmpty_iff.mp hempty, List.length_nil, Nat.zero_add] at hcounted
      have hlt : s.reported < s.calls.length := hcounted ▸ hloop
      exact .inl (hrun.exists_outstanding (by simp [isReturned, hstage]) hlt)
    next => nomatch hwaits
  reports call hcall := by
    -- the call is one of those that are not in the channel
    have hlt : s.reported < s.calls.length := by
      refine Nat.lt_of_le_of_ne List.countP_le_length fun heq => ?_
      nomatch List.countP_eq_length.mp heq _ (List.mem_of_getElem? hcall)
    have hcounted := hrun.counted
    have hle := hrun.calls_le
    omega
  returned result hstage := by
    have hloop := hrun.loop
    have hjudged := hrun.judged
    rw [hstage] at hloop hjudged
    exact ⟨hloop, hjudged⟩

end LoopRun

/-! ## All three retryers -/

theorem loopRun_newDo (retryTimes maxDuration : Nat) :
    LoopRun retryTimes (newDo retryer retryTimes maxDuration) where
  retryTimes_eq := rfl
  calls_le := Nat.zero_le _
  counted := rfl
  received := by simp [newDo]
  loop := Nat.zero_le _
  judged := by simp [newDo, JudgedSound]
  kept _ := ⟨rfl, by simp [newDo]⟩

theorem failureRun_newDo (retryTimes maxDuration : Nat) :
    FailureRun retryTimes (newDo .failure retryTimes maxDuration) where
  retryTimes_eq := rfl
  callDone := rfl
  calls := ⟨0, Nat.zero_le _, rfl⟩
  judged := by simp [newDo, JudgedSound]

theorem sound_of_run {retryTimes maxDuration : Nat} {events : List DoEvent}
    (hrun : run (step retryer) (newDo retryer retryTimes maxDuration) events = some s) :
    Sound retryTimes s := by
  cases retryer with
  | failure =>
    have hfailure : FailureRun retryTimes s :=
      run_invariant (fun _ => FailureRun retryTimes) (failureRun_newDo retryTimes maxDuration)
        (fun _ _ _ _ _ hstate hstep => hstate.step hstep) hrun
    exact hfailure.sound
  | backup =>
    have hbackup : LoopRun retryTimes s :=
      run_invariant (fun _ => LoopRun retryTimes) (loopRun_newDo retryTimes maxDuration)
        (fun _ _ _ _ _ hstate hstep => hstate.backupStep hstep) hrun
    exact hbackup.sound
  | mixed =>
    have hmixed : LoopRun retryTimes s :=
      run_invariant (fun _ => LoopRun retryTimes) (loopRun_newDo retryTimes maxDuration)
        (fun _ _ _ _ _ hstate hstep => hstate.mixedStep hstep) hrun
    exact hmixed.sound

/-- Every run of `Do`, whatever the calls, the timer and the policy do: the
number of calls is bounded, a wait comes to an end, a completed call can report,
and what is returned is an error of `Do` or the result of a call that has
completed, which is the first one accepted if there is one. -/
theorem run_do (retryer : Retryer) (retryTimes maxDuration : Nat) {events : List DoEvent}
    (hrun : run (step retryer) (newDo retryer retryTimes maxDuration) events = some s) :
    s.calls.length ≤ retryTimes + 1 ∧
    (s.waits = true → (∃ stage ∈ s.calls, stage.outstanding = true) ∨ s.timerArmed = true) ∧
    (∀ call : Nat, s.calls[call]? = some .completed → s.callDone.length < retryTimes + 1) ∧
    ∀ result, s.stage = .returned result →
      (∀ call, result = .ofCall call → s.calls[call]? = some .reported) ∧
      ∀ call, firstAccepted s.judged = some call → result = .ofCall call := by
  have hsound : Sound retryTimes s := sound_of_run hrun
  have hretry := hsound.retryTimes_eq
  refine ⟨hretry ▸ hsound.calls_le, hsound.waits, ?_, hsound.returned⟩
  intro call hcall
  exact hretry ▸ hsound.reports call hcall

/-- The first call of the mixed retryer is slow, the timer starts a second one,
whose result needs a retry, and the third is accepted before the first
returns. -/
def slowFirst : List DoEvent :=
  [.loop 0 .yes, .enter 0, .fire, .timer .yes, .wake, .loop 1 .yes, .enter 1, .complete 1,
    .report 1, .receive .yes .yes, .wake, .loop 2 .yes, .enter 2, .complete 2, .report 2,
    .receive .no .no, .complete 0]

theorem run_do_slowFirst : ∃ s, run (step .mixed) (newDo .mixed 2 0) slowFirst = some s ∧
      s.stage = .returned (.ofCall 2) ∧ s.calls = [.completed, .reported, .reported] ∧
      s.callDone.length < 3 := by
  obtain ⟨s, hrun, hstage, hcalls⟩ : ∃ s,
      run (step .mixed) (newDo .mixed 2 0) slowFirst = some s ∧
        s.stage = .returned (.ofCall 2) ∧ s.calls = [.completed, .reported, .reported] :=
    ⟨_, rfl, rfl, rfl⟩
  have hcompleted : s.calls[0]? = some .completed := by
    rw [hcalls]
    rfl
  exact ⟨s, hrun, hstage, hcalls, (run_do .mixed 2 0 hrun).2.2.1 0 hcompleted⟩

end DoState

end Kitex.Retry
