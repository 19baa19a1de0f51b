import Kitex.Container.Lookup
import Kitex.Retry.Policy

/-! # The retry container

The container has a retryer for each method key. Policies arrive from the code
of the client through `Init`, and from remote configuration through
`NotifyPolicyChange` and `DeletePolicy`; these are ignored once code has set a
policy. A policy of another type replaces the retryer. `Init` also hands the
result functions of the client to the retryers that are already there.
-/

namespace Kitex.Retry

/-! ## Retryers -/

structure BackupPolicy where
  retryDelayMS : UInt32
  stopPolicy : StopPolicy
  deriving DecidableEq

/-- `Policy`, with the policy of the backup retryer. -/
structure RetryPolicy extends Policy where
  backupPolicy : Option BackupPolicy := none

/-- The delay of the backup retryer is that of its policy. -/
structure BackupRetryer where
  enable : Bool := false
  policy : Option BackupPolicy := none
  errMsg : String := ""

/-- The checks of `backupRetryer.UpdatePolicy`. -/
def checkBackupPolicy (rp : RetryPolicy) : Except String BackupPolicy :=
  match rp.backupPolicy, rp.type with
  | some bp, .backup =>
    if bp.retryDelayMS = 0 then .error "invalid retry delay duration in backupRetryer"
    else do
      let stopPolicy ← checkStopPolicy bp.stopPolicy 2
      pure { bp with stopPolicy }
  | _, _ =>
    .error (s!"BackupPolicy is nil or retry type not match(type={rp.type.string}), " ++
      "cannot do update in backupRetryer")

namespace BackupRetryer

/-- `UpdatePolicy`, with the error that it returns. -/
def updatePolicy (r : BackupRetryer) (rp : RetryPolicy) : BackupRetryer × Option String :=
  if rp.enable = false then ({ r with enable := false }, none)
  else match checkBackupPolicy rp with
    | .error err => ({ r with errMsg := err }, some err)
    | .ok policy => ({ r with enable := true, policy := some policy }, none)

/-- `newBackupRetryer`. -/
def new (rp : RetryPolicy) : Except String BackupRetryer :=
  match updatePolicy {} rp with
  | (_, some err) => .error s!"newBackupRetryer failed, err={err}"
  | (r, none) => .ok r

end BackupRetryer

/-- The implementations of `Retryer`. -/
inductive AnyRetryer where
  | failure (r : PolicyRetryer FailurePolicy)
  | mixed (r : PolicyRetryer MixedPolicy)
  | backup (r : BackupRetryer)

namespace AnyRetryer

def type : AnyRetryer → RetryType
  | failure _ => .failure
  | mixed _ => .mixed
  | backup _ => .backup

def updatePolicy (rp : RetryPolicy) : AnyRetryer → AnyRetryer × Option String
  | failure r =>
    let (r, err) := r.updatePolicy failureKind rp.toPolicy
    (failure r, err)
  | mixed r =>
    let (r, err) := r.updatePolicy mixedKind rp.toPolicy
    (mixed r, err)
  | backup r =>
    let (r, err) := r.updatePolicy rp
    (backup r, err)

end AnyRetryer

/-- `NewRetryer`. Types that are none of the constants get a failure retryer. -/
def newRetryer (p : RetryPolicy) (rr : Option ShouldResultRetry) : Except String AnyRetryer :=
  match p.type with
  | .mixed => (PolicyRetryer.new mixedKind rr p.toPolicy).map .mixed
  | .backup => (BackupRetryer.new p).map .backup
  | _ => (PolicyRetryer.new failureKind rr p.toPolicy).map .failure

/-- The type of the retryers for policies of a type. -/
def RetryType.ofRetryer : RetryType → RetryType
  | mixed => mixed
  | backup => backup
  | failure | other _ => failure

/-- `setSpecifiedResultRetryIfNeeded` with functions that the client has given,
for a retryer whose policy may be nil. -/
def PolicyRetryer.specifyResultRetry {P : Type} (r : PolicyRetryer P) (kind : PolicyKind P)
    (rr : ShouldResultRetry) : PolicyRetryer P :=
  let r := { r with specifiedResultRetry := some rr }
  { r with
    policy := r.policy.map fun policy =>
      kind.setFailurePolicy policy
        (r.setSpecifiedResultRetryIfNeeded (kind.failurePolicy policy)) }

/-- What `updateRetryer` does to one retryer. It takes the address of the failure
policy inside the policy of a mixed retryer; `none` stands for the panic there
if that policy is nil. -/
def AnyRetryer.updateResultRetry (rr : ShouldResultRetry) : AnyRetryer → Option AnyRetryer
  | failure r => some (failure (r.specifyResultRetry failureKind rr))
  | mixed r => r.policy.map fun _ => mixed (r.specifyResultRetry mixedKind rr)
  | backup r => some (backup r)

/-! ## The container -/

structure RetryContainer where
  hasCodeCfg : Bool := false
  retryerMap : AList (fun _ : String => AnyRetryer) := ∅
  shouldResultRetry : Option ShouldResultRetry := none
  /-- ghost: the policies that were accepted, with their keys, the last one first -/
  accepted : List (String × RetryPolicy) := []

namespace RetryContainer

/-- Keep a retryer that has accepted a policy. -/
def store (rc : RetryContainer) (key : String) (p : RetryPolicy) (r : AnyRetryer) :
    RetryContainer :=
  { rc with retryerMap := rc.retryerMap.insert key r, accepted := (key, p) :: rc.accepted }

/-- `initRetryer`, with the error that it returns. -/
def initRetryer (rc : RetryContainer) (method : String) (p : RetryPolicy) :
    RetryContainer × Option String :=
  match newRetryer p rc.shouldResultRetry with
  | .error err => (rc, some err)
  | .ok r => (rc.store method p r, none)

/-- The loop of `InitWithPolicies` over its map, which may be visited in any order. -/
def initLoop (rc : RetryContainer) (inited : Bool) :
    List (String × RetryPolicy) → RetryContainer × Option String
  | [] => ({ rc with hasCodeCfg := inited }, none)
  | (m, p) :: policies =>
    if p.enable = false then rc.initLoop inited policies
    else if (rc.retryerMap.lookup m).isSome then rc.initLoop true policies
    else match rc.initRetryer m p with
      | (rc, some err) => (rc, some err)
      | (rc, none) => rc.initLoop true policies

def initWithPolicies (rc : RetryContainer) :
    Option (List (String × RetryPolicy)) → RetryContainer × Option String
  | none => (rc, none)
  | some methodPolicies => rc.initLoop false methodPolicies

def deletePolicy (rc : RetryContainer) (key : String) : RetryContainer :=
  if rc.hasCodeCfg then rc else { rc with retryerMap := rc.retryerMap.erase key }

/-- A retryer of the same type is updated, and its error is not looked at. -/
def notifyPolicyChange (rc : RetryContainer) (key : String) (p : RetryPolicy) : RetryContainer :=
  if rc.hasCodeCfg then rc
  else match rc.retryerMap.lookup key with
    | none => (rc.initRetryer key p).1
    | some r =>
      if r.type = p.type then
        match r.updatePolicy p with
        | (r, some _) => { rc with retryerMap := rc.retryerMap.insert key r }
        | (r, none) => rc.store key p r
      else
        ({ rc with retryerMap := rc.retryerMap.erase key }.initRetryer key p).1

/-- The loop of `updateRetryer` over the entries of the map. -/
def updateEntries (rr : ShouldResultRetry) (m : AList fun _ : String => AnyRetryer) :
    List (Sigma fun _ : String => AnyRetryer) → Option (AList fun _ : String => AnyRetryer)
  | [] => some m
  | e :: entries => do
      let r ← e.2.updateResultRetry rr
      updateEntries rr (m.insert e.1 r) entries

/-- `updateRetryer`; `none` stands for a panic. -/
def updateRetryer (rc : RetryContainer) :
    Option ShouldResultRetry → Option RetryContainer
  | none => some { rc with shouldResultRetry := none }
  | some rr => (updateEntries rr rc.retryerMap rc.retryerMap.entries).map fun retryerMap =>
    { rc with shouldResultRetry := some rr, retryerMap }

/-- `Init`, with the error that it returns. -/
def init (rc : RetryContainer) (mp : Option (List (String × RetryPolicy)))
    (rr : Option ShouldResultRetry) : Option (RetryContainer × Option String) :=
  (rc.updateRetryer rr).map fun rc =>
    let (rc, err) := rc.initWithPolicies mp
    (rc, err.map fun err => s!"NewRetryer in Init failed, err={err}")

end RetryContainer

inductive ContainerCall where
  | notifyPolicyChange (key : String) (p : RetryPolicy)
  | deletePolicy (key : String)
  | init (mp : Option (List (String × RetryPolicy))) (rr : Option ShouldResultRetry)

namespace RetryContainer

/-- A call; `none` stands for a panic. -/
def step (rc : RetryContainer) : ContainerCall → Option RetryContainer
  | .notifyPolicyChange key p => some (rc.notifyPolicyChange key p)
  | .deletePolicy key => some (rc.deletePolicy key)
  | .init mp rr => (rc.init mp rr).map Prod.fst

end RetryContainer

end Kitex.Retry
