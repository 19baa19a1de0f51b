import Mathlib.Data.Rat.Floor
import Kitex.Machine.Run

/-! # Policies of the failure and mixed retryers

`UpdatePolicy` of the two retryers checks a policy, replaces the old one, and
then builds the backoff strategy. The checks return an error before anything is
changed. The backoff is built last: if that fails, the update counts as done
and the strategy of before is kept, which for a new retryer is nil.
-/

namespace Kitex.Retry

/-! ## Doubles -/

/-- A `float64`. -/
inductive Double where
  | finite (value : Rat)
  | infinite (negative : Bool)
  | nan
  deriving DecidableEq, Repr

namespace Double

/-- `x <= bound`, which is false for NaN. -/
def le (bound : Rat) : Double → Bool
  | finite value => decide (value ≤ bound)
  | infinite negative => negative
  | nan => false

/-- `x > bound`, which is false for NaN. -/
def gt (bound : Rat) : Double → Bool
  | finite value => decide (bound < value)
  | infinite negative => !negative
  | nan => false

/-- The nearest integer, and the even one of two. -/
def roundHalfEven (value : Rat) : Int :=
  let fraction := value - value.floor
  if fraction < 1 / 2 then value.floor
  else if 1 / 2 < fraction then value.floor + 1
  else if value.floor % 2 = 0 then value.floor else value.floor + 1

/-- `strconv.Atoi(fmt.Sprintf("%1.0f", x))` without its error: texts that are
no integer give 0, and integers out of range give the bound. -/
def toMS : Double → Int
  | finite value => max (-2 ^ 63) (min (2 ^ 63 - 1) (roundHalfEven value))
  | infinite _ | nan => 0

end Double

/-! ## Policies -/

/-- The kinds of retry, with the values that are none of the constants. -/
inductive RetryType where
  | failure
  | backup
  | mixed
  | other (value : Int)
  deriving DecidableEq, Repr

def RetryType.string : RetryType → String
  | failure => "Failure"
  | backup => "Backup"
  | mixed => "Mixed"
  | other _ => ""

structure StopPolicy where
  maxRetryTimes : Int
  /-- `CBPolicy.ErrorRate`. -/
  errorRate : Double
  deriving DecidableEq, Repr

inductive BackOffType where
  | none
  | fixed
  | random
  | other (name : String)
  deriving DecidableEq, Repr

/-- The configuration items that are read. -/
inductive BackOffCfgKey where
  | fixMS
  | minMS
  | maxMS
  deriving DecidableEq, Repr

/-- The items may be nil, and an item that is not there reads as zero. -/
structure BackOffPolicy where
  backOffType : BackOffType
  cfgItems : Option (BackOffCfgKey → Double)

/-- Which functions of a `ShouldResultRetry` are not nil. -/
structure ShouldResultRetry where
  errorRetryWithCtx : Bool := false
  respRetryWithCtx : Bool := false
  errorRetry : Bool := false
  respRetry : Bool := false
  notRetryForTimeout : Bool := false
  deriving DecidableEq, Repr

structure FailurePolicy where
  stopPolicy : StopPolicy
  backOffPolicy : Option BackOffPolicy := none
  shouldResultRetry : Option ShouldResultRetry := none

structure MixedPolicy where
  retryDelayMS : UInt32
  failurePolicy : FailurePolicy

structure Policy where
  enable : Bool
  type : RetryType
  failurePolicy : Option FailurePolicy := none
  mixedPolicy : Option MixedPolicy := none

/-! ## Checks -/

/-- `defaultCBErrRate`, the double next to 0.1. -/
def defaultCBErrRate : Double := .finite (3602879701896397 / 36028797018963968)

/-- The greatest error rate, the double next to 0.3. -/
def maxCBErrRate : Rat := 5404319552844595 / 18014398509481984

def checkCBErrorRate (errorRate : Double) : Bool :=
  !(errorRate.le 0 || errorRate.gt maxCBErrRate)

def checkStopPolicy (sp : StopPolicy) (maxRetryTimes : Int) : Except String StopPolicy :=
  if sp.maxRetryTimes < 0 ∨ maxRetryTimes < sp.maxRetryTimes then
    .error s!"invalid MaxRetryTimes[{sp.maxRetryTimes}]"
  else if checkCBErrorRate sp.errorRate then .ok sp
  else .ok { sp with errorRate := defaultCBErrRate }

/-- The checks of `failureRetryer.UpdatePolicy`. -/
def checkFailurePolicy (rp : Policy) : Except String FailurePolicy :=
  match rp.failurePolicy, rp.type with
  | some fp, .failure => do
      let stopPolicy ← checkStopPolicy fp.stopPolicy 5
      pure { fp with stopPolicy }
  | _, _ =>
    .error (s!"FailurePolicy is nil or retry type not match(type={rp.type.string}), " ++
      "cannot do update in failureRetryer")

/-- The checks of `mixedRetryer.UpdatePolicy`, which has a delay to check. -/
def checkMixedPolicy (rp : Policy) : Except String MixedPolicy :=
  match rp.mixedPolicy, rp.type with
  | some mp, .mixed =>
    if mp.retryDelayMS = 0 then .error "invalid retry delay duration in mixedRetryer"
    else do
      let stopPolicy ← checkStopPolicy mp.failurePolicy.stopPolicy 3
      pure { mp with failurePolicy := { mp.failurePolicy with stopPolicy } }
  | _, _ =>
    .error (s!"MixedPolicy is nil or retry type not match(type={rp.type.string}), " ++
      "cannot do update in mixedRetryer")

/-! ## Backoff -/

/-- The implementations of `BackOff`. -/
inductive BackOff where
  | none
  | fixed (fixMS : Int)
  | random (minMS maxMS : Int)
  deriving DecidableEq, Repr

def checkFixedBackOff (fixMS : Int) : Except String Unit :=
  if fixMS = 0 then .error s!"invalid FixedBackOff, fixMS={fixMS}" else .ok ()

def checkRandomBackOff (minMS maxMS : Int) : Except String Unit :=
  if maxMS ≤ minMS then .error s!"invalid RandomBackOff, minMS={minMS}, maxMS={maxMS}" else .ok ()

def initBackOff : Option BackOffPolicy → Except String BackOff
  | none => .ok .none
  | some policy =>
    match policy.backOffType, policy.cfgItems with
    | .none, _ => .ok .none
    | .fixed, none | .random, none => .error "invalid FixedBackOff, CfgItems is nil"
    | .fixed, some items => do
        let fixMS := (items .fixMS).toMS
        checkFixedBackOff fixMS
        pure (.fixed fixMS)
    | .random, some items => do
        let minMS := (items .minMS).toMS
        let maxMS := (items .maxMS).toMS
        checkRandomBackOff minMS maxMS
        pure (.random minMS maxMS)
    | .other name, _ => .error s!"invalid backoffType={name}"

/-! ## Retryers -/

/-- `convertResultRetry`. -/
def ShouldResultRetry.convert (rr : ShouldResultRetry) : ShouldResultRetry :=
  { rr with
    errorRetryWithCtx := rr.errorRetryWithCtx || rr.errorRetry
    respRetryWithCtx := rr.respRetryWithCtx || rr.respRetry }

/-- `failureRetryer` and `mixedRetryer`, with a policy of their type. The delay
of the mixed retryer is that of its policy. -/
structure PolicyRetryer (P : Type) where
  enable : Bool := false
  policy : Option P := none
  backOff : Option BackOff := none
  specifiedResultRetry : Option ShouldResultRetry := none
  errMsg : String := ""

/-- What the two retryers do in their own way: the names in messages, the checks
and the failure policy of a policy. -/
structure PolicyKind (P : Type) where
  name : String
  newName : String
  check : Policy → Except String P
  failurePolicy : P → FailurePolicy
  setFailurePolicy : P → FailurePolicy → P

def failureKind : PolicyKind FailurePolicy where
  name := "failureRetryer"
  newName := "newfailureRetryer"
  check := checkFailurePolicy
  failurePolicy := id
  setFailurePolicy _ fp := fp

def mixedKind : PolicyKind MixedPolicy where
  name := "mixedRetryer"
  newName := "newMixedRetryer"
  check := checkMixedPolicy
  failurePolicy := MixedPolicy.failurePolicy
  setFailurePolicy mp fp := { mp with failurePolicy := fp }

namespace PolicyRetryer

variable {P : Type}

/-- `setSpecifiedResultRetryIfNeeded`: the functions given to the client take
the place of those of the policy. -/
def setSpecifiedResultRetryIfNeeded (r : PolicyRetryer P) (fp : FailurePolicy) : FailurePolicy :=
  let shouldResultRetry := r.specifiedResultRetry.or fp.shouldResultRetry
  { fp with shouldResultRetry := shouldResultRetry.map ShouldResultRetry.convert }

/-- The policy that has passed the checks is taken over. -/
def setPolicy (r : PolicyRetryer P) (kind : PolicyKind P) (policy : P) : PolicyRetryer P :=
  let fp := r.setSpecifiedResultRetryIfNeeded (kind.failurePolicy policy)
  { r with enable := true, policy := some (kind.setFailurePolicy policy fp) }

/-- `UpdatePolicy`, with the error that it returns. -/
def updatePolicy (kind : PolicyKind P) (r : PolicyRetryer P) (rp : Policy) :
    PolicyRetryer P × Option String :=
  if rp.enable = false then ({ r with enable := false }, none)
  else match kind.check rp with
    | .error err => ({ r with errMsg := err }, some err)
    | .ok policy =>
      let updated := r.setPolicy kind policy
      match initBackOff (kind.failurePolicy policy).backOffPolicy with
      | .error err =>
        let errMsg := s!"{kind.name} update BackOffPolicy failed, err={err}"
        ({ updated with errMsg }, none)
      | .ok backOff => ({ updated with backOff := some backOff }, none)

/-- `newFailureRetryer` and `newMixedRetryer`. -/
def new (kind : PolicyKind P) (rr : Option ShouldResultRetry) (rp : Policy) :
    Except String (PolicyRetryer P) :=
  match updatePolicy kind { specifiedResultRetry := rr } rp with
  | (_, some err) => .error s!"{kind.newName} failed, err={err}"
  | (r, none) => .ok r

/-- A policy update of a running retryer. Its error is not looked at. -/
def step (kind : PolicyKind P) (r : PolicyRetryer P) (rp : Policy) : Option (PolicyRetryer P) :=
  some (r.updatePolicy kind rp).1

/-- `AllowRetry`, given the answers of the chain stop and of the deadline check.
`none` stands for the panic at a nil pointer. -/
def allowRetry (kind : PolicyKind P) (r : PolicyRetryer P) (chainStop ddlStop : Bool) :
    Option Bool :=
  if r.enable = false then some false
  else r.policy.map fun policy =>
    (kind.failurePolicy policy).stopPolicy.maxRetryTimes ≠ 0 && !chainStop && !ddlStop

/-- `ShouldRetry`, given the answers of the circuit breaker and of the deadline
check. -/
def shouldRetry (r : PolicyRetryer P) (circuitBreakerStop ddlStop : Bool) : Option Bool :=
  if r.enable = false then some false
  else match r.policy, r.backOff with
    | none, _ => none
    | some _, backOff =>
      if circuitBreakerStop || ddlStop then some false
      else backOff.map fun _ => true

end PolicyRetryer

end Kitex.Retry
