import Kitex.Retry.Policy

/-! # Enabled retryers and their policies

The checks keep an invalid policy out of a retryer, so an enabled retryer has a
valid one. Its backoff strategy is there from the first update that could build
one; an update that enables a retryer without a strategy and cannot build one
leaves it without.
-/

namespace Kitex.Retry

open Kitex.Machine

/-! ## What the checks let through -/

structure StopPolicy.Valid (maxRetryTimes : Int) (sp : StopPolicy) : Prop where
  nonneg : 0 ≤ sp.maxRetryTimes
  le_max : sp.maxRetryTimes ≤ maxRetryTimes
  errorRate : checkCBErrorRate sp.errorRate = true

def FailurePolicy.Valid (fp : FailurePolicy) : Prop := fp.stopPolicy.Valid 5

def MixedPolicy.Valid (mp : MixedPolicy) : Prop :=
  mp.retryDelayMS ≠ 0 ∧ mp.failurePolicy.stopPolicy.Valid 3

theorem checkCBErrorRate_default : checkCBErrorRate defaultCBErrRate := by
  decide +kernel

theorem valid_of_checkStopPolicy {sp checked : StopPolicy} {maxRetryTimes : Int}
    (hcheck : checkStopPolicy sp maxRetryTimes = .ok checked) : checked.Valid maxRetryTimes := by
  unfold checkStopPolicy at hcheck
  split at hcheck
  next => nomatch hcheck
  next hrange =>
    rw [not_or, Int.not_lt, Int.not_lt] at hrange
    split at hcheck
    next hrate =>
      obtain rfl := Except.ok.inj hcheck
      exact { nonneg := hrange.1, le_max := hrange.2, errorRate := hrate }
    next =>
      obtain rfl := Except.ok.inj hcheck
      exact { nonneg := hrange.1, le_max := hrange.2, errorRate := checkCBErrorRate_default }

variable {rp : Policy}

theorem valid_of_checkFailurePolicy {fp : FailurePolicy} (hcheck : checkFailurePolicy rp = .ok fp) :
    fp.Valid := by
  unfold checkFailurePolicy at hcheck
  split at hcheck
  next given _ _ =>
    cases hstop : checkStopPolicy given.stopPolicy 5 with
    | error err =>
      rw [hstop] at hcheck
      nomatch hcheck
    | ok stopPolicy =>
      rw [hstop] at hcheck
      obtain rfl := Except.ok.inj hcheck
      exact valid_of_checkStopPolicy hstop
  next => nomatch hcheck

theorem valid_of_checkMixedPolicy {mp : MixedPolicy} (hcheck : checkMixedPolicy rp = .ok mp) :
    mp.Valid := by
  unfold checkMixedPolicy at hcheck
  split at hcheck
  next given _ _ =>
    split at hcheck
    next => nomatch hcheck
    next hdelay =>
      cases hstop : checkStopPolicy given.failurePolicy.stopPolicy 3 with
      | error err =>
        rw [hstop] at hcheck
        nomatch hcheck
      | ok stopPolicy =>
        rw [hstop] at hcheck
        obtain rfl := Except.ok.inj hcheck
        exact ⟨hdelay, valid_of_checkStopPolicy hstop⟩
  next => nomatch hcheck

namespace PolicyRetryer

variable {P : Type} {kind : PolicyKind P} {valid : P → Prop} {r next : PolicyRetryer P}
  {rr : Option ShouldResultRetry}

/-! ## Updates -/

/-- The retryer has all that its decisions need, and they do not come to a nil
pointer. -/
structure Usable (kind : PolicyKind P) (valid : P → Prop) (r : PolicyRetryer P) : Prop where
  policy : ∃ policy, r.policy = some policy ∧ valid policy
  backOff : r.backOff.isSome = true
  allowRetry : ∀ chainStop ddlStop, r.allowRetry kind chainStop ddlStop ≠ none
  shouldRetry : ∀ circuitBreakerStop ddlStop, r.shouldRetry circuitBreakerStop ddlStop ≠ none

theorem usable_of_some {policy : P} {backOff : BackOff} (hpolicy : r.policy = some policy)
    (hvalid : valid policy) (hbackOff : r.backOff = some backOff) : Usable kind valid r where
  policy := ⟨policy, hpolicy, hvalid⟩
  backOff := by rw [hbackOff]; rfl
  allowRetry chainStop ddlStop := by
    rw [allowRetry, hpolicy]
    split <;> nofun
  shouldRetry circuitBreakerStop ddlStop := by
    unfold shouldRetry
    rw [hpolicy, hbackOff]
    split
    next => nofun
    next =>
      simp only
      split <;> nofun

/-- The condition on an update: the retryer has a strategy, or the update can
build one if it passes the checks. -/
def buildsBackOff (kind : PolicyKind P) (r : PolicyRetryer P) (rp : Policy) : Bool :=
  r.backOff.isSome || !rp.enable ||
    match kind.check rp with
    | .error _ => true
    | .ok policy => (initBackOff (kind.failurePolicy policy).backOffPolicy).isOk

/-- What passes the checks is valid, also with the result functions of the
client in it. -/
def ChecksValid (kind : PolicyKind P) (valid : P → Prop) : Prop :=
  ∀ (r : PolicyRetryer P) rp policy, kind.check rp = .ok policy →
    valid (kind.setFailurePolicy policy
      (r.setSpecifiedResultRetryIfNeeded (kind.failurePolicy policy)))

/-- One update, whatever becomes of it, leaves an enabled retryer usable. -/
theorem usable_updatePolicy (hchecks : ChecksValid kind valid) (hbuilds : buildsBackOff kind r rp)
    (hr : r.enable = true → Usable kind valid r) (henable : (r.updatePolicy kind rp).1.enable) :
    Usable kind valid (r.updatePolicy kind rp).1 := by
  unfold buildsBackOff at hbuilds
  unfold updatePolicy at henable ⊢
  cases hrp : rp.enable with
  | false => simp [hrp] at henable
  | true =>
    rw [hrp] at hbuilds henable
    cases hcheck : kind.check rp with
    | error err =>
      -- the old policy and strategy are kept
      rw [hcheck] at henable
      exact { hr henable with }
    | ok policy =>
      have hvalid := hchecks r rp policy hcheck
      rw [hcheck] at hbuilds
      simp only
      cases hback : initBackOff (kind.failurePolicy policy).backOffPolicy with
      | error err =>
        simp only [hback, Bool.not_true, Bool.or_false, Except.isOk, Except.toBool] at hbuilds
        obtain ⟨backOff, hbackOff⟩ := Option.isSome_iff_exists.mp hbuilds
        exact usable_of_some rfl hvalid hbackOff
      | ok backOff => exact usable_of_some rfl hvalid rfl

/-- A new retryer is a retryer without a policy that has been updated once. -/
theorem updatePolicy_of_new (hnew : new kind rr rp = .ok r) :
    (updatePolicy kind { specifiedResultRetry := rr } rp).1 = r := by
  unfold new at hnew
  split at hnew
  next => nomatch hnew
  next hupdate =>
    obtain rfl := Except.ok.inj hnew
    rw [hupdate]

theorem run_usable {updates : List Policy} {final : PolicyRetryer P}
    (hchecks : ChecksValid kind valid) (hnew : new kind rr rp = .ok r)
    (hfirst : buildsBackOff kind { specifiedResultRetry := rr } rp = true)
    (hmeets : Meets (step kind) (fun r rp => buildsBackOff kind r rp = true) r updates)
    (hrun : run (step kind) r updates = some final) (henable : final.enable = true) :
    Usable kind valid final := by
  have hr : r.enable = true → Usable kind valid r := by
    rw [← updatePolicy_of_new hnew]
    exact usable_updatePolicy hchecks hfirst nofun
  refine run_invariant_of_meets (fun _ r => r.enable = true → Usable kind valid r)
    (fun r rp => buildsBackOff kind r rp = true) hr ?_ hmeets hrun henable
  intro _ state rp next _ hstate hbuilds hstep
  cases hstep
  exact usable_updatePolicy hchecks hbuilds hstate

theorem checksValid_failureKind : ChecksValid failureKind FailurePolicy.Valid := by
  intro r rp policy hcheck
  have hvalid : policy.Valid := valid_of_checkFailurePolicy hcheck
  exact hvalid

theorem checksValid_mixedKind : ChecksValid mixedKind MixedPolicy.Valid := by
  intro r rp policy hcheck
  have hvalid : policy.Valid := valid_of_checkMixedPolicy hcheck
  exact hvalid

/-- Any sequence of updates after the construction of a failure or mixed
retryer, as long as the first policy it takes over has a backoff that can be
built. -/
theorem run_updates (rr : Option ShouldResultRetry) (rp : Policy) (updates : List Policy) :
    (∀ r final : PolicyRetryer FailurePolicy, new failureKind rr rp = .ok r →
      buildsBackOff failureKind { specifiedResultRetry := rr } rp = true →
      Meets (step failureKind) (fun r rp => buildsBackOff failureKind r rp = true) r updates →
      run (step failureKind) r updates = some final → final.enable = true →
      Usable failureKind FailurePolicy.Valid final) ∧
    ∀ r final : PolicyRetryer MixedPolicy, new mixedKind rr rp = .ok r →
      buildsBackOff mixedKind { specifiedResultRetry := rr } rp = true →
      Meets (step mixedKind) (fun r rp => buildsBackOff mixedKind r rp = true) r updates →
      run (step mixedKind) r updates = some final → final.enable = true →
      Usable mixedKind MixedPolicy.Valid final := by
  constructor
  · intro r final hnew hfirst hmeets hrun henable
    exact run_usable checksValid_failureKind hnew hfirst hmeets hrun henable
  · intro r final hnew hfirst hmeets hrun henable
    exact run_usable checksValid_mixedKind hnew hfirst hmeets hrun henable

/-- A failure policy with a given backoff. -/
def failurePolicyWith (backOffPolicy : BackOffPolicy) : Policy where
  enable := true
  type := .failure
  failurePolicy := some
    { stopPolicy := { maxRetryTimes := 2, errorRate := .finite 0 },
      backOffPolicy := some backOffPolicy }

/-- Updates by a policy of another type and by one whose backoff cannot be
built. -/
theorem run_updates_rejected : ∃ r final : PolicyRetryer FailurePolicy,
    new failureKind none (failurePolicyWith ⟨.none, none⟩) = .ok r ∧
    run (step failureKind) r
      [{ enable := true, type := .mixed }, failurePolicyWith ⟨.fixed, none⟩] = some final ∧
    final.enable = true ∧ final.backOff.isSome = true := by
  obtain ⟨r, final, hnew, hrun, henable⟩ : ∃ r final : PolicyRetryer FailurePolicy,
      new failureKind none (failurePolicyWith ⟨.none, none⟩) = .ok r ∧
      run (step failureKind) r
        [{ enable := true, type := .mixed }, failurePolicyWith ⟨.fixed, none⟩] = some final ∧
      final.enable = true := ⟨_, _, rfl, rfl, rfl⟩
  have hnew' := hnew
  obtain rfl := Except.ok.inj hnew'
  have husable := (run_updates none _ _).1 _ final hnew rfl (by decide) hrun henable
  exact ⟨_, final, hnew, hrun, henable, husable.backOff⟩

/-- A fixed backoff without items passes the construction, and the first
decision about a retry comes to the nil strategy. -/
theorem invalid_backoff_leaves_nil : ∃ r : PolicyRetryer FailurePolicy,
    new failureKind none (failurePolicyWith ⟨.fixed, none⟩) = .ok r ∧
    r.enable = true ∧ r.backOff = none ∧ r.shouldRetry false false = none :=
  ⟨_, rfl, rfl, rfl, rfl⟩

end PolicyRetryer

end Kitex.Retry
