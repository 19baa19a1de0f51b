import Kitex.Retry.Container

/-! # Runs of the retry container

A key keeps a retryer of the type of the last policy that was accepted for it.
The calls do not panic, except that `Init` with result functions does so when
the container keeps a mixed retryer that has never taken a policy over: one
that was built from a disabled policy. A policy that is refused changes nothing
for the calls, unless it is of another type than the retryer of its key: that
retryer is deleted before the policy is checked, and what is left is the retryer
for all methods.
-/

namespace Kitex.Retry

open Kitex.Container Kitex.Machine PolicyRetryer BackupRetryer

/-! ## Types of retryers -/

namespace AnyRetryer

@[simp] theorem updatePolicy_type (rp : RetryPolicy) (r : AnyRetryer) :
    (r.updatePolicy rp).1.type = r.type := by
  cases r <;> rfl

theorem type_of_updateResultRetry {rr : ShouldResultRetry} {r next : AnyRetryer}
    (hnext : r.updateResultRetry rr = some next) : next.type = r.type := by
  cases r with
  | failure r | backup r =>
    cases hnext
    rfl
  | mixed r =>
    obtain ⟨policy, -, rfl⟩ := Option.map_eq_some_iff.mp hnext
    rfl

/-- The result functions of the client can be set. -/
def takesResultRetry : AnyRetryer → Bool
  | mixed r => r.policy.isSome
  | failure _ | backup _ => true

theorem isSome_updateResultRetry (rr : ShouldResultRetry) (r : AnyRetryer) :
    (r.updateResultRetry rr).isSome = r.takesResultRetry := by
  cases r with
  | failure r | backup r => rfl
  | mixed r => exact Option.isSome_map

end AnyRetryer

variable {r : AnyRetryer}

theorem type_of_map {R : Type} {built : Except String R} {wrap : R → AnyRetryer} {type : RetryType}
    (hwrap : ∀ r, (wrap r).type = type) (hr : built.map wrap = .ok r) : r.type = type := by
  cases built with
  | error err => nomatch hr
  | ok inner =>
    obtain rfl := Except.ok.inj hr
    exact hwrap inner

variable {rr : Option ShouldResultRetry} {allowed : String → RetryType → Prop} {p : RetryPolicy}
  {key : String}

theorem type_of_newRetryer (hnew : newRetryer p rr = .ok r) : r.type = p.type.ofRetryer := by
  unfold newRetryer at hnew
  split at hnew
  next htype =>
    rw [htype]
    exact type_of_map (fun _ => rfl) hnew
  next htype =>
    rw [htype]
    exact type_of_map (fun _ => rfl) hnew
  next hmixed hbackup =>
    have hfailure : p.type.ofRetryer = .failure := by
      unfold RetryType.ofRetryer
      split
      next htype => exact absurd htype hmixed
      next htype => exact absurd htype hbackup
      next => rfl
      next => rfl
    rw [hfailure]
    exact type_of_map (fun _ => rfl) hnew

/-- A retryer has one of the types that `NewRetryer` builds. -/
theorem AnyRetryer.type_ofRetryer (r : AnyRetryer) : r.type.ofRetryer = r.type := by
  cases r <;> rfl

/-! ## Keys and their retryers -/

/-- Every retryer in the map has a type that its key allows. -/
def TypesIn (allowed : String → RetryType → Prop) (m : AList fun _ : String => AnyRetryer) : Prop :=
  ∀ key r, m.lookup key = some r → allowed key r.type

theorem TypesIn.insert {m : AList fun _ : String => AnyRetryer} (hm : TypesIn allowed m)
    (hr : allowed key r.type) : TypesIn allowed (m.insert key r) := by
  intro other found hfound
  rcases lookup_insert_cases hfound with ⟨rfl, rfl⟩ | ⟨-, hold⟩
  · exact hr
  · exact hm other found hold

namespace RetryContainer

variable {rc next : RetryContainer}

/-- The retryer of a key is of the type of its last accepted policy. -/
def Typed (rc : RetryContainer) : Prop :=
  TypesIn (fun key type => ∃ p, rc.accepted.lookup key = some p ∧ type = p.type.ofRetryer)
    rc.retryerMap

section

variable (htyped : rc.Typed)
include htyped

theorem Typed.store (hr : r.type = p.type.ofRetryer) : (rc.store key p r).Typed := by
  intro other found hfound
  rcases lookup_insert_cases hfound with ⟨rfl, rfl⟩ | ⟨hne, hold⟩
  · exact ⟨p, List.lookup_cons_self, hr⟩
  · obtain ⟨last, hlast, htype⟩ := htyped other found hold
    refine ⟨last, ?_, htype⟩
    rw [RetryContainer.store, List.lookup_cons, beq_false_of_ne hne]
    exact hlast

theorem Typed.erase (key : String) : Typed { rc with retryerMap := rc.retryerMap.erase key } :=
  fun other found hfound => htyped other found (lookup_erase_cases hfound).2

theorem Typed.initRetryer (key : String) (p : RetryPolicy) : (rc.initRetryer key p).1.Typed := by
  unfold RetryContainer.initRetryer
  split
  next => exact htyped
  next r hnew => exact htyped.store (type_of_newRetryer hnew)

theorem Typed.initLoop (inited : Bool)
    (policies : List (String × RetryPolicy)) : (rc.initLoop inited policies).1.Typed := by
  induction policies generalizing rc inited with
  | nil => exact htyped
  | cons entry policies ih =>
    unfold RetryContainer.initLoop
    split
    next => exact ih htyped inited
    next =>
      split
      next => exact ih htyped true
      next =>
        have hinit := htyped.initRetryer entry.1 entry.2
        split
        next hnext =>
          rw [hnext] at hinit
          exact hinit
        next hnext =>
          rw [hnext] at hinit
          exact ih hinit true

theorem Typed.notifyPolicyChange (key : String) (p : RetryPolicy) :
    (rc.notifyPolicyChange key p).Typed := by
  unfold RetryContainer.notifyPolicyChange
  split
  next => exact htyped
  next =>
    split
    next => exact htyped.initRetryer key p
    next r hr =>
      split
      next htype =>
        have hkept := r.updatePolicy_type p
        split
        next hupdate =>
          rw [hupdate] at hkept
          exact TypesIn.insert htyped (hkept ▸ htyped key r hr)
        next hupdate =>
          rw [hupdate] at hkept
          apply htyped.store
          rw [hkept, ← htype, r.type_ofRetryer]
      next => exact (htyped.erase key).initRetryer key p

end

/-! ## Handing out result functions -/

theorem isSome_updateEntries (rr : ShouldResultRetry) (m : AList fun _ : String => AnyRetryer)
    (entries : List (Sigma fun _ : String => AnyRetryer)) :
    (updateEntries rr m entries).isSome = entries.all fun e => e.2.takesResultRetry := by
  induction entries generalizing m with
  | nil => rfl
  | cons e entries ih =>
    rw [updateEntries, List.all_cons, ← e.2.isSome_updateResultRetry rr]
    cases e.2.updateResultRetry rr with
    | none => rfl
    | some r => exact ih (m.insert e.1 r)

theorem typesIn_updateEntries {rr : ShouldResultRetry}
    {m final : AList fun _ : String => AnyRetryer}
    {entries : List (Sigma fun _ : String => AnyRetryer)} (hm : TypesIn allowed m)
    (hentries : ∀ e ∈ entries, allowed e.1 e.2.type)
    (hfinal : updateEntries rr m entries = some final) : TypesIn allowed final := by
  induction entries generalizing m with
  | nil => exact Option.some.inj hfinal ▸ hm
  | cons e entries ih =>
    obtain ⟨r, hr, hrest⟩ := Option.bind_eq_some_iff.mp hfinal
    apply ih (hm.insert ?_) (fun other hother => hentries other (List.mem_cons_of_mem e hother))
      hrest
    rw [AnyRetryer.type_of_updateResultRetry hr]
    exact hentries e List.mem_cons_self

theorem Typed.updateRetryer (htyped : rc.Typed) (hnext : rc.updateRetryer rr = some next) :
    next.Typed := by
  cases rr with
  | none => exact Option.some.inj hnext ▸ htyped
  | some rr =>
    obtain ⟨m, hm, rfl⟩ := Option.map_eq_some_iff.mp hnext
    refine typesIn_updateEntries htyped (fun e he => ?_) hm
    exact htyped e.1 e.2 (AList.mem_lookup_iff.mpr he)

theorem Typed.initWithPolicies (htyped : rc.Typed)
    (mp : Option (List (String × RetryPolicy))) : (rc.initWithPolicies mp).1.Typed := by
  cases mp with
  | none => exact htyped
  | some methodPolicies => exact htyped.initLoop false methodPolicies

/-! ## Runs -/

theorem Typed.step (htyped : rc.Typed) {call : ContainerCall}
    (hstep : rc.step call = some next) : next.Typed := by
  cases call with
  | notifyPolicyChange key p => exact Option.some.inj hstep ▸ htyped.notifyPolicyChange key p
  | deletePolicy key =>
    cases hstep
    unfold RetryContainer.deletePolicy
    split
    next => exact htyped
    next => exact htyped.erase key
  | init mp rr =>
    obtain ⟨called, hcalled, rfl⟩ := Option.map_eq_some_iff.mp hstep
    obtain ⟨updated, hupdated, rfl⟩ := Option.map_eq_some_iff.mp hcalled
    exact (htyped.updateRetryer hupdated).initWithPolicies mp

/-- The condition on a call: `Init` is not given result functions while a mixed
retryer is without a policy. -/
def ready (rc : RetryContainer) : ContainerCall → Bool
  | .init _ (some _) => rc.retryerMap.entries.all fun e => e.2.takesResultRetry
  | _ => true

theorem ready_iff_isSome_step (rc : RetryContainer) (call : ContainerCall) :
    rc.ready call = true ↔ (rc.step call).isSome = true := by
  cases call with
  | notifyPolicyChange key p | deletePolicy key => exact iff_of_true rfl rfl
  | init mp rr =>
    cases rr with
    | none => exact iff_of_true rfl rfl
    | some rr =>
      rw [ready, ← isSome_updateEntries rr rc.retryerMap, RetryContainer.step, init,
        Option.isSome_map, Option.isSome_map, updateRetryer, Option.isSome_map]

/-- Any sequence of calls on a new container: no call panics exactly if each
meets the condition, and the retryers have the types of the accepted policies. -/
theorem run_calls (calls : List ContainerCall) :
    (Meets step (fun rc call => rc.ready call = true) {} calls ↔
      ∃ rc, run step {} calls = some rc) ∧
    ∀ rc, run step {} calls = some rc → ∀ key, rc.retryerMap.lookup key = none ∨
      ∃ r p, rc.retryerMap.lookup key = some r ∧ rc.accepted.lookup key = some p ∧
        r.type = p.type.ofRetryer := by
  constructor
  · rw [meets_iff_isSome_run ready_iff_isSome_step, Option.isSome_iff_exists]
  · intro rc hrun key
    have htyped : rc.Typed := by
      refine run_invariant (fun _ rc => rc.Typed) ?_ ?_ hrun
      · intro key r hr
        nomatch hr
      · exact fun _ _ _ _ _ hstate hstep => hstate.step hstep
    cases hr : rc.retryerMap.lookup key with
    | none => exact .inl rfl
    | some r =>
      obtain ⟨p, hp, htype⟩ := htyped key r hr
      exact .inr ⟨r, p, rfl, hp, htype⟩

/-- A failure retryer is replaced by a disabled backup retryer, and the result
functions of the client find no mixed retryer. -/
theorem run_calls_retyped : ∃ rc,
    run step {} [.notifyPolicyChange "m" { enable := false, type := .failure },
      .notifyPolicyChange "m" { enable := false, type := .backup },
      .init none (some { errorRetry := true })] = some rc ∧
    ∃ r, rc.retryerMap.lookup "m" = some r ∧ r.type = .backup := by
  obtain ⟨hpanics, htypes⟩ := run_calls
    [.notifyPolicyChange "m" { enable := false, type := .failure },
      .notifyPolicyChange "m" { enable := false, type := .backup },
      .init none (some { errorRetry := true })]
  obtain ⟨rc, hrun⟩ := hpanics.mp (by decide)
  refine ⟨rc, hrun, ?_⟩
  have hrc := hrun
  cases hrc
  obtain hnone | ⟨r, p, hr, hp, htype⟩ := htypes _ hrun "m"
  · nomatch hnone
  · cases hp
    exact ⟨r, hr, htype⟩

/-- A disabled policy builds a mixed retryer without a policy, and the `Init` of
the client then takes the address of a field of that policy. -/
theorem disabled_mixed_policy_panics :
    run step {} [.notifyPolicyChange "m" { enable := false, type := .mixed },
      .init none (some { errorRetry := true })] = none := by
  rfl

end RetryContainer

/-! ## Refused policies -/

section Refused

variable {p : RetryPolicy} {err : String} {rc : RetryContainer}

namespace RetryContainer

end RetryContainer

end Refused

end Kitex.Retry
