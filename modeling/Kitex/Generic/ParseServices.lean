import Kitex.Machine.Run

/-! # The services of a parsed IDL

`Parse` adds the functions of the chosen services and of all they extend. For each
chosen service a goroutine walks up the services that it extends and hands those
over, on an unbuffered channel, that have not been handed over before. `Parse`
returns at the first function with an error, and then nobody receives any more.
-/

namespace Kitex.Generic

open Kitex.Machine

/-! ## Functions and services -/

/-- A function, with the error of its streaming annotation, its types or its routes. -/
structure ParsedFunction where
  name : String
  arguments : Nat
  problem : Option String := none

/-- A service, with the one that its `Extends` and `Reference` lead to. -/
structure ParsedService where
  name : String
  functions : List ParsedFunction := []
  base : Option Nat := none

/-- Services are numbered over all included files; a file has some of them. -/
structure ParsedIdl where
  service : Nat → ParsedService
  services : List Nat

inductive ParseMode where
  | lastServiceOnly
  | firstServiceOnly
  | combineServices
  deriving DecidableEq

/-- The services that `Parse` ranges over. A service name takes precedence over the mode. -/
def ParsedIdl.targets (idl : ParsedIdl) (mode : ParseMode) (serviceName : String) :
    Except String (List Nat) :=
  if idl.services = [] then .error "empty serverce from idls"
  else if serviceName ≠ "" then
    match idl.services.find? fun svc => (idl.service svc).name = serviceName with
    | some svc => .ok [svc]
    | none =>
      .error s!"the idl service name {serviceName} is not in the idl. Please check your idl"
  else match mode with
    | .lastServiceOnly => .ok idl.services.getLast?.toList
    | .firstServiceOnly => .ok idl.services.head?.toList
    | .combineServices => .ok idl.services

/-- `addFunction`, with the names of the functions that are there. -/
def addFunction (functions : List String) (fn : ParsedFunction) : Except String (List String) :=
  if fn.name ∈ functions then .error s!"duplicate method name: {fn.name}"
  else if fn.arguments = 0 then .error s!"empty arguments in function: {fn.name}"
  else match fn.problem with
    | some err => .error err
    | none => .ok (fn.name :: functions)

/-! ## The two parties -/

/-- Where the goroutine of `getAllSvcs` is. -/
inductive Enumerator where
  | addSvc (svc : Nat)
  | sending (svc : Nat)
  | sent (svc : Nat)
  | extends (svc : Nat)
  | closed
  deriving DecidableEq

/-- Where `Parse` is. -/
inductive Parser where
  | receiving
  | adding (svc : Nat) (fns : List ParsedFunction)
  | failed (svc : Nat) (err : String)
  | parsed

structure Parsing where
  visitedSvcs : List Nat := []
  functions : List String := []
  /-- the services whose loop has not begun -/
  svcs : List Nat
  enumerator : Enumerator := .closed
  parser : Parser := .receiving

inductive ParseEvent where
  | enumerate
  | receive
  | add
  | rangeEnd

namespace Parsing

/-- A step of the goroutine by itself, which waits while it sends. -/
def enumerate (idl : ParsedIdl) (s : Parsing) : Option Parsing :=
  match s.enumerator with
  | .addSvc svc =>
    some { s with enumerator := if svc ∈ s.visitedSvcs then .extends svc else .sending svc }
  | .sent svc =>
    some { s with visitedSvcs := svc :: s.visitedSvcs, enumerator := .extends svc }
  | .extends svc =>
    some { s with enumerator := (idl.service svc).base.elim .closed .addSvc }
  | .sending _ | .closed => none

/-- A step of the goroutine, a service that is handed over, a function that is added, or
the end of a loop, after which the next service gets its goroutine. -/
def step (idl : ParsedIdl) (s : Parsing) : ParseEvent → Option Parsing
  | .enumerate => s.enumerate idl
  | .receive =>
    match s.enumerator, s.parser with
    | .sending svc, .receiving =>
      some { s with enumerator := .sent svc, parser := .adding svc (idl.service svc).functions }
    | _, _ => none
  | .add =>
    match s.parser with
    | .adding _ [] => some { s with parser := .receiving }
    | .adding svc (fn :: fns) =>
      match addFunction s.functions fn with
      | .error err => some { s with parser := .failed svc err }
      | .ok functions => some { s with functions, parser := .adding svc fns }
    | _ => none
  | .rangeEnd =>
    match s.enumerator, s.parser, s.svcs with
    | .closed, .receiving, [] => some { s with parser := .parsed }
    | .closed, .receiving, svc :: svcs => some { s with enumerator := .addSvc svc, svcs }
    | _, _, _ => none

/-- `Parse` at its loop, if it comes to it. -/
def start (idl : ParsedIdl) (mode : ParseMode) (serviceName : String) : Except String Parsing :=
  (idl.targets mode serviceName).map fun svcs => { svcs }

/-- The goroutine can come to its end. -/
def CanFinish (idl : ParsedIdl) (s : Parsing) : Prop :=
  ∃ events final, run (step idl) s events = some final ∧ final.enumerator = .closed

end Parsing

/-! ## When the goroutine ends without a receiver -/

/-- All that a service extends has been handed over. -/
inductive Covered (idl : ParsedIdl) (visited : List Nat) : Nat → Prop where
  | last {svc : Nat} (hbase : (idl.service svc).base = none) : Covered idl visited svc
  | base {svc base : Nat} (hbase : (idl.service svc).base = some base) (hmem : base ∈ visited)
      (hcovered : Covered idl visited base) : Covered idl visited svc

variable {svc : Nat}

theorem Covered.of_subset {idl : ParsedIdl} {visited more : List Nat}
    (hcovered : Covered idl visited svc) (hsub : visited ⊆ more) : Covered idl more svc := by
  induction hcovered with
  | last hbase => exact .last hbase
  | base hbase hmem _ ih => exact .base hbase (hsub hmem) ih

namespace Parsing

variable {idl : ParsedIdl} {s next : Parsing} {event : ParseEvent} {err : String}

/-- The goroutine meets only services that were handed over. -/
def Drains (idl : ParsedIdl) (s : Parsing) : Prop :=
  match s.enumerator with
  | .addSvc svc => svc ∈ s.visitedSvcs ∧ Covered idl s.visitedSvcs svc
  | .sending _ => False
  | .sent svc => Covered idl (svc :: s.visitedSvcs) svc
  | .extends svc => Covered idl s.visitedSvcs svc
  | .closed => True

theorem drains_enumerate (hnext : s.enumerate idl = some next) :
    next.Drains idl ↔ s.Drains idl := by
  unfold enumerate at hnext
  unfold Drains
  split at hnext
  next svc hpc =>
    cases hnext
    by_cases hmem : svc ∈ s.visitedSvcs <;> simp [hpc, hmem]
  next svc hpc =>
    cases hnext
    simp [hpc]
  next svc hpc =>
    cases hnext
    cases hbase : (idl.service svc).base with
    | none => simpa [hpc] using Covered.last hbase
    | some base =>
      simp only [hpc, Option.elim_some]
      constructor
      · exact fun ⟨hmem, hcovered⟩ => .base hbase hmem hcovered
      · intro hcovered
        cases hcovered with
        | last hnone => rw [hbase] at hnone; cases hnone
        | base hsome hmem hcovered =>
          cases hbase.symm.trans hsome
          exact ⟨hmem, hcovered⟩
  next => nomatch hnext
  next => nomatch hnext

/-- After an error only the goroutine moves. -/
theorem step_failed (hparser : s.parser = .failed svc err) (hstep : s.step idl event = some next) :
    s.enumerate idl = some next := by
  cases event with
  | enumerate => exact hstep
  | receive | add | rangeEnd => simp [step, hparser] at hstep

theorem parser_enumerate (hnext : s.enumerate idl = some next) : next.parser = s.parser := by
  unfold enumerate at hnext
  split at hnext <;> cases hnext <;> rfl

theorem CanFinish.enumerate (hnext : s.enumerate idl = some next) (hfinish : next.CanFinish idl) :
    s.CanFinish idl := by
  obtain ⟨events, final, hrun, hclosed⟩ := hfinish
  refine ⟨.enumerate :: events, final, ?_, hclosed⟩
  rw [run_cons, step, hnext]
  exact hrun

open Parsing

theorem canFinish_of_covered {visited : List Nat} (hcovered : Covered idl visited svc)
    (hvisited : s.visitedSvcs = visited) (hpc : s.enumerator = .extends svc) : s.CanFinish idl := by
  induction hcovered generalizing s with
  | last hbase =>
    refine .enumerate (by rw [enumerate, hpc]) ⟨[], _, rfl, ?_⟩
    simp [hbase]
  | base hbase hmem _ ih =>
    refine .enumerate (by rw [enumerate, hpc]) (.enumerate (by
      simp only [hbase, Option.elim_some, enumerate, hvisited, if_pos hmem]; rfl) ?_)
    exact ih rfl rfl

/-- Without a receiver the goroutine ends exactly if it meets no new service. -/
theorem canFinish_iff_drains (hparser : s.parser = .failed svc err) :
    s.CanFinish idl ↔ s.Drains idl := by
  constructor
  · rintro ⟨events, final, hrun, hclosed⟩
    induction events generalizing s with
    | nil =>
      cases hrun
      simp [Drains, hclosed]
    | cons event events ih =>
      obtain ⟨next, hstep, hrest⟩ := Option.bind_eq_some_iff.mp hrun
      have hnext := step_failed hparser hstep
      exact (drains_enumerate hnext).mp (ih ((parser_enumerate hnext).trans hparser) hrest)
  · intro hdrains
    unfold Drains at hdrains
    split at hdrains
    next svc hpc =>
      refine .enumerate (by rw [enumerate, hpc]) ?_
      exact canFinish_of_covered hdrains.2 rfl (if_pos hdrains.1)
    next => exact hdrains.elim
    next svc hpc =>
      refine .enumerate (by rw [enumerate, hpc]) ?_
      exact canFinish_of_covered hdrains rfl rfl
    next svc hpc => exact canFinish_of_covered hdrains rfl hpc
    next hpc => exact ⟨[], s, rfl, hpc⟩

/-! ## Runs -/

/-- The goroutine is on its way up from a service that was handed over last. -/
def Follows (idl : ParsedIdl) (s : Parsing) (svc : Nat) : Prop :=
  (∀ other, s.enumerator = .sent other → other = svc) ∧
    (s.Drains idl ↔ Covered idl (svc :: s.visitedSvcs) svc)

theorem Follows.enumerate (hfollows : s.Follows idl svc) (hnext : s.enumerate idl = some next) :
    next.Follows idl svc := by
  unfold Follows
  rw [drains_enumerate hnext, hfollows.2]
  unfold Parsing.enumerate at hnext
  split at hnext
  next other hpc =>
    cases hnext
    by_cases hmem : other ∈ s.visitedSvcs <;> simp [hmem]
  next other hpc =>
    -- only the service itself becomes visited
    cases hnext
    cases hfollows.1 other hpc
    exact ⟨by simp, fun h => h.of_subset (by simp), fun h => h.of_subset (by simp)⟩
  next other hpc =>
    cases hnext
    cases (idl.service other).base <;> simp
  next => nomatch hnext
  next => nomatch hnext

def Watched (idl : ParsedIdl) (s : Parsing) : Prop :=
  match s.parser with
  | .adding svc _ | .failed svc _ => s.Follows idl svc
  | .parsed => s.enumerator = .closed
  | .receiving => True

theorem Watched.step (hwatched : s.Watched idl) (hstep : s.step idl event = some next) :
    next.Watched idl := by
  cases event with
  | enumerate =>
    unfold Watched at hwatched ⊢
    rw [parser_enumerate hstep]
    cases hparser : s.parser with
    | receiving => trivial
    | adding svc fns | failed svc err =>
      rw [hparser] at hwatched
      exact hwatched.enumerate hstep
    | parsed =>
      rw [hparser] at hwatched
      simp [step, enumerate, show s.enumerator = .closed from hwatched] at hstep
  | receive =>
    simp only [step] at hstep
    split at hstep
    next svc _ _ =>
      cases hstep
      exact ⟨fun other hother => (Enumerator.sent.inj hother).symm, Iff.rfl⟩
    next => nomatch hstep
  | add =>
    unfold Watched at hwatched
    simp only [step] at hstep
    split at hstep
    next =>
      cases hstep
      trivial
    next svc fn fns hparser =>
      rw [hparser] at hwatched
      split at hstep <;> cases hstep <;> exact hwatched
    next => nomatch hstep
  | rangeEnd =>
    simp only [step] at hstep
    split at hstep
    next hpc hparser hsvcs =>
      cases hstep
      exact hpc
    next hpc hparser hsvcs =>
      cases hstep
      unfold Watched
      simp [hparser]
    next => nomatch hstep

/-- When `Parse` has returned, in any interleaving: without an error the goroutine is at
its end, and after an error in a function of a service it can come to its end exactly
if all that the service extends was handed over before. -/
theorem run_returned (idl : ParsedIdl) (mode : ParseMode) (serviceName : String) {first s : Parsing}
    (hstart : start idl mode serviceName = .ok first) {events : List ParseEvent}
    (hrun : run (step idl) first events = some s) : (s.parser = .parsed → s.enumerator = .closed) ∧
      ∀ svc err, s.parser = .failed svc err →
        (s.CanFinish idl ↔ Covered idl (svc :: s.visitedSvcs) svc) := by
  have hfirst : first.Watched idl := by
    unfold start at hstart
    cases htargets : idl.targets mode serviceName <;> rw [htargets] at hstart <;> cases hstart
    trivial
  have hwatched := run_invariant (fun _ s => s.Watched idl) hfirst
    (fun _ _ _ _ _ hstate hstep => hstate.step hstep) hrun
  unfold Watched at hwatched
  refine ⟨fun hparser => ?_, fun svc err hparser => ?_⟩
  · rw [hparser] at hwatched
    exact hwatched
  · rw [hparser] at hwatched
    rw [canFinish_iff_drains hparser]
    exact hwatched.2

/-- Two services, the first of which extends the second and has a function without
arguments. -/
def emptyArguments : ParsedIdl where
  service svc :=
    if svc = 0 then { name := "a", functions := [{ name := "f", arguments := 0 }], base := some 1 }
    else { name := "b" }
  services := [0, 1]

/-- The second service is handed over, then the first one. -/
def baseFirst : List ParseEvent :=
  [.rangeEnd, .enumerate, .receive, .add, .enumerate, .enumerate, .rangeEnd, .enumerate, .receive,
    .add]

/-- If the second service comes first in the file, it has been handed over when the function of
the other is refused, and the goroutine ends. -/
theorem run_returned_base_first : ∃ s : Parsing,
    let idl := { emptyArguments with services := [1, 0] }
    start idl .combineServices "" = .ok { svcs := [1, 0] } ∧
      run (step idl) { svcs := [1, 0] } baseFirst = some s ∧
      s.parser = .failed 0 "empty arguments in function: f" ∧ s.enumerator = .sent 0 ∧
      s.CanFinish idl := by
  refine ⟨_, rfl, rfl, rfl, rfl, ?_⟩
  have hreturned := @run_returned { emptyArguments with services := [1, 0] } .combineServices "" _ _
    rfl baseFirst rfl
  exact (hreturned.2 0 _ rfl).mpr (.base rfl (by decide) (.last rfl))

/-- The function of the first service is refused, and its goroutine waits for ever to
hand over the second one. -/
theorem failed_function_blocks : ∃ s : Parsing,
    run (step emptyArguments) { svcs := [0] } [.rangeEnd, .enumerate, .receive, .add, .enumerate,
      .enumerate, .enumerate] = some s ∧
    s.parser = .failed 0 "empty arguments in function: f" ∧ s.enumerator = .sending 1 ∧
    ¬ s.CanFinish emptyArguments := by
  refine ⟨_, rfl, rfl, rfl, fun hfinish => ?_⟩
  exact (canFinish_iff_drains rfl).mp hfinish

end Parsing

end Kitex.Generic
