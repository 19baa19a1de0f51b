import Mathlib.Data.List.Induction

/-! # Runs of event-driven machines

A machine is a partial step function: `none` means that the event is not
enabled in the state. A run applies a sequence of events in order. Invariants
may mention the events already taken, so that facts about the history of a run
and facts about its current state are proved by the same induction.
-/

namespace Kitex.Machine

universe uState uEvent uOutput

variable {State : Type uState} {Event : Type uEvent}

/-- The state after a sequence of events, if each of them was enabled. -/
def run (step : State → Event → Option State) (start : State) (events : List Event) :
    Option State :=
  events.foldlM step start

variable {step : State → Event → Option State} {start : State}

@[simp] theorem run_nil : run step start [] = some start := rfl

theorem run_cons (event : Event) (events : List Event) :
    run step start (event :: events) = (step start event).bind (run step · events) := rfl

theorem run_append (first second : List Event) :
    run step start (first ++ second) = (run step start first).bind (run step · second) :=
  List.foldlM_append

variable {events first second : List Event} {event : Event} {final middle : State}
  {condition : State → Event → Prop} {Output : Type uOutput}

theorem run_append_singleton_eq_some : run step start (events ++ [event]) = some final ↔
      ∃ middle, run step start events = some middle ∧ step middle event = some final := by
  rw [run_append, Option.bind_eq_some_iff]
  refine exists_congr fun middle => and_congr_right fun _ => ?_
  rw [run_cons, Option.bind_eq_some_iff]
  simp

/-- What the steps of a run put out, in order. -/
def outputs {Output : Type uOutput} (step : State → Event → Option State)
    (emit : State → Event → State → List Output) : State → List Event → List Output
  | _, [] => []
  | state, event :: events =>
    match step state event with
    | none => []
    | some next => emit state event next ++ outputs step emit next events

theorem outputs_append {emit : State → Event → State → List Output}
    (hrun : run step start first = some middle) : outputs step emit start (first ++ second) =
      outputs step emit start first ++ outputs step emit middle second := by
  induction first generalizing start with
  | nil =>
    cases hrun
    rfl
  | cons event first ih =>
    rw [run_cons, Option.bind_eq_some_iff] at hrun
    obtain ⟨next, hnext, hrest⟩ := hrun
    simp only [List.cons_append, outputs, hnext, List.append_assoc]
    rw [ih hrest]

theorem outputs_append_singleton {emit : State → Event → State → List Output}
    (hrun : run step start events = some middle) (hlast : step middle event = some final) :
    outputs step emit start (events ++ [event]) =
      outputs step emit start events ++ emit middle event final := by
  rw [outputs_append hrun]
  simp [outputs, hlast]

/-- A predicate on histories and states that one step preserves holds after
every run. The step may use that its state was reached by the history. -/
theorem run_invariant (invariant : List Event → State → Prop) (hstart : invariant [] start)
    (hstep : ∀ past state event next, run step start past = some state → invariant past state →
      step state event = some next → invariant (past ++ [event]) next)
    (hrun : run step start events = some final) : invariant events final := by
  induction events using List.reverseRecOn generalizing final with
  | nil =>
    rw [run_nil, Option.some.injEq] at hrun
    exact hrun ▸ hstart
  | append_singleton events event ih =>
    obtain ⟨middle, hmiddle, hlast⟩ := run_append_singleton_eq_some.mp hrun
    exact hstep events middle event final hmiddle (ih hmiddle) hlast

/-- A machine whose states are mapped to those of another one, step by step, has its runs. -/
theorem run_map_of_step {State' : Type uState} {step' : State' → Event → Option State'}
    (abstraction : State → State') (invariant : State → Prop)
    (hstep : ∀ state event, invariant state →
      (step state event).map abstraction = step' (abstraction state) event ∧
        ∀ next, step state event = some next → invariant next)
    (hstart : invariant start) (events : List Event) :
    (run step start events).map abstraction = run step' (abstraction start) events ∧
      ∀ final, run step start events = some final → invariant final := by
  induction events generalizing start with
  | nil =>
    refine ⟨rfl, fun final hfinal => ?_⟩
    exact Option.some.inj hfinal ▸ hstart
  | cons event events ih =>
    obtain ⟨hmap, hnext⟩ := hstep start event hstart
    rw [run_cons, run_cons, ← hmap]
    cases hsome : step start event with
    | none => simp
    | some next => exact ih (hnext next hsome)

/-- Every step of the run satisfies a condition on the state it is taken in
and on the event. -/
def Meets (step : State → Event → Option State) (condition : State → Event → Prop) :
    State → List Event → Prop
  | _, [] => True
  | state, event :: events =>
    condition state event ∧ ∀ next, step state event = some next →
      Meets step condition next events

instance Meets.decidable {condition : State → Event → Prop}
    [∀ state event, Decidable (condition state event)] :
    ∀ (state : State) (events : List Event), Decidable (Meets step condition state events)
  | _, [] => isTrue trivial
  | state, event :: events =>
    match hnext : step state event with
    | none => decidable_of_iff (condition state event)
        ⟨fun hmeets => ⟨hmeets, fun _ hsome => by simp [hnext] at hsome⟩, And.left⟩
    | some next =>
      have : Decidable (Meets step condition next events) := Meets.decidable next events
      decidable_of_iff (condition state event ∧ Meets step condition next events)
        ⟨fun hmeets => ⟨hmeets.1, fun _ hsome => by
          cases hnext.symm.trans hsome
          exact hmeets.2⟩, fun hmeets => ⟨hmeets.1, hmeets.2 next hnext⟩⟩

theorem Meets.of_append (hmeets : Meets step condition start (first ++ second)) :
    Meets step condition start first ∧
      ∀ middle, run step start first = some middle → Meets step condition middle second := by
  induction first generalizing start with
  | nil =>
    refine ⟨trivial, fun middle hmiddle => ?_⟩
    rw [run_nil, Option.some.injEq] at hmiddle
    exact hmiddle ▸ hmeets
  | cons event first ih =>
    refine ⟨⟨hmeets.1, fun next hnext => (ih (hmeets.2 next hnext)).1⟩, ?_⟩
    intro middle hmiddle
    rw [run_cons, Option.bind_eq_some_iff] at hmiddle
    obtain ⟨next, hnext, hrest⟩ := hmiddle
    exact (ih (hmeets.2 next hnext)).2 middle hrest

theorem meets_append_singleton (hrun : run step start events = some middle) :
    Meets step condition start (events ++ [event]) ↔
      Meets step condition start events ∧ condition middle event := by
  constructor
  · intro hmeets
    obtain ⟨hfirst, hsecond⟩ := hmeets.of_append
    exact ⟨hfirst, (hsecond middle hrun).1⟩
  · rintro ⟨hmeets, hlast⟩
    induction events generalizing start with
    | nil =>
      cases hrun
      exact ⟨hlast, fun _ _ => trivial⟩
    | cons first events ih =>
      rw [run_cons, Option.bind_eq_some_iff] at hrun
      obtain ⟨next, hnext, hrest⟩ := hrun
      refine ⟨hmeets.1, fun other hother => ?_⟩
      cases hnext.symm.trans hother
      exact ih hrest (hmeets.2 next hnext)

theorem Meets.and {first second : State → Event → Prop} (hfirst : Meets step first start events)
    (hsecond : Meets step second start events) :
    Meets step (fun state event => first state event ∧ second state event) start events := by
  induction events generalizing start with
  | nil => trivial
  | cons event events ih =>
    exact ⟨⟨hfirst.1, hsecond.1⟩,
      fun next hnext => ih (hfirst.2 next hnext) (hsecond.2 next hnext)⟩

/-- If a condition says which events are enabled, the runs whose steps meet it
are those that come to an end. -/
theorem meets_iff_isSome_run
    (henabled : ∀ state event, condition state event ↔ (step state event).isSome = true) :
    Meets step condition start events ↔ (run step start events).isSome = true := by
  induction events generalizing start with
  | nil => simp [Meets]
  | cons event events ih =>
    rw [Meets, run_cons, henabled]
    cases hnext : step start event with
    | none => simp
    | some next =>
      rw [Option.bind_some, ← ih]
      constructor
      · exact fun hmeets => hmeets.2 next rfl
      · intro hmeets
        refine ⟨rfl, fun other hother => ?_⟩
        exact Option.some.inj hother ▸ hmeets

/-- The invariant rule for runs whose steps all meet a condition. -/
theorem run_invariant_of_meets (invariant : List Event → State → Prop)
    (condition : State → Event → Prop) (hstart : invariant [] start)
    (hstep : ∀ past state event next, run step start past = some state → invariant past state →
      condition state event → step state event = some next → invariant (past ++ [event]) next)
    (hmeets : Meets step condition start events) (hrun : run step start events = some final) :
    invariant events final := by
  refine run_invariant (fun past state => Meets step condition start past → invariant past state)
    (fun _ => hstart) ?_ hrun hmeets
  intro past state event next hpast hinvariant hnext hmeets
  obtain ⟨hfirst, hsecond⟩ := hmeets.of_append
  exact hstep past state event next hpast (hinvariant hfirst) (hsecond state hpast).1 hnext

/-- If the steps that meet a condition are enabled and keep an invariant, so do the runs. -/
theorem exists_run_of_meets (invariant : State → Prop) (hstart : invariant start)
    (hstep : ∀ state event, invariant state → condition state event →
      ∃ next, step state event = some next ∧ invariant next)
    (hmeets : Meets step condition start events) :
    ∃ final, run step start events = some final ∧ invariant final := by
  induction events generalizing start with
  | nil => exact ⟨start, rfl, hstart⟩
  | cons event events ih =>
    obtain ⟨next, hnext, hinvariant⟩ := hstep start event hstart hmeets.1
    obtain ⟨final, hfinal, hend⟩ := ih hinvariant (hmeets.2 next hnext)
    exact ⟨final, by rw [run_cons, hnext]; exact hfinal, hend⟩

end Kitex.Machine
