import Kitex.Container.Slots
import Kitex.Machine.Run

/-! # The shared ticker

Tasks that want to be run at an interval share one goroutine. The first task
added starts it. The deletion of the last one sends a token on a channel of
capacity one, which the goroutine takes when it is back in its `select`, and
then returns. A goroutine that has not yet taken its token may overlap with the
one that a later task has started, and takes part in the race for the token.

The goroutines are as many as the tokens and the flag `started` ask for, as
long as nothing is deleted from a ticker that is already stopped.
-/

namespace Kitex.Utils

open Kitex.Container Kitex.Machine

universe u

/-- Where a goroutine of `Tick` stands: in the `select`, running the tasks it
has found at a tick, or returned. -/
inductive TickLoop (Task : Type u) where
  | waiting
  | running (todo : List Task)
  | returned
  deriving DecidableEq, Repr

def TickLoop.alive {Task : Type u} : TickLoop Task → Bool
  | returned => false
  | _ => true

structure SharedTicker (Task : Type u) where
  started : Bool := false
  tasks : List Task := []
  /-- There is a token in `stopChan`. -/
  stopChan : Bool := false
  loops : List (TickLoop Task) := []

inductive TickerEvent (Task : Type u) where
  /-- A call of `Add`, with `none` for the nil task. -/
  | add (task : Option Task)
  | delete (task : Task)
  /-- The timer of a goroutine fires. -/
  | tick (loop : Nat)
  /-- The `Tick` of a task returns. It may have deleted its task, as that of
  `closeStreamTask` does when the transport is draining without streams. -/
  | ran (loop : Nat) (task : Task) (deletes : Bool)
  /-- All tasks of a tick have been run. -/
  | wait (loop : Nat)
  /-- A goroutine takes the token. -/
  | stop (loop : Nat)
  deriving DecidableEq, Repr

namespace SharedTicker

variable {Task : Type u} [DecidableEq Task]

def add (t : SharedTicker Task) (task : Task) : SharedTicker Task :=
  let added := { t with tasks := t.tasks.insert task }
  if t.started then added
  else { added with started := true, loops := t.loops ++ [.waiting] }

def delete (t : SharedTicker Task) (task : Task) : SharedTicker Task :=
  let tasks := t.tasks.filter (· ≠ task)
  if tasks = [] ∧ t.stopChan = false then { t with tasks, stopChan := true, started := false }
  else { t with tasks }

def setLoop (t : SharedTicker Task) (loop : Nat) (stage : TickLoop Task) : SharedTicker Task :=
  { t with loops := t.loops.modify loop fun _ => stage }

def step (t : SharedTicker Task) : TickerEvent Task → Option (SharedTicker Task)
  | .add none => some t
  | .add (some task) => some (t.add task)
  | .delete task => some (t.delete task)
  | .tick loop =>
    match t.loops[loop]? with
    | some .waiting => some (t.setLoop loop (.running t.tasks))
    | _ => none
  | .ran loop task deletes =>
    match t.loops[loop]? with
    | some (.running todo) =>
      if task ∈ todo then
        let ran := t.setLoop loop (.running (todo.erase task))
        some (if deletes then ran.delete task else ran)
      else none
    | _ => none
  | .wait loop =>
    match t.loops[loop]? with
    | some (.running []) => some (t.setLoop loop .waiting)
    | _ => none
  | .stop loop =>
    match t.loops[loop]? with
    | some .waiting =>
      if t.stopChan then some { t.setLoop loop .returned with stopChan := false } else none
    | _ => none

/-- The number of goroutines that have not returned. -/
def alive (t : SharedTicker Task) : Nat := t.loops.countP TickLoop.alive

/-- The goroutines are those that the flag and the token speak of. -/
structure Balanced (t : SharedTicker Task) : Prop where
  alive_eq : t.alive = t.started.toNat + t.stopChan.toNat
  started : t.tasks ≠ [] → t.started = true

/-- The condition on a deletion: the ticker runs, or its token has not yet been
taken. -/
def deletes (t : SharedTicker Task) : TickerEvent Task → Bool
  | .delete _ | .ran _ _ true => t.started || t.stopChan
  | _ => true

variable {t next : SharedTicker Task} {loop : Nat}

namespace Balanced

theorem add (hbalanced : Balanced t) (task : Task) : Balanced (t.add task) := by
  unfold SharedTicker.add
  split
  next hstarted => exact { hbalanced with started := fun _ => hstarted }
  next hstopped =>
    have halive := hbalanced.alive_eq
    rw [Bool.not_eq_true] at hstopped
    refine { alive_eq := ?_, started := fun _ => rfl }
    simp only [alive, List.countP_append] at halive ⊢
    rw [halive, hstopped]
    simp [TickLoop.alive]
    omega

theorem delete (hbalanced : Balanced t) (task : Task)
    (hdeletes : t.started = true ∨ t.stopChan = true) : Balanced (t.delete task) := by
  simp only [SharedTicker.delete]
  split
  next hlast =>
    obtain ⟨hempty, hfree⟩ := hlast
    -- the token takes the place of the flag
    have hstarted : t.started = true := hdeletes.resolve_right (by simp [hfree])
    have halive := hbalanced.alive_eq
    refine { alive_eq := ?_, started := fun hne => absurd hempty hne }
    simpa [hstarted, hfree, alive] using halive
  next =>
    refine { hbalanced with started := fun hne => hbalanced.started ?_ }
    rintro hnil
    exact hne (by simp [hnil])

omit [DecidableEq Task] in
/-- A goroutine goes on, and stays alive. -/
theorem setLoop {old stage : TickLoop Task} (hbalanced : Balanced t)
    (hloop : t.loops[loop]? = some old) (hold : old.alive) (halive : stage.alive) :
    Balanced (t.setLoop loop stage) := by
  refine { hbalanced with alive_eq := ?_ }
  have hcount := countP_modify hloop TickLoop.alive fun _ => stage
  simp only [hold, halive, if_true] at hcount
  have heq := hbalanced.alive_eq
  simp only [alive, SharedTicker.setLoop] at heq ⊢
  omega

omit [DecidableEq Task] in
/-- A goroutine takes the token, and returns. -/
theorem stop (hbalanced : Balanced t) (hloop : t.loops[loop]? = some .waiting)
    (htoken : t.stopChan) : Balanced { t.setLoop loop .returned with stopChan := false } := by
  refine { hbalanced with alive_eq := ?_ }
  have hcount := countP_modify hloop TickLoop.alive fun _ => .returned
  simp only [TickLoop.alive, if_true, Bool.false_eq_true, if_false] at hcount
  have heq := hbalanced.alive_eq
  simp only [alive, SharedTicker.setLoop, htoken, Bool.toNat_true, Bool.toNat_false] at heq ⊢
  omega

theorem step {event : TickerEvent Task} (hbalanced : Balanced t)
    (hdeletes : t.deletes event) (hstep : t.step event = some next) : Balanced next := by
  cases event with
  | add task =>
    cases task with
    | none => exact Option.some.inj hstep ▸ hbalanced
    | some task => exact Option.some.inj hstep ▸ hbalanced.add task
  | delete task =>
    cases hstep
    exact hbalanced.delete task (Bool.or_eq_true_iff.mp hdeletes)
  | tick loop | wait loop =>
    simp only [SharedTicker.step] at hstep
    split at hstep
    next hloop => exact Option.some.inj hstep ▸ hbalanced.setLoop hloop rfl rfl
    next => nomatch hstep
  | ran loop task deletes =>
    simp only [SharedTicker.step] at hstep
    split at hstep
    next todo hloop =>
      obtain ⟨_, heq⟩ := Option.ite_none_right_eq_some.mp hstep
      cases heq
      have hran : Balanced (t.setLoop loop (.running (todo.erase task))) :=
        hbalanced.setLoop hloop rfl rfl
      cases deletes with
      | false => exact hran
      | true => exact hran.delete task (Bool.or_eq_true_iff.mp hdeletes)
    next => nomatch hstep
  | stop loop =>
    simp only [SharedTicker.step] at hstep
    split at hstep
    next hloop =>
      obtain ⟨htoken, heq⟩ := Option.ite_none_right_eq_some.mp hstep
      exact Option.some.inj heq ▸ hbalanced.stop hloop htoken
    next => nomatch hstep

end Balanced

/-- A ticker with tasks has one goroutine more than its token will stop. The
token, if there is one, was sent when there were no tasks. -/
theorem run_alive {events : List (TickerEvent Task)}
    (hmeets : Meets step (fun t event => deletes t event = true) ({} : SharedTicker Task) events)
    (hrun : run step {} events = some t) (htasks : t.tasks ≠ []) :
    t.alive = t.stopChan.toNat + 1 := by
  have hnew : Balanced ({} : SharedTicker Task) :=
    { alive_eq := rfl, started := fun hne => absurd rfl hne }
  have hbalanced : Balanced t :=
    run_invariant_of_meets (fun _ => Balanced) (fun t event => deletes t event = true) hnew
      (fun _ _ _ _ _ hbalanced hdeletes hstep => hbalanced.step hdeletes hstep) hmeets hrun
  have halive := hbalanced.alive_eq
  rwa [hbalanced.started htasks, Bool.toNat_true, Nat.add_comm] at halive

/-- The second task is added before the first goroutine has taken its token. -/
theorem run_alive_overlap : ∃ t : SharedTicker Nat,
    run step {} [.add (some 1), .tick 0, .delete 1, .add (some 2), .ran 0 1 false] = some t ∧
      t.tasks ≠ [] ∧ t.stopChan = true ∧ t.alive = 2 := by
  obtain ⟨t, hrun, htasks, htoken⟩ : ∃ t : SharedTicker Nat,
      run step {} [.add (some 1), .tick 0, .delete 1, .add (some 2), .ran 0 1 false] = some t ∧
        t.tasks = [2] ∧ t.stopChan = true := ⟨_, rfl, rfl, rfl⟩
  have hne : t.tasks ≠ [] := by simp [htasks]
  have halive := run_alive (by decide) hrun hne
  rw [htoken] at halive
  exact ⟨t, hrun, hne, htoken, halive⟩

/-- A task deletes itself in its last tick and is deleted again when its
transport is closed. The second deletion leaves a token for the goroutine of the
next task, which then returns, and no other one is started. -/
theorem deleted_twice_stops_next_task : ∃ t : SharedTicker Nat,
    run step {} [.add (some 1), .tick 0, .ran 0 1 true, .wait 0, .stop 0, .delete 1,
      .add (some 2), .stop 1] = some t ∧
    t.tasks = [2] ∧ t.started = true ∧ t.stopChan = false ∧ t.alive = 0 :=
  ⟨_, rfl, rfl, rfl, rfl, rfl⟩

end SharedTicker

end Kitex.Utils
