import Mathlib.Algebra.Ring.Int.Defs
import Mathlib.Data.List.Chain

/-! # Exponential backoff of repeated logs

`Observe` counts an event and says whether to log it. Times are nanoseconds after the zero time,
which `lastLog` has until the first log.
-/

namespace Kitex.Remote.LogBackoff

def second : Int := 1000000000

def initialInterval : Int := second

def maxInterval : Int := 60 * second

def resetAfter : Int := 5 * 60 * second

/-- `Time.Sub`, which saturates. -/
def sub (t u : Int) : Int := max (-2 ^ 63) (min (t - u) (2 ^ 63 - 1))

structure Exponential where
  lastLog : Int := 0
  interval : Int := 0
  count : UInt64 := 0
  deriving DecidableEq, Repr

namespace Exponential

/-- The state after `Observe`, and the count and the elapsed time if the event is to be logged. -/
def observe (b : Exponential) (now : Int) : Exponential × Option (UInt64 × Int) :=
  let count := b.count + 1
  if b.lastLog = 0 then (⟨now, initialInterval, 0⟩, some (count, 0))
  else
    let elapsed := sub now b.lastLog
    if elapsed < resetAfter ∧ now < b.lastLog + b.interval then ({ b with count }, none)
    else
      let interval :=
        if resetAfter ≤ elapsed then initialInterval
        else if b.interval < maxInterval / 2 then b.interval * 2
        else maxInterval
      (⟨now, interval, 0⟩, some (count, elapsed))

/-- A log, with the interval that is in force after it. -/
structure Report where
  time : Int
  count : UInt64
  interval : Int
  deriving DecidableEq, Repr

/-- Events are observed one after another. -/
def observeAll (b : Exponential) : List Int → Exponential × List Report
  | [] => (b, [])
  | now :: times =>
    let (b', log) := b.observe now
    let (last, reports) := b'.observeAll times
    (last, (log.map fun (count, _) => ⟨now, count, b'.interval⟩).toList ++ reports)

/-- The sum of the counts of some reports, a 64-bit number. -/
def reported : List Report → UInt64
  | [] => 0
  | r :: reports => r.count + reported reports

/-- What a report has to do with the one before. -/
structure Follows (r next : Report) : Prop where
  apart : r.interval ≤ next.time - r.time
  interval : next.interval =
    if resetAfter ≤ next.time - r.time then initialInterval else min (2 * r.interval) maxInterval
  reset : next.interval = initialInterval ↔ resetAfter ≤ next.time - r.time

variable {b : Exponential}

theorem observe_count (b : Exponential) (now : Int) :
    (((b.observe now).2.map Prod.fst).getD 0) + (b.observe now).1.count = b.count + 1 := by
  unfold observe
  dsimp only
  split_ifs <;> simp

theorem reported_add_count (b : Exponential) (times : List Int) :
    reported (b.observeAll times).2 + (b.observeAll times).1.count =
      b.count + UInt64.ofNat times.length := by
  induction times generalizing b with
  | nil => simp [observeAll, reported]
  | cons now times ih =>
    have hstep := b.observe_count now
    have hsucc : UInt64.ofNat (times.length + 1) = UInt64.ofNat times.length + 1 := by simp
    cases hlog : (b.observe now).2 with
    | none =>
      simp only [observeAll, hlog, Option.map_none, Option.getD_none, Option.toList_none,
        List.nil_append] at hstep ⊢
      grind
    | some log =>
      simp only [observeAll, hlog, Option.map_some, Option.getD_some, Option.toList_some,
        List.singleton_append, reported] at hstep ⊢
      grind

/-- The intervals that are ever in force are between these. -/
abbrev InForce (interval : Int) : Prop := initialInterval ≤ interval ∧ interval ≤ maxInterval

theorem inForce_initial : InForce initialInterval := by decide

/-- Until there is a report the interval stays in force, and the report follows the last one. -/
theorem observe_later (hlog : b.lastLog ≠ 0) (hinterval : InForce b.interval) (count : UInt64)
    (now : Int) :
    ((b.observe now).2 = none ∧ (b.observe now).1.lastLog = b.lastLog ∧
        (b.observe now).1.interval = b.interval) ∨
      ∃ log, (b.observe now).2 = some log ∧ (b.observe now).1.lastLog = now ∧
        InForce (b.observe now).1.interval ∧
        Follows ⟨b.lastLog, count, b.interval⟩ ⟨now, log.1, (b.observe now).1.interval⟩ := by
  obtain ⟨hlow, hhigh⟩ := hinterval
  have hsub : resetAfter ≤ sub now b.lastLog ↔ resetAfter ≤ now - b.lastLog := by
    unfold sub resetAfter second
    omega
  unfold observe
  rw [if_neg hlog]
  dsimp only
  split_ifs with hwait hreset hdouble
  · exact .inl ⟨rfl, rfl, rfl⟩
  · have hlong := hsub.mp hreset
    refine .inr ⟨_, rfl, rfl, inForce_initial, ⟨?_, (if_pos hlong).symm, iff_of_true rfl hlong⟩⟩
    simp only [maxInterval, resetAfter, second] at *
    omega
  all_goals
    have hshort := mt hsub.mpr hreset
    refine .inr ⟨_, rfl, rfl, ?_, ⟨?_, (if_neg hshort).symm ▸ ?_, iff_of_false ?_ hshort⟩⟩
    all_goals
      simp only [InForce, initialInterval, maxInterval, resetAfter, second] at *
      omega

theorem isChain_observeAll (hlog : b.lastLog ≠ 0) (hinterval : InForce b.interval)
    (count : UInt64) {times : List Int} (htimes : ∀ now ∈ times, now ≠ 0) :
    List.IsChain Follows (⟨b.lastLog, count, b.interval⟩ :: (b.observeAll times).2) := by
  induction times generalizing b count with
  | nil => exact .singleton _
  | cons now times ih =>
    rw [List.forall_mem_cons] at htimes
    obtain ⟨hnone, hlast, hforce⟩ | ⟨log, hsome, hlast, hforce, hfollows⟩ :=
      observe_later hlog hinterval count now
    · have hrest := ih (b := (b.observe now).1) (hlast ▸ hlog) (hforce ▸ hinterval) count htimes.2
      simpa [observeAll, hnone, hlast, hforce] using hrest
    · have hrest :=
        ih (b := (b.observe now).1) (by rw [hlast]; exact htimes.1) hforce log.1 htimes.2
      rw [hlast] at hrest
      simpa [observeAll, hsome] using ⟨hfollows, hrest⟩

/-- Every event is counted once, and a report follows the one before. -/
theorem observeAll_reports {times : List Int} (htimes : ∀ now ∈ times, now ≠ 0) :
    reported (observeAll {} times).2 + (observeAll {} times).1.count = UInt64.ofNat times.length ∧
      (∀ r ∈ (observeAll {} times).2.head?, r.interval = initialInterval) ∧
      List.IsChain Follows (observeAll {} times).2 := by
  refine ⟨by simpa using reported_add_count {} times, ?_⟩
  cases times with
  | nil => exact ⟨by simp [observeAll], .nil⟩
  | cons now times =>
    rw [List.forall_mem_cons] at htimes
    have hchain := isChain_observeAll (b := ⟨now, initialInterval, 0⟩) htimes.1 inForce_initial 1
      htimes.2
    exact ⟨by simp [observeAll, observe], by simpa [observeAll, observe] using hchain⟩

/-- Reports after no time, two seconds and seven minutes. -/
theorem observeAll_reports_three :
    (observeAll {} [1, 5, 2 * second, 422 * second]).2 =
        [⟨1, 1, second⟩, ⟨2 * second, 2, 2 * second⟩, ⟨422 * second, 1, second⟩] ∧
      reported (observeAll {} [1, 5, 2 * second, 422 * second]).2 +
        (observeAll {} [1, 5, 2 * second, 422 * second]).1.count = 4 ∧
      List.IsChain Follows (observeAll {} [1, 5, 2 * second, 422 * second]).2 := by
  obtain ⟨hcount, -, hchain⟩ :=
    @observeAll_reports [1, 5, 2 * second, 422 * second] (by decide)
  exact ⟨by decide, hcount, hchain⟩

/-- Every event at the zero time is reported. -/
theorem zero_time_not_apart : ¬ List.IsChain Follows (observeAll {} [0, 0]).2 := by
  intro hchain
  have hfollows : Follows ⟨0, 1, initialInterval⟩ ⟨0, 1, initialInterval⟩ :=
    (List.isChain_cons_cons.mp hchain).1
  exact absurd hfollows.apart (by decide)

end Exponential

end Kitex.Remote.LogBackoff
