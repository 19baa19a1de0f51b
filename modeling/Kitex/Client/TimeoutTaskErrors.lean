import Kitex.Client.TimeoutTask

/-! # Whose error a call with a timeout returns

The context of a task is cancelled by `Run` when the endpoint has finished, or by `Wait`. A wait
that is ended by a deadline returns the error of the context, which is `context.Canceled` if `Run`
was first.
-/

namespace Kitex.Client

open Kitex.Machine TimeoutContext

/-- `Wait` cancels the context because of a deadline. -/
def WaitStep.deadlines : WaitStep → Bool
  | cancel _ e => e = some .deadlineExceeded
  | _ => false

namespace TimeoutTask

variable {t t' : TimeoutTask}

/-- The error that has ended the wait. -/
def reason (t : TimeoutTask) : WaitEnd → Option CtxErr
  | .finished => none
  | .parent => t.ctx.parent
  | .deadline => some .deadlineExceeded

/-- What the error that `RunTask` returns says. -/
structure Attributed (t : TimeoutTask) : Prop where
  /-- a cancellation was asked for, or comes from the endpoint -/
  canceled : ∀ by_, t.wait = .returned by_ (some (.ctx .canceled)) →
    t.ctx.parent = some .canceled ∨ t.result = some (some (.ctx .canceled))
  /-- and this is so if the middleware reports one -/
  reported : ∀ (cfg : TimeoutSettings) (deadline : Option Int) (start timeout : Int) by_ err,
    t.wait = .returned by_ err →
      (cfg.report t.ctx err deadline start timeout).any RPCError.canceled = true →
        t.ctx.parent = some .canceled ∨ t.result = some (some (.ctx .canceled))
  /-- a deadline that has ended the wait is returned -/
  deadline : ∀ by_ err, t.wait = .returned by_ err → t.reason by_ = some .deadlineExceeded →
    err = some (.ctx .deadlineExceeded)
  /-- a call that has finished is reported with its result, or with a timeout, or as cancelled by
  the parent -/
  finished : ∀ by_ err result, t.wait = .returned by_ err → t.result = some result →
    err = result ∨ err = some (.ctx .deadlineExceeded) ∨
      (err = some (.ctx .canceled) ∧ t.ctx.parent = some .canceled)

/-- When a deadline ends the wait, the context is not cancelled yet. -/
def Timely (t : TimeoutTask) : TaskEvent → Prop
  | .wait _ => t.wait.deadlines = true → t.ctx.err = none
  | _ => True

instance (t : TimeoutTask) (event : TaskEvent) : Decidable (Timely t event) := by
  cases event <;> unfold Timely <;> infer_instance

/-- The wait was ended by a deadline, and the context was cancelled by `Run` before. -/
def Late (t : TimeoutTask) : Prop :=
  ∃ by_ err, t.wait = .returned by_ err ∧ t.reason by_ = some .deadlineExceeded ∧
    t.ctx.err = some .canceled

/-! ## What holds in every state -/

/-- What is known when `Wait` has come to a step. -/
def WaitOk (t : TimeoutTask) : WaitStep → Prop
  | .start | .select => ∀ e, t.ctx.err = some e → e = .canceled ∧ t.result.isSome = true
  | .load => t.result.isSome = true
  | .cancel by_ e =>
    (∀ e, t.ctx.err = some e → e = .canceled ∧ t.result.isSome = true) ∧
      t.reason by_ = e ∧ e.isSome = true
  | .returned .finished err => t.result = some err
  | .returned by_ err => ∃ e, t.ctx.err = some e ∧ err = some (.ctx e) ∧
      (t.reason by_).isSome = true ∧
      (t.reason by_ = some e ∨ (e = .canceled ∧ t.result.isSome = true))

structure Sound (t : TimeoutTask) : Prop where
  err : t.err = t.result.join
  run : t.run = .call ↔ t.result = none
  wait : WaitOk t t.wait

variable {w : WaitStep} {choice : WaitChoice} {by_ : WaitEnd} {err : Option CallErr}
  {event : TaskEvent} {e : CtxErr}

/-- The step of `Wait` survives the steps of `Run` and of the parent. -/
theorem WaitOk.later (hok : WaitOk t w) (hctx : ∀ e, t'.ctx.err = some e → t.ctx.err = some e ∨
      (t.ctx.err = none ∧ e = .canceled ∧ t'.result.isSome = true))
    (hkeep : ∀ e, t.ctx.err = some e → t'.ctx.err = some e)
    (hparent : ∀ e, t.ctx.parent = some e → t'.ctx.parent = some e)
    (hresult : ∀ r, t.result = some r → t'.result = some r) : WaitOk t' w := by
  have hsome : t.result.isSome = true → t'.result.isSome = true := by
    intro h
    obtain ⟨r, hr⟩ := Option.isSome_iff_exists.mp h
    rw [hresult r hr]
    rfl
  have hopen : (∀ e, t.ctx.err = some e → e = .canceled ∧ t.result.isSome = true) →
      ∀ e, t'.ctx.err = some e → e = .canceled ∧ t'.result.isSome = true := by
    intro hold e he
    rcases hctx e he with hsame | ⟨-, hnew⟩
    · exact (hold e hsame).imp id hsome
    · exact hnew
  have hreason : ∀ by_ e, t.reason by_ = some e → t'.reason by_ = some e := by
    intro by_ e he
    cases by_ with
    | finished => cases he
    | parent => exact hparent e he
    | deadline => exact he
  cases w with
  | start | select => exact hopen hok
  | load => exact hsome hok
  | cancel by_ e =>
    obtain ⟨hold, hsame, hise⟩ := hok
    obtain ⟨e, rfl⟩ := Option.isSome_iff_exists.mp hise
    exact ⟨hopen hold, hreason by_ e hsame, rfl⟩
  | returned by_ err =>
    cases by_ with
    | finished => exact hresult err hok
    | parent | deadline =>
      obtain ⟨e, he, herr, hise, hcases⟩ := hok
      obtain ⟨e', he'⟩ := Option.isSome_iff_exists.mp hise
      refine ⟨e, hkeep e he, herr, ?_, ?_⟩
      · rw [hreason _ e' he']
        rfl
      · exact hcases.imp (hreason _ e) (And.imp id hsome)

/-- The steps of `Wait` that leave the context as it is. -/
inductive Moves (t : TimeoutTask) : WaitStep → Prop where
  | select (hw : t.wait = .start) : Moves t .select
  | deadline (hw : t.wait = .start ∨ t.wait = .select) :
      Moves t (.cancel .deadline (some .deadlineExceeded))
  | parent (hw : t.wait = .select) (hdone : t.ctx.parent.isSome = true) :
      Moves t (.cancel .parent t.ctx.parent)
  | load (hw : t.wait = .select) (hdone : t.ctx.err.isSome = true) : Moves t .load
  | finished (hw : t.wait = .load) : Moves t (.returned .finished t.err)

theorem stepWait_cases (hstep : t.stepWait choice = some t') :
    (∃ w, Moves t w ∧ t' = { t with wait := w }) ∨
      ∃ by_ e, t.wait = .cancel by_ e ∧ t' = { t with
        ctx := t.ctx.cancel e, wait := .returned by_ ((t.ctx.cancel e).getErr.map .ctx) } := by
  cases hw : t.wait with
  | start =>
    simp only [stepWait, hw] at hstep
    split at hstep
    · exact .inl ⟨_, .select hw, (Option.some.inj hstep).symm⟩
    · split at hstep
      · exact .inl ⟨_, .deadline (.inl hw), (Option.some.inj hstep).symm⟩
      · cases hstep
    · cases hstep
  | select =>
    simp only [stepWait, hw] at hstep
    split at hstep
    · split at hstep
      next hdone => exact .inl ⟨_, .load hw hdone, (Option.some.inj hstep).symm⟩
      next => cases hstep
    · split at hstep
      next hdone => exact .inl ⟨_, .parent hw hdone, (Option.some.inj hstep).symm⟩
      next => cases hstep
    · split at hstep
      · exact .inl ⟨_, .deadline (.inr hw), (Option.some.inj hstep).symm⟩
      · cases hstep
    · cases hstep
  | load =>
    simp only [stepWait, hw] at hstep
    exact .inl ⟨_, .finished hw, (Option.some.inj hstep).symm⟩
  | cancel by_ e =>
    simp only [stepWait, hw] at hstep
    exact .inr ⟨by_, e, rfl, (Option.some.inj hstep).symm⟩
  | returned => simp [stepWait, hw] at hstep

theorem waitOk_of_moves (hsound : Sound t) (hmoves : Moves t w) :
    WaitOk { t with wait := w } w := by
  have hwait := hsound.wait
  cases hmoves with
  | select hw =>
    rw [hw] at hwait
    exact hwait
  | deadline hw =>
    rcases hw with hw | hw <;> rw [hw] at hwait <;> exact ⟨hwait, rfl, rfl⟩
  | parent hw hdone =>
    rw [hw] at hwait
    exact ⟨hwait, rfl, hdone⟩
  | load hw hdone =>
    rw [hw] at hwait
    obtain ⟨e, he⟩ := Option.isSome_iff_exists.mp hdone
    exact (hwait e he).2
  | finished hw =>
    rw [hw] at hwait
    obtain ⟨r, hr⟩ := Option.isSome_iff_exists.mp hwait
    show t.result = some t.err
    rw [hsound.err, hr]
    rfl

/-- The wait returns the error of the context that it has cancelled, unless `Run` did so before. -/
theorem waitOk_cancel {next : TimeoutTask} (hok : WaitOk t (.cancel by_ (some e)))
    (hparent : next.ctx.parent = t.ctx.parent) (herr : next.ctx.err = (t.ctx.cancel (some e)).err)
    (hresult : next.result = t.result) :
    WaitOk next (.returned by_ ((t.ctx.cancel (some e)).getErr.map .ctx)) := by
  obtain ⟨hold, hreason, -⟩ := hok
  have hsame : next.reason by_ = t.reason by_ := by cases by_ <;> first | rfl | exact hparent
  have hne : by_ ≠ .finished := by
    rintro rfl
    cases hreason
  have hreturned : ∃ e', next.ctx.err = some e' ∧
      (t.ctx.cancel (some e)).getErr.map CallErr.ctx = some (.ctx e') ∧
      (next.reason by_).isSome = true ∧
      (next.reason by_ = some e' ∨ (e' = .canceled ∧ next.result.isSome = true)) := by
    rw [hsame, hreason, herr, hresult]
    cases hctx : t.ctx.err with
    | none => exact ⟨e, by simp [cancel, hctx],
        by simp [cancel, getErr, hctx], rfl, .inl rfl⟩
    | some e' => exact ⟨e', by simp [cancel, hctx],
        by simp [cancel, getErr, hctx], rfl, .inr (hold e' hctx)⟩
  cases by_ with
  | finished => exact absurd rfl hne
  | parent | deadline => exact hreturned

theorem sound_step (hsound : Sound t) (hstep : t.step event = some t') : Sound t' := by
  cases event with
  | parentDone e =>
    simp only [step] at hstep
    split at hstep
    next hnone =>
      obtain ⟨⟩ := hstep
      refine ⟨hsound.err, hsound.run, hsound.wait.later (fun _ h => .inl h) (fun _ => id) ?_
        fun _ => id⟩
      intro e he
      simp [he] at hnone
    next => cases hstep
  | endpoint err =>
    simp only [step] at hstep
    split at hstep
    next hcall =>
      obtain ⟨⟩ := hstep
      refine ⟨rfl, by simp, hsound.wait.later (fun _ h => .inl h) (fun _ => id) (fun _ => id) ?_⟩
      intro r hr
      rw [hsound.run.mp hcall] at hr
      cases hr
    next => cases hstep
  | cancel =>
    simp only [step] at hstep
    split at hstep
    next hcancel =>
      obtain ⟨⟩ := hstep
      have hsome : t.result.isSome = true := by
        rw [Option.isSome_iff_ne_none]
        intro hnone
        rw [hsound.run.mpr hnone] at hcancel
        cases hcancel
      have hfinished : RunStep.recycle = .call ↔ t.result = none := by
        constructor
        · nofun
        · intro hnone
          simp [hnone] at hsome
      refine ⟨hsound.err, hfinished, hsound.wait.later ?_ ?_ ?_ fun _ => id⟩
      · intro e he
        cases hctx : t.ctx.err with
        | none =>
          simp [cancel, hctx] at he
          exact .inr ⟨rfl, he.symm, hsome⟩
        | some old =>
          simp [cancel, hctx] at he
          exact .inl (congrArg some he)
      · intro e he
        simp [cancel, he]
      · intro e he
        simp only [cancel]
        split <;> exact he
    next => cases hstep
  | wait choice =>
    rcases stepWait_cases hstep with ⟨w, hmoves, rfl⟩ | ⟨by_, e, hw, rfl⟩
    · exact ⟨hsound.err, hsound.run, waitOk_of_moves hsound hmoves⟩
    · have hwait := hsound.wait
      rw [hw] at hwait
      obtain ⟨e, rfl⟩ := Option.isSome_iff_exists.mp hwait.2.2
      refine ⟨hsound.err, hsound.run, waitOk_cancel hwait ?_ rfl rfl⟩
      simp only [cancel]
      split <;> rfl

theorem sound_newTimeoutTask (deadline : Bool) (parent : Option CtxErr) :
    Sound (newTimeoutTask deadline parent) where
  err := rfl
  run := ⟨fun _ => rfl, fun _ => rfl⟩
  wait := nofun

/-! ## When the error is the right one -/

/-- A wait that has returned something else than the result of the endpoint. -/
theorem Sound.returned (hsound : Sound t) (hw : t.wait = .returned by_ err) :
    (by_ = .finished ∧ t.result = some err) ∨ ∃ e, t.ctx.err = some e ∧ err = some (.ctx e) ∧
      (t.reason by_).isSome = true ∧
      (t.reason by_ = some e ∨ (e = .canceled ∧ t.result.isSome = true)) := by
  have hwait := hsound.wait
  rw [hw] at hwait
  cases by_ with
  | finished => exact .inl ⟨rfl, hwait⟩
  | parent | deadline => exact .inr hwait

/-- The context was cancelled because of the reason that has ended the wait. -/
theorem Sound.reason_eq (hsound : Sound t) (hlate : ¬ Late t) (hw : t.wait = .returned by_ err)
    (he : t.reason by_ = some e) : err = some (.ctx e) := by
  rcases hsound.returned hw with ⟨rfl, -⟩ | ⟨e', hctx, rfl, -, hcases⟩
  · cases he
  · rcases hcases with hsame | ⟨rfl, -⟩
    · rw [← Option.some.inj (hsame.symm.trans he)]
    · cases e with
      | canceled => rfl
      | deadlineExceeded => exact absurd ⟨by_, _, hw, he, hctx⟩ hlate

theorem canceled_of_not_late (hsound : Sound t) (hlate : ¬ Late t)
    (hw : t.wait = .returned by_ (some (.ctx .canceled))) :
    t.ctx.parent = some .canceled ∨ t.result = some (some (.ctx .canceled)) := by
  rcases hsound.returned hw with ⟨-, hresult⟩ | ⟨e, -, -, hsome, -⟩
  · exact .inr hresult
  · obtain ⟨e, he⟩ := Option.isSome_iff_exists.mp hsome
    have hcanceled := hsound.reason_eq hlate hw he
    simp only [Option.some.injEq, CallErr.ctx.injEq] at hcanceled
    subst hcanceled
    cases by_ with
    | finished | deadline => cases he
    | parent => exact .inl he

theorem attributed_iff_not_late (hsound : Sound t) : Attributed t ↔ ¬ Late t := by
  constructor
  · rintro hattributed ⟨by_, err, hw, hreason, hctx⟩
    have herr := hattributed.deadline by_ err hw hreason
    rcases hsound.returned hw with ⟨rfl, -⟩ | ⟨e, he, hsame, -⟩
    · cases hreason
    · have heq := Option.some.inj (hctx.symm.trans he)
      rw [hsame, ← heq] at herr
      cases herr
  · intro hlate
    refine ⟨fun by_ => canceled_of_not_late hsound hlate, ?_, ?_, ?_⟩
    · intro cfg deadline start timeout by_ err hw hcanceled
      obtain rfl := cfg.canceled_report hcanceled
      exact canceled_of_not_late hsound hlate hw
    · exact fun by_ err hw => hsound.reason_eq hlate hw
    · intro by_ err result hw hresult
      rcases hsound.returned hw with ⟨-, hsame⟩ | ⟨_, -, -, hsome, -⟩
      · exact .inl (Option.some.inj (hsame.symm.trans hresult))
      · obtain ⟨e, he⟩ := Option.isSome_iff_exists.mp hsome
        have herr := hsound.reason_eq hlate hw he
        cases e with
        | deadlineExceeded => exact .inr (.inl herr)
        | canceled =>
          cases by_ with
          | finished | deadline => cases he
          | parent => exact .inr (.inr ⟨herr, he⟩)

/-- A step that leaves a wait that has returned, its reason and its context as they are. -/
theorem late_congr (hwait : t'.wait = t.wait)
    (hsame : ∀ by_ err, t.wait = .returned by_ err → by_ ≠ .finished →
      t'.reason by_ = t.reason by_ ∧ t'.ctx.err = t.ctx.err) : Late t' ↔ Late t := by
  unfold Late
  rw [hwait]
  refine exists_congr fun by_ => exists_congr fun err => and_congr_right fun hw => ?_
  by_cases hfinished : by_ = .finished
  · subst hfinished
    constructor <;> rintro ⟨⟨⟩, -⟩
  · obtain ⟨hreason, herr⟩ := hsame by_ err hw hfinished
    rw [hreason, herr]

theorem late_of_moves (hmoves : Moves t w) :
    Late { t with wait := w } ↔ Late t ∨ ¬ Timely t (.wait choice) := by
  have hbefore : t.wait.deadlines = false ∧ ∀ by_ err, t.wait ≠ .returned by_ err := by
    cases hmoves with
    | select hw | parent hw | load hw | finished hw => simp [hw, WaitStep.deadlines]
    | deadline hw => rcases hw with hw | hw <;> simp [hw, WaitStep.deadlines]
  have hafter : ¬ Late { t with wait := w } := by
    rintro ⟨by_, err, hw, hreason, -⟩
    cases hmoves <;> cases hw
    cases hreason
  refine iff_of_false hafter ?_
  rintro (⟨by_, err, hw, -⟩ | htimely)
  · exact hbefore.2 by_ err hw
  · exact htimely fun hdeadline => by simp [hbefore.1] at hdeadline

theorem late_cancel {e : Option CtxErr} (hok : WaitOk t (.cancel by_ e))
    (hw : t.wait = .cancel by_ e) :
    Late { t with
        ctx := t.ctx.cancel e, wait := .returned by_ ((t.ctx.cancel e).getErr.map .ctx) } ↔
      Late t ∨ ¬ Timely t (.wait choice) := by
  obtain ⟨hold, hreason, hsome⟩ := hok
  have hparent : (t.ctx.cancel e).parent = t.ctx.parent := by
    simp only [cancel]
    split <;> rfl
  have hsame : ∀ wait, ({ t with ctx := t.ctx.cancel e, wait } : TimeoutTask).reason by_ = e := by
    intro wait
    cases by_ with
    | finished | deadline => exact hreason
    | parent => exact hparent.trans hreason
  have hbefore : ¬ Late t := by
    rintro ⟨by', err, hw', -⟩
    rw [hw] at hw'
    cases hw'
  have htimely : ¬ Timely t (.wait choice) ↔
      e = some .deadlineExceeded ∧ t.ctx.err = some .canceled := by
    simp only [Timely, hw, WaitStep.deadlines, decide_eq_true_eq, Classical.not_imp]
    refine and_congr_right fun _ => ?_
    rw [← ne_eq, ← Option.isSome_iff_ne_none, Option.isSome_iff_exists]
    exact ⟨fun ⟨e', he'⟩ => (hold e' he').1 ▸ he', fun he' => ⟨_, he'⟩⟩
  rw [or_iff_right hbefore, htimely]
  constructor
  · rintro ⟨_, _, ⟨⟩, hdeadline, herr⟩
    rw [hsame] at hdeadline
    refine ⟨hdeadline, ?_⟩
    subst hdeadline
    cases hctx : t.ctx.err with
    | none => simp [cancel, hctx] at herr
    | some e' => simpa [cancel, hctx] using herr
  · rintro ⟨hdeadline, herr⟩
    exact ⟨by_, _, rfl, (hsame _).trans hdeadline, by simp [cancel, herr]⟩

theorem late_step (hsound : Sound t) (hstep : t.step event = some t') :
    Late t' ↔ Late t ∨ ¬ Timely t event := by
  have hreturned : ∀ by_ err, t.wait = .returned by_ err → by_ ≠ .finished →
      t.ctx.err.isSome = true ∧ (t.reason by_).isSome = true := by
    intro by_ err hw hne
    rcases hsound.returned hw with ⟨heq, -⟩ | ⟨e, he, -, hsome, -⟩
    · exact absurd heq hne
    · exact ⟨he ▸ rfl, hsome⟩
  cases event with
  | parentDone e =>
    simp only [step] at hstep
    split at hstep
    next hnone =>
      obtain ⟨⟩ := hstep
      simp only [Timely, not_true_eq_false, or_false]
      refine late_congr rfl fun by_ err hw hne => ⟨?_, rfl⟩
      cases by_ with
      | finished | deadline => rfl
      | parent =>
        have hsome : t.ctx.parent.isSome = true := (hreturned _ err hw hne).2
        simp_all
    next => cases hstep
  | endpoint err =>
    simp only [step] at hstep
    split at hstep
    · obtain ⟨⟩ := hstep
      simp only [Timely, not_true_eq_false, or_false]
      refine late_congr rfl fun by_ err hw hne => ⟨?_, rfl⟩
      cases by_ <;> rfl
    · cases hstep
  | cancel =>
    simp only [step] at hstep
    split at hstep
    · obtain ⟨⟩ := hstep
      simp only [Timely, not_true_eq_false, or_false]
      refine late_congr rfl fun by_ err hw hne => ?_
      have hsame : t.ctx.cancel (some .canceled) = t.ctx := by
        have hsome := (hreturned by_ err hw hne).1
        simp only [TimeoutContext.cancel]
        rw [if_neg]
        simpa using Option.ne_none_iff_isSome.mpr hsome
      refine ⟨?_, congrArg TimeoutContext.err hsame⟩
      cases by_ with
      | finished | deadline => rfl
      | parent => exact congrArg TimeoutContext.parent hsame
    · cases hstep
  | wait choice =>
    rcases stepWait_cases hstep with ⟨w, hmoves, rfl⟩ | ⟨by_, e, hw, rfl⟩
    · exact late_of_moves hmoves
    · have hwait := hsound.wait
      rw [hw] at hwait
      exact late_cancel hwait hw

/-- In every run of the endpoint, the wait, the timer and the parent, `RunTask` returns the error
that it should, unless a deadline has ended the wait when `Run` had cancelled the context. -/
theorem attributed_iff {deadline : Bool} {parent : Option CtxErr} {events : List TaskEvent}
    (hrun : Machine.run step (newTimeoutTask deadline parent) events = some t) :
    Attributed t ↔ Meets step Timely (newTimeoutTask deadline parent) events := by
  suffices hinvariant : Sound t ∧
      (Late t ↔ ¬ Meets step Timely (newTimeoutTask deadline parent) events) by
    rw [attributed_iff_not_late hinvariant.1, hinvariant.2, not_not]
  refine run_invariant (fun past t => Sound t ∧
    (Late t ↔ ¬ Meets step Timely (newTimeoutTask deadline parent) past))
    ⟨sound_newTimeoutTask deadline parent, ?_⟩ ?_ hrun
  · refine iff_of_false ?_ (not_not.mpr trivial)
    rintro ⟨_, _, ⟨⟩, -⟩
  · rintro past t event t' hpast ⟨hsound, hlate⟩ hstep
    refine ⟨sound_step hsound hstep, ?_⟩
    rw [late_step hsound hstep, meets_append_singleton hpast, hlate]
    tauto

theorem attributed_iff_timer : ∃ t, Machine.run step (newTimeoutTask true none)
        [.wait .go, .wait .timer, .wait .go, .endpoint none, .cancel] = some t ∧
      t.wait = .returned .deadline (some (.ctx .deadlineExceeded)) ∧ Attributed t := by
  obtain ⟨t, hrun, hwait⟩ : ∃ t, Machine.run step (newTimeoutTask true none)
      [.wait .go, .wait .timer, .wait .go, .endpoint none, .cancel] = some t ∧
        t.wait = .returned .deadline (some (.ctx .deadlineExceeded)) := ⟨_, rfl, rfl⟩
  exact ⟨t, hrun, hwait, (attributed_iff hrun).mpr (by decide +kernel)⟩

/-- The endpoint has finished without an error before the wait finds that the deadline has passed:
the caller gets `context.Canceled`, and nobody has cancelled the call. -/
theorem exists_not_attributed : ∃ t, Machine.run step (newTimeoutTask true none)
        [.endpoint none, .cancel, .wait .expired, .wait .go] = some t ∧
      t.ctx.parent = none ∧ t.result = some none ∧
      t.wait = .returned .deadline (some (.ctx .canceled)) ∧ ¬ Attributed t := by
  refine ⟨_, rfl, rfl, rfl, rfl, fun hattributed => ?_⟩
  have hdeadline := hattributed.deadline .deadline _ rfl rfl
  cases hdeadline

end TimeoutTask

end Kitex.Client
