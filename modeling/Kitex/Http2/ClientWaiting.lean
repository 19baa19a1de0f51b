import Kitex.Http2.ClientRuns

/-! # Callers that wait for quota

`waitingStreams` is meant to count the callers that are blocked in `NewStream`
for want of quota; it decides whether a wake-up is sent. A caller is counted
when its first attempt finds no quota, and counted out only when a later attempt
finds some. A blocked caller that leaves in any other way stays counted, and
takes along the wake-up that it may have received.
-/

namespace Kitex.Http2

open Kitex.Container Call

/-- The caller has been turned away for want of quota, and has not tried again
since. -/
def Progress.isBlocked : Progress → Bool
  | .waiting ch => ch.isSome
  | .woken _ => true
  | _ => false

/-- The caller has received a wake-up, or waits on a channel that is closed. -/
def Progress.isAwake (quotaChan : Nat) : Progress → Bool
  | .waiting (some ch) => decide (ch < quotaChan)
  | .woken _ => true
  | _ => false

/-- The caller is where it was. -/
structure Call.SameProgress (before after : Call) : Prop where
  progress : after.progress = before.progress

theorem Call.SameProgress.refl (call : Call) : SameProgress call call := ⟨rfl⟩

theorem Call.sameProgress_casStreamDone (call : Call) : SameProgress call call.casStreamDone := by
  cases hdone : call.streamDone <;> exact ⟨by simp [casStreamDone, hdone]⟩

theorem Call.sameProgress_cleanup (call : Call) : SameProgress call call.cleanup := by
  cases hdone : call.streamDone <;> exact ⟨by simp [cleanup, hdone]⟩

namespace ClientTransport

def blockedCallers (t : ClientTransport) : Nat :=
  t.calls.countP fun call => call.progress.isBlocked

/-- A wake-up is in the channel, or has reached a blocked caller that will try
again. -/
def WakeUpPending (t : ClientTransport) : Prop :=
  t.quotaToken = true ∨ ∃ call ∈ t.calls, call.progress.isAwake t.quotaChan = true

instance (t : ClientTransport) : Decidable t.WakeUpPending :=
  inferInstanceAs (Decidable (_ ∨ _))

/-- The counter is right and no wake-up is lost. Callers wait on the current
channel or on an older one. -/
structure Counted (t : ClientTransport) : Prop where
  counter : t.waitingStreams.toNat = t.blockedCallers
  wakes : 0 < t.streamQuota → 0 < t.blockedCallers → t.WakeUpPending
  current : ∀ call ∈ t.calls, ∀ ch, call.progress = .waiting (some ch) → ch ≤ t.quotaChan

/-- No blocked caller leaves `NewStream` before it is admitted, or finds quota
that it cannot use, and the counter has room for one more. -/
def undisturbed (t : ClientTransport) : ClientEvent → Bool
  | .giveUp ref _ => t.calls[ref]?.all fun call => !call.progress.isBlocked
  | .tryNewStream ref => t.calls[ref]?.all fun call =>
    decide (t.blockedCallers + 1 < 2 ^ 32) && (!call.progress.isBlocked ||
      (!t.bufErr && (t.checkForHeaderListSize call.hf).isNone &&
        decide (0 < t.streamQuota → t.state = .reachable)))
  | _ => true

section Step

variable {t next : ClientTransport} {event : ClientEvent}

section

variable (hcounted : t.Counted)
include hcounted

theorem Counted.sent (hblocked : 0 < t.blockedCallers) : 0 < t.waitingStreams := by
  rw [UInt32.lt_iff_toNat_lt, hcounted.counter]
  exact hblocked

section

variable (hcalls : List.Forall₂ Call.SameProgress t.calls next.calls)
include hcalls

/-- Steps that move no caller leave the counter alone. The quota goes down, or
a wake-up is sent. -/
theorem Counted.of_sameProgress
    (hwaiting : next.waitingStreams = t.waitingStreams) (hchan : next.quotaChan = t.quotaChan)
    (htoken : (next.streamQuota ≤ t.streamQuota ∧ next.quotaToken = t.quotaToken) ∨
      (0 < next.streamQuota → 0 < t.waitingStreams → next.quotaToken = true)) : next.Counted := by
  have hcount : next.blockedCallers = t.blockedCallers :=
    countP_eq_of_forall₂ hcalls fun _ _ hsame => by rw [hsame.progress]
  refine ⟨by rw [hwaiting, hcount, hcounted.counter], fun hquota hblocked => ?_, ?_⟩
  · rw [hcount] at hblocked
    rcases htoken with ⟨hless, hsame⟩ | hsent
    · rcases hcounted.wakes (by omega) hblocked with htoken | ⟨call, hcall, hawake⟩
      · exact Or.inl (hsame.trans htoken)
      · obtain ⟨ref, href⟩ := List.mem_iff_getElem?.mp hcall
        obtain ⟨call', hcall', ⟨hprogress⟩⟩ := forall₂_getElem?_left hcalls href
        exact Or.inr ⟨call', List.mem_of_getElem? hcall', by rw [hprogress, hchan, hawake]⟩
    · exact Or.inl (hsent hquota (hcounted.sent hblocked))
  · rw [hchan]
    exact forall_mem_of_forall₂ hcalls
      (fun _ _ hsame hold ch hprogress => hold ch (hsame.progress ▸ hprogress)) hcounted.current

/-- Steps that change neither a caller's progress nor anything it waits for. -/
theorem Counted.unmoved
    (hwaiting : next.waitingStreams = t.waitingStreams) (hchan : next.quotaChan = t.quotaChan)
    (hquota : next.streamQuota = t.streamQuota) (htoken : next.quotaToken = t.quotaToken) :
    next.Counted :=
  hcounted.of_sameProgress hcalls hwaiting hchan (.inl ⟨Int.le_of_eq hquota, htoken⟩)

end

/-! ## Steps of a caller -/

theorem counted_newStream (hf : List HeaderField) :
    { t with calls := t.calls ++ [new hf] }.Counted := by
  have hcount : (t.calls ++ [new hf]).countP (fun call => call.progress.isBlocked) =
      t.blockedCallers := by
    simp [blockedCallers, new, Progress.isBlocked]
  refine ⟨hcounted.counter.trans hcount.symm, fun hquota hblocked => ?_, ?_⟩
  · rcases hcounted.wakes hquota (hcount ▸ hblocked) with hsent | ⟨call, hcall, hawake⟩
    · exact Or.inl hsent
    · exact Or.inr ⟨call, List.mem_append_left _ hcall, hawake⟩
  · intro call hcall ch hwhere
    rcases List.mem_append.mp hcall with hold | hnew
    · exact hcounted.current call hold ch hwhere
    · obtain rfl := List.mem_singleton.mp hnew
      cases hwhere

end

variable {ref : Nat} {call : Call} {progress : Progress} {firstTry : Bool} {ch : Option Nat}

theorem blockedCallers_advance (hcall : t.calls[ref]? = some call) (id : Call → UInt32)
    (progress : Progress) (hcalls : next.calls =
      t.calls.modify ref fun call => { call with id := id call, progress := progress }) :
    next.blockedCallers + (if call.progress.isBlocked then 1 else 0) =
      t.blockedCallers + (if progress.isBlocked then 1 else 0) := by
  have hcount := countP_modify hcall (fun call => call.progress.isBlocked)
    fun call => { call with id := id call, progress := progress }
  rw [← hcalls] at hcount
  exact hcount

/-- One caller moves, and the counter with it. -/
theorem Counted.of_advance (hcounted : t.Counted) (hcall : t.calls[ref]? = some call)
    (id : Call → UInt32) (hcalls : next.calls =
      t.calls.modify ref fun call => { call with id := id call, progress := progress })
    (hchan : next.quotaChan = t.quotaChan)
    (hprogress : ∀ ch, progress = .waiting (some ch) → ch ≤ t.quotaChan)
    (hcounter : next.waitingStreams.toNat + (if call.progress.isBlocked then 1 else 0) =
      t.waitingStreams.toNat + (if progress.isBlocked then 1 else 0))
    (hwakes : 0 < next.streamQuota → 0 < next.blockedCallers → next.WakeUpPending) :
    next.Counted := by
  refine ⟨?_, hwakes, ?_⟩
  · have hcount := blockedCallers_advance hcall id progress hcalls
    have hold := hcounted.counter
    omega
  · intro found hfound ch hwaiting
    rw [hchan]
    rcases mem_modify_cases (hcalls ▸ hfound) with hold | ⟨_, _, rfl⟩
    · exact hcounted.current found hold ch hwaiting
    · exact hprogress ch hwaiting

theorem Progress.isBlocked_of_isAwake {quotaChan : Nat}
    (hawake : progress.isAwake quotaChan) : progress.isBlocked := by
  cases progress with
  | waiting ch => cases ch <;> simp_all [Progress.isAwake, Progress.isBlocked]
  | woken ch => rfl
  | start | admitted | failed e => cases hawake

/-- A caller that is not blocked may move to where it is not blocked either. -/
theorem Counted.of_unblocked (hcounted : t.Counted) (hcall : t.calls[ref]? = some call)
    (hold : call.progress.isBlocked = false) (id : Call → UInt32) (hcalls : next.calls =
      t.calls.modify ref fun call => { call with id := id call, progress := progress })
    (hnew : progress.isBlocked = false) (hwaiting : next.waitingStreams = t.waitingStreams)
    (hchan : next.quotaChan = t.quotaChan) (htoken : next.quotaToken = t.quotaToken)
    (hquota : next.streamQuota ≤ t.streamQuota) : next.Counted := by
  have hcount := blockedCallers_advance hcall id progress hcalls
  simp only [hold, hnew, Bool.false_eq_true, if_false, Nat.add_zero] at hcount
  apply hcounted.of_advance hcall id hcalls hchan
  · rintro ch rfl
    cases hnew
  · rw [hwaiting, hold, hnew]
  · intro hpos hblocked
    rcases hcounted.wakes (by omega) (hcount ▸ hblocked) with hsent | ⟨found, hfound, hawake⟩
    · exact Or.inl (htoken.trans hsent)
    · obtain ⟨other, hother⟩ := List.mem_iff_getElem?.mp hfound
      have hne : other ≠ ref := by
        rintro rfl
        cases hcall.symm.trans hother
        simp [Progress.isBlocked_of_isAwake hawake] at hold
      refine Or.inr ⟨found, ?_, by rw [hchan, hawake]⟩
      rw [hcalls]
      exact List.mem_of_getElem? ((getElem?_modify_ne hne _ _).trans hother)

/-- A caller that tries is blocked if it has tried before. -/
theorem Progress.isBlocked_of_round (hround : progress.round = some (firstTry, ch)) :
    progress.isBlocked = !firstTry ∧ (firstTry = true → ch = none) := by
  cases progress with
  | start =>
    obtain ⟨rfl, rfl⟩ : true = firstTry ∧ none = ch := by simpa [Progress.round] using hround
    exact ⟨rfl, fun _ => rfl⟩
  | woken old =>
    obtain ⟨rfl, _⟩ : false = firstTry ∧ some old = ch := by
      simpa [Progress.round] using hround
    exact ⟨rfl, nofun⟩
  | waiting old | admitted | failed e => cases hround

/-- What the condition says of a caller that tries again. -/
theorem undisturbed_tryNewStream (hundisturbed : t.undisturbed (.tryNewStream ref))
    (hcall : t.calls[ref]? = some call) :
    t.blockedCallers + 1 < 2 ^ 32 ∧ (call.progress.isBlocked = true →
      t.bufErr = false ∧ t.checkForHeaderListSize call.hf = none ∧
        (0 < t.streamQuota → t.state = .reachable)) := by
  simp only [undisturbed, hcall, Option.all_some, Bool.and_eq_true, Bool.or_eq_true,
    decide_eq_true_eq] at hundisturbed
  refine ⟨hundisturbed.1, fun hblocked => ?_⟩
  obtain ⟨⟨hbuf, hcheck⟩, hstate⟩ := hundisturbed.2.resolve_left (by simp [hblocked])
  exact ⟨by simpa using hbuf, by simpa using hcheck, hstate⟩

theorem counted_blocked (hcounted : t.Counted)
    (hundisturbed : t.undisturbed (.tryNewStream ref)) (hcall : t.calls[ref]? = some call)
    (hround : call.progress.round = some (firstTry, ch)) (hquota : t.streamQuota ≤ 0) :
    ({ t with
      waitingStreams := if firstTry then t.waitingStreams + 1 else t.waitingStreams }.modifyCall
        ref fun call => { call with progress := .waiting (some t.quotaChan) }).Counted := by
  obtain ⟨hblocked, _⟩ := Progress.isBlocked_of_round hround
  obtain ⟨hroom, _⟩ := undisturbed_tryNewStream hundisturbed hcall
  apply hcounted.of_advance hcall id (by rfl) (by rfl)
  · rintro _ ⟨⟩
    exact Nat.le_refl _
  · rw [hblocked]
    cases firstTry with
    | true =>
      change (t.waitingStreams + 1).toNat + 0 = t.waitingStreams.toNat + 1
      have hcounter := hcounted.counter
      rw [UInt32.toNat_add, UInt32.toNat_one, Nat.mod_eq_of_lt (by omega)]
    | false => rfl
  · intro hpos
    exact absurd hpos (by change ¬0 < t.streamQuota; omega)

/-- The slot of the channel after `notifyQuota`. -/
theorem token_of_notify (token : Bool) {quota : Int} {waiting : UInt32} (hquota : 0 < quota)
    (hwaiting : 0 < waiting) : (token || decide (quota > 0 ∧ waiting > 0)) = true := by
  simp [hquota, hwaiting]

theorem counted_admitted (hcounted : t.Counted) (hcall : t.calls[ref]? = some call)
    (hround : call.progress.round = some (firstTry, ch)) (hcalls : next.calls =
      t.calls.modify ref fun call => { call with id := t.nextID, progress := .admitted })
    (hwaiting : next.waitingStreams = (t.takeQuota firstTry).waitingStreams)
    (hchan : next.quotaChan = t.quotaChan)
    (hsent : 0 < next.streamQuota → 0 < next.waitingStreams → next.quotaToken = true) :
    next.Counted := by
  obtain ⟨hblocked, _⟩ := Progress.isBlocked_of_round hround
  have hcounter := hcounted.counter
  have hcount : next.blockedCallers + (if call.progress.isBlocked then 1 else 0) =
      t.blockedCallers := blockedCallers_advance hcall (fun _ => t.nextID) .admitted hcalls
  have hnew : next.waitingStreams.toNat + (if call.progress.isBlocked then 1 else 0) =
      t.waitingStreams.toNat := by
    rw [hwaiting]
    cases firstTry with
    | true => simp [hblocked, takeQuota]
    | false =>
      simp only [hblocked, Bool.not_false, if_true] at hcount
      have hone : (1 : UInt32) ≤ t.waitingStreams := by
        rw [UInt32.le_iff_toNat_le, hcounter, UInt32.toNat_one]
        omega
      simp only [hblocked, takeQuota, Bool.not_false, if_true, Bool.false_eq_true, if_false]
      rw [UInt32.toNat_sub_of_le _ _ hone, UInt32.toNat_one]
      omega
  apply hcounted.of_advance hcall _ hcalls hchan nofun
  · exact hnew
  · intro hpos hmore
    refine Or.inl (hsent hpos ?_)
    change 0 < next.waitingStreams.toNat
    omega

/-- A higher limit wakes everyone, by closing the channel that they wait on. -/
theorem counted_updateStreamQuota (hcounted : t.Counted) (maxStreams : UInt32) :
    (t.updateStreamQuota maxStreams).Counted := by
  have hcount : (t.updateStreamQuota maxStreams).blockedCallers = t.blockedCallers := rfl
  have hkept : List.Forall₂ Call.SameProgress t.calls
      (t.updateStreamQuota maxStreams).calls := List.forall₂_same.mpr fun _ _ => .refl _
  by_cases hall : (maxStreams.toNat : Int) - t.maxConcurrentStreams.toNat > 0 ∧
      t.waitingStreams > 0
  · have hchan : (t.updateStreamQuota maxStreams).quotaChan = t.quotaChan + 1 := by
      simp only [updateStreamQuota, decide_eq_true_eq]
      rw [if_pos hall]
    refine ⟨hcounted.counter, fun _ hblocked => ?_, ?_⟩
    · obtain ⟨call, hcall, hprogress⟩ := List.countP_pos_iff.mp (hcount ▸ hblocked)
      refine Or.inr ⟨call, hcall, ?_⟩
      rw [hchan]
      cases hwhere : call.progress with
      | waiting ch =>
        obtain ⟨ch, rfl⟩ : ∃ old, ch = some old := by
          simpa [hwhere, Progress.isBlocked, Option.isSome_iff_exists] using hprogress
        simpa [Progress.isAwake, Nat.lt_succ_iff] using hcounted.current call hcall ch hwhere
      | woken ch => rfl
      | start | admitted | failed e => simp [hwhere, Progress.isBlocked] at hprogress
    · intro call hcall ch hwhere
      rw [hchan]
      exact Nat.le_succ_of_le (hcounted.current call hcall ch hwhere)
  · apply hcounted.of_sameProgress hkept (by rfl)
    · simp only [updateStreamQuota, decide_eq_true_eq]
      rw [if_neg hall]
    · rcases Int.lt_or_le 0 ((maxStreams.toNat : Int) - t.maxConcurrentStreams.toNat) with
        hmore | hless
      · right
        intro _ hwaiting
        exact absurd ⟨hmore, hwaiting⟩ hall
      · left
        constructor
        · change t.streamQuota + _ ≤ t.streamQuota
          omega
        · simp only [updateStreamQuota, decide_eq_true_eq]
          rw [if_neg hall]

theorem counted_of_step (hformed : t.WellFormed) (hcounted : t.Counted)
    (hundisturbed : t.undisturbed event) (hstep : Stepped t event next) : next.Counted := by
  -- steps after which every caller is where it was, and nothing else that is read here changed
  have hkept : List.Forall₂ Call.SameProgress t.calls t.calls :=
    List.forall₂_same.mpr fun _ _ => .refl _
  cases hstep with
  | newStream hf => exact counted_newStream hcounted hf
  | @rejected ref call firstTry ch e hcall hround hcheck =>
    obtain ⟨_, hretry⟩ := undisturbed_tryNewStream hundisturbed hcall
    have hfirst : call.progress.isBlocked = false := by
      by_contra hblocked
      obtain ⟨hbuf, hsize, _⟩ := hretry (by simpa using hblocked)
      rcases hcheck with hfinished | hlarge
      · simp [hbuf] at hfinished
      · simp [hsize] at hlarge
    exact hcounted.of_unblocked hcall hfirst id rfl rfl rfl rfl rfl (Int.le_refl _)
  | blocked hcall hround hquota => exact counted_blocked hcounted hundisturbed hcall hround hquota
  | @stranded ref call firstTry ch hcall hround hquota hstate =>
    obtain ⟨_, hretry⟩ := undisturbed_tryNewStream hundisturbed hcall
    obtain ⟨hblocked, hnil⟩ := Progress.isBlocked_of_round hround
    cases firstTry with
    | true =>
      obtain rfl := hnil rfl
      apply hcounted.of_unblocked hcall hblocked (fun _ => t.nextID) (by rfl) (by rfl) (by rfl)
        (by rfl) (by rfl)
      change t.streamQuota - 1 ≤ t.streamQuota
      omega
    | false =>
      have hreachable := (hretry hblocked).2.2 hquota
      rcases hstate.imp_right hformed.closed.mp with hdraining | hclosing
      · simp [hreachable] at hdraining
      · simp [hreachable] at hclosing
  | admitted hcall hround _ _ _ _ =>
    exact counted_admitted hcounted hcall hround (by rfl) (by rfl) (by rfl)
      (token_of_notify t.quotaToken)
  | @woken ref ch call hcall hprogress _ =>
    rw [receive_eq]
    apply hcounted.of_advance hcall id (by rfl) (by rfl) (by nofun)
    · simp [hprogress, Progress.isBlocked, modifyCall]
    · intro _ _
      exact Or.inr ⟨_, List.mem_of_getElem? (getElem?_modify_self hcall _), rfl⟩
  | @gaveUp ref ch call e hcall hprogress =>
    have hnot : call.progress.isBlocked = false := by
      simpa [undisturbed, hcall] using hundisturbed
    exact hcounted.of_unblocked hcall hnot id rfl rfl rfl rfl rfl (Int.le_refl _)
  | swapped _ =>
    exact hcounted.unmoved
      (forall₂_modify Call.SameProgress.refl fun call _ => call.sameProgress_casStreamDone)
      rfl rfl rfl rfl
  | returned _ _ _ =>
    exact hcounted.of_sameProgress
      (forall₂_modify Call.SameProgress.refl fun _ _ => ⟨rfl⟩) rfl rfl
      (.inr (token_of_notify t.quotaToken))
  | dropped _ _ _ | refused _ =>
    exact hcounted.unmoved
      (forall₂_modify Call.SameProgress.refl fun _ _ => ⟨rfl⟩) rfl rfl rfl rfl
  | orphaned _ _ _ =>
    exact hcounted.unmoved
      (forall₂_modify Call.SameProgress.refl fun call _ => call.sameProgress_cleanup)
      rfl rfl rfl rfl
  | limited _ _ ss max maxStreams =>
    have hread : { t with prefaceRead := true, maxSendHeaderListSize := max }.Counted :=
      hcounted.unmoved hkept rfl rfl rfl rfl
    exact (counted_updateStreamQuota hread maxStreams).unmoved
      (List.forall₂_same.mpr fun _ _ => .refl _) rfl rfl rfl rfl
  | goneAway _ _ =>
    exact hcounted.unmoved
      (forall₂_modifyEach Call.SameProgress.refl markUnprocessed_idem fun _ _ _ _ => ⟨rfl⟩)
      rfl rfl rfl rfl
  | finished _ _ =>
    exact hcounted.unmoved
      (forall₂_modifyEach Call.SameProgress.refl cleanup_idem
        fun _ _ call _ => call.sameProgress_cleanup) rfl rfl rfl rfl
  | _ => exact hcounted.unmoved hkept rfl rfl rfl rfl

end Step

theorem newHTTP2Client_counted : newHTTP2Client.Counted :=
  ⟨rfl, fun _ hblocked => absurd hblocked (Nat.lt_irrefl 0), nofun⟩

/-! ## Runs -/

/-- A caller whose context ends while it waits. -/
def cancelledCaller : List ClientEvent :=
  [.handleSettings false [⟨Setting.maxConcurrentStreams, 0⟩],
    .newStream [], .tryNewStream 0, .giveUp 0 .ctx]

/-- Two callers wait behind a limit of one. The server lowers the size of header
lists, the open stream is closed, and the caller that takes the wake-up finds
that its headers have become too large. -/
def lostWakeUp : List ClientEvent :=
  [.handleSettings false [⟨Setting.maxConcurrentStreams, 1⟩],
    .newStream [], .newStream [⟨[], []⟩], .newStream [],
    .tryNewStream 0, .tryNewStream 1, .tryNewStream 2,
    .handleSettings false [⟨Setting.maxHeaderListSize, 16⟩],
    .casStreamDone 0, .doCloseStream 0, .wake 1, .tryNewStream 1]

/-- A caller that has left stays counted, and one that is left behind may wait
for a wake-up that nobody will send although there is quota for it. -/
theorem waitingStreams_leaks :
    (∃ t, run cancelledCaller = some t ∧ t.waitingStreams.toNat = 1 ∧ t.blockedCallers = 0) ∧
    ∃ t, run lostWakeUp = some t ∧ t.state = .reachable ∧ 0 < t.streamQuota ∧
      0 < t.blockedCallers ∧ ¬t.WakeUpPending := by
  have hcancelled : (run cancelledCaller).any (fun t =>
      decide (t.waitingStreams.toNat = 1 ∧ t.blockedCallers = 0)) = true := by decide
  have hlost : (run lostWakeUp).any (fun t => decide (t.state = .reachable ∧
      0 < t.streamQuota ∧ 0 < t.blockedCallers ∧ ¬t.WakeUpPending)) = true := by decide
  simpa only [Option.any_eq_true, decide_eq_true_eq] using And.intro hcancelled hlost

/-- In every run in which no blocked caller leaves before it is admitted, the
counter is the number of blocked callers, and whenever there is quota for one of
them a wake-up is in the channel or has been received. -/
theorem run_waitingStreams (events : List ClientEvent) (t : ClientTransport)
    (hmeets : Machine.Meets step (fun t event => t.undisturbed event = true) newHTTP2Client events)
    (hrun : run events = some t) : t.waitingStreams.toNat = t.blockedCallers ∧
      (0 < t.streamQuota → 0 < t.blockedCallers → t.WakeUpPending) := by
  have hcounted : t.Counted := by
    refine Machine.run_invariant_of_meets (fun _ t => t.Counted)
      (fun t event => t.undisturbed event = true) newHTTP2Client_counted ?_ hmeets hrun
    intro past t event next hpast hcounted hundisturbed hnext
    exact counted_of_step (run_wellFormed hpast) hcounted hundisturbed (stepped_of_step hnext)
  exact ⟨hcounted.counter, hcounted.wakes⟩

/-- The caller behind a limit of one is woken when the limit is raised. -/
def raisedLimit : List ClientEvent :=
  [.handleSettings false [⟨Setting.maxConcurrentStreams, 1⟩],
    .newStream [], .newStream [], .tryNewStream 0, .tryNewStream 1,
    .handleSettings false [⟨Setting.maxConcurrentStreams, 2⟩]]

theorem run_waitingStreams_raisedLimit : ∃ t, run raisedLimit = some t ∧
    t.waitingStreams.toNat = 1 ∧ t.waitingStreams.toNat = t.blockedCallers ∧ t.WakeUpPending := by
  have hmeets : Machine.Meets step (fun t event => t.undisturbed event = true) newHTTP2Client
      raisedLimit := by decide
  have hview : (run raisedLimit).any (fun t => decide (t.waitingStreams.toNat = 1 ∧
      0 < t.streamQuota ∧ 0 < t.blockedCallers)) = true := by decide
  simp only [Option.any_eq_true, decide_eq_true_eq] at hview
  obtain ⟨t, hrun, hone, hquota, hblocked⟩ := hview
  obtain ⟨hcounter, hwakes⟩ := run_waitingStreams raisedLimit t hmeets hrun
  exact ⟨t, hrun, hone, hcounter, hwakes hquota hblocked⟩

end ClientTransport

end Kitex.Http2
