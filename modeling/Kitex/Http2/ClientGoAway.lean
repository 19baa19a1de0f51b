import Kitex.Http2.ClientRuns

/-! # GOAWAY frames at the client

A GOAWAY frame names the last stream that the server will process. The reader
marks the registered streams above it as unprocessed under the transport's lock,
and closes them afterwards, racing with whoever else closes them. The writer
abandons on its own the streams whose headers it has not written when the
transport drains; that is not the work of the handler.
-/

namespace Kitex.Http2

open Kitex.Container

/-- The events by which the reader closes unprocessed streams, and those by
which a closer that it waits for finishes. -/
def ClientEvent.isClosing : ClientEvent → Bool
  | .closeUnprocessed _ => true
  | .doCloseStream _ => true
  | .unprocessedDone _ => true
  | _ => false

namespace ClientTransport

def Registered (t : ClientTransport) (streamID : UInt32) (ref : Nat) : Prop :=
  ∃ streams, t.activeStreams = some streams ∧ streams.lookup streamID = some ref

/-- The stream is marked, and is finished or about to be closed by the reader. -/
def Disposed (t : ClientTransport) (ref : Nat) : Prop :=
  ∃ call, t.calls[ref]? = some call ∧ call.unprocessed = true ∧
    (call.finished = true ∨ ref ∈ t.unprocessedStreams)

/-- What earlier GOAWAY frames have left behind. -/
structure Dismissed (t : ClientTransport) : Prop where
  first : t.goAway = false → t.prevGoAwayID = 0
  above : t.goAway = true → ∀ streamID ref, t.Registered streamID ref →
    t.prevGoAwayID < streamID → t.Disposed ref

section Step

variable {t next : ClientTransport} {event : ClientEvent} {ref : Nat}

variable (hformed : t.WellFormed)
include hformed

/-- The reader drops a stream from its list only when it is finished, and takes
up no other list before. -/
theorem disposed_step (hstep : Stepped t event next) (hdisposed : t.Disposed ref) :
    next.Disposed ref := by
  obtain ⟨call, hcall, hmarked, hrest⟩ := hdisposed
  obtain ⟨call', hcall', hgrows⟩ := hformed.grows_step hstep hcall
  refine ⟨call', hcall', hgrows.unprocessed hmarked, ?_⟩
  rcases hrest with hfinished | hmem
  · exact .inl (hgrows.finished hfinished)
  · cases hstep with
    | goneAway hread _ => simp [hread] at hmem
    | @unprocessedDone other found hfound hfinished =>
      by_cases heq : ref = other
      · subst heq
        cases hcall.symm.trans hfound
        exact .inl (hgrows.finished hfinished)
      · exact .inr ((List.mem_erase_of_ne heq).mpr hmem)
    | woken _ _ _ =>
      rw [receive_eq]
      exact .inr hmem
    | _ => exact .inr hmem

theorem disposed_run (hdisposed : t.Disposed ref) {later : List ClientEvent}
    (hrun : Machine.run step t later = some next) : next.Disposed ref := by
  have hboth : next.WellFormed ∧ next.Disposed ref := by
    refine Machine.run_invariant (fun _ t => t.WellFormed ∧ t.Disposed ref)
      ⟨hformed, hdisposed⟩ ?_ hrun
    rintro _ t event next _ ⟨hformed, hdisposed⟩ hnext
    have hstep := stepped_of_step hnext
    exact ⟨wellFormed_of_step hformed hstep, disposed_step hformed hstep hdisposed⟩
  exact hboth.2

/-- A frame disposes of every registered stream above its identifier: of those
below the previous identifier itself, and the others have been disposed of. -/
theorem disposed_of_goAway (hdismissed : t.Dismissed) {id : UInt32} (hstep : Stepped t event next)
    {streamID : UInt32}
    (hcalls : next.calls = modifyEach Call.markUnprocessed (t.unprocessedBy id) t.calls)
    (hlist : next.unprocessedStreams = t.unprocessedBy id) (hregistered : t.Registered streamID ref)
    (habove : id < streamID) : next.Disposed ref := by
  obtain ⟨streams, hstreams, hlookup⟩ := hregistered
  by_cases hupper : t.prevGoAwayID = 0 ∨ streamID ≤ t.prevGoAwayID
  · have hmem : ref ∈ t.unprocessedBy id :=
      mem_unprocessedBy.mpr ⟨streams, streamID, hstreams, hlookup, habove, hupper⟩
    obtain ⟨call, hcall, _⟩ := hformed.registered streams hstreams streamID ref hlookup
    refine ⟨call.markUnprocessed, ?_, rfl, .inr (hlist ▸ hmem)⟩
    rw [hcalls, getElem?_modifyEach Call.markUnprocessed_idem, if_pos hmem, hcall]
    rfl
  · rw [not_or] at hupper
    have hgoAway : t.goAway = true := by
      by_contra hfalse
      exact hupper.1 (hdismissed.first (by simpa using hfalse))
    have hold := hdismissed.above hgoAway streamID ref ⟨streams, hstreams, hlookup⟩
      (UInt32.not_le.mp hupper.2)
    exact disposed_step hformed hstep hold

theorem dismissed_of_step (hdismissed : t.Dismissed)
    (hstep : Stepped t event next) : next.Dismissed := by
  -- no stream is registered on a transport that has seen a GOAWAY frame
  have hkept : next.goAway = t.goAway → next.prevGoAwayID = t.prevGoAwayID →
      (t.goAway = true → ∀ streamID ref, next.Registered streamID ref →
        t.Registered streamID ref) → next.Dismissed := by
    intro hgoAway hprev hregistered
    rw [← hgoAway] at hregistered
    refine ⟨fun hfirst => ?_, fun hlater streamID ref hnext habove => ?_⟩
    · rw [hprev]
      exact hdismissed.first (hgoAway ▸ hfirst)
    · have hold := hdismissed.above (hgoAway ▸ hlater) streamID ref
        (hregistered hlater streamID ref hnext) (hprev ▸ habove)
      exact disposed_step hformed hstep hold
  cases hstep with
  | @admitted ref call firstTry ch streams _ _ _ _ hstreams hstate =>
    refine hkept rfl rfl fun hgoAway => ?_
    exact absurd (hformed.reachable (by simp [hstreams]) hstate) (hformed.draining hgoAway)
  | woken _ _ _ =>
    rw [receive_eq] at hkept ⊢
    exact hkept rfl rfl fun _ _ _ => id
  | @deleted ref call items _ _ =>
    refine hkept rfl rfl fun _ streamID other hregistered => ?_
    obtain ⟨_, hstreams, hlookup⟩ := hregistered
    obtain ⟨streams, hold, rfl⟩ := Option.map_eq_some_iff.mp hstreams
    exact ⟨streams, hold, lookup_of_lookup_erase hlookup⟩
  | @goneAway id hread haccepts =>
    refine ⟨nofun, fun _ streamID ref hregistered habove => ?_⟩
    exact disposed_of_goAway hformed hdismissed (.goneAway hread haccepts) rfl rfl
      hregistered habove
  | closed =>
    refine hkept rfl rfl fun _ streamID ref hregistered => ?_
    obtain ⟨_, hstreams, _⟩ := hregistered
    cases hstreams
  | _ => exact hkept rfl rfl fun _ _ _ => id

end Step

variable {t next : ClientTransport} {ref : Nat}

theorem run_dismissed {events : List ClientEvent} (hrun : run events = some t) : t.Dismissed := by
  refine Machine.run_invariant (fun _ t => t.Dismissed) ⟨fun _ => rfl, nofun⟩ ?_ hrun
  intro past t event next hpast hdismissed hnext
  exact dismissed_of_step (run_wellFormed hpast) hdismissed (stepped_of_step hnext)

/-! ## The reader gets done -/

section Progress

variable {t : ClientTransport} {call : Call}

theorem step_unprocessedDone (hmem : ref ∈ t.unprocessedStreams) (hcall : t.calls[ref]? = some call)
    (hfinished : call.finished) : ∃ next, t.step (.unprocessedDone ref) = some next ∧
      next.unprocessedStreams = t.unprocessedStreams.erase ref :=
  ⟨{ t with unprocessedStreams := t.unprocessedStreams.erase ref },
    by simp [step, hcall, hfinished, hmem], rfl⟩

theorem doCloseStream_finished (hcall : t.calls[ref]? = some call) (hwinners : 0 < call.winners) :
    t.step (.doCloseStream ref) = some (t.doCloseStream ref) ∧
      (t.doCloseStream ref).unprocessedStreams = t.unprocessedStreams ∧
      ∃ next, (t.doCloseStream ref).calls[ref]? = some next ∧ next.finished = true := by
  refine ⟨by simp [step, hcall, hwinners], ?_⟩
  unfold doCloseStream
  by_cases hbuf : t.bufErr = true
  · rw [if_pos hbuf]
    exact ⟨rfl, _, getElem?_modify_self hcall _, rfl⟩
  · rw [if_neg hbuf]
    exact ⟨rfl, _, getElem?_modify_self hcall _, rfl⟩

/-- An unprocessed stream is finished after the reader's own steps, or those of
the closer that has won against it. -/
theorem closes_unprocessed (hformed : t.WellFormed) (hmem : ref ∈ t.unprocessedStreams) :
    ∃ later next, Machine.run step t later = some next ∧
      next.unprocessedStreams = t.unprocessedStreams.erase ref ∧
      ∀ event ∈ later, event.isClosing = true := by
  -- a winner finishes the stream, and the reader sees it
  have hwinner : ∀ {t : ClientTransport} {call : Call}, ref ∈ t.unprocessedStreams →
      t.calls[ref]? = some call → 0 < call.winners →
      ∃ next, Machine.run step t [.doCloseStream ref, .unprocessedDone ref] = some next ∧
        next.unprocessedStreams = t.unprocessedStreams.erase ref := by
    intro t call hmem hcall hwinners
    obtain ⟨hclose, hlist, done, hdone, hfinished⟩ := doCloseStream_finished hcall hwinners
    obtain ⟨next, hsee, herase⟩ := step_unprocessedDone (hlist ▸ hmem) hdone hfinished
    refine ⟨next, ?_, by rw [herase, hlist]⟩
    simp [Machine.run_cons, hclose, hsee]
  obtain ⟨id, call, hcall, _⟩ := hformed.unprocessed ref hmem
  have hsound := hformed.sound call (List.mem_of_getElem? hcall)
  cases hfinished : call.finished with
  | true =>
    obtain ⟨next, hsee, herase⟩ := step_unprocessedDone hmem hcall hfinished
    exact ⟨[.unprocessedDone ref], next, by simp [Machine.run_cons, hsee], herase,
      by simp [ClientEvent.isClosing]⟩
  | false =>
    cases hdone : call.streamDone with
    | true =>
      have hone := hsound.done
      simp only [hfinished, hdone, Bool.toNat_false, Bool.toNat_true] at hone
      obtain ⟨next, hrun, hlist⟩ := hwinner hmem hcall (by omega)
      exact ⟨_, next, hrun, hlist, by simp [ClientEvent.isClosing]⟩
    | false =>
      have hswap : t.step (.closeUnprocessed ref) =
          some (t.modifyCall ref Call.casStreamDone) := by
        simp [step, hmem]
      have hcall' : (t.modifyCall ref Call.casStreamDone).calls[ref]? =
          some { call with streamDone := true, winners := call.winners + 1 } := by
        simp [modifyCall, hcall, Call.casStreamDone, hdone]
      have hmem' : ref ∈ (t.modifyCall ref Call.casStreamDone).unprocessedStreams := hmem
      obtain ⟨next, hrun, hlist⟩ := hwinner hmem' hcall' (Nat.succ_pos _)
      refine ⟨[.closeUnprocessed ref, .doCloseStream ref, .unprocessedDone ref], next, ?_,
        hlist, by simp [ClientEvent.isClosing]⟩
      rw [Machine.run_cons, hswap]
      exact hrun

/-- From every state the reader can close what is left in its list. -/
theorem closes_all (hformed : t.WellFormed) :
    ∃ later next, Machine.run step t later = some next ∧ next.unprocessedStreams = [] ∧
      ∀ event ∈ later, event.isClosing = true := by
  induction hlist : t.unprocessedStreams.length generalizing t with
  | zero => exact ⟨[], t, rfl, List.length_eq_zero_iff.mp hlist, nofun⟩
  | succ n ih =>
    obtain ⟨ref, rest, hcons⟩ := List.exists_cons_of_length_eq_add_one hlist
    have hmem : ref ∈ t.unprocessedStreams := by simp [hcons]
    obtain ⟨first, middle, hfirst, herase, hevents⟩ := closes_unprocessed hformed hmem
    have hlength : middle.unprocessedStreams.length = n := by
      rw [herase, List.length_erase_of_mem hmem, hlist, Nat.add_sub_cancel]
    obtain ⟨second, next, hsecond, hempty, hmore⟩ := ih (wellFormed_run hformed hfirst) hlength
    refine ⟨first ++ second, next, ?_, hempty, ?_⟩
    · rw [Machine.run_append, hfirst]
      exact hsecond
    · intro event hevent
      exact (List.mem_append.mp hevent).elim (hevents event) (hmore event)

end Progress

/-- The `goAway` channel stays closed. -/
theorem Stepped.goAway {event : ClientEvent} (hstep : Stepped t event next)
    (hgoAway : t.goAway) : next.goAway := by
  cases hstep with
  | woken _ _ _ =>
    rw [receive_eq]
    exact hgoAway
  | goneAway _ _ => rfl
  | _ => exact hgoAway

/-- No stream is admitted after a GOAWAY frame, however the run goes on. -/
theorem not_admitted_of_goAway (hformed : t.WellFormed) (hgoAway : t.goAway)
    {later : List ClientEvent} (hrun : Machine.run step t later = some next) {streamID : UInt32}
    (hadmitted : Admitted next.calls ref streamID) : Admitted t.calls ref streamID := by
  have hall : next.WellFormed ∧ next.goAway = true ∧ ∀ ref streamID,
      Admitted next.calls ref streamID → Admitted t.calls ref streamID := by
    refine Machine.run_invariant (fun _ next => next.WellFormed ∧ next.goAway = true ∧
      ∀ ref streamID, Admitted next.calls ref streamID → Admitted t.calls ref streamID)
      ⟨hformed, hgoAway, fun _ _ => id⟩ ?_ hrun
    rintro _ middle event next _ ⟨hformed, hgoAway, hback⟩ hnext
    have hstep := stepped_of_step hnext
    refine ⟨wellFormed_of_step hformed hstep, hstep.goAway hgoAway, fun ref streamID hnew => ?_⟩
    rcases hformed.admits_of_step hstep hnew with ⟨_, _, hreachable⟩ | hold
    · exact absurd hreachable (hformed.draining hgoAway)
    · exact hback ref streamID hold
  exact hall.2.2 ref streamID hadmitted

theorem admitted_of_markUnprocessed {calls : List Call} {refs : List Nat} {streamID : UInt32}
    (hadmitted : Admitted (modifyEach Call.markUnprocessed refs calls) ref streamID) :
    Admitted calls ref streamID := by
  obtain ⟨call, hcall, hprogress, hid⟩ := hadmitted
  rw [getElem?_modifyEach Call.markUnprocessed_idem] at hcall
  by_cases hmem : ref ∈ refs
  · rw [if_pos hmem] at hcall
    obtain ⟨old, hold, rfl⟩ := Option.map_eq_some_iff.mp hcall
    exact ⟨old, hold, hprogress, hid⟩
  · rw [if_neg hmem] at hcall
    exact ⟨call, hcall, hprogress, hid⟩

theorem step_handleGoAway {id : UInt32} (hnext : t.step (.handleGoAway id) = some next)
    (haccepts : t.acceptsGoAway id) :
    t.unprocessedStreams = [] ∧ next = { t with
      goAway := true
      state := if t.goAway then t.state else .draining
      prevGoAwayID := id
      calls := modifyEach Call.markUnprocessed (t.unprocessedBy id) t.calls
      unprocessedStreams := t.unprocessedBy id } := by
  obtain ⟨⟨_, hread⟩, ⟨⟩⟩ := Option.ite_none_right_eq_some.mp hnext
  refine ⟨hread, ?_⟩
  unfold handleGoAway
  rw [if_pos haccepts]

/-- For every GOAWAY frame that the client accepts in any run: however the run
goes on, a stream that was registered under a greater identifier is marked
unprocessed, and it is finished once the reader has it no longer on its list,
which the reader can always get done. The handler does not touch a stream with
an identifier up to that of the frame, nor put it on the list. No stream that was not
admitted before is admitted after it. -/
theorem run_goAway (events : List ClientEvent) (t next : ClientTransport) (id : UInt32)
    (hrun : run events = some t) (haccepts : t.acceptsGoAway id = true)
    (hnext : t.step (.handleGoAway id) = some next) :
    (∀ streamID ref, t.Registered streamID ref → id < streamID → ∀ later final,
      Machine.run step next later = some final → ∃ call, final.calls[ref]? = some call ∧
        call.unprocessed = true ∧ (call.finished = true ∨ ref ∈ final.unprocessedStreams)) ∧
    (∀ later final, Machine.run step next later = some final → ∃ closing done,
      Machine.run step final closing = some done ∧ done.unprocessedStreams = [] ∧
        ∀ event ∈ closing, event.isClosing = true) ∧
    (∀ ref call, t.calls[ref]? = some call → call.id ≤ id →
      next.calls[ref]? = some call ∧ ref ∉ next.unprocessedStreams) ∧
    ∀ later final, Machine.run step next later = some final → ∀ ref streamID,
      Admitted final.calls ref streamID → Admitted t.calls ref streamID := by
  have hformed := run_wellFormed hrun
  have hstep := stepped_of_step hnext
  have hformed' := wellFormed_of_step hformed hstep
  obtain ⟨hread, rfl⟩ := step_handleGoAway hnext haccepts
  refine ⟨?_, ?_, ?_, ?_⟩
  · intro streamID ref hregistered habove later final hlater
    exact disposed_run hformed'
      (disposed_of_goAway hformed (run_dismissed hrun) hstep rfl rfl hregistered habove) hlater
  · intro later final hlater
    exact closes_all (wellFormed_run hformed' hlater)
  · intro ref call hcall hbelow
    have hnot : ref ∉ t.unprocessedBy id := by
      intro hmem
      obtain ⟨streams, streamID, hstreams, hlookup, habove, _⟩ := mem_unprocessedBy.mp hmem
      obtain ⟨found, hfound, _, rfl⟩ := hformed.registered streams hstreams streamID ref hlookup
      cases hcall.symm.trans hfound
      exact absurd habove (UInt32.not_lt.mpr hbelow)
    refine ⟨?_, hnot⟩
    rw [getElem?_modifyEach Call.markUnprocessed_idem, if_neg hnot, hcall]
  · intro later final hlater ref streamID hadmitted
    have hback := not_admitted_of_goAway hformed' rfl hlater hadmitted
    exact admitted_of_markUnprocessed hback

/-- Two streams, of which the server will process the first. -/
def twoStreams : List ClientEvent :=
  [.handleSettings false [], .newStream [], .newStream [], .tryNewStream 0, .tryNewStream 1]

theorem run_goAway_twoStreams : ∃ t next, run twoStreams = some t ∧
    t.acceptsGoAway 1 = true ∧ t.step (.handleGoAway 1) = some next ∧ t.Registered 3 1 ∧
    next.Disposed 1 ∧ ∃ done closing, Machine.run step next closing = some done ∧
      done.Disposed 1 ∧ done.unprocessedStreams = [] := by
  have hview : (run twoStreams).any (fun t => decide (t.acceptsGoAway 1 = true ∧
      (t.step (.handleGoAway 1)).isSome = true ∧
      t.activeStreams.bind (AList.lookup 3) = some 1)) = true := by decide
  simp only [Option.any_eq_true, decide_eq_true_eq] at hview
  obtain ⟨t, hrun, haccepts, hsome, hlookup⟩ := hview
  obtain ⟨next, hnext⟩ := Option.isSome_iff_exists.mp hsome
  have hregistered : t.Registered 3 1 := Option.bind_eq_some_iff.mp hlookup
  obtain ⟨hdisposed, hcloses, _⟩ := run_goAway twoStreams t next 1 hrun haccepts hnext
  obtain ⟨closing, done, hclosing, hempty, _⟩ := hcloses [] next rfl
  exact ⟨t, next, hrun, haccepts, hnext, hregistered,
    hdisposed 3 1 hregistered (by decide) [] next rfl, done, closing, hclosing,
    hdisposed 3 1 hregistered (by decide) closing done hclosing, hempty⟩

end ClientTransport

end Kitex.Http2
