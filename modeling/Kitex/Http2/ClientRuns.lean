import Kitex.Http2.ClientSteps

/-! # Invariants of every run of the client transport

An admitted stream keeps its identifier, and a finished or unprocessed one stays
so. A stream is done once: either one closer has won and has yet to finish it,
or it is finished. The map of active streams, the header frames in the control
buffer and the reader's list refer to admitted streams only.
-/

namespace Kitex.Http2

open Kitex.Container

namespace Call

/-- What a step of the transport can do to a call, if streams can be admitted
under a condition only. -/
inductive Moves (admits : Prop) : Call → Call → Prop
  | kept (call : Call) : Moves admits call call
  | advanced {call : Call} (hprogress : call.progress ≠ .admitted) (id : UInt32)
      {progress : Progress} (hadmits : progress = .admitted → admits) :
      Moves admits call { call with id := id, progress := progress }
  | swapped {call : Call} (hadmitted : call.progress = .admitted) :
      Moves admits call call.casStreamDone
  | closed {call : Call} (hwinners : 0 < call.winners) {returns : Nat}
      (hreturns : returns ≤ call.returns + 1) :
      Moves admits call
        { call with winners := call.winners - 1, finished := true, returns := returns }
  | cleaned {call : Call} (hadmitted : call.progress = .admitted) :
      Moves admits call call.cleanup
  | marked (call : Call) : Moves admits call call.markUnprocessed

variable {call next : Call}

theorem Moves.mono {admits other : Prop} (himp : admits → other) (hmoves : Moves admits call next) :
    Moves other call next := by
  cases hmoves with
  | kept => exact .kept call
  | advanced hprogress id hadmits =>
    exact .advanced hprogress id fun hadmitted => himp (hadmits hadmitted)
  | swapped hadmitted => exact .swapped hadmitted
  | closed hwinners hreturns => exact .closed hwinners hreturns
  | cleaned hadmitted => exact .cleaned hadmitted
  | marked => exact .marked call

/-- What never changes back. -/
structure Grows (before after : Call) : Prop where
  admitted : before.progress = .admitted → after.progress = .admitted ∧ after.id = before.id
  finished : before.finished = true → after.finished = true
  unprocessed : before.unprocessed = true → after.unprocessed = true

theorem Grows.refl (call : Call) : call.Grows call := by
  constructor <;> simp

variable {admits : Prop}

theorem Moves.grows (hmoves : Moves admits call next) : call.Grows next := by
  cases hmoves with
  | kept => exact .refl call
  | advanced hprogress id _ => constructor <;> simp [hprogress]
  | swapped _ => cases hdone : call.streamDone <;> constructor <;> simp [casStreamDone, hdone]
  | closed _ _ => constructor <;> simp
  | cleaned _ => cases hdone : call.streamDone <;> constructor <;> simp [cleanup, hdone]
  | marked => constructor <;> simp [markUnprocessed]

/-- The stream of a call is done at most once, and only if it was admitted. -/
structure Sound (call : Call) : Prop where
  done : call.winners + call.finished.toNat = call.streamDone.toNat
  returned : call.returns ≤ call.finished.toNat
  admitted : call.streamDone = true → call.progress = .admitted

theorem Sound.new (hf : List HeaderField) : (Call.new hf).Sound :=
  ⟨rfl, Nat.le_refl 0, nofun⟩

section

variable {call : Call} {next : Call}

theorem Sound.of_not_streamDone (hsound : call.Sound) (hdone : call.streamDone = false) :
    call.winners = 0 ∧ call.finished = false ∧ call.returns = 0 := by
  have hnone := hsound.done
  have hreturned := hsound.returned
  cases hfinished : call.finished <;> simp_all

theorem Sound.not_finished_of_progress (hsound : call.Sound)
    (hprogress : call.progress ≠ .admitted) : call.finished = false := by
  cases hdone : call.streamDone with
  | true => exact absurd (hsound.admitted hdone) hprogress
  | false => exact (hsound.of_not_streamDone hdone).2.1

theorem Sound.of_winner (hsound : call.Sound) (hwinners : 0 < call.winners) :
    call.streamDone = true ∧ call.winners = 1 ∧ call.finished = false ∧ call.returns = 0 := by
  have hone := hsound.done
  have hreturned := hsound.returned
  cases hfinished : call.finished <;> cases hdone : call.streamDone <;>
    simp [hfinished, hdone] at hone hreturned ⊢ <;> omega

theorem Moves.sound (hmoves : Moves admits call next) (hsound : call.Sound) : next.Sound := by
  cases hmoves with
  | kept => exact hsound
  | advanced hprogress id _ =>
    exact ⟨hsound.done, hsound.returned,
      fun hdone => absurd (hsound.admitted hdone) hprogress⟩
  | swapped hadmitted =>
    cases hdone : call.streamDone with
    | true => simpa [casStreamDone, hdone] using hsound
    | false =>
      obtain ⟨hwinners, hfinished, hreturns⟩ := hsound.of_not_streamDone hdone
      constructor <;> simp [casStreamDone, hdone, hwinners, hfinished, hreturns, hadmitted]
  | closed hwinners hreturns =>
    obtain ⟨hdone, hone, _, hzero⟩ := hsound.of_winner hwinners
    constructor
    · simp [hone, hdone]
    · simpa [hzero] using hreturns
    · exact hsound.admitted
  | cleaned hadmitted =>
    cases hdone : call.streamDone with
    | true => simpa [cleanup, hdone] using hsound
    | false =>
      obtain ⟨hwinners, hfinished, hreturns⟩ := hsound.of_not_streamDone hdone
      constructor <;> simp [cleanup, hdone, hwinners, hreturns, hadmitted]
  | marked => exact ⟨hsound.done, hsound.returned, hsound.admitted⟩

theorem Moves.admitted (hmoves : Moves admits call next) (hadmitted : next.progress = .admitted) :
    admits ∨ (call.progress = .admitted ∧ call.id = next.id) := by
  cases hmoves with
  | kept | closed _ _ | marked => exact .inr ⟨hadmitted, rfl⟩
  | advanced _ id hadmits => exact .inl (hadmits hadmitted)
  | swapped hold =>
    refine .inr ⟨hold, ?_⟩
    cases hdone : call.streamDone <;> simp [casStreamDone, hdone]
  | cleaned hold =>
    refine .inr ⟨hold, ?_⟩
    cases hdone : call.streamDone <;> simp [cleanup, hdone]

end

theorem cleanup_idem (call : Call) : call.cleanup.cleanup = call.cleanup := by
  cases hdone : call.streamDone <;> simp [cleanup, hdone]

theorem markUnprocessed_idem (call : Call) :
    call.markUnprocessed.markUnprocessed = call.markUnprocessed := rfl

end Call

theorem Progress.ne_admitted_of_round {progress : Progress} {firstTry : Bool} {ch : Option Nat}
    (hround : progress.round = some (firstTry, ch)) : progress ≠ .admitted := by
  rintro rfl
  cases hround

namespace ClientTransport

/-! ## References -/

/-- The stream has been admitted under the identifier. -/
def Admitted (calls : List Call) (ref : Nat) (id : UInt32) : Prop :=
  ∃ call, calls[ref]? = some call ∧ call.progress = .admitted ∧ call.id = id

structure WellFormed (t : ClientTransport) : Prop where
  sound : ∀ call ∈ t.calls, call.Sound
  registered : ∀ streams, t.activeStreams = some streams → ∀ id ref,
    streams.lookup id = some ref → Admitted t.calls ref id
  queued : ∀ ref, .headerFrame ref ∈ t.items → ∃ id, Admitted t.calls ref id
  unprocessed : ∀ ref ∈ t.unprocessedStreams, ∃ id, Admitted t.calls ref id
  closed : t.activeStreams = none ↔ t.state = .closing
  draining : t.goAway = true → t.state ≠ .reachable
  buffered : t.bufErr = true → t.state = .closing ∨ t.ctxDone = true

variable {streams : AList fun _ : UInt32 => Nat} {items : List QueueItem} {t : ClientTransport}
  {calls : List Call} {ref : Nat}

theorem admitted_of_lookup_insert {id other : UInt32} {ref found : Nat}
    (hold : ∀ id ref, streams.lookup id = some ref → Admitted calls ref id)
    (hnew : Admitted calls ref id) (hlookup : (streams.insert id ref).lookup other = some found) :
    Admitted calls found other := by
  by_cases heq : other = id
  · subst heq
    rw [AList.lookup_insert, Option.some.injEq] at hlookup
    exact hlookup ▸ hnew
  · rw [AList.lookup_insert_ne heq] at hlookup
    exact hold other found hlookup

theorem lookup_of_lookup_erase {id gone : UInt32}
    (hlookup : (streams.erase gone).lookup id = some ref) : streams.lookup id = some ref := by
  by_cases heq : id = gone
  · subst heq
    rw [AList.lookup_erase] at hlookup
    cases hlookup
  · rwa [AList.lookup_erase_ne heq] at hlookup

/-- What holds of the header frames in the queue and of a new item. -/
theorem queued_append {item : QueueItem}
    (hold : ∀ ref, .headerFrame ref ∈ items → ∃ id, Admitted calls ref id)
    (hnew : ∀ ref, item = .headerFrame ref → ∃ id, Admitted calls ref id) :
    ∀ ref, .headerFrame ref ∈ items ++ [item] → ∃ id, Admitted calls ref id := by
  intro ref hmem
  rcases List.mem_append.mp hmem with hqueued | hlast
  · exact hold ref hqueued
  · exact hnew ref (List.mem_singleton.mp hlast).symm

theorem mem_queuedHeaders : ref ∈ queuedHeaders items ↔ .headerFrame ref ∈ items := by
  simp only [queuedHeaders, List.mem_filterMap]
  constructor
  · rintro ⟨item, hitem, hsome⟩
    cases item with
    | headerFrame other =>
      obtain rfl : other = ref := by simpa using hsome
      exact hitem
    | cleanupStream other | incomingSettings ss => cases hsome
  · intro hitem
    exact ⟨_, hitem, rfl⟩

theorem mem_unprocessedBy {id : UInt32} :
    ref ∈ t.unprocessedBy id ↔ ∃ streams streamID, t.activeStreams = some streams ∧
      streams.lookup streamID = some ref ∧ id < streamID ∧
        (t.prevGoAwayID = 0 ∨ streamID ≤ t.prevGoAwayID) := by
  have hupper (streamID : UInt32) :
      streamID ≤ (if t.prevGoAwayID = 0 then 4294967295 else t.prevGoAwayID) ↔
        t.prevGoAwayID = 0 ∨ streamID ≤ t.prevGoAwayID := by
    by_cases hzero : t.prevGoAwayID = 0
    · simp [hzero, UInt32.le_iff_toNat_le]
      have := streamID.toNat_lt
      omega
    · simp [hzero]
  cases hstreams : t.activeStreams with
  | none => simp [unprocessedBy, hstreams]
  | some streams =>
    simp only [unprocessedBy, hstreams, List.mem_map, List.mem_filter, decide_eq_true_eq]
    constructor
    · rintro ⟨⟨streamID, found⟩, ⟨hmem, hgt, hle⟩, rfl⟩
      exact ⟨streams, streamID, rfl, AList.mem_lookup_iff.mpr hmem, hgt, (hupper _).mp hle⟩
    · rintro ⟨_, streamID, ⟨⟩, hlookup, hgt, hle⟩
      have hmem := AList.mem_lookup_iff.mp hlookup
      exact ⟨⟨streamID, ref⟩, ⟨hmem, hgt, (hupper streamID).mpr hle⟩, rfl⟩

theorem receive_eq (t : ClientTransport) (ch : Nat) :
    t.receive ch = { t with quotaToken := t.quotaToken && decide (ch < t.quotaChan) } := by
  unfold receive
  by_cases hclosed : ch < t.quotaChan <;> simp [hclosed]

section Preservation

variable {t next : ClientTransport} {event : ClientEvent}

variable {ref : Nat} {id : UInt32} {call : Call}

theorem Admitted.progress (hadmitted : Admitted calls ref id) (hcall : calls[ref]? = some call) :
    call.progress = .admitted := by
  obtain ⟨found, hfound, hprogress, _⟩ := hadmitted
  cases hfound.symm.trans hcall
  exact hprogress

theorem WellFormed.reachable (hformed : t.WellFormed) (hstreams : t.activeStreams ≠ none)
    (hstate : t.state ≠ .draining) : t.state = .reachable := by
  have hclosed := hformed.closed
  cases hcase : t.state with
  | reachable => rfl
  | draining => exact absurd hcase hstate
  | closing => exact absurd (hclosed.mpr hcase) hstreams

/-- When `checkForStreamQuota` succeeds. -/
def Admits (t : ClientTransport) : Prop :=
  t.bufErr = false ∧ 0 < t.streamQuota ∧ t.state = .reachable

variable (hformed : t.WellFormed)
include hformed

variable (hstep : Stepped t event next)
include hstep

/-- A step adds a call, admits one under the next identifier, or moves the calls
without admitting any. -/
theorem WellFormed.calls_step_cases : (∃ hf, next.calls = t.calls ++ [Call.new hf]) ∨
      (∃ ref call, event = .tryNewStream ref ∧ t.calls[ref]? = some call ∧
        call.progress ≠ .admitted ∧ t.Admits ∧ next.nextID = t.nextID + 2 ∧
        next.calls = t.calls.modify ref
          fun call => { call with id := t.nextID, progress := .admitted }) ∨
      List.Forall₂ (Call.Moves False) t.calls next.calls := by
  have hrefl : List.Forall₂ (Call.Moves False) t.calls t.calls :=
    List.forall₂_same.mpr fun _ _ => .kept _
  have hmodify : ∀ {ref : Nat} {call : Call} {change : Call → Call}, t.calls[ref]? = some call →
      Call.Moves False call (change call) →
      List.Forall₂ (Call.Moves False) t.calls (t.calls.modify ref change) := by
    intro ref call change hcall hmoves
    apply forall₂_modify .kept
    intro record hrecord
    exact Option.some.inj (hcall.symm.trans hrecord) ▸ hmoves
  cases hstep with
  | newStream hf => exact .inl ⟨hf, rfl⟩
  | rejected e hcall hround _ | blocked hcall hround _ | stranded hcall hround _ _ =>
    exact .inr (.inr (hmodify hcall (.advanced (Progress.ne_admitted_of_round hround) _ nofun)))
  | admitted hcall hround hbuf hquota hstreams hstate =>
    have hadmits : t.Admits := ⟨hbuf, hquota, hformed.reachable (by simp [hstreams]) hstate⟩
    exact .inr (.inl ⟨_, _, rfl, hcall, Progress.ne_admitted_of_round hround, hadmits, rfl, rfl⟩)
  | woken hcall hprogress _ =>
    rw [receive_eq]
    exact .inr (.inr (hmodify hcall (.advanced (by simp [hprogress]) _ nofun)))
  | gaveUp e hcall hprogress =>
    exact .inr (.inr (hmodify hcall (.advanced (by simp [hprogress]) _ nofun)))
  | swapped hstream =>
    refine .inr (.inr (forall₂_modify .kept fun call hcall => .swapped ?_))
    rcases hstream with ⟨found, hfound, hprogress⟩ | hmem
    · exact Option.some.inj (hfound.symm.trans hcall) ▸ hprogress
    · obtain ⟨id, hadmitted⟩ := hformed.unprocessed _ hmem
      exact hadmitted.progress hcall
  | returned hcall hwinners _ =>
    exact .inr (.inr (hmodify hcall (.closed hwinners (Nat.le_refl _))))
  | dropped hcall hwinners _ =>
    exact .inr (.inr (hmodify hcall (.closed hwinners (Nat.le_succ _))))
  | @orphaned ref items _ hitems _ =>
    obtain ⟨id, hadmitted⟩ := hformed.queued ref (by simp [hitems])
    exact .inr (.inr
      (forall₂_modify .kept fun call hcall => .cleaned (hadmitted.progress hcall)))
  | goneAway _ _ =>
    exact .inr (.inr
      (forall₂_modifyEach .kept Call.markUnprocessed_idem fun _ _ call _ => .marked call))
  | refused _ => exact .inr (.inr (forall₂_modify .kept fun call _ => .marked call))
  | finished _ _ =>
    refine .inr (.inr
      (forall₂_modifyEach .kept Call.cleanup_idem fun ref hmem call hcall => ?_))
    obtain ⟨id, hadmitted⟩ := hformed.queued ref (mem_queuedHeaders.mp hmem)
    exact .cleaned (hadmitted.progress hcall)
  | _ => exact .inr (.inr hrefl)

/-- A step adds a call, or moves the calls that there are. -/
theorem WellFormed.calls_step : (∃ hf, next.calls = t.calls ++ [Call.new hf]) ∨
      List.Forall₂ (Call.Moves t.Admits) t.calls next.calls := by
  rcases hformed.calls_step_cases hstep with hnew | ⟨ref, call, _, hcall, hprogress, hadmits, _,
    hcalls⟩ | hmoves
  · exact .inl hnew
  · rw [hcalls]
    refine .inr (forall₂_modify .kept fun record hrecord => ?_)
    cases hcall.symm.trans hrecord
    exact .advanced hprogress _ fun _ => hadmits
  · exact .inr (hmoves.imp fun _ _ hmove => hmove.mono False.elim)

theorem WellFormed.grows_step (hcall : t.calls[ref]? = some call) :
    ∃ call', next.calls[ref]? = some call' ∧ call.Grows call' := by
  rcases hformed.calls_step hstep with ⟨hf, hcalls⟩ | hmoves
  · have hlt : ref < t.calls.length := (List.getElem?_eq_some_iff.mp hcall).1
    refine ⟨call, ?_, .refl call⟩
    rw [hcalls, List.getElem?_append_left hlt, hcall]
  · obtain ⟨call', hcall', hmove⟩ := forall₂_getElem?_left hmoves hcall
    exact ⟨call', hcall', hmove.grows⟩

theorem WellFormed.sound_step : ∀ call ∈ next.calls, call.Sound := by
  rcases hformed.calls_step hstep with ⟨hf, hcalls⟩ | hmoves
  · intro call hcall
    rw [hcalls] at hcall
    rcases List.mem_append.mp hcall with hold | hnew
    · exact hformed.sound call hold
    · obtain rfl := List.mem_singleton.mp hnew
      exact .new hf
  · exact forall_mem_of_forall₂ hmoves (fun _ _ hmove => hmove.sound) hformed.sound

/-- Only a transport that admits streams lets a caller through. -/
theorem WellFormed.admits_of_step
    (hadmitted : Admitted next.calls ref id) : t.Admits ∨ Admitted t.calls ref id := by
  obtain ⟨call, hcall, hprogress, rfl⟩ := hadmitted
  rcases hformed.calls_step hstep with ⟨hf, hcalls⟩ | hmoves
  · rw [hcalls] at hcall
    rcases Nat.lt_or_ge ref t.calls.length with hlt | hge
    · rw [List.getElem?_append_left hlt] at hcall
      exact .inr ⟨call, hcall, hprogress, rfl⟩
    · rw [List.getElem?_append_right hge] at hcall
      obtain rfl := List.mem_singleton.mp (List.mem_of_getElem? hcall)
      cases hprogress
  · obtain ⟨old, hold, hmove⟩ := forall₂_getElem?_right hmoves hcall
    exact (hmove.admitted hprogress).imp_right fun ⟨hadmitted, hid⟩ => ⟨old, hold, hadmitted, hid⟩

theorem WellFormed.admitted_step
    (hadmitted : Admitted t.calls ref id) : Admitted next.calls ref id := by
  obtain ⟨call, hcall, hprogress, hid⟩ := hadmitted
  obtain ⟨call', hcall', hgrows⟩ := hformed.grows_step hstep hcall
  obtain ⟨hprogress', hid'⟩ := hgrows.admitted hprogress
  exact ⟨call', hcall', hprogress', hid'.trans hid⟩

theorem wellFormed_of_step : next.WellFormed := by
  have hsound := hformed.sound_step hstep
  have hregistered : ∀ streams, t.activeStreams = some streams → ∀ id ref,
      streams.lookup id = some ref → Admitted next.calls ref id :=
    fun streams hstreams id ref hlookup =>
      hformed.admitted_step hstep (hformed.registered streams hstreams id ref hlookup)
  have hqueued : ∀ ref, .headerFrame ref ∈ t.items → ∃ id, Admitted next.calls ref id :=
    fun ref hmem => (hformed.queued ref hmem).imp fun _ => hformed.admitted_step hstep
  have hunprocessed : ∀ ref ∈ t.unprocessedStreams, ∃ id, Admitted next.calls ref id :=
    fun ref hmem => (hformed.unprocessed ref hmem).imp fun _ => hformed.admitted_step hstep
  have hkept : WellFormed { t with calls := next.calls } :=
    { hformed with
      sound := hsound
      registered := hregistered
      queued := hqueued
      unprocessed := hunprocessed }
  cases hstep with
  | @admitted ref call firstTry ch streams hcall hround _ _ hstreams hstate =>
    have hnew : Admitted (t.calls.modify ref
        fun call => { call with id := t.nextID, progress := .admitted }) ref t.nextID :=
      ⟨_, getElem?_modify_self hcall _, rfl, rfl⟩
    refine { hkept with registered := ?_, queued := ?_, closed := ?_ }
    · rintro _ ⟨⟩ id other hlookup
      exact admitted_of_lookup_insert (hregistered streams hstreams) hnew hlookup
    · apply queued_append hqueued
      rintro _ ⟨⟩
      exact ⟨t.nextID, hnew⟩
    · exact ⟨nofun, fun hclosing => absurd (hformed.closed.mpr hclosing) (by simp [hstreams])⟩
  | woken _ _ _ =>
    rw [receive_eq] at hkept ⊢
    exact { hkept with }
  | returned _ _ _ | configured _ _ ss _ | limited _ _ ss _ _ =>
    exact { hkept with queued := queued_append hqueued nofun }
  | dequeued hitems | orphaned _ hitems _ =>
    exact { hkept with queued := fun ref hmem => hqueued ref (by simp_all) }
  | @deleted ref call items hitems hcall =>
    refine { hkept with
      registered := ?_
      queued := fun ref hmem => hqueued ref (by simp_all)
      closed := by simpa using hformed.closed }
    intro _ hstreams id other hlookup
    obtain ⟨streams, hold, rfl⟩ := Option.map_eq_some_iff.mp hstreams
    exact hregistered streams hold id other (lookup_of_lookup_erase hlookup)
  | @goneAway id _ haccepts =>
    have hopen : t.state ≠ .closing := (of_decide_eq_true haccepts).1
    refine ⟨hsound, hregistered, hqueued, ?_, ?_, fun _ => ?_, ?_⟩
    · intro ref hmem
      obtain ⟨streams, streamID, hstreams, hlookup, _⟩ := mem_unprocessedBy.mp hmem
      exact ⟨streamID, hregistered streams hstreams streamID ref hlookup⟩
    · cases hgoAway : t.goAway with
      | true => simpa [hgoAway] using hformed.closed
      | false => simpa [hgoAway] using mt hformed.closed.mp hopen
    · cases hgoAway : t.goAway with
      | true => simpa [hgoAway] using hformed.draining hgoAway
      | false => simp
    · intro hbuf
      exact .inr ((hformed.buffered hbuf).resolve_left hopen)
  | unprocessedDone _ _ =>
    exact { hkept with
      unprocessed := fun ref hmem => hunprocessed ref (List.mem_of_mem_erase hmem) }
  | drained hstate =>
    refine ⟨hsound, hregistered, hqueued, hunprocessed, ?_, fun _ => nofun, ?_⟩
    · simpa [hstate] using hformed.closed
    · simpa [hstate] using hformed.buffered
  | closed =>
    exact ⟨hsound, nofun, hqueued, hunprocessed, iff_of_true rfl rfl, fun _ => nofun,
      fun _ => .inl rfl⟩
  | finished hstate _ => exact { hkept with queued := nofun, buffered := fun _ => hstate }
  | cancelled => exact { hkept with buffered := fun _ => .inr rfl }
  | _ => exact { hkept with }

end Preservation

theorem newHTTP2Client_wellFormed : newHTTP2Client.WellFormed where
  sound := nofun
  registered := by
    rintro _ ⟨⟩ id ref hlookup
    simp at hlookup
  queued := nofun
  unprocessed := nofun
  closed := by simp [newHTTP2Client]
  draining := nofun
  buffered := nofun

theorem wellFormed_run {next : ClientTransport} (hformed : t.WellFormed) {later : List ClientEvent}
    (hrun : Machine.run step t later = some next) : next.WellFormed := by
  refine Machine.run_invariant (fun _ t => t.WellFormed) hformed ?_ hrun
  intro _ t event next _ hformed hnext
  exact wellFormed_of_step hformed (stepped_of_step hnext)

/-- Every state that a run reaches is well formed. -/
theorem run_wellFormed {events : List ClientEvent} (hrun : run events = some t) : t.WellFormed :=
  wellFormed_run newHTTP2Client_wellFormed hrun

end ClientTransport

end Kitex.Http2
