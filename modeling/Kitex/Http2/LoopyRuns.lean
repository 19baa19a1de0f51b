import Kitex.Http2.LoopyHandlers

/-! # Runs of the loopy writer

The facts that hold in every run, whatever is put into the control buffer: the
framer stays as it is, every stream is found under its own identifier with its
own items, and no stream is established that was not registered.
-/

namespace Kitex.Http2

open Kitex.Container Outcome

variable {hpack : Hpack} {streamID : UInt32}

namespace LoopyWriter

/-! ## The established streams -/

@[simp] theorem lookup_setStream (l : LoopyWriter hpack) (str : OutStream) (streamID : UInt32) :
    (l.setStream str).estdStreams.lookup streamID =
      if streamID = str.id then some str else l.estdStreams.lookup streamID := by
  unfold setStream
  split
  next heq => rw [heq, AList.lookup_insert]
  next hne => exact AList.lookup_insert_ne hne

@[simp] theorem lookup_forget (l : LoopyWriter hpack) (gone streamID : UInt32) :
    (l.forget gone).estdStreams.lookup streamID =
      if streamID = gone then none else l.estdStreams.lookup streamID := by
  unfold forget
  split
  next hnone =>
    split
    next heq => rw [heq, hnone]
    next => rfl
  next =>
    split
    next heq => rw [heq]; exact AList.lookup_erase gone _
    next hne => exact AList.lookup_erase_ne hne

@[simp] theorem activate_estdStreams (l : LoopyWriter hpack) (streamID : UInt32) :
    (l.activate streamID).estdStreams = l.estdStreams := rfl

end LoopyWriter

/-- The item is one of the stream's, and trailers are such that end the stream. -/
def StreamItem.OwnedBy (streamID : UInt32) : StreamItem → Prop
  | .data df => df.streamID = streamID
  | .header h => h.streamID = streamID ∧ h.endStream = true

/-- The stream once its quota has been returned. -/
def OutStream.resumed (str : OutStream) : OutStream :=
  if str.state = .waitingOnStreamQuota then { str with state := .active } else str

namespace OutStream

@[simp] theorem resumed_id (str : OutStream) : str.resumed.id = str.id := by
  unfold resumed
  split <;> rfl

@[simp] theorem resumed_itl (str : OutStream) : str.resumed.itl = str.itl := by
  unfold resumed
  split <;> rfl

@[simp] theorem resumed_resumed (str : OutStream) : str.resumed.resumed = str.resumed := by
  unfold resumed
  split <;> simp_all

theorem resumed_state_ne (str : OutStream) : str.resumed.state ≠ .waitingOnStreamQuota := by
  unfold resumed
  split <;> simp_all

end OutStream

namespace LoopyWriter

/-- Every stream is found under its own identifier, with its own items. -/
def Owned (l : LoopyWriter hpack) : Prop :=
  ∀ streamID str, l.estdStreams.lookup streamID = some str →
    str.id = streamID ∧ ∀ item ∈ str.itl, item.OwnedBy streamID

variable {l : LoopyWriter hpack} {str : OutStream}

theorem Owned.congr {next : LoopyWriter hpack} (howned : l.Owned)
    (hsame : next.estdStreams = l.estdStreams) : next.Owned := by
  unfold Owned
  rw [hsame]
  exact howned

theorem Owned.setStream (howned : l.Owned) (hitems : ∀ item ∈ str.itl, item.OwnedBy str.id) :
    (l.setStream str).Owned := by
  intro streamID found hlookup
  rw [lookup_setStream] at hlookup
  split at hlookup
  next heq =>
    cases hlookup
    exact ⟨heq.symm, heq ▸ hitems⟩
  next => exact howned streamID found hlookup

/-- An item of the stream joins its list. -/
theorem append_owned {added : StreamItem} (hid : str.id = streamID)
    (hitems : ∀ item ∈ str.itl, item.OwnedBy streamID) (hadded : added.OwnedBy streamID) :
    ∀ item ∈ str.itl ++ [added], item.OwnedBy str.id := by
  intro item hitem
  rw [hid]
  rcases List.mem_append.mp hitem with hmem | hmem
  · exact hitems item hmem
  · rw [List.mem_singleton.mp hmem]
    exact hadded

variable (howned : l.Owned)
include howned

theorem Owned.forget (gone : UInt32) : (l.forget gone).Owned := by
  intro streamID found hlookup
  rw [lookup_forget] at hlookup
  split at hlookup
  · cases hlookup
  · exact howned streamID found hlookup

/-! ## Settings -/

theorem activateDepleted_lookup (resumed streamID : UInt32) :
    (l.activateDepleted resumed).estdStreams.lookup streamID =
      if streamID = resumed then (l.estdStreams.lookup streamID).map OutStream.resumed
      else l.estdStreams.lookup streamID := by
  unfold activateDepleted
  split
  next hnone =>
    split
    next heq => rw [heq, hnone, Option.map_none]
    next => rfl
  next str hlookup =>
    obtain ⟨hid, -⟩ := howned _ _ hlookup
    by_cases heq : streamID = resumed
    · rw [if_pos heq, heq, hlookup, Option.map_some, OutStream.resumed]
      split
      · simp [hid]
      · exact hlookup
    · split
      · simp [hid, heq]
      · rfl

/-- Streams differ at most in that waiting ones have been made active. -/
theorem Owned.activateDepleted (resumed : UInt32) : (l.activateDepleted resumed).Owned := by
  intro streamID found hlookup
  rw [activateDepleted_lookup howned] at hlookup
  split at hlookup
  · obtain ⟨str, hstr, rfl⟩ := Option.map_eq_some_iff.mp hlookup
    simpa using howned streamID str hstr
  · exact howned streamID found hlookup

theorem foldl_activateDepleted_lookup (order : List UInt32) (streamID : UInt32) :
    (order.foldl activateDepleted l).estdStreams.lookup streamID =
      if streamID ∈ order then (l.estdStreams.lookup streamID).map OutStream.resumed
      else l.estdStreams.lookup streamID := by
  induction order generalizing l with
  | nil => simp
  | cons resumed order ih =>
    rw [List.foldl_cons, ih (howned.activateDepleted resumed), activateDepleted_lookup howned]
    by_cases heq : streamID = resumed
    · simp [heq, Function.comp_def]
    · simp [heq]

/-- A larger initial window resumes every waiting stream; other settings leave
the streams alone. -/
theorem applySetting_lookup (env : Surroundings) (s : Setting) (streamID : UInt32) :
    (l.applySetting env s).estdStreams.lookup streamID =
      if s.id = Setting.initialWindowSize ∧ l.oiws < s.val then
        (l.estdStreams.lookup streamID).map OutStream.resumed
      else l.estdStreams.lookup streamID := by
  unfold applySetting
  by_cases hid : s.id = Setting.initialWindowSize
  · by_cases hlarger : l.oiws < s.val
    · simp only [hid, hlarger, and_self, if_true]
      have howned' : ({ l with oiws := s.val } : LoopyWriter hpack).Owned := howned
      rw [foldl_activateDepleted_lookup howned']
      split
      next => rfl
      next hrange =>
        rw [(env.range_perm l.estdStreams).mem_iff, ← AList.mem_keys,
          ← AList.lookup_eq_none] at hrange
        rw [hrange, Option.map_none]
    · simp only [if_pos hid, hlarger, and_false, if_false]
  · simp only [hid, false_and, if_false]
    split <;> rfl

theorem applySettings_lookup (env : Surroundings) (ss : List Setting) (streamID : UInt32) :
    (l.applySettings env ss).Owned ∧
      ((l.applySettings env ss).estdStreams.lookup streamID = l.estdStreams.lookup streamID ∨
        (l.applySettings env ss).estdStreams.lookup streamID =
          (l.estdStreams.lookup streamID).map OutStream.resumed) := by
  induction ss generalizing l with
  | nil => exact ⟨howned, .inl rfl⟩
  | cons s ss ih =>
    have hfirst := applySetting_lookup howned env s
    have howned' : (l.applySetting env s).Owned := by
      intro streamID found hlookup
      rw [hfirst] at hlookup
      split at hlookup
      · obtain ⟨str, hstr, rfl⟩ := Option.map_eq_some_iff.mp hlookup
        simpa using howned streamID str hstr
      · exact howned streamID found hlookup
    obtain ⟨hnext, hrest⟩ := ih howned'
    refine ⟨hnext, ?_⟩
    rw [hfirst] at hrest
    split at hrest
    · rcases hrest with hrest | hrest
      · exact .inr hrest
      · refine .inr (hrest.trans ?_)
        simp [Function.comp_def]
    · exact hrest

end LoopyWriter

/-! ## Steps of the loop -/

@[simp] theorem Outcome.toState_writer {α : Type} (outcome : Outcome hpack α) :
    (toState outcome).writer = outcome.1 := by
  obtain ⟨l, _ | _⟩ := outcome <;> rfl

theorem Outcome.toState_stopped {α : Type} (outcome : Outcome hpack α) (e : LoopyErr) :
    (toState outcome).stopped = some e ↔ outcome.2 = .error e := by
  obtain ⟨l, _ | _⟩ := outcome <;> simp [toState]

open LoopyWriter

variable {state next final : LoopyState hpack} {event : LoopyEvent} {side : Side}
  {events : List LoopyEvent}

theorem loopyStep_cases (hreliable : state.writer.Reliable)
    (hstep : loopyStep state event = some next) : state.stopped = none ∧
      ((∃ env item added result, event = .handle env item ∧
          next = toState (next.writer, result) ∧
          next.writer.effects = state.writer.effects ++ added ∧
          Handled env state.writer item next.writer added result) ∨
        ∃ result, event = .processData ∧ next = toState (next.writer, result) ∧
          Turn state.writer next.writer result) := by
  unfold loopyStep at hstep
  split at hstep
  next => cases hstep
  next hrunning =>
    refine ⟨hrunning, ?_⟩
    cases event with
    | handle env item =>
      cases hstep
      obtain ⟨added, heffects, hhandled⟩ := handle_inverts hreliable env item
      refine .inl ⟨env, item, added, (state.writer.handle env item).2, rfl, ?_, ?_, ?_⟩
      · rw [toState_writer]
      · rwa [toState_writer]
      · rwa [toState_writer]
    | processData =>
      obtain ⟨writer, result, hturn, hcases⟩ := processData_turn hreliable
      simp only [hturn, Option.some.injEq] at hstep
      subst next
      exact .inr ⟨result, rfl, by simp, by simpa using hcases⟩

namespace LoopyWriter

/-- What holds of the writer in every run. -/
structure Sound (side : Side) (l : LoopyWriter hpack) : Prop where
  reliable : l.Reliable
  side_eq : l.side = side
  owned : l.Owned

variable {side : Side} {l next : LoopyWriter hpack} {str : OutStream} {env : Surroundings}
  {added after : List Effect} {result : Except LoopyErr Bool} {streamID : UInt32} {item : CbItem}

theorem Sound.of_sameCore (hsame : l.SameCore next) (hsound : l.Sound side) : next.Sound side :=
  ⟨hsame.reliable hsound.reliable, hsame.side.trans hsound.side_eq,
    hsound.owned.congr hsame.estdStreams⟩

section

variable (hsound : l.Sound side)
include hsound

/-- Setting a stream and touching only the quota and the links besides. -/
theorem Sound.of_setStream (hitems : ∀ item ∈ str.itl, item.OwnedBy str.id)
    (hstreams : next.estdStreams = (l.setStream str).estdStreams) (hside : next.side = l.side)
    (hfails : next.framer.fails = l.framer.fails) : next.Sound side := by
  refine ⟨?_, hside.trans hsound.side_eq, (hsound.owned.setStream hitems).congr hstreams⟩
  intro call
  rw [hfails]
  exact hsound.reliable call

theorem Sound.forget (gone : UInt32) : (l.forget gone).Sound side :=
  ⟨forget_reliable hsound.reliable gone, (l.forget_side gone).trans hsound.side_eq,
    hsound.owned.forget gone⟩

theorem Sound.handled {result : Except LoopyErr Unit}
    (hhandled : Handled env l item next added result) : next.Sound side := by
  cases hhandled with
  | kept draining hsame _ _ _ => exact Sound.of_sameCore hsame { hsound with }
  | connWindow increment => exact { hsound with }
  | credited increment hlookup hcredit _ =>
    obtain ⟨hid, hitems⟩ := hsound.owned _ _ hlookup
    subst hcredit
    exact hsound.of_setStream (by simpa [hid] using hitems) rfl rfl rfl
  | resumed increment hlookup _ =>
    obtain ⟨hid, hitems⟩ := hsound.owned _ _ hlookup
    exact hsound.of_setStream (by simpa [hid] using hitems) rfl rfl rfl
  | settings ss hsame _ =>
    obtain ⟨hside, -, hframer, -⟩ := l.applySettings_frame env ss
    refine Sound.of_sameCore hsame ⟨?_, hside.trans hsound.side_eq,
      (applySettings_lookup hsound.owned env ss 0).1⟩
    intro call
    rw [hframer]
    exact hsound.reliable call
  | registered _ _ hsame _ =>
    exact Sound.of_sameCore hsame (hsound.of_setStream (by simp [newOutStream]) rfl rfl rfl)
  | queuedTrailers _ hlookup hend _ =>
    obtain ⟨hid, hitems⟩ := hsound.owned _ _ hlookup
    refine hsound.of_setStream ?_ rfl rfl rfl
    exact append_owned hid hitems ⟨rfl, hend⟩
  | wroteTrailers _ _ _ _ hsame | forgotten hsame _ _ =>
    exact Sound.of_sameCore hsame (hsound.forget _)
  | startedData hlookup _ | appendedData hlookup _ =>
    obtain ⟨hid, hitems⟩ := hsound.owned _ _ hlookup
    refine hsound.of_setStream ?_ rfl rfl rfl
    exact append_owned hid hitems rfl

theorem Sound.disposed (hitems : ∀ item ∈ str.itl, item.OwnedBy str.id)
    (hdisposed : Disposed l str next after result) : next.Sound side := by
  have hset : (l.setStream str).Sound side := hsound.of_setStream hitems rfl rfl rfl
  have hstate : ∀ state, (l.setStream { str with state := state }).Sound side := by
    intro state
    refine hsound.of_setStream ?_ rfl rfl rfl
    exact hitems
  cases hdisposed with
  | drained _ hsame | blocked _ _ hsame => exact Sound.of_sameCore hsame (hstate _)
  | requeued _ hsame => exact Sound.of_sameCore hsame (hsound.of_setStream hitems rfl rfl rfl)
  | trailed _ _ _ hsame => exact Sound.of_sameCore hsame (hset.forget _)
  | trailedNil _ _ _ hsame => exact Sound.of_sameCore hsame hset

end

theorem stream_owned {df : DataFrame} {rest : List StreamItem} (cut : Cut l str df)
    (hitems : ∀ item ∈ StreamItem.data df :: rest, item.OwnedBy streamID) :
    ∀ item ∈ (cut.stream rest).itl, item.OwnedBy streamID := by
  intro item hitem
  simp only [Cut.stream, Cut.itl] at hitem
  split at hitem
  · exact hitems item (List.mem_cons_of_mem _ hitem)
  · rcases List.mem_cons.mp hitem with rfl | hmem
    · exact hitems (.data df) List.mem_cons_self
    · exact hitems item (List.mem_cons_of_mem _ hmem)

theorem Sound.turn (hsound : l.Sound side) (hturn : Turn l next result) : next.Sound side := by
  cases hturn with
  | idle => exact hsound
  | crashed _ _ => exact { hsound with }
  | parked _ _ hlookup _ _ =>
    obtain ⟨hid, hitems⟩ := hsound.owned _ _ hlookup
    exact hsound.of_setStream (by simpa [hid] using hitems) rfl rfl rfl
  | sent before after _ hlookup hitl cut _ _ hdisposed =>
    obtain ⟨hid, hitems⟩ := hsound.owned _ _ hlookup
    refine Sound.disposed ?_ ?_ hdisposed
    · exact { hsound with }
    · rw [← hid, hitl] at hitems
      exact stream_owned cut hitems

/-! ## Which streams are established -/

theorem mem_of_lookup (hlookup : l.estdStreams.lookup streamID = some str) :
    streamID ∈ l.estdStreams := by
  rw [← AList.lookup_isSome, hlookup]
  rfl

theorem Owned.id_mem (howned : l.Owned) (hlookup : l.estdStreams.lookup streamID = some str) :
    str.id ∈ l.estdStreams := by
  rw [(howned _ _ hlookup).1]
  exact mem_of_lookup hlookup

theorem mem_of_mem_setStream (hself : str.id ∈ l.estdStreams)
    (hmem : streamID ∈ (l.setStream str).estdStreams) : streamID ∈ l.estdStreams := by
  rcases (AList.mem_insert _).mp hmem with rfl | hmem
  · exact hself
  · exact hmem

theorem mem_of_mem_forget {gone : UInt32} (hmem : streamID ∈ (l.forget gone).estdStreams) :
    streamID ∈ l.estdStreams := by
  unfold forget at hmem
  split at hmem
  · exact hmem
  · exact (AList.mem_erase.mp hmem).2

/-- Handling an item establishes no stream but the one that the item registers. -/
theorem Handled.mem_or_registers {result : Except LoopyErr Unit}
    (hhandled : Handled env l item next added result) (howned : l.Owned)
    (hmem : streamID ∈ next.estdStreams) :
    streamID ∈ l.estdStreams ∨ item.registers l.side = some streamID := by
  cases hhandled with
  | kept draining hsame _ _ _ => exact .inl (hsame.estdStreams ▸ hmem)
  | connWindow increment => exact .inl hmem
  | credited increment hlookup hcredit _ =>
    subst hcredit
    exact .inl (mem_of_mem_setStream (howned.id_mem hlookup) hmem)
  | resumed increment hlookup _ | queuedTrailers _ hlookup _ _ | startedData hlookup _
  | appendedData hlookup _ => exact .inl (mem_of_mem_setStream (howned.id_mem hlookup) hmem)
  | settings ss hsame _ =>
    rw [hsame.estdStreams, ← AList.lookup_isSome] at hmem
    rw [← AList.lookup_isSome]
    rcases (applySettings_lookup howned env ss streamID).2 with heq | heq
    · rw [heq] at hmem
      exact .inl hmem
    · rw [heq, Option.isSome_map] at hmem
      exact .inl hmem
  | registered registered hregisters hsame _ =>
    rw [hsame.estdStreams] at hmem
    rcases (AList.mem_insert _).mp hmem with rfl | hmem
    · exact .inr hregisters
    · exact .inl hmem
  | wroteTrailers _ _ _ _ hsame | forgotten hsame _ _ =>
    exact .inl (mem_of_mem_forget (hsame.estdStreams ▸ hmem))

theorem Disposed.mem (hdisposed : Disposed l str next after result) (hself : str.id ∈ l.estdStreams)
    (hmem : streamID ∈ next.estdStreams) : streamID ∈ l.estdStreams := by
  have hset : ∀ changed : OutStream, changed.id = str.id →
      streamID ∈ (l.setStream changed).estdStreams → streamID ∈ l.estdStreams := by
    intro changed hchanged
    exact mem_of_mem_setStream (hchanged ▸ hself)
  cases hdisposed with
  | drained _ hsame | requeued _ hsame | blocked _ _ hsame | trailedNil _ _ _ hsame =>
    rw [hsame.estdStreams] at hmem
    exact hset _ rfl hmem
  | trailed _ _ _ hsame =>
    rw [hsame.estdStreams] at hmem
    exact hset _ rfl (mem_of_mem_forget hmem)

theorem Turn.mem (hturn : Turn l next result) (howned : l.Owned)
    (hmem : streamID ∈ next.estdStreams) : streamID ∈ l.estdStreams := by
  cases hturn with
  | idle | crashed _ _ => exact hmem
  | parked _ _ hlookup _ _ => exact mem_of_mem_setStream (howned.id_mem hlookup) hmem
  | sent _ _ _ hlookup _ _ _ _ hdisposed =>
    have hself := howned.id_mem hlookup
    exact hdisposed.mem hself hmem

end LoopyWriter

theorem loopyStep_sound (hsound : state.writer.Sound side)
    (hstep : loopyStep state event = some next) : next.writer.Sound side := by
  obtain ⟨-, hcases⟩ := loopyStep_cases hsound.reliable hstep
  rcases hcases with ⟨env, item, added, result, -, -, -, hhandled⟩ | ⟨result, -, -, hturn⟩
  · exact hsound.handled hhandled
  · exact hsound.turn hturn

theorem loopyRun_sound (hrun : loopyRun hpack side events = some final) :
    final.writer.Sound side := by
  refine Machine.run_invariant (fun _ state => state.writer.Sound side) ?_ ?_ hrun
  · exact ⟨fun _ => rfl, rfl, by simp [Owned, newLoopyWriter]⟩
  · intro _ state event next _ hsound hnext
    exact loopyStep_sound hsound hnext

/-- The streams that the events of a run have registered. -/
def registrations (side : Side) (events : List LoopyEvent) : List UInt32 :=
  events.filterMap (LoopyEvent.registers side)

theorem mem_registrations_of_mem (hrun : loopyRun hpack side events = some final)
    (hmem : streamID ∈ final.writer.estdStreams) : streamID ∈ registrations side events := by
  refine Machine.run_invariant (fun past state => streamID ∈ state.writer.estdStreams →
    streamID ∈ registrations side past) ?_ ?_ hrun hmem
  · intro hstart
    simp [newLoopyWriter] at hstart
  · intro past state event next hpast hknown hnext hmem
    have hsound := loopyRun_sound hpast
    rw [registrations, List.filterMap_append, List.mem_append]
    obtain ⟨-, hcases⟩ := loopyStep_cases hsound.reliable hnext
    rcases hcases with ⟨env, item, added, result, rfl, -, -, hhandled⟩ | ⟨result, -, -, hturn⟩
    · rcases hhandled.mem_or_registers hsound.owned hmem with hold | hregisters
      · exact .inl (hknown hold)
      · rw [hsound.side_eq] at hregisters
        exact .inr (by simp [LoopyEvent.registers, hregisters])
    · exact .inl (hknown (hturn.mem hsound.owned hmem))

/-- When every stream is registered once, a registration meets a fresh identifier. -/
theorem lookup_eq_none_of_registeredOnce {past : List LoopyEvent}
    (hrun : loopyRun hpack side past = some state) (honce : RegisteredOnce side (past ++ [event]))
    (hregisters : event.registers side = some streamID) :
    state.writer.estdStreams.lookup streamID = none := by
  rw [AList.lookup_eq_none]
  intro hmem
  have hpast := mem_registrations_of_mem hrun hmem
  rw [RegisteredOnce, List.filterMap_append] at honce
  exact (List.nodup_append.mp honce).2.2 streamID hpast streamID (by simp [hregisters]) rfl

end Kitex.Http2
