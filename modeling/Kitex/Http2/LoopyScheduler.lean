import Kitex.Http2.LoopyRuns

/-! # Consistency of the loopy writer's schedule

The writer keeps the streams that may send in an intrusive list and parks the
others. In every run the list holds exactly the active streams, a stream is
parked only while it has nothing to send or no quota, and `processData` finds
a data frame where it expects one.
-/

namespace Kitex.Http2

open Kitex.Container

variable {hpack : Hpack} {side : Side}

namespace OutStream

/-- The state of a stream agrees with its item list. -/
structure Shaped (str : OutStream) : Prop where
  empty_iff : str.state = .empty ↔ str.itl = []
  head_data : str.state ≠ .empty → ∃ df rest, str.itl = .data df :: rest

variable {str : OutStream}

theorem Shaped.of_data {df : DataFrame} {rest : List StreamItem} (hitl : str.itl = .data df :: rest)
    (hstate : str.state ≠ .empty) : str.Shaped :=
  ⟨by simp [hitl, hstate], fun _ => ⟨df, rest, hitl⟩⟩

theorem Shaped.of_nil (hitl : str.itl = []) (hstate : str.state = .empty) : str.Shaped :=
  ⟨by simp [hitl, hstate], fun hne => absurd hstate hne⟩

/-- Shape depends on the list and on whether the state is empty. -/
theorem Shaped.congr {changed : OutStream} (hshaped : str.Shaped) (hitl : changed.itl = str.itl)
    (hstate : changed.state = .empty ↔ str.state = .empty) : changed.Shaped := by
  refine ⟨by rw [hstate, hitl, hshaped.empty_iff], ?_⟩
  rw [hitl, ne_eq, hstate]
  exact hshaped.head_data

/-- An item may join the end of a list that is not empty. -/
theorem Shaped.append (hshaped : str.Shaped) (hstate : str.state ≠ .empty) (item : StreamItem) :
    Shaped { str with itl := str.itl ++ [item] } := by
  obtain ⟨df, rest, hdata⟩ := hshaped.head_data hstate
  exact .of_data (by rw [hdata, List.cons_append]) hstate

end OutStream

namespace LoopyWriter

/-- The active list holds `xs`, these are the active streams, and every stream
has the shape that its state promises. -/
structure Scheduled (l : LoopyWriter hpack) (xs : List UInt32) : Prop where
  links : l.activeStreams.Represents xs
  active_iff : ∀ streamID, streamID ∈ xs ↔
    ∃ str, l.estdStreams.lookup streamID = some str ∧ str.state = .active
  shaped : ∀ streamID str, l.estdStreams.lookup streamID = some str → str.Shaped

/-- Streams that wait for stream quota have none. -/
def Parked (l : LoopyWriter hpack) : Prop :=
  ∀ streamID str, l.estdStreams.lookup streamID = some str →
    str.state = .waitingOnStreamQuota → l.strQuota str ≤ 0

section Changes

variable {l next : LoopyWriter hpack} {xs ys : List UInt32}

variable {streamID : UInt32} {str changed : OutStream} {result : Option OutStream}

section

variable (hscheduled : l.Scheduled xs)
include hscheduled

theorem Scheduled.not_mem_of_state
    (hlookup : l.estdStreams.lookup streamID = some str) (hstate : str.state ≠ .active) :
    streamID ∉ xs := by
  rw [hscheduled.active_iff]
  rintro ⟨found, hfound, hactive⟩
  rw [hlookup, Option.some.injEq] at hfound
  exact hstate (hfound ▸ hactive)

theorem Scheduled.state_of_mem (hmem : streamID ∈ xs)
    (hlookup : l.estdStreams.lookup streamID = some str) : str.state = .active := by
  by_contra hstate
  exact hscheduled.not_mem_of_state hlookup hstate hmem

theorem Scheduled.not_mem_of_none
    (hlookup : l.estdStreams.lookup streamID = none) : streamID ∉ xs := by
  rw [hscheduled.active_iff]
  rintro ⟨found, hfound, -⟩
  simp [hlookup] at hfound

theorem Scheduled.congr (hstreams : next.estdStreams = l.estdStreams)
    (hlinks : next.activeStreams = l.activeStreams) : next.Scheduled xs := by
  refine ⟨hlinks ▸ hscheduled.links, ?_, ?_⟩
  · rw [hstreams]
    exact hscheduled.active_iff
  · rw [hstreams]
    exact hscheduled.shaped

end

theorem Parked.congr (hparked : l.Parked) (hstreams : next.estdStreams = l.estdStreams)
    (hoiws : next.oiws = l.oiws) : next.Parked := by
  intro streamID str hlookup hwaiting
  rw [hstreams] at hlookup
  rw [strQuota, hoiws]
  exact hparked streamID str hlookup hwaiting

/-- One stream changes or goes away, and the list of active streams follows. -/
theorem Scheduled.change (hscheduled : l.Scheduled xs) {changed : UInt32}
    (hlookup : ∀ streamID, next.estdStreams.lookup streamID =
      if streamID = changed then result else l.estdStreams.lookup streamID)
    (hlinks : next.activeStreams.Represents ys)
    (hself : changed ∈ ys ↔ ∃ str, result = some str ∧ str.state = .active)
    (hothers : ∀ streamID, streamID ≠ changed → (streamID ∈ ys ↔ streamID ∈ xs))
    (hshaped : ∀ str, result = some str → str.Shaped) : next.Scheduled ys := by
  refine ⟨hlinks, ?_, ?_⟩
  · intro streamID
    rw [hlookup]
    split
    next heq => rw [heq, hself]
    next hne => rw [hothers streamID hne, hscheduled.active_iff]
  · intro streamID found hfound
    rw [hlookup] at hfound
    split at hfound
    · exact hshaped found hfound
    · exact hscheduled.shaped streamID found hfound

theorem Parked.change (hparked : l.Parked) {changed : UInt32}
    (hlookup : ∀ streamID, next.estdStreams.lookup streamID =
      if streamID = changed then result else l.estdStreams.lookup streamID)
    (hoiws : next.oiws = l.oiws)
    (hself : ∀ str, result = some str → str.state = .waitingOnStreamQuota → l.strQuota str ≤ 0) :
    next.Parked := by
  intro streamID found hfound hwaiting
  rw [strQuota, hoiws]
  rw [hlookup] at hfound
  split at hfound
  · exact hself found hfound hwaiting
  · exact hparked streamID found hfound hwaiting

/-- A stream that was not active joins the end of the list. -/
theorem Scheduled.start (hscheduled : l.Scheduled xs)
    (hlookup : l.estdStreams.lookup streamID = some str) (hstate : str.state ≠ .active)
    (hid : changed.id = streamID) (hactive : changed.state = .active) (hshaped : changed.Shaped) :
    ((l.setStream changed).activate streamID).Scheduled (xs ++ [streamID]) := by
  have hfresh := hscheduled.not_mem_of_state hlookup hstate
  refine hscheduled.change (lookup_setStream l changed) (hscheduled.links.pushBack hfresh) ?_ ?_
    (by simpa using hshaped)
  · simp [hid, hactive]
  · intro other hne
    rw [hid] at hne
    simp [hne]

/-- A stream changes without becoming active or ceasing to be. -/
theorem Scheduled.keep (hscheduled : l.Scheduled xs)
    (hlookup : l.estdStreams.lookup streamID = some str) (hid : changed.id = streamID)
    (hstate : changed.state = str.state) (hshaped : changed.Shaped) :
    (l.setStream changed).Scheduled xs := by
  refine hscheduled.change (lookup_setStream l changed) hscheduled.links ?_
    (fun _ _ => Iff.rfl) (by simpa using hshaped)
  rw [hid, hscheduled.active_iff, hlookup]
  simp [hstate]

theorem Scheduled.forget (hscheduled : l.Scheduled xs) (gone : UInt32) :
    (l.forget gone).Scheduled (xs.erase gone) := by
  have hlinks : (l.forget gone).activeStreams.Represents (xs.erase gone) := by
    unfold LoopyWriter.forget
    split
    next hnone =>
      rw [List.erase_of_not_mem (hscheduled.not_mem_of_none hnone)]
      exact hscheduled.links
    next => exact hscheduled.links.unlink gone
  refine hscheduled.change (lookup_forget l gone) hlinks ?_ ?_ (by simp)
  · simp [hscheduled.links.nodup.not_mem_erase]
  · intro streamID hne
    exact List.mem_erase_of_ne hne

theorem Parked.forget (hparked : l.Parked) (gone : UInt32) : (l.forget gone).Parked :=
  hparked.change (lookup_forget l gone) (l.forget_oiws gone) (by simp)

theorem Parked.setStream (hparked : l.Parked)
    (hself : changed.state = .waitingOnStreamQuota → l.strQuota changed ≤ 0) :
    (l.setStream changed).Parked :=
  hparked.change (lookup_setStream l changed) rfl (by simpa using hself)

end Changes

/-! ## Settings -/

variable {l next : LoopyWriter hpack} {xs : List UInt32} {result : Except LoopyErr Bool}
  {streamID : UInt32} {str : OutStream}

theorem Scheduled.activateDepleted (hscheduled : l.Scheduled xs) (howned : l.Owned)
    (streamID : UInt32) : ∃ ys, (l.activateDepleted streamID).Scheduled ys := by
  unfold LoopyWriter.activateDepleted
  split
  next => exact ⟨xs, hscheduled⟩
  next str hlookup =>
    obtain ⟨hid, -⟩ := howned _ _ hlookup
    split
    next hwaiting =>
      rw [hid]
      refine ⟨_, hscheduled.start hlookup (by simp [hwaiting]) rfl rfl ?_⟩
      exact (hscheduled.shaped _ _ hlookup).congr rfl (by simp [hwaiting])
    next => exact ⟨xs, hscheduled⟩

theorem Scheduled.applySetting (hscheduled : l.Scheduled xs) (howned : l.Owned) (env : Surroundings)
    (s : Setting) : ∃ ys, (l.applySetting env s).Scheduled ys := by
  have hfold : ∀ (order : List UInt32) (l : LoopyWriter hpack) (xs : List UInt32),
      l.Scheduled xs → l.Owned →
        ∃ ys, (order.foldl LoopyWriter.activateDepleted l).Scheduled ys := by
    intro order
    induction order with
    | nil => exact fun l xs hscheduled _ => ⟨xs, hscheduled⟩
    | cons streamID order ih =>
      intro l xs hscheduled howned
      obtain ⟨ys, hactivated⟩ := hscheduled.activateDepleted howned streamID
      exact ih _ ys hactivated (howned.activateDepleted streamID)
  have hset : ({ l with oiws := s.val } : LoopyWriter hpack).Scheduled xs :=
    hscheduled.congr rfl rfl
  unfold LoopyWriter.applySetting
  split
  next =>
    simp only
    split
    next => exact hfold _ _ xs hset howned
    next => exact ⟨xs, hset⟩
  next =>
    split
    next => exact ⟨xs, hscheduled.congr rfl rfl⟩
    next => exact ⟨xs, hscheduled⟩

/-- A larger window leaves no stream waiting, a smaller one takes quota away. -/
theorem Parked.applySetting (hparked : l.Parked) (howned : l.Owned) (env : Surroundings)
    (s : Setting) : (l.applySetting env s).Parked := by
  intro streamID found hfound hwaiting
  rw [applySetting_lookup howned] at hfound
  split at hfound
  next =>
    obtain ⟨str, -, rfl⟩ := Option.map_eq_some_iff.mp hfound
    exact absurd hwaiting (str.resumed_state_ne)
  next hnot =>
    have hquota := hparked streamID found hfound hwaiting
    rw [strQuota] at hquota ⊢
    rw [(applySetting_frame _ env s).2]
    split
    next hid =>
      have hle : s.val ≤ l.oiws := by
        rw [not_and] at hnot
        exact UInt32.not_lt.mp (hnot hid)
      have := UInt32.le_iff_toNat_le.mp hle
      omega
    next => exact hquota

theorem applySettings_scheduled (hscheduled : l.Scheduled xs) (hparked : l.Parked)
    (howned : l.Owned) (env : Surroundings) (ss : List Setting) :
    ∃ ys, (l.applySettings env ss).Scheduled ys ∧ (l.applySettings env ss).Parked := by
  induction ss generalizing l xs with
  | nil => exact ⟨xs, hscheduled, hparked⟩
  | cons s ss ih =>
    obtain ⟨ys, happlied⟩ := hscheduled.applySetting howned env s
    exact ih happlied (hparked.applySetting howned env s)
      (applySettings_lookup howned env [s] 0).1

/-! ## Handling an item -/

/-- The schedule is in order. -/
def Steady (l : LoopyWriter hpack) : Prop :=
  ∃ xs, l.Scheduled xs ∧ l.Parked

theorem Steady.of_sameCore (hsame : l.SameCore next) (hsteady : l.Steady) : next.Steady := by
  obtain ⟨xs, hscheduled, hparked⟩ := hsteady
  exact ⟨xs, hscheduled.congr hsame.estdStreams hsame.activeStreams,
    hparked.congr hsame.estdStreams hsame.oiws⟩

theorem Steady.forget (hsteady : l.Steady) (gone : UInt32) : (l.forget gone).Steady := by
  obtain ⟨xs, hscheduled, hparked⟩ := hsteady
  exact ⟨_, hscheduled.forget gone, hparked.forget gone⟩

open Steady

theorem Steady.handled {env : Surroundings} {item : CbItem} {added : List Effect}
    {result : Except LoopyErr Unit} (hsteady : l.Steady) (hsound : l.Sound side)
    (hfresh : ∀ streamID, item.registers side = some streamID →
      l.estdStreams.lookup streamID = none) (hhandled : Handled env l item next added result) :
    next.Steady ∧ result ≠ .error .panicked := by
  obtain ⟨xs, hscheduled, hparked⟩ := hsteady
  cases hhandled with
  | kept draining hsame _ hresult _ =>
    refine ⟨of_sameCore hsame ⟨xs, ?_, ?_⟩, hresult⟩
    · exact hscheduled.congr rfl rfl
    · exact hparked.congr rfl rfl
  | connWindow increment =>
    exact ⟨⟨xs, hscheduled.congr rfl rfl, hparked.congr rfl rfl⟩, by simp⟩
  | credited increment hlookup hcredit hkeep =>
    obtain ⟨hid, -⟩ := hsound.owned _ _ hlookup
    subst hcredit
    have hshaped := (hscheduled.shaped _ _ hlookup)
    refine ⟨⟨xs, hscheduled.keep hlookup hid rfl (hshaped.congr rfl Iff.rfl), ?_⟩, by simp⟩
    refine hparked.setStream fun hwaiting => ?_
    exact Int.not_lt.mp fun hpositive => hkeep ⟨hpositive, hwaiting⟩
  | resumed increment hlookup hwaiting =>
    obtain ⟨hid, -⟩ := hsound.owned _ _ hlookup
    have hshaped := (hscheduled.shaped _ _ hlookup)
    rw [hid]
    refine ⟨⟨_, hscheduled.start hlookup (by simp [hwaiting]) rfl rfl ?_, ?_⟩, by simp⟩
    · exact hshaped.congr rfl (by simp [hwaiting])
    · exact (hparked.setStream (by simp)).congr rfl rfl
  | settings ss hsame _ =>
    exact ⟨of_sameCore hsame
      (applySettings_scheduled hscheduled hparked hsound.owned env ss), by simp⟩
  | registered streamID hregisters hsame _ =>
    have hnone := hfresh streamID (hsound.side_eq ▸ hregisters)
    refine ⟨of_sameCore hsame ⟨xs, ?_, hparked.setStream (by simp [newOutStream])⟩,
      by simp⟩
    refine hscheduled.change (lookup_setStream l _) hscheduled.links ?_
      (fun _ _ => Iff.rfl) ?_
    · simp [newOutStream, hscheduled.not_mem_of_none hnone]
    · rintro str hstr
      exact Option.some.inj hstr ▸ .of_nil rfl rfl
  | queuedTrailers _ hlookup _ hstate | appendedData hlookup hstate =>
    obtain ⟨hid, -⟩ := hsound.owned _ _ hlookup
    have hshaped := (hscheduled.shaped _ _ hlookup).append hstate
    have hwaits := hparked _ _ hlookup
    exact ⟨⟨xs, hscheduled.keep hlookup hid rfl (hshaped _), hparked.setStream hwaits⟩, by simp⟩
  | wroteTrailers _ _ _ hresult hsame | forgotten hsame _ hresult =>
    exact ⟨of_sameCore hsame (forget ⟨xs, hscheduled, hparked⟩ _), hresult⟩
  | startedData hlookup hstate =>
    obtain ⟨hid, -⟩ := hsound.owned _ _ hlookup
    have hnil := (hscheduled.shaped _ _ hlookup).empty_iff.mp hstate
    rw [hid]
    refine ⟨⟨_, hscheduled.start hlookup (by simp [hstate]) rfl rfl ?_, ?_⟩, by simp⟩
    · exact .of_data (by rw [hnil]; rfl) (by simp)
    · exact (hparked.setStream (by simp)).congr rfl rfl

/-! ## Turns of `processData` -/

/-- The first active stream leaves the list. -/
theorem Scheduled.popFront (hscheduled : l.Scheduled xs) {active : Links UInt32}
    (hpop : l.activeStreams.popFront = some (streamID, active)) :
    ∃ ys, xs = streamID :: ys ∧ active.Represents ys ∧ streamID ∉ ys := by
  cases xs with
  | nil =>
    rw [hscheduled.links.popFront_nil] at hpop
    cases hpop
  | cons first ys =>
    obtain ⟨hfirst, hrest⟩ := hscheduled.links.popFront_cons
    rw [hfirst, Option.some.injEq, Prod.mk.injEq] at hpop
    obtain ⟨rfl, rfl⟩ := hpop
    exact ⟨ys, rfl, hrest, (List.nodup_cons.mp hscheduled.links.nodup).1⟩

section Popped

variable {l next : LoopyWriter hpack} {ys : List UInt32} {streamID : UInt32}

/-- The stream taken from the list is not put back. -/
theorem Scheduled.leave (hscheduled : l.Scheduled (streamID :: ys)) {result : Option OutStream}
    (hlookup : ∀ other, next.estdStreams.lookup other =
      if other = streamID then result else l.estdStreams.lookup other)
    (hlinks : next.activeStreams.Represents ys) (hfresh : streamID ∉ ys)
    (hresult : ∀ str, result = some str → str.state ≠ .active ∧ str.Shaped) :
    next.Scheduled ys := by
  refine hscheduled.change hlookup hlinks ?_ ?_ fun str hstr => (hresult str hstr).2
  · refine ⟨fun hmem => absurd hmem hfresh, ?_⟩
    rintro ⟨str, hstr, hactive⟩
    exact absurd hactive (hresult str hstr).1
  · intro other hne
    simp [hne]

/-- The stream taken from the list goes to its end. -/
theorem Scheduled.requeue (hscheduled : l.Scheduled (streamID :: ys))
    (hlookup : ∀ other, next.estdStreams.lookup other =
      if other = streamID then some str else l.estdStreams.lookup other)
    (hlinks : next.activeStreams.Represents (ys ++ [streamID])) (hstate : str.state = .active)
    (hshaped : str.Shaped) : next.Scheduled (ys ++ [streamID]) := by
  refine hscheduled.change hlookup hlinks ?_ ?_ (by simpa using hshaped)
  · simp [hstate]
  · intro other hne
    simp [hne]

end Popped

/-- After a piece of it has been sent, a stream finds its place again. -/
theorem Disposed.steady {popped : LoopyWriter hpack} {ys : List UInt32} {after : List Effect}
    (hdisposed : Disposed popped str next after result) (hscheduled : l.Scheduled (streamID :: ys))
    (hparked : l.Parked) (hstreams : popped.estdStreams = l.estdStreams)
    (hoiws : popped.oiws = l.oiws) (hlinks : popped.activeStreams.Represents ys)
    (hfresh : streamID ∉ ys) (hid : str.id = streamID) (hstate : str.state = .active)
    (hitems : ∀ item ∈ str.itl, item.OwnedBy streamID) :
    next.Steady ∧ result ≠ .error .panicked := by
  have hpopped : popped.Parked := hparked.congr hstreams hoiws
  have hset : ∀ changed : OutStream, changed.id = str.id → ∀ other,
      (popped.setStream changed).estdStreams.lookup other =
        if other = streamID then some changed else l.estdStreams.lookup other := by
    intro changed hchanged other
    rw [lookup_setStream, hchanged, hid, hstreams]
  cases hdisposed with
  | drained hitl hsame =>
    refine ⟨of_sameCore hsame ⟨ys, ?_, hpopped.setStream (by simp)⟩, by simp⟩
    refine hscheduled.leave (hset _ rfl) hlinks hfresh ?_
    rintro changed hchanged
    cases hchanged
    exact ⟨by simp, .of_nil hitl rfl⟩
  | requeued hitl hsame =>
    rw [hid] at hsame
    refine ⟨of_sameCore hsame ⟨ys ++ [streamID], ?_, ?_⟩, by simp⟩
    · exact hscheduled.requeue (hset _ rfl) (hlinks.pushBack hfresh) hstate
        (.of_data hitl (by simp [hstate]))
    · exact (hpopped.setStream (by simp [hstate])).congr rfl rfl
  | blocked hitl hquota hsame =>
    refine ⟨of_sameCore hsame ⟨ys, ?_, hpopped.setStream fun _ => hquota⟩, by simp⟩
    refine hscheduled.leave (hset _ rfl) hlinks hfresh ?_
    rintro changed hchanged
    cases hchanged
    exact ⟨by simp, .of_data hitl (by simp)⟩
  | trailed hitl _ hresult hsame =>
    rw [hitl] at hitems
    obtain ⟨hself, -⟩ := hitems _ List.mem_cons_self
    rw [hself] at hsame
    have hgone : ∀ other, ((popped.setStream str).forget streamID).estdStreams.lookup other =
        if other = streamID then none else l.estdStreams.lookup other := by
      intro other
      rw [lookup_forget, hset _ rfl]
      split <;> rfl
    refine ⟨of_sameCore hsame ⟨ys, hscheduled.leave hgone ?_ hfresh (by simp),
      (hpopped.setStream (by simp [hstate])).forget _⟩, hresult⟩
    have hunlink := hlinks.unlink streamID
    rw [List.erase_of_not_mem hfresh] at hunlink
    unfold LoopyWriter.forget
    split
    · exact hlinks
    · exact hunlink
  | trailedNil hitl hcleanup _ _ =>
    -- queued trailers end their stream, so they carry its cleanup
    rw [hitl] at hitems
    obtain ⟨-, hend⟩ := hitems _ List.mem_cons_self
    rw [HeaderFrame.endStream_eq, hcleanup] at hend
    cases hend

theorem Steady.turn (hsteady : l.Steady) (hsound : l.Sound side) (hturn : Turn l next result) :
    next.Steady ∧ result ≠ .error .panicked := by
  obtain ⟨xs, hscheduled, hparked⟩ := hsteady
  cases hturn with
  | idle => exact ⟨⟨xs, hscheduled, hparked⟩, by simp⟩
  | crashed hpop hhead =>
    obtain ⟨ys, rfl, -, -⟩ := hscheduled.popFront hpop
    obtain ⟨str, hlookup, hactive⟩ := (hscheduled.active_iff _).mp List.mem_cons_self
    obtain ⟨df, rest, hitl⟩ :=
      (hscheduled.shaped _ _ hlookup).head_data (by simp [hactive])
    exact absurd hitl (hhead str df rest hlookup)
  | parked active hpop hlookup hitl hquota =>
    obtain ⟨ys, rfl, hlinks, hfresh⟩ := hscheduled.popFront hpop
    obtain ⟨hid, hitems⟩ := hsound.owned _ _ hlookup
    have hactive := hscheduled.state_of_mem List.mem_cons_self hlookup
    have hblocked : ({ l with activeStreams := active } : LoopyWriter hpack).Disposed _ _ [] _ :=
      .blocked hitl hquota (.refl _)
    exact hblocked.steady hscheduled hparked rfl rfl hlinks hfresh hid hactive hitems
  | sent before after hpop hlookup hitl cut _ _ hdisposed =>
    obtain ⟨ys, rfl, hlinks, hfresh⟩ := hscheduled.popFront hpop
    obtain ⟨hid, hitems⟩ := hsound.owned _ _ hlookup
    have hactive := hscheduled.state_of_mem List.mem_cons_self hlookup
    rw [hitl] at hitems
    exact hdisposed.steady hscheduled hparked rfl rfl hlinks hfresh hid hactive
      (stream_owned cut hitems)

/-! ## Every run -/

/-- The active list holds exactly the established streams that are active, each
once; a stream is empty exactly when it has no items; any other stream has a
data frame at the head of its list; and one that waits for quota has none. -/
structure Consistent (l : LoopyWriter hpack) : Prop where
  active : ∃ xs, l.activeStreams.Represents xs ∧ xs.Nodup ∧ ∀ streamID, streamID ∈ xs ↔
    ∃ str, l.estdStreams.lookup streamID = some str ∧ str.state = .active
  empty_iff : ∀ streamID str, l.estdStreams.lookup streamID = some str →
    (str.state = .empty ↔ str.itl = [])
  head_data : ∀ streamID str, l.estdStreams.lookup streamID = some str →
    str.state = .active ∨ str.state = .waitingOnStreamQuota →
    ∃ df rest, str.itl = .data df :: rest
  waiting : ∀ streamID str, l.estdStreams.lookup streamID = some str →
    str.state = .waitingOnStreamQuota → (l.oiws.toNat : Int) - str.bytesOutStanding ≤ 0

theorem Steady.consistent (hsteady : l.Steady) : l.Consistent := by
  obtain ⟨xs, hscheduled, hparked⟩ := hsteady
  refine ⟨⟨xs, hscheduled.links, hscheduled.links.nodup, hscheduled.active_iff⟩, ?_, ?_, hparked⟩
  · exact fun streamID str hlookup => (hscheduled.shaped streamID str hlookup).empty_iff
  · intro streamID str hlookup hstate
    refine (hscheduled.shaped streamID str hlookup).head_data ?_
    rcases hstate with hstate | hstate <;> simp [hstate]

theorem newLoopyWriter_steady (side : Side) (framer : Framer) :
    (newLoopyWriter hpack side framer).Steady :=
  ⟨[], ⟨Links.empty_represents, by simp [newLoopyWriter], by simp [newLoopyWriter]⟩,
    by simp [Parked, newLoopyWriter]⟩

end LoopyWriter

open LoopyWriter

theorem RegisteredOnce.of_append {past : List LoopyEvent} {event : LoopyEvent}
    (honce : RegisteredOnce side (past ++ [event])) : RegisteredOnce side past := by
  rw [RegisteredOnce, List.filterMap_append] at honce
  exact (List.nodup_append.mp honce).1

theorem loopyRun_steady {events : List LoopyEvent} {final : LoopyState hpack}
    (hrun : loopyRun hpack side events = some final) (honce : RegisteredOnce side events) :
    final.writer.Steady ∧ final.stopped ≠ some .panicked := by
  refine Machine.run_invariant (fun past state => RegisteredOnce side past →
    state.writer.Steady ∧ state.stopped ≠ some .panicked) ?_ ?_ hrun honce
  · exact fun _ => ⟨newLoopyWriter_steady side _, by simp⟩
  · intro past state event next hpast hsteady hnext honce
    have hsound := loopyRun_sound hpast
    obtain ⟨hsteady, -⟩ := hsteady honce.of_append
    obtain ⟨-, hcases⟩ := loopyStep_cases hsound.reliable hnext
    rcases hcases with ⟨env, item, added, result, rfl, hstate, -, hhandled⟩ |
      ⟨result, rfl, hstate, hturn⟩
    · obtain ⟨hnext, hresult⟩ := hsteady.handled hsound
        (fun _ => lookup_eq_none_of_registeredOnce hpast honce) hhandled
      refine ⟨hnext, ?_⟩
      rw [hstate, ne_eq, Outcome.toState_stopped]
      exact hresult
    · obtain ⟨hnext, hresult⟩ := hsteady.turn hsound hturn
      refine ⟨hnext, ?_⟩
      rw [hstate, ne_eq, Outcome.toState_stopped]
      exact hresult

/-- In every run in which no stream identifier is registered twice, the
schedule is consistent and no type assertion of the writer panics. -/
theorem loopyRun_consistent {side : Side} {events : List LoopyEvent} {final : LoopyState hpack}
    (hrun : loopyRun hpack side events = some final) (honce : RegisteredOnce side events) :
    final.writer.Consistent ∧ final.stopped ≠ some .panicked := by
  obtain ⟨hsteady, hstopped⟩ := loopyRun_steady hrun honce
  exact ⟨hsteady.consistent, hstopped⟩

/-- A client opens a stream, queues a message and sends it. -/
def oneMessage : List LoopyEvent :=
  [.handle Surroundings.quiet (.headerFrame (.opening 1 [])),
    .handle Surroundings.quiet (.dataFrame ⟨1, false, [0, 0, 0, 0, 1], [7], false⟩),
    .processData]

theorem loopyRun_consistent_oneMessage : ∃ final,
    loopyRun Hpack.verbatim .clientSide oneMessage = some final ∧
      RegisteredOnce .clientSide oneMessage ∧ final.writer.Consistent ∧
      final.stopped ≠ some .panicked := by
  have hsome : (loopyRun Hpack.verbatim .clientSide oneMessage).isSome = true := rfl
  obtain ⟨final, hrun⟩ := Option.isSome_iff_exists.mp hsome
  exact ⟨final, hrun, by decide, loopyRun_consistent hrun (by decide)⟩

end Kitex.Http2
