import Kitex.Http2.ControlBuffer

/-! # Every run of the control buffer

The buffer is a queue: what was accepted is what the consumer has got, what is
queued and what `finish` has thrown away, in this order. The count of response
frames and the throttling channel follow the queue until the buffer is finished;
`finish` empties the queue and leaves both as they are, since nothing looks at
them any more. A consumer that waits is either announced to the producers, or its
wake-up is under way.
-/

namespace Kitex.Http2

namespace ControlBuffer

variable {Err : Type} {c : ControlBuffer Err}

/-- The number of queued response frames. -/
def queuedResponses (c : ControlBuffer Err) : Nat :=
  c.list.countP CbItem.isTransportResponseFrame

/-- There is a throttling channel exactly while the count is at the threshold,
and all channels made before have been closed, each once and in order. -/
structure Throttles (c : ControlBuffer Err) : Prop where
  exists_iff : c.trfChan.isSome = true ↔
    maxQueuedTransportResponseFrames ≤ c.transportResponseFrames
  current : ∀ ch, c.trfChan = some ch → c.channels = ch + 1 ∧ c.closed = List.range ch
  cleared : c.trfChan = none → c.closed = List.range c.channels
  panicked : c.panicked = false

theorem Throttles.eq_none (hthrottles : c.Throttles)
    (hless : c.transportResponseFrames < maxQueuedTransportResponseFrames) : c.trfChan = none := by
  cases htrf : c.trfChan with
  | none => rfl
  | some ch =>
    have hge := hthrottles.exists_iff.mp (by simp [htrf])
    omega

theorem Throttles.current_lt (hthrottles : c.Throttles) {ch : Nat} (htrf : c.trfChan = some ch) :
    ch < c.channels := by
  have hchannels := (hthrottles.current ch htrf).1
  omega

theorem Throttles.count_closed (hthrottles : c.Throttles) (ch : Nat) :
    c.closed.count ch = if ch < c.channels ∧ c.trfChan ≠ some ch then 1 else 0 := by
  cases htrf : c.trfChan with
  | none =>
    rw [hthrottles.cleared htrf, List.nodup_range.count]
    simp
  | some current =>
    obtain ⟨hchannels, hclosed⟩ := hthrottles.current current htrf
    have hless : ch ∈ List.range current ↔ ch < c.channels ∧ some current ≠ some ch := by
      rw [List.mem_range, hchannels, ne_eq, Option.some.injEq]
      omega
    rw [hclosed, List.nodup_range.count]
    exact if_congr hless rfl rfl

/-! ## Operations on the queue -/

section Queue

variable {c : ControlBuffer Err} (it : CbItem)

/-- Everything but the queue, the count and the channel. -/
theorem enqueue_frame : (c.enqueue it).list = c.list ++ [it] ∧ (c.enqueue it).err = c.err ∧
      (c.enqueue it).ch = c.ch ∧ (c.enqueue it).consumerWaiting = c.consumerWaiting ∧
      (c.enqueue it).transportResponseFrames =
        c.transportResponseFrames + it.isTransportResponseFrame.toNat := by
  unfold enqueue
  cases it.isTransportResponseFrame with
  | false => simp
  | true =>
    simp only [if_true]
    split <;> simp [makeTrfChan]

theorem enqueue_queuedResponses :
    (c.enqueue it).queuedResponses = c.queuedResponses + it.isTransportResponseFrame.toNat := by
  rw [queuedResponses, (enqueue_frame it).1, List.countP_append, List.countP_singleton]
  cases it.isTransportResponseFrame <;> rfl

theorem enqueue_throttles (hthrottles : c.Throttles) : (c.enqueue it).Throttles := by
  unfold enqueue
  split
  next =>
    simp only
    split
    next hreached =>
      -- the frame reaches the threshold, so that there was no channel
      have hnone := hthrottles.eq_none (by omega)
      refine ⟨?_, ?_, nofun, hthrottles.panicked⟩
      · simp [makeTrfChan] at hreached ⊢
        omega
      · rintro ch ⟨⟩
        exact ⟨rfl, hthrottles.cleared hnone⟩
    next hother =>
      refine ⟨?_, hthrottles.current, hthrottles.cleared, hthrottles.panicked⟩
      have hiff := hthrottles.exists_iff
      simp only at hother ⊢
      rw [hiff]
      omega
  next => exact { hthrottles with }

theorem dequeue_frame (rest : List CbItem) :
    (c.dequeue it rest).list = rest ∧ (c.dequeue it rest).err = c.err ∧
      (c.dequeue it rest).ch = c.ch ∧
      (c.dequeue it rest).consumerWaiting = c.consumerWaiting ∧
      (c.dequeue it rest).transportResponseFrames =
        c.transportResponseFrames - it.isTransportResponseFrame.toNat := by
  unfold dequeue
  cases it.isTransportResponseFrame with
  | false => simp
  | true =>
    simp only [if_true, closeTrfChan]
    split
    · split <;> simp
    · simp

theorem dequeue_queuedResponses {rest : List CbItem} (hlist : c.list = it :: rest) :
    (c.dequeue it rest).queuedResponses + it.isTransportResponseFrame.toNat =
      c.queuedResponses := by
  rw [queuedResponses, queuedResponses, (dequeue_frame it rest).1, hlist, List.countP_cons]
  cases it.isTransportResponseFrame <;> rfl

theorem dequeue_throttles (rest : List CbItem) (hthrottles : c.Throttles) :
    (c.dequeue it rest).Throttles := by
  unfold dequeue
  split
  next =>
    simp only
    split
    next hreached =>
      -- the count leaves the threshold, where there is a channel
      have hsome := hthrottles.exists_iff.mpr (Int.le_of_eq hreached.symm)
      obtain ⟨ch, htrf⟩ := Option.isSome_iff_exists.mp hsome
      obtain ⟨hchannels, hclosed⟩ := hthrottles.current ch htrf
      simp only [closeTrfChan, htrf]
      refine ⟨?_, nofun, fun _ => ?_, hthrottles.panicked⟩
      · simp only [Option.isSome_none, Bool.false_eq_true, false_iff]
        omega
      · rw [hclosed, hchannels, List.range_succ]
    next hother =>
      refine ⟨?_, hthrottles.current, hthrottles.cleared, hthrottles.panicked⟩
      have hiff := hthrottles.exists_iff
      simp only at hother ⊢
      rw [hiff]
      omega
  next => exact { hthrottles with }

theorem channels_le_enqueue : c.channels ≤ (c.enqueue it).channels := by
  unfold enqueue
  split
  · simp only
    split <;> simp [makeTrfChan]
  · exact Nat.le_refl _

theorem channels_dequeue (rest : List CbItem) : (c.dequeue it rest).channels = c.channels := by
  unfold dequeue
  split
  · simp only [closeTrfChan]
    split
    · split <;> rfl
    · rfl
  · rfl

end Queue

end ControlBuffer

namespace BufferState

open ControlBuffer

variable {Err : Type} {side : Side}

/-! ## Outcomes -/

/-- What a step of the buffer and its users does. -/
inductive Stepped (side : Side) (s : BufferState Err) :
    BufferEvent Err → BufferState Err → Prop
  /-- nothing that the model keeps has changed -/
  | idle (event : BufferEvent Err) : Stepped side s event s
  | accepted (it : CbItem) (herr : s.buf.err = none) :
      Stepped side s (.executeAndPut true it) { s with
        buf := { s.buf with consumerWaiting := false }.enqueue it
        accepted := s.accepted ++ [it]
        wakers := s.wakers + s.buf.consumerWaiting.toNat }
  | wakeUp (hwakers : 0 < s.wakers) :
      Stepped side s .wakeUp
        { s with buf := { s.buf with ch := true }, wakers := s.wakers - 1 }
  | got {block : Bool} {it : CbItem} {rest : List CbItem} (herr : s.buf.err = none)
      (hlist : s.buf.list = it :: rest) :
      Stepped side s (.get block)
        { s with buf := s.buf.dequeue it rest, got := s.got ++ [it], consumer := .idle }
  | waits {block : Bool} (herr : s.buf.err = none) (hlist : s.buf.list = []) :
      Stepped side s (.get block)
        { s with buf := { s.buf with consumerWaiting := true }, consumer := .waiting }
  /-- `get` returns without an item -/
  | gotNothing {block : Bool} : Stepped side s (.get block) { s with consumer := .idle }
  | received (hwaiting : s.consumer = .waiting) :
      Stepped side s .receive
        { s with buf := { s.buf with ch := false }, consumer := .woken }
  | throttled (hreader : s.reader = none) :
      Stepped side s .throttle { s with reader := s.buf.trfChan }
  | released : Stepped side s .released { s with reader := none }
  | finished {event : BufferEvent Err} (e : FinishErr Err) {consumer : Consumer}
      (herr : s.buf.err = none) (hconsumer : consumer = s.consumer ∨ consumer = .idle) :
      Stepped side s event { s with
        buf := { s.buf with err := some e, list := [] }
        discarded := s.discarded ++ s.buf.list
        orphaned := s.orphaned ++ orphans side s.buf.list e
        consumer := consumer }
  /-- the consumer finds the buffer finished when `done` is closed -/
  | connDone : Stepped side s .connDone { s with consumer := .idle }
  | closed : Stepped side s .close { s with buf := { s.buf with done := true } }

section Outcomes

variable {s next : BufferState Err}

theorem stepped_put (success : Bool) (it : CbItem) :
    Stepped side s (.executeAndPut success it) (s.put success it) := by
  cases herr : s.buf.err with
  | some e =>
    simp only [put, executeAndPut, herr]
    exact .idle _
  | none =>
    cases success with
    | true => simpa [put, executeAndPut, herr] using Stepped.accepted it herr
    | false =>
      simp only [put, executeAndPut, herr]
      exact .idle _

theorem stepped_get (block : Bool) : Stepped side s (.get block) (s.get block) := by
  cases herr : s.buf.err with
  | some e =>
    simp only [get, ControlBuffer.get, herr]
    exact .gotNothing
  | none =>
    cases hlist : s.buf.list with
    | cons it rest =>
      simp only [get, ControlBuffer.get, herr, hlist]
      exact .got herr hlist
    | nil =>
      cases block with
      | true => simpa [get, ControlBuffer.get, herr, hlist] using Stepped.waits herr hlist
      | false =>
        simp only [get, ControlBuffer.get, herr, hlist]
        exact .gotNothing

/-- `finish` does something only the first time. -/
theorem finish_cases (side : Side) (s : BufferState Err) (e : FinishErr Err) :
    s.finish side e = s ∨ (s.buf.err = none ∧ s.finish side e = { s with
      buf := { s.buf with err := some e, list := [] }
      discarded := s.discarded ++ s.buf.list
      orphaned := s.orphaned ++ orphans side s.buf.list e }) := by
  cases herr : s.buf.err with
  | some old =>
    left
    cases side <;> simp [finish, ControlBuffer.finish, herr, orphans]
  | none => exact .inr ⟨rfl, by simp [finish, ControlBuffer.finish, herr]⟩

theorem stepped_of_step {event : BufferEvent Err} (hnext : s.step side event = some next) :
    Stepped side s event next := by
  cases event with
  | executeAndPut success it =>
    cases hnext
    exact stepped_put success it
  | execute success =>
    cases hnext
    exact .idle _
  | wakeUp =>
    obtain ⟨hwakers, ⟨⟩⟩ := Option.ite_none_right_eq_some.mp hnext
    exact .wakeUp hwakers
  | get block =>
    simp only [step] at hnext
    split at hnext
    next =>
      cases hnext
      exact stepped_get block
    next =>
      obtain ⟨rfl, ⟨⟩⟩ := Option.ite_none_right_eq_some.mp hnext
      exact stepped_get true
    next => cases hnext
  | receive =>
    obtain ⟨⟨hwaiting, _⟩, ⟨⟩⟩ := Option.ite_none_right_eq_some.mp hnext
    exact .received hwaiting
  | connDone =>
    obtain ⟨_, ⟨⟩⟩ := Option.ite_none_right_eq_some.mp hnext
    rcases finish_cases side s .connClosing with hsame | ⟨herr, hfinish⟩
    · rw [hsame]
      exact .connDone
    · rw [hfinish]
      exact .finished _ herr (.inr rfl)
  | throttle =>
    obtain ⟨hreader, ⟨⟩⟩ := Option.ite_none_right_eq_some.mp hnext
    exact .throttled hreader
  | released =>
    simp only [step] at hnext
    split at hnext
    next =>
      obtain ⟨_, ⟨⟩⟩ := Option.ite_none_right_eq_some.mp hnext
      exact .released
    next => cases hnext
  | finish e =>
    cases hnext
    rcases finish_cases side s (.given e) with hsame | ⟨herr, hfinish⟩
    · rw [hsame]
      exact .idle _
    · rw [hfinish]
      exact .finished _ herr (.inl rfl)
  | close =>
    cases hnext
    exact .closed

end Outcomes

/-! ## Invariants -/

structure Sound (side : Side) (s : BufferState Err) : Prop where
  fifo : s.accepted = s.got ++ s.buf.list ++ s.discarded
  throttles : s.buf.Throttles
  opened : s.buf.err = none → s.discarded = [] ∧ s.orphaned = [] ∧
    s.buf.transportResponseFrames = s.buf.queuedResponses
  finished : ∀ e, s.buf.err = some e →
    s.buf.list = [] ∧ s.orphaned = orphans side s.discarded e
  waiting : s.consumer = .waiting →
    if s.buf.consumerWaiting = true then s.buf.list = [] else s.buf.ch = true ∨ 0 < s.wakers
  reader : ∀ ch, s.reader = some ch → ch < s.buf.channels

section Invariants

variable {s next : BufferState Err} {event : BufferEvent Err}

section

variable (hsound : s.Sound side)
include hsound

theorem Sound.accepted (it : CbItem) (herr : s.buf.err = none) : Sound side { s with
      buf := { s.buf with consumerWaiting := false }.enqueue it
      accepted := s.accepted ++ [it]
      wakers := s.wakers + s.buf.consumerWaiting.toNat } := by
  obtain ⟨hlist, herr', hch, hwaiting, hcount⟩ :=
    enqueue_frame (c := { s.buf with consumerWaiting := false }) it
  obtain ⟨hdiscarded, horphaned, hequal⟩ := hsound.opened herr
  have hthrottles : { s.buf with consumerWaiting := false }.Throttles :=
    { hsound.throttles with }
  constructor
  · simp [hlist, hsound.fifo, hdiscarded]
  · exact enqueue_throttles it hthrottles
  · intro _
    refine ⟨hdiscarded, horphaned, ?_⟩
    rw [hcount, enqueue_queuedResponses, Int.natCast_add]
    exact congrArg (· + _) hequal
  · intro e hsome
    exact nomatch (herr'.trans herr).symm.trans hsome
  · intro hwait
    have hold := hsound.waiting hwait
    simp only [hwaiting, Bool.false_eq_true, if_false, hch]
    cases hannounced : s.buf.consumerWaiting with
    | true => exact .inr (by simp)
    | false => simpa [hannounced] using hold
  · intro ch hreader
    exact Nat.lt_of_lt_of_le (hsound.reader ch hreader)
      (channels_le_enqueue (c := { s.buf with consumerWaiting := false }) it)

theorem Sound.got {it : CbItem} {rest : List CbItem}
    (herr : s.buf.err = none) (hlist : s.buf.list = it :: rest) : Sound side
      { s with buf := s.buf.dequeue it rest, got := s.got ++ [it], consumer := .idle } := by
  obtain ⟨hrest, herr', _, _, hcount⟩ := dequeue_frame (c := s.buf) it rest
  obtain ⟨hdiscarded, horphaned, hequal⟩ := hsound.opened herr
  constructor
  · simp [hrest, hsound.fifo, hlist]
  · exact dequeue_throttles it rest hsound.throttles
  · intro _
    refine ⟨hdiscarded, horphaned, ?_⟩
    have hqueued := dequeue_queuedResponses it hlist
    rw [hcount, hequal, ← hqueued]
    simp
  · intro e hsome
    exact nomatch (herr'.trans herr).symm.trans hsome
  · nofun
  · intro ch hreader
    rw [channels_dequeue]
    exact hsound.reader ch hreader

theorem Sound.finish (e : FinishErr Err) {consumer : Consumer}
    (herr : s.buf.err = none) (hconsumer : consumer = s.consumer ∨ consumer = .idle) :
    Sound side { s with
      buf := { s.buf with err := some e, list := [] }
      discarded := s.discarded ++ s.buf.list
      orphaned := s.orphaned ++ orphans side s.buf.list e
      consumer := consumer } := by
  obtain ⟨hdiscarded, horphaned, _⟩ := hsound.opened herr
  constructor
  · simp [hsound.fifo, hdiscarded]
  · exact { hsound.throttles with }
  · nofun
  · rintro _ ⟨⟩
    exact ⟨rfl, by simp [horphaned, hdiscarded]⟩
  · intro hwait
    rcases hconsumer with rfl | rfl
    · have hold := hsound.waiting hwait
      simp only at hold ⊢
      split
      next => trivial
      next hannounced => simpa [hannounced] using hold
    · cases hwait
  · exact hsound.reader

theorem sound_of_step (hstep : Stepped side s event next) : next.Sound side := by
  cases hstep with
  | idle => exact hsound
  | accepted it herr => exact hsound.accepted it herr
  | wakeUp _ =>
    refine { hsound with throttles := { hsound.throttles with }, waiting := fun hwait => ?_ }
    have hold := hsound.waiting hwait
    simp only at hold ⊢
    split
    next hannounced => simpa [hannounced] using hold
    next => exact .inl trivial
  | got herr hlist => exact hsound.got herr hlist
  | waits _ hlist =>
    refine { hsound with throttles := { hsound.throttles with }, waiting := fun _ => ?_ }
    simpa using hlist
  | gotNothing | connDone => exact { hsound with waiting := nofun }
  | received _ =>
    exact { hsound with throttles := { hsound.throttles with }, waiting := nofun }
  | throttled _ =>
    exact { hsound with reader := fun _ htrf => hsound.throttles.current_lt htrf }
  | released => exact { hsound with reader := nofun }
  | finished e herr hconsumer => exact hsound.finish e herr hconsumer
  | closed => exact { hsound with throttles := { hsound.throttles with } }

end

/-- What a finished buffer keeps. -/
theorem finished_step {e : FinishErr Err} (herr : s.buf.err = some e)
    (hstep : Stepped side s event next) :
    next.buf.err = some e ∧ next.accepted = s.accepted ∧ next.got = s.got ∧
      next.orphaned = s.orphaned := by
  cases hstep with
  | accepted it hnone | got hnone _ | finished _ hnone _ => simp [herr] at hnone
  | _ => exact ⟨herr, rfl, rfl, rfl⟩

end Invariants

theorem start_sound : (start : BufferState Err).Sound side where
  fifo := rfl
  throttles := ⟨by simp [start, newControlBuffer, maxQueuedTransportResponseFrames], nofun,
    fun _ => rfl, rfl⟩
  opened _ := ⟨rfl, rfl, rfl⟩
  finished := nofun
  waiting := nofun
  reader := nofun

theorem run_sound {events : List (BufferEvent Err)} {s : BufferState Err}
    (hrun : run side events = some s) : s.Sound side := by
  refine Machine.run_invariant (fun _ s => s.Sound side) start_sound ?_ hrun
  intro _ s event next _ hsound hnext
  exact sound_of_step hsound (stepped_of_step hnext)

/-- What the buffer owes its users: items in order, a balanced throttle, no lost
wake-up, and an end after which nothing happens. -/
structure Correct (side : Side) (s : BufferState Err) : Prop where
  fifo : s.accepted = s.got ++ s.buf.list ++ s.discarded
  /-- nothing is thrown away, and the count is right, until the buffer is finished -/
  opened : s.buf.err = none → s.discarded = [] ∧
    s.buf.transportResponseFrames = s.buf.queuedResponses
  throttle : s.buf.trfChan.isSome = true ↔
    maxQueuedTransportResponseFrames ≤ s.buf.transportResponseFrames
  closes : s.buf.panicked = false ∧ ∀ ch, s.buf.closed.count ch =
    if ch < s.buf.channels ∧ s.buf.trfChan ≠ some ch then 1 else 0
  wakes : s.consumer = .waiting → s.buf.list ≠ [] → s.buf.ch = true ∨ 0 < s.wakers
  finished : ∀ e, s.buf.err = some e →
    s.buf.list = [] ∧ s.orphaned = orphans side s.discarded e ∧
      ∀ later next, Machine.run (step side) s later = some next →
        next.buf.err = some e ∧ next.accepted = s.accepted ∧ next.got = s.got ∧
          next.orphaned = s.orphaned

/-- Every state that a run of the control buffer reaches. -/
theorem run_controlBuffer (side : Side) {events : List (BufferEvent Err)} {s : BufferState Err}
    (hrun : run side events = some s) : s.Correct side := by
  have hsound := run_sound hrun
  refine ⟨hsound.fifo, fun herr => ?_, hsound.throttles.exists_iff,
    ⟨hsound.throttles.panicked, hsound.throttles.count_closed⟩, ?_, ?_⟩
  · obtain ⟨hdiscarded, _, hcount⟩ := hsound.opened herr
    exact ⟨hdiscarded, hcount⟩
  · intro hwaiting hqueued
    have hannounced := hsound.waiting hwaiting
    split at hannounced
    next => exact absurd hannounced hqueued
    next => exact hannounced
  · intro e herr
    obtain ⟨hlist, horphaned⟩ := hsound.finished e herr
    refine ⟨hlist, horphaned, fun later next hlater => ?_⟩
    refine Machine.run_invariant (fun _ next => next.buf.err = some e ∧
      next.accepted = s.accepted ∧ next.got = s.got ∧ next.orphaned = s.orphaned)
      ⟨herr, rfl, rfl, rfl⟩ ?_ hlater
    rintro _ state event after _ ⟨herr, haccepted, hgot, hsame⟩ hnext
    obtain ⟨herr', haccepted', hgot', hsame'⟩ := finished_step herr (stepped_of_step hnext)
    exact ⟨herr', haccepted'.trans haccepted, hgot'.trans hgot, hsame'.trans hsame⟩

theorem run_controlBuffer_orphan : ∃ s : BufferState Unit,
      run .clientSide [.get true, .executeAndPut true (.headerFrame (.opening 1 [])), .wakeUp,
        .finish ()] = some s ∧ s.Correct .clientSide ∧
      s.orphaned = [(.opening 1 [], .given ())] := by
  obtain ⟨s, hrun, horphaned⟩ : ∃ s : BufferState Unit,
      run .clientSide [.get true, .executeAndPut true (.headerFrame (.opening 1 [])), .wakeUp,
        .finish ()] = some s ∧ s.orphaned = [(.opening 1 [], .given ())] := ⟨_, rfl, rfl⟩
  exact ⟨s, hrun, run_controlBuffer .clientSide hrun, horphaned⟩

/-- A ping that waits when the buffer is finished is counted although it is not
queued any more. -/
theorem finish_keeps_transportResponseFrames : ∃ s : BufferState Unit,
      run .serverSide [.executeAndPut true (.ping ⟨true, goAwayPing⟩), .finish ()] = some s ∧
        s.buf.transportResponseFrames = 1 ∧ s.buf.queuedResponses = 0 :=
  ⟨_, rfl, rfl, rfl⟩

end BufferState

end Kitex.Http2
