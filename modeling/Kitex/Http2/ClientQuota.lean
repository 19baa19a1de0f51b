import Kitex.Http2.ClientRuns

/-! # The client's stream quota

While the transport is reachable and its control buffer in use, the quota and
the open streams add up to the limit that the server has set. The quota may be
negative: the server can lower the limit below the number of open streams.
-/

namespace Kitex.Http2

open Kitex.Container Call

/-- The stream has been admitted and not closed yet. -/
def Call.isOpen (call : Call) : Bool :=
  decide (call.progress = .admitted) && !call.finished

variable {call : Call}

theorem Call.isOpen_eq_false (hprogress : call.progress ≠ .admitted) : call.isOpen = false := by
  simp [isOpen, hprogress]

namespace ClientTransport

def openStreams (t : ClientTransport) : Nat :=
  t.calls.countP Call.isOpen

def Working (t : ClientTransport) : Prop :=
  t.state = .reachable ∧ t.bufErr = false

/-- The quota is what the limit leaves, and exactly the closed streams have
given theirs back. -/
structure Balanced (t : ClientTransport) : Prop where
  quota : t.streamQuota + t.openStreams = t.maxConcurrentStreams.toNat
  returned : ∀ call ∈ t.calls, call.returns = call.finished.toNat

/-- The limit and whether the next SETTINGS frame is the first, after an event. -/
def limitAfter : UInt32 × Bool → ClientEvent → UInt32 × Bool
  | (limit, isFirst), .handleSettings false ss => ((maxStreamsOf isFirst ss).getD limit, false)
  | (limit, _), .handleSettings true _ => (limit, false)
  | settled, _ => settled

/-- The limit that the SETTINGS frames of a run have set, or the default. -/
def limitOf (events : List ClientEvent) : UInt32 :=
  (events.foldl limitAfter (defaultMaxStreamsClient, true)).1

section Step

variable {t next : ClientTransport} {event : ClientEvent} {ref : Nat}

theorem limit_of_step (hnext : t.step event = some next) (hbuf : t.bufErr = false) :
    (next.maxConcurrentStreams, !next.prefaceRead) =
      limitAfter (t.maxConcurrentStreams, !t.prefaceRead) event := by
  cases event with
  | handleSettings ack ss =>
    obtain ⟨-, heq⟩ := Option.ite_none_right_eq_some.mp hnext
    cases heq
    cases ack with
    | true => rfl
    | false =>
      simp only [handleSettings, limitAfter, hbuf, Bool.or_self, Bool.false_eq_true, if_false]
      cases maxStreamsOf (!t.prefaceRead) ss <;> rfl
  | wake ref =>
    cases stepped_of_step hnext with
    | woken _ _ _ =>
      rw [receive_eq]
      rfl
    | _ => rfl
  | _ => cases stepped_of_step hnext <;> rfl

section

variable (hbalanced : t.Balanced)
include hbalanced

theorem Balanced.of_eq (hcalls : next.calls = t.calls)
    (hquota : next.streamQuota - next.maxConcurrentStreams.toNat =
      t.streamQuota - t.maxConcurrentStreams.toNat) : next.Balanced where
  quota := by
    have hold := hbalanced.quota
    simp only [openStreams, hcalls] at hold ⊢
    omega
  returned := hcalls ▸ hbalanced.returned

/-- One call changes, and the quota with it as far as the stream opens or closes. -/
theorem Balanced.of_modify (hcall : t.calls[ref]? = some call) (change : Call → Call)
    (hcalls : next.calls = t.calls.modify ref change)
    (hmax : next.maxConcurrentStreams = t.maxConcurrentStreams)
    (hquota : next.streamQuota + (if (change call).isOpen then 1 else 0) =
      t.streamQuota + (if call.isOpen then 1 else 0))
    (hreturned : (change call).returns = (change call).finished.toNat) : next.Balanced where
  quota := by
    have hold := hbalanced.quota
    have hcount := countP_modify hcall isOpen change
    simp only [openStreams, hcalls, hmax] at hold ⊢
    split_ifs at hquota hcount <;> omega
  returned := by
    intro found hfound
    rcases mem_modify_cases (hcalls ▸ hfound) with hold | ⟨record, hrecord, rfl⟩
    · exact hbalanced.returned found hold
    · exact Option.some.inj (hcall.symm.trans hrecord) ▸ hreturned

/-- A caller that is not admitted has no quota to account for. -/
theorem Balanced.of_advance (hcall : t.calls[ref]? = some call) (hold : call.progress ≠ .admitted)
    {progress : Progress} (hnew : progress ≠ .admitted)
    (hcalls : next.calls = t.calls.modify ref fun call => { call with progress := progress })
    (hmax : next.maxConcurrentStreams = t.maxConcurrentStreams)
    (hquota : next.streamQuota = t.streamQuota) : next.Balanced := by
  apply hbalanced.of_modify hcall _ hcalls hmax
  · rw [isOpen_eq_false hold, isOpen_eq_false hnew, hquota]
  · exact hbalanced.returned call (List.mem_of_getElem? hcall)

theorem balanced_newStream (hf : List HeaderField) :
    { t with calls := t.calls ++ [new hf] }.Balanced where
  quota := by
    have hopen : (t.calls ++ [new hf]).countP isOpen = t.openStreams := by
      simp [openStreams, isOpen, new]
    rw [openStreams, hopen]
    exact hbalanced.quota
  returned := by
    intro call hcall
    rcases List.mem_append.mp hcall with hold | hnew
    · exact hbalanced.returned call hold
    · obtain rfl := List.mem_singleton.mp hnew
      rfl

theorem balanced_casStreamDone {id : UInt32} (hadmitted : Admitted t.calls ref id) :
    (t.modifyCall ref casStreamDone).Balanced := by
  obtain ⟨call, hcall, _, _⟩ := hadmitted
  have hreturned := hbalanced.returned call (List.mem_of_getElem? hcall)
  apply hbalanced.of_modify hcall casStreamDone (by rfl) (by rfl)
  · cases hdone : call.streamDone <;> simp [casStreamDone, isOpen, hdone, modifyCall]
  · cases hdone : call.streamDone <;> simp [casStreamDone, hdone, hreturned]

end

/-- The transport works before every step after which it works. -/
theorem Working.of_step (hstep : Stepped t event next) (hworking : next.Working) : t.Working := by
  cases hstep with
  | woken _ _ _ =>
    rw [receive_eq] at hworking
    exact hworking
  | goneAway _ _ =>
    have hstate := hworking.1
    cases hgoAway : t.goAway with
    | true => exact ⟨by simpa [hgoAway] using hstate, hworking.2⟩
    | false => simp [hgoAway] at hstate
  | drained _ | closed => cases hworking.1
  | finished _ _ => cases hworking.2
  | _ => exact hworking

theorem balanced_of_step (hformed : t.WellFormed) (hbalanced : t.Balanced)
    (hstep : Stepped t event next) (hworking : t.Working) (hnext : next.Working) :
    next.Balanced := by
  cases hstep with
  | newStream hf => exact balanced_newStream hbalanced hf
  | rejected e hcall hround _ | blocked hcall hround _ =>
    exact hbalanced.of_advance hcall (Progress.ne_admitted_of_round hround) (by nofun) rfl rfl rfl
  | stranded _ _ _ hstate =>
    rcases hstate.imp_right hformed.closed.mp with hdraining | hdown
    · simp [hworking.1] at hdraining
    · simp [hworking.1] at hdown
  | @admitted ref call firstTry ch streams hcall hround _ _ _ _ =>
    have hprogress := Progress.ne_admitted_of_round hround
    have hsound := hformed.sound call (List.mem_of_getElem? hcall)
    have hreturned := hbalanced.returned call (List.mem_of_getElem? hcall)
    have hfinished : call.finished = false := hsound.not_finished_of_progress hprogress
    refine hbalanced.of_modify hcall
      (fun call => { call with id := t.nextID, progress := .admitted }) rfl rfl ?_ hreturned
    rw [Call.isOpen_eq_false hprogress]
    simp only [Call.isOpen, hfinished]
    change t.streamQuota - 1 + 1 = t.streamQuota + 0
    omega
  | woken hcall hprogress _ =>
    rw [receive_eq]
    exact hbalanced.of_advance hcall (by simp [hprogress]) (by nofun) rfl rfl rfl
  | gaveUp e hcall hprogress =>
    exact hbalanced.of_advance hcall (by simp [hprogress]) (by nofun) rfl rfl rfl
  | swapped hstream =>
    rcases hstream with ⟨call, hcall, hprogress⟩ | hmem
    · exact balanced_casStreamDone hbalanced ⟨call, hcall, hprogress, rfl⟩
    · obtain ⟨id, hadmitted⟩ := hformed.unprocessed _ hmem
      exact balanced_casStreamDone hbalanced hadmitted
  | @returned ref call hcall hwinners _ =>
    have hsound := hformed.sound call (List.mem_of_getElem? hcall)
    obtain ⟨hdone, _, hfinished, hzero⟩ := hsound.of_winner hwinners
    refine hbalanced.of_modify hcall (fun call => { call with
      winners := call.winners - 1, finished := true, returns := call.returns + 1 }) rfl rfl ?_ ?_
    · simp only [Call.isOpen, hsound.admitted hdone, hfinished]
      change t.streamQuota + 1 + 0 = t.streamQuota + 1
      omega
    · simp [hzero]
  | dropped _ _ hbuf => simp [hworking.2] at hbuf
  | orphaned _ _ hstate => exact absurd hworking.1 hstate
  | limited _ _ _ _ _ =>
    apply hbalanced.of_eq (by rfl)
    simp only [updateStreamQuota, enqueue]
    omega
  | goneAway _ _ =>
    have hstate := hnext.1
    cases hgoAway : t.goAway with
    | true => exact absurd hworking.1 (hformed.draining hgoAway)
    | false => simp [hgoAway] at hstate
  | @refused id errCode ref hstream =>
    obtain ⟨streams, hstreams, hlookup⟩ := Option.bind_eq_some_iff.mp hstream
    obtain ⟨call, hcall, _, _⟩ := hformed.registered streams hstreams id ref hlookup
    exact hbalanced.of_modify hcall Call.markUnprocessed rfl rfl rfl
      (hbalanced.returned call (List.mem_of_getElem? hcall))
  | finished _ _ => cases hnext.2
  | _ => exact hbalanced.of_eq rfl rfl

end Step

theorem newHTTP2Client_balanced : newHTTP2Client.Balanced :=
  ⟨rfl, nofun⟩

theorem run_balanced {events : List ClientEvent} {t : ClientTransport}
    (hrun : run events = some t) (hworking : t.Working) : t.Balanced := by
  refine Machine.run_invariant (fun _ t => t.Working → t.Balanced)
    (fun _ => newHTTP2Client_balanced) ?_ hrun hworking
  intro past t event next hpast hbalanced hnext hworking
  have hformed := run_wellFormed hpast
  have hstep := stepped_of_step hnext
  have hold := hworking.of_step hstep
  exact balanced_of_step hformed (hbalanced hold) hstep hold hworking

theorem run_limit {events : List ClientEvent} {t : ClientTransport}
    (hrun : run events = some t) (hworking : t.Working) :
    t.maxConcurrentStreams = limitOf events := by
  refine congrArg Prod.fst (Machine.run_invariant (fun past t => t.Working →
    (t.maxConcurrentStreams, !t.prefaceRead) =
      past.foldl limitAfter (defaultMaxStreamsClient, true)) (fun _ => rfl) ?_ hrun hworking)
  intro past t event next hpast hlimit hnext hworking
  have hold := hworking.of_step (stepped_of_step hnext)
  rw [List.foldl_append, List.foldl_cons, List.foldl_nil, ← hlimit hold, limit_of_step hnext hold.2]

/-- In every state that any interleaving reaches with the transport reachable,
the quota and the streams that are admitted and not closed add up to the
current limit, which is that of the SETTINGS frames. A stream that is closed has
given its quota back once, one that is not closed has not, and no stream ever
does so twice. No step admits a stream while the open streams have reached the
limit. The control buffer of a reachable transport is in use, unless the context
that the transport was created with has been cancelled under it. -/
theorem run_streamQuota (events : List ClientEvent) (t : ClientTransport)
    (hrun : run events = some t) : (t.state = .reachable → t.bufErr = false →
      t.streamQuota + t.openStreams = t.maxConcurrentStreams.toNat ∧
      t.maxConcurrentStreams = limitOf events ∧
      ∀ call ∈ t.calls, call.returns = if call.finished then 1 else 0) ∧
    (t.state = .reachable → t.ctxDone = false → t.bufErr = false) ∧
    (∀ call ∈ t.calls, call.returns ≤ 1) ∧
    ∀ event next ref id, t.step event = some next → Admitted next.calls ref id →
      Admitted t.calls ref id ∨ t.openStreams < t.maxConcurrentStreams.toNat := by
  have hformed := run_wellFormed hrun
  refine ⟨fun hstate hbuf => ?_, fun hstate hctx => ?_, fun call hcall => ?_, ?_⟩
  · obtain ⟨hquota, hreturned⟩ := run_balanced hrun ⟨hstate, hbuf⟩
    refine ⟨hquota, run_limit hrun ⟨hstate, hbuf⟩, fun call hcall => ?_⟩
    rw [hreturned call hcall]
    cases call.finished <;> rfl
  · cases hbuf : t.bufErr with
    | true => simpa [hstate, hctx] using hformed.buffered hbuf
    | false => rfl
  · exact Nat.le_trans (hformed.sound call hcall).returned (Bool.toNat_le _)
  · intro event next ref id hnext hadmitted
    rcases hformed.admits_of_step (stepped_of_step hnext) hadmitted with ⟨hbuf, hpos, hstate⟩ | hold
    · have hquota := (run_balanced hrun ⟨hstate, hbuf⟩).quota
      right
      omega
    · exact .inl hold

/-- A limit of one: the second caller waits until the first stream is closed by
two closers, and gets its place. -/
def oneAtATime : List ClientEvent :=
  [.handleSettings false [⟨Setting.maxConcurrentStreams, 1⟩],
    .newStream [], .newStream [], .tryNewStream 0, .tryNewStream 1,
    .casStreamDone 0, .casStreamDone 0, .doCloseStream 0, .wake 1, .tryNewStream 1]

theorem run_streamQuota_oneAtATime : ∃ t, run oneAtATime = some t ∧ t.openStreams = 1 ∧
    t.streamQuota + t.openStreams = t.maxConcurrentStreams.toNat ∧
    t.maxConcurrentStreams = limitOf oneAtATime ∧ ∀ call ∈ t.calls, call.returns ≤ 1 := by
  have hview : (run oneAtATime).map (fun t => (t.state, t.bufErr, t.openStreams)) =
      some (.reachable, false, 1) := by decide
  obtain ⟨t, hrun, hview⟩ := Option.map_eq_some_iff.mp hview
  simp only [Prod.mk.injEq] at hview
  obtain ⟨hstate, hbuf, hopen⟩ := hview
  obtain ⟨hbalance, _, hreturns, _⟩ := run_streamQuota oneAtATime t hrun
  obtain ⟨hquota, hlimit, _⟩ := hbalance hstate hbuf
  exact ⟨t, hrun, hopen, hquota, hlimit, hreturns⟩

end ClientTransport

end Kitex.Http2
