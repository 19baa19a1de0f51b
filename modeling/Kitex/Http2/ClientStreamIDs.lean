import Kitex.Http2.ClientRuns
import Mathlib.Data.Nat.Bitwise

/-! # Stream identifiers of the client transport

`NewStream` takes the next odd number of 32 bits as the identifier of a stream,
and nothing stops it where the 31 bits of a legal identifier end. The framer
tests the identifier only when the header frame is written, after the stream has
been created.
-/

namespace Kitex.Http2

open Kitex.Container

/-- The framer's test of the identifiers that it is given, with illegal writes
not allowed: a write under any other identifier fails with `errStreamID`. -/
def validStreamID (streamID : UInt32) : Bool :=
  decide (streamID ≠ 0 ∧ streamID &&& (1 : UInt32) <<< 31 = 0)

theorem validStreamID_of_lt {streamID : UInt32} (hpos : 0 < streamID.toNat)
    (hlt : streamID.toNat < 2 ^ 31) : validStreamID streamID := by
  refine decide_eq_true ⟨?_, ?_⟩
  · rintro rfl
    exact absurd hpos (by decide)
  · apply UInt32.toNat_inj.mp
    have hshift : ((1 : UInt32) <<< 31).toNat = 2 ^ 31 := by decide
    rw [UInt32.toNat_and, hshift, Nat.and_two_pow, Nat.testBit_lt_two_pow hlt]
    rfl

namespace ClientTransport

/-! ## What a run assigns and hands out -/

/-- An identifier that `checkForStreamQuota` has assigned, and whether the caller
has got a stream under it. -/
structure Assignment where
  id : UInt32
  created : Bool
  deriving DecidableEq, Repr

/-- The identifier that a step assigns to its caller: the counter has moved on. -/
def assigned (t : ClientTransport) (event : ClientEvent) (next : ClientTransport) :
    List Assignment :=
  match event with
  | .tryNewStream ref =>
    if next.nextID = t.nextID then []
    else (next.calls[ref]?.map fun call => ⟨call.id, decide (call.progress = .admitted)⟩).toList
  | _ => []

/-- The identifiers that the writer hands to the framer in a step: of the header
frame that it writes, and of the stream that it resets. -/
def handed (t : ClientTransport) (event : ClientEvent) (_ : ClientTransport) : List UInt32 :=
  match event, t.items with
  | .loopyHandle, .headerFrame ref :: _ =>
    if t.state = .reachable then (t.calls[ref]?.map Call.id).toList else []
  | .loopyHandle, .cleanupStream ref :: _ => (t.calls[ref]?.map Call.id).toList
  | _, _ => []

def assignments (events : List ClientEvent) : List Assignment :=
  Machine.outputs step assigned newHTTP2Client events

def handedIDs (events : List ClientEvent) : List UInt32 :=
  Machine.outputs step handed newHTTP2Client events

/-- Every stream has an identifier that HTTP/2 allows and that is greater than
all before it, and so have the frames that name a stream. -/
structure LegalStreamIDs (events : List ClientEvent) (t : ClientTransport) : Prop where
  assigned : ∀ before assignment after, assignments events = before ++ assignment :: after →
    assignment.created = true →
      assignment.id.toNat % 2 = 1 ∧ assignment.id.toNat ≤ 2 ^ 31 - 1 ∧
        ∀ earlier ∈ before, earlier.id < assignment.id
  handed : ∀ id ∈ handedIDs events, validStreamID id = true
  streams : ∀ ref id, Admitted t.calls ref id → validStreamID id = true

/-- Every stream was created before the transport had assigned all odd numbers
of 31 bits. -/
def WithinStreamIDs (events : List ClientEvent) : Prop :=
  ∀ before assignment after, assignments events = before ++ assignment :: after →
    assignment.created = true → before.length < 2 ^ 30

/-! ## The counter -/

def streamIDAt (index : Nat) : UInt32 := UInt32.ofNat (2 * index + 1)

theorem toNat_streamIDAt (index : Nat) : (streamIDAt index).toNat = (2 * index + 1) % 2 ^ 32 :=
  UInt32.toNat_ofNat'

theorem streamIDAt_succ (index : Nat) : streamIDAt (index + 1) = streamIDAt index + 2 := by
  apply UInt32.toNat_inj.mp
  rw [UInt32.toNat_add, toNat_streamIDAt, toNat_streamIDAt]
  change _ = (_ + 2) % _
  omega

section Step

variable {t next : ClientTransport} {event : ClientEvent} {id : UInt32}

theorem add_two_ne_self (id : UInt32) : id + 2 ≠ id := by
  intro heq
  have htoNat := congrArg UInt32.toNat heq
  change (id.toNat + 2) % 2 ^ 32 = id.toNat at htoNat
  omega

theorem assigned_step (hstep : Stepped t event next) :
    (t.assigned event next = [] ∧ next.nextID = t.nextID) ∨
      ∃ created, t.assigned event next = [⟨t.nextID, created⟩] ∧ next.nextID = t.nextID + 2 := by
  have hkept (event : ClientEvent) {next : ClientTransport} (hnext : next.nextID = t.nextID) :
      t.assigned event next = [] := by
    unfold assigned
    split
    · exact if_pos hnext
    · rfl
  have hmoved (ref : Nat) {next : ClientTransport} {call : Call}
      (hnext : next.nextID = t.nextID + 2) (hcall : next.calls[ref]? = some call)
      (hid : call.id = t.nextID) : t.assigned (.tryNewStream ref) next =
        [⟨t.nextID, decide (call.progress = .admitted)⟩] := by
    simp only [assigned, hnext, if_neg (add_two_ne_self t.nextID), hcall, hid, Option.map_some,
      Option.toList_some]
  cases hstep with
  | stranded hcall _ _ _ | admitted hcall _ _ _ _ _ =>
    exact .inr ⟨_, hmoved _ rfl (getElem?_modify_self hcall _) rfl, rfl⟩
  | woken _ _ _ =>
    rw [receive_eq]
    exact .inl ⟨rfl, rfl⟩
  | _ => exact .inl ⟨hkept _ rfl, rfl⟩

/-- A caller that a step admits has been assigned the identifier of its stream. -/
theorem WellFormed.admitted_of_step (hformed : t.WellFormed) (hstep : Stepped t event next)
    {ref : Nat} (hadmitted : Admitted next.calls ref id) :
    Admitted t.calls ref id ∨ ⟨id, true⟩ ∈ t.assigned event next := by
  obtain ⟨call, hcall, hprogress, rfl⟩ := hadmitted
  rcases hformed.calls_step_cases hstep with ⟨hf, hcalls⟩ | ⟨slot, old, rfl, hold, _, _, hnext,
    hcalls⟩ | hmoves
  · rw [hcalls, List.getElem?_append] at hcall
    split at hcall
    next => exact .inl ⟨call, hcall, hprogress, rfl⟩
    next =>
      obtain rfl := List.mem_singleton.mp (List.mem_of_getElem? hcall)
      cases hprogress
  · have hself : next.calls[slot]? = some { old with id := t.nextID, progress := .admitted } := by
      rw [hcalls]
      exact getElem?_modify_self hold _
    by_cases heq : ref = slot
    · subst heq
      cases hcall.symm.trans hself
      right
      simp [assigned, hnext, hself]
    · rw [hcalls, getElem?_modify_ne heq] at hcall
      exact .inl ⟨call, hcall, hprogress, rfl⟩
  · obtain ⟨old, hold, hmove⟩ := forall₂_getElem?_right hmoves hcall
    obtain ⟨hadmitted, hid⟩ := (hmove.admitted hprogress).resolve_left id
    exact .inl ⟨old, hold, hadmitted, hid⟩

/-- The streams that the writer has yet to clean up have been admitted. -/
def CleansAdmitted (t : ClientTransport) : Prop :=
  ∀ ref, .cleanupStream ref ∈ t.items → ∃ id, Admitted t.calls ref id

theorem cleansAdmitted_of_step (hformed : t.WellFormed) (hcleans : t.CleansAdmitted)
    (hstep : Stepped t event next) : next.CleansAdmitted := by
  have hold : ∀ ref, .cleanupStream ref ∈ t.items → ∃ id, Admitted next.calls ref id :=
    fun ref hmem => (hcleans ref hmem).imp fun _ => hformed.admitted_step hstep
  have hrest : ∀ {item : QueueItem} {items : List QueueItem}, t.items = item :: items →
      ∀ ref, .cleanupStream ref ∈ items → ∃ id, Admitted next.calls ref id :=
    fun hitems ref hmem => hold ref (hitems ▸ List.mem_cons_of_mem _ hmem)
  have hother : ∀ {item : QueueItem}, (∀ ref, item ≠ .cleanupStream ref) →
      ∀ ref, .cleanupStream ref ∈ t.items ++ [item] → ∃ id, Admitted next.calls ref id := by
    intro item hne ref hmem
    rcases List.mem_append.mp hmem with hqueued | hlast
    · exact hold ref hqueued
    · exact absurd (List.mem_singleton.mp hlast).symm (hne ref)
  cases hstep with
  | admitted _ _ _ _ _ _ | configured _ _ _ _ | limited _ _ _ _ _ => exact hother nofun
  | @returned slot call hcall hwinners _ =>
    intro ref hmem
    rcases List.mem_append.mp hmem with hqueued | hlast
    · exact hold ref hqueued
    · obtain ⟨⟩ := List.mem_singleton.mp hlast
      have hsound := hformed.sound call (List.mem_of_getElem? hcall)
      have hadmitted := hsound.admitted (hsound.of_winner hwinners).1
      exact ⟨call.id, _, getElem?_modify_self hcall _, hadmitted, rfl⟩
  | dequeued hitems | orphaned _ hitems _ | deleted hitems _ => exact hrest hitems
  | finished _ _ => exact fun _ => nofun
  | woken _ _ _ =>
    rw [receive_eq] at hold ⊢
    exact hold
  | _ => exact hold

theorem admitted_of_handed (hformed : t.WellFormed) (hcleans : t.CleansAdmitted)
    (hmem : id ∈ t.handed event next) : ∃ ref, Admitted t.calls ref id := by
  have hfound : ∀ {ref : Nat}, (∃ id, Admitted t.calls ref id) →
      id ∈ (t.calls[ref]?.map Call.id).toList → ∃ ref, Admitted t.calls ref id := by
    rintro ref ⟨other, call, hcall, hprogress, rfl⟩ hmem
    rw [hcall, Option.map_some, Option.toList_some, List.mem_singleton] at hmem
    exact ⟨ref, call, hcall, hprogress, hmem.symm⟩
  unfold handed at hmem
  split at hmem
  next ref _ hitems =>
    split at hmem
    · exact hfound (hformed.queued ref (by simp [hitems])) hmem
    · cases hmem
  next ref _ hitems => exact hfound (hcleans ref (by simp [hitems])) hmem
  next => cases hmem

end Step

/-! ## Runs -/

/-- The identifiers are assigned in order, and every stream and every identifier
given to the framer is one of them. -/
structure Numbered (events : List ClientEvent) (t : ClientTransport) : Prop where
  ids : ∀ (index : Nat) (assignment : Assignment),
    (assignments events)[index]? = some assignment → assignment.id = streamIDAt index
  nextID : t.nextID = streamIDAt (assignments events).length
  cleans : t.CleansAdmitted
  streams : ∀ ref id, Admitted t.calls ref id → ⟨id, true⟩ ∈ assignments events
  handed : ∀ id ∈ handedIDs events, ⟨id, true⟩ ∈ assignments events

variable {t : ClientTransport} {events : List ClientEvent} {before after : List Assignment}
  {count : Nat}

theorem numbered_of_step {past : List ClientEvent} {next : ClientTransport} {event : ClientEvent}
    (hpast : run past = some t) (hnumbered : Numbered past t) (hnext : t.step event = some next) :
    Numbered (past ++ [event]) next := by
  have hformed := run_wellFormed hpast
  have hstep := stepped_of_step hnext
  have hassignments : assignments (past ++ [event]) = assignments past ++ t.assigned event next :=
    Machine.outputs_append_singleton hpast hnext
  have hhanded : handedIDs (past ++ [event]) = handedIDs past ++ t.handed event next :=
    Machine.outputs_append_singleton hpast hnext
  refine ⟨?_, ?_, cleansAdmitted_of_step hformed hnumbered.cleans hstep, ?_, ?_⟩
  · intro index assignment hindex
    rw [hassignments, List.getElem?_append] at hindex
    split at hindex
    next => exact hnumbered.ids index assignment hindex
    next hge =>
      rcases assigned_step hstep with ⟨hnone, _⟩ | ⟨created, hone, _⟩
      · simp [hnone] at hindex
      · rw [hone, List.getElem?_singleton] at hindex
        obtain ⟨hzero, ⟨⟩⟩ := Option.ite_none_right_eq_some.mp hindex
        obtain rfl : index = (assignments past).length := by omega
        exact hnumbered.nextID
  · rcases assigned_step hstep with ⟨hnone, hkept⟩ | ⟨created, hone, hmoved⟩
    · rw [hassignments, hnone, List.append_nil, hkept, hnumbered.nextID]
    · rw [hassignments, hone, List.length_append, List.length_singleton, streamIDAt_succ, hmoved,
        hnumbered.nextID]
  · intro ref id hadmitted
    rw [hassignments, List.mem_append]
    exact (hformed.admitted_of_step hstep hadmitted).imp_left (hnumbered.streams ref id)
  · intro id hmem
    rw [hhanded, List.mem_append] at hmem
    rw [hassignments, List.mem_append]
    rcases hmem with hold | hnew
    · exact .inl (hnumbered.handed id hold)
    · obtain ⟨ref, hadmitted⟩ := admitted_of_handed hformed hnumbered.cleans hnew
      exact .inl (hnumbered.streams ref id hadmitted)

theorem run_numbered (hrun : run events = some t) : Numbered events t := by
  refine Machine.run_invariant (fun past t => Numbered past t) ?_ ?_ hrun
  · exact ⟨nofun, rfl, fun _ => nofun, by rintro _ _ ⟨_, ⟨⟩, _⟩, nofun⟩
  · intro past t event next hpast hnumbered hnext
    exact numbered_of_step hpast hnumbered hnext

theorem Numbered.id_eq (hnumbered : Numbered events t) {assignment : Assignment}
    (hsplit : assignments events = before ++ assignment :: after) :
    assignment.id = streamIDAt before.length := by
  apply hnumbered.ids
  rw [hsplit, List.getElem?_append_right (Nat.le_refl _), Nat.sub_self]
  rfl

theorem Numbered.before_eq (hnumbered : Numbered events t)
    (hsplit : assignments events = before ++ after) {index : Nat} {earlier : Assignment}
    (hindex : before[index]? = some earlier) : earlier.id = streamIDAt index := by
  apply hnumbered.ids
  have hlt := (List.getElem?_eq_some_iff.mp hindex).1
  rw [hsplit, List.getElem?_append_left hlt, hindex]

/-- The identifiers of a run are legal exactly if it creates no stream after all
odd numbers of 31 bits have been assigned. -/
theorem run_streamIDs {events : List ClientEvent} {t : ClientTransport}
    (hrun : run events = some t) : LegalStreamIDs events t ↔ WithinStreamIDs events := by
  have hnumbered := run_numbered hrun
  constructor
  · intro hlegal before assignment after hsplit hcreated
    obtain ⟨_, hmax, hgreater⟩ := hlegal.assigned before assignment after hsplit hcreated
    by_contra hmany
    have hge : 2 ^ 30 ≤ before.length := Nat.le_of_not_lt hmany
    rcases Nat.lt_or_eq_of_le hge with hlater | hfirst
    · -- the first identifier beyond 31 bits was assigned before
      have hearlier := List.getElem?_eq_getElem hlater
      have hless := hgreater _ (List.mem_of_getElem? hearlier)
      rw [hnumbered.before_eq hsplit hearlier, UInt32.lt_iff_toNat_lt, toNat_streamIDAt] at hless
      omega
    · rw [hnumbered.id_eq hsplit, toNat_streamIDAt, ← hfirst] at hmax
      omega
  · intro hwithin
    have hvalid : ∀ id, ⟨id, true⟩ ∈ assignments events → validStreamID id = true := by
      intro id hmem
      obtain ⟨before, after, hsplit⟩ := List.append_of_mem hmem
      have hlt := hwithin before ⟨id, true⟩ after hsplit rfl
      have hid : id = streamIDAt before.length := hnumbered.id_eq hsplit
      have htoNat := toNat_streamIDAt before.length
      rw [← hid] at htoNat
      apply validStreamID_of_lt <;> omega
    refine ⟨?_, fun id hmem => hvalid id (hnumbered.handed id hmem),
      fun ref id hadmitted => hvalid id (hnumbered.streams ref id hadmitted)⟩
    intro before assignment after hsplit hcreated
    have hlt := hwithin before assignment after hsplit hcreated
    rw [hnumbered.id_eq hsplit, toNat_streamIDAt]
    refine ⟨by omega, by omega, ?_⟩
    intro earlier hmem
    obtain ⟨index, hindex⟩ := List.mem_iff_getElem?.mp hmem
    have hless := (List.getElem?_eq_some_iff.mp hindex).1
    rw [hnumbered.before_eq hsplit hindex, UInt32.lt_iff_toNat_lt, toNat_streamIDAt,
      toNat_streamIDAt]
    omega

/-- Two streams, whose headers are written. -/
def crossed : List ClientEvent :=
  [.newStream [], .newStream [], .tryNewStream 1, .tryNewStream 0, .loopyHandle, .loopyHandle]

theorem run_streamIDs_two : ∃ t, run crossed = some t ∧
    assignments crossed = [⟨1, true⟩, ⟨3, true⟩] ∧ handedIDs crossed = [1, 3] ∧
    LegalStreamIDs crossed t := by
  have htwo : assignments crossed = [⟨1, true⟩, ⟨3, true⟩] := by decide
  obtain ⟨t, hrun⟩ : ∃ t, run crossed = some t := ⟨_, rfl⟩
  refine ⟨t, hrun, htwo, by decide, (run_streamIDs hrun).mpr ?_⟩
  intro before assignment after hsplit _
  have hlength := congrArg List.length (htwo.symm.trans hsplit)
  rw [List.length_append, List.length_cons] at hlength
  simp only [List.length_cons, List.length_nil] at hlength
  omega

/-! ## Running out of identifiers -/

/-- The server sets no limit, and the streams are created one after another. -/
def openInTurn (count : Nat) : List ClientEvent :=
  [ClientEvent.handleSettings false [], .loopyHandle] ++ (List.range count).flatMap fun ref =>
    [ClientEvent.newStream [], .tryNewStream ref, .loopyHandle]

/-- The transport after some streams were created. -/
structure Opened (t : ClientTransport) (count : Nat) : Prop where
  calls : t.calls.length = count
  items : t.items = []
  bufErr : t.bufErr = false
  streamQuota : t.streamQuota = 2 ^ 32 - 1 - count
  nextID : t.nextID = streamIDAt count
  maxSendHeaderListSize : t.maxSendHeaderListSize = none
  state : t.state = .reachable
  activeStreams : t.activeStreams ≠ none
  writerDone : t.writerDone = false

theorem Opened.next (hopened : t.Opened count) (hcount : count < 2 ^ 32 - 1) :
    ∃ next, Machine.run step t [.newStream [], .tryNewStream count, .loopyHandle] = some next ∧
      next.Opened (count + 1) ∧ Admitted next.calls count (streamIDAt count) ∧
      Machine.outputs step handed t [.newStream [], .tryNewStream count, .loopyHandle] =
        [streamIDAt count] := by
  obtain ⟨streams, hstreams⟩ := Option.ne_none_iff_exists'.mp hopened.activeStreams
  have hquota : ¬t.streamQuota ≤ 0 := by
    rw [hopened.streamQuota]
    omega
  have hcall : (t.calls ++ [Call.new []])[count]? = some (Call.new []) := by
    rw [← hopened.calls]
    exact List.getElem?_concat_length
  let created : ClientTransport := { t with calls := t.calls ++ [Call.new []] }
  let admitted : ClientTransport :=
    (({ created.takeQuota true with
      activeStreams := some (streams.insert t.nextID count) }.notifyQuota.enqueue
        (.headerFrame count)).modifyCall count
          fun call => { call with id := t.nextID, progress := .admitted })
  have hself : admitted.calls[count]? =
      some { Call.new [] with id := t.nextID, progress := .admitted } :=
    getElem?_modify_self hcall _
  have hitems : admitted.items = [.headerFrame count] := by
    change t.items ++ [_] = _
    rw [hopened.items, List.nil_append]
  have hcreate : t.step (.newStream []) = some created := rfl
  have hadmit : created.step (.tryNewStream count) = some admitted := by
    simp only [step, created, hcall, Option.bind_some]
    simp [Call.new, Progress.round, tryNewStream, hopened.bufErr, checkForHeaderListSize,
      hopened.maxSendHeaderListSize, checkForStreamQuota, hquota, hstreams, hopened.state,
      admitted, created]
  have hwrite : admitted.step .loopyHandle = some { admitted with items := [] } := by
    have hwriter : admitted.writerDone = false := hopened.writerDone
    have hstate : admitted.state = .reachable := hopened.state
    simp [step, hitems, hwriter, loopyHandle, initStream, hstate]
  refine ⟨{ admitted with items := [] }, ?_, ?_, ?_, ?_⟩
  · simp [Machine.run_cons, hcreate, hadmit, hwrite]
  · constructor
    · change ((t.calls ++ [Call.new []]).modify _ _).length = _
      rw [List.length_modify, List.length_append, hopened.calls]
      rfl
    · rfl
    · exact hopened.bufErr
    · change t.streamQuota - 1 = _
      rw [hopened.streamQuota]
      omega
    · change t.nextID + 2 = _
      rw [hopened.nextID, streamIDAt_succ]
    · exact hopened.maxSendHeaderListSize
    · exact hopened.state
    · exact Option.some_ne_none _
    · exact hopened.writerDone
  · exact ⟨_, hself, rfl, hopened.nextID⟩
  · have hstate : admitted.state = .reachable := hopened.state
    simp only [Machine.outputs, hcreate, hadmit, hwrite]
    simp [handed, hitems, hstate, hself, hopened.nextID]

theorem openInTurn_succ (count : Nat) : openInTurn (count + 1) =
      openInTurn count ++ [ClientEvent.newStream [], .tryNewStream count, .loopyHandle] := by
  simp [openInTurn, List.range_succ]

theorem run_openInTurn (hcount : count ≤ 2 ^ 32 - 1) :
    ∃ t, run (openInTurn count) = some t ∧ t.Opened count := by
  induction count with
  | zero =>
    refine ⟨_, rfl, ?_⟩
    constructor <;> first | rfl | exact Option.some_ne_none _
  | succ count ih =>
    obtain ⟨t, hrun, hopened⟩ := ih (by omega)
    obtain ⟨next, hnext, hopened', _⟩ := hopened.next (by omega)
    refine ⟨next, ?_, hopened'⟩
    rw [openInTurn_succ, run, Machine.run_append, Option.bind_eq_some_iff]
    exact ⟨t, hrun, hnext⟩

/-- After all odd numbers of 31 bits one more stream is created, and the framer
is given an identifier that it rejects. -/
theorem openInTurn_exceeds_streamIDs :
    ∃ t, run (openInTurn (2 ^ 30 + 1)) = some t ∧ Admitted t.calls (2 ^ 30) 2147483649 ∧
      2147483649 ∈ handedIDs (openInTurn (2 ^ 30 + 1)) ∧ validStreamID 2147483649 = false := by
  obtain ⟨t, hrun, hopened⟩ := run_openInTurn (show 2 ^ 30 ≤ 2 ^ 32 - 1 by decide)
  obtain ⟨next, hnext, _, hadmitted, hhanded⟩ := hopened.next (by decide)
  refine ⟨next, ?_, hadmitted, ?_, by decide⟩
  · rw [openInTurn_succ, run, Machine.run_append, Option.bind_eq_some_iff]
    exact ⟨t, hrun, hnext⟩
  · rw [openInTurn_succ, handedIDs, Machine.outputs_append hrun, hhanded]
    exact List.mem_append_right _ (List.mem_singleton_self _)

end ClientTransport

end Kitex.Http2
