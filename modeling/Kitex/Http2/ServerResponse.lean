import Kitex.Http2.ServerStream

/-! # The order of a response

Whatever the handler calls, and whenever the stream is reset or the transport closes: the headers of
a response come first and at most once, then the messages, then the trailer, after which nothing
comes but the cleanup of the stream.
-/

namespace Kitex.Http2

inductive ItemKind where
  | header
  | data
  | trailer
  deriving DecidableEq, Repr

/-- What an item is in the response. The cleanup of a stream is not part of it. -/
def CbItem.kind : CbItem → Option ItemKind
  | .headerFrame h => some (if h.endStream then .trailer else .header)
  | .dataFrame _ => some .data
  | _ => none

/-- How far a response has come. -/
inductive Phase where
  | start
  | opened
  | ended
  deriving DecidableEq, Repr

def Phase.next : Phase → ItemKind → Option Phase
  | .start, .header => some .opened
  | .opened, .data => some .opened
  | .start, .trailer | .opened, .trailer => some .ended
  | _, _ => none

/-- The phase after these items, if their order is right. -/
def phaseOf (items : List CbItem) : Option Phase :=
  Machine.run Phase.next .start (items.filterMap CbItem.kind)

variable {items : List CbItem} {kinds : List ItemKind} {item : CbItem} {kind : ItemKind}
  {phase : Phase}

theorem phaseOf_concat_kind (hkind : item.kind = some kind) (hphase : phaseOf items = some phase) :
    phaseOf (items ++ [item]) = phase.next kind := by
  rw [phaseOf] at *
  rw [List.filterMap_append, Machine.run_append, hphase]
  simp [hkind, Machine.run_cons]

theorem phaseOf_concat_none (hkind : item.kind = none) :
    phaseOf (items ++ [item]) = phaseOf items := by
  simp [phaseOf, hkind]

/-- A response that is in order: headers at most once, messages after headers only, and a trailer at
most once. -/
def Response (kinds : List ItemKind) : Prop :=
  ∃ headers messages trailers : Nat,
    kinds = List.replicate headers .header ++ List.replicate messages .data ++
      List.replicate trailers .trailer ∧
    headers ≤ 1 ∧ trailers ≤ 1 ∧ (0 < messages → headers = 1)

/-- What a response looks like in a phase. -/
def Phase.Shape (kinds : List ItemKind) : Phase → Prop
  | .start => kinds = []
  | .opened => ∃ messages, kinds = .header :: List.replicate messages .data
  | .ended => ∃ headers messages : Nat,
      kinds = List.replicate headers .header ++ List.replicate messages .data ++ [.trailer] ∧
      headers ≤ 1 ∧ (0 < messages → headers = 1)

theorem Phase.Shape.next {phase after : Phase} (hshape : phase.Shape kinds)
    (hnext : phase.next kind = some after) : after.Shape (kinds ++ [kind]) := by
  cases phase with
  | start =>
    cases hshape
    cases kind <;> cases hnext
    · exact ⟨0, rfl⟩
    · exact ⟨0, 0, rfl, by simp, by simp⟩
  | opened =>
    obtain ⟨messages, rfl⟩ := hshape
    cases kind <;> cases hnext
    · exact ⟨messages + 1, by rw [List.replicate_succ', List.cons_append]⟩
    · exact ⟨1, messages, rfl, by simp, by simp⟩
  | ended => cases kind <;> cases hnext

theorem response_of_run (hrun : Machine.run Phase.next .start kinds = some phase) :
    Response kinds := by
  have hshape : phase.Shape kinds := by
    refine Machine.run_invariant (fun kinds phase => Phase.Shape kinds phase) ?_ ?_ hrun
    · rfl
    · exact fun _ _ _ _ _ hshape hnext => hshape.next hnext
  cases phase with
  | start =>
    cases hshape
    exact ⟨0, 0, 0, rfl, by simp, by simp, by simp⟩
  | opened =>
    obtain ⟨messages, rfl⟩ := hshape
    exact ⟨1, messages, 0, by simp, by simp, by simp, by simp⟩
  | ended =>
    obtain ⟨headers, messages, rfl, hheaders, hmessages⟩ := hshape
    exact ⟨headers, messages, 1, rfl, hheaders, by simp, hmessages⟩

namespace ServerStream

variable {enc : HeaderText} {s next : ServerStream} {phase : Phase} {ok : Bool}

/-- Headers that were announced are there, or nothing can be put any more. -/
def Announces (s : ServerStream) (phase : Phase) : Prop :=
  s.headerSent = true → phase ≠ .start ∨ s.state = .done ∨ s.bufErr = true

/-- What the place of the handler says about the response. -/
def Fits (s : ServerStream) (phase : Phase) : HandlerCall → Prop
  | .idle _ | .writeHeader _ _ | .write _ | .writeStatus _ => s.Announces phase
  | .writeState _ => s.headerSent = true ∧ s.Announces phase
  | .headerState _ _ | .headerLocked _ _ | .statusLocked _ => s.headerSent = true ∧ phase = .start
  | .quota _ | .putData _ => s.headerSent = true ∧ (phase = .opened ∨ s.bufErr = true)
  | .statusHeader _ => phase ≠ .ended
  | .check _ | .rst _ | .finishStream _ _ => s.headerSent = true ∧ phase ≠ .ended
  | .putTrailer _ _ => s.headerSent = true ∧ phase ≠ .ended ∧ s.state = .done
  | .closeStream => s.headerSent = true
  | .putCleanup => s.headerSent = true ∧ s.state = .done

/-- The response is in order, and its phase agrees with the state of the stream. -/
structure InOrder (s : ServerStream) (phase : Phase) : Prop where
  items : phaseOf s.items = some phase
  unsent : s.headerSent = false → phase = .start
  ended : phase = .ended → s.state = .done
  call : s.Fits phase s.call
  cleanups : ∀ item ∈ s.items, item.kind = none → ∃ c, item = .cleanupStream c

theorem put_of_bufErr (hbuf : s.bufErr) : s.put item = s := by
  cases s
  simp_all [put]

theorem phaseOf_put (hkind : item.kind = none) : phaseOf (s.put item).items = phaseOf s.items := by
  unfold put
  split
  · rfl
  · exact phaseOf_concat_none hkind

theorem mem_put {item other : CbItem} (hmem : other ∈ (s.put item).items) :
    other ∈ s.items ∨ other = item := by
  unfold put at hmem
  split at hmem
  · exact .inl hmem
  · simpa using hmem

theorem mem_putCleanup {c : CleanupStream} (item : CbItem)
    (hmem : item ∈ (s.put (.cleanupStream c)).items) :
    item ∈ s.items ∨ ∃ c, item = .cleanupStream c :=
  (mem_put hmem).imp_right fun hitem => ⟨c, hitem⟩

namespace InOrder

/-- Other goroutines only end the stream or the buffer. -/
theorem others (h : InOrder s phase) (hitems : phaseOf next.items = phaseOf s.items)
    (hsent : next.headerSent = s.headerSent) (hcall : next.call = s.call)
    (hstate : s.state = .done → next.state = .done) (hbuf : s.bufErr = true → next.bufErr = true)
    (hcleanups : ∀ item ∈ next.items, item ∈ s.items ∨ ∃ c, item = .cleanupStream c) :
    InOrder next phase where
  items := hitems.trans h.items
  unsent := hsent ▸ h.unsent
  ended := hstate ∘ h.ended
  call := by
    have hfits := h.call
    rw [hcall]
    have hannounces : s.Announces phase → next.Announces phase := by
      intro hannounces hnext
      exact (hannounces (hsent ▸ hnext)).imp_right fun hdone => hdone.imp hstate hbuf
    generalize s.call = pc at hfits ⊢
    cases pc with
    | idle _ | writeHeader _ _ | write _ | writeStatus _ =>
      exact hannounces hfits
    | writeState _ =>
      exact ⟨hsent.trans hfits.1, hannounces hfits.2⟩
    | headerState _ _ | headerLocked _ _ | statusLocked _ | check _ | rst _ | finishStream _ _
    | closeStream | statusHeader _ =>
      simpa [Fits, hsent] using hfits
    | quota _ | putData _ =>
      exact ⟨hsent.trans hfits.1, hfits.2.imp_right hbuf⟩
    | putTrailer _ _ =>
      exact ⟨hsent.trans hfits.1, hfits.2.1, hstate hfits.2.2⟩
    | putCleanup =>
      exact ⟨hsent.trans hfits.1, hstate hfits.2⟩
  cleanups item hmem hkind :=
    (hcleanups item hmem).elim (fun hold => h.cleanups item hold hkind) fun hcleanup => hcleanup

variable {call : HandlerCall}

variable (h : InOrder s phase)
include h

/-- The handler goes on without putting an item. -/
theorem goes (hcall : s.Fits phase call) : InOrder (s.goto call) phase := by
  refine { h with call := ?_ }
  cases call <;> exact hcall

theorem returns (hcall : s.Announces phase) (ok : Bool) :
    InOrder (s.returns ok) phase := h.goes hcall

/-- The handler puts an item of the response. -/
theorem puts (hbuf : s.bufErr = false) (kind : ItemKind) (hkind : item.kind = some kind)
    (after : Phase) (hafter : phase.next kind = some after) (hsent : s.headerSent)
    (hended : after = .ended → s.state = .done) (hcall : s.Fits after call) :
    InOrder ((s.put item).goto call) after where
  items := by
    have hitems : ((s.put item).goto call).items = s.items ++ [item] := by
      simp [ServerStream.put, goto, hbuf]
    rw [hitems, phaseOf_concat_kind hkind h.items, hafter]
  unsent hunsent := nomatch hsent.symm.trans hunsent
  ended := hended
  call := by cases call <;> exact hcall
  cleanups other hmem hnone := by
    rcases mem_put hmem with hold | rfl
    · exact h.cleanups other hold hnone
    · exact nomatch hnone.symm.trans hkind

theorem writeHeaderLocked (hsent : s.headerSent)
    (hstart : phase = .start) (hcall : s.Fits .opened call) :
    ∃ after, InOrder (s.writeHeaderLocked enc call) after := by
  unfold ServerStream.writeHeaderLocked
  split
  · next hbuf => exact ⟨phase, h.returns (fun _ => .inr (.inr hbuf)) false⟩
  · next hbuf =>
    split
    · subst hstart
      exact ⟨.opened, h.puts (by simpa using hbuf) .header rfl .opened rfl hsent nofun hcall⟩
    · exact ⟨phase, h.goes hsent⟩

/-- The handler puts an item of the response and returns, or the buffer takes none any more. -/
theorem putsLast (kind : ItemKind) (hkind : item.kind = some kind) (after : Phase)
    (hafter : s.bufErr ≠ true → phase.next kind = some after) (hsent : s.headerSent)
    (hended : after = .ended → s.state = .done) (hopened : after ≠ .start) (ok : Bool) :
    ∃ after, InOrder ((s.put item).returns ok) after := by
  by_cases hbuf : s.bufErr = true
  · rw [put_of_bufErr hbuf]
    exact ⟨phase, h.returns (fun _ => .inr (.inr hbuf)) ok⟩
  · exact ⟨after, h.puts (by simpa using hbuf) kind hkind after (hafter hbuf) hsent hended
      fun _ => .inl hopened⟩

/-- On a stream that is not done, headers that were announced are there. -/
theorem opened (hstate : s.state ≠ .done) (hannounces : s.Announces phase)
    (hsent : s.headerSent = true) : phase = .opened ∨ s.bufErr = true := by
  rcases hannounces hsent with hstart | hdone | hbuf
  · refine .inl ?_
    cases phase with
    | start => exact (hstart rfl).elim
    | opened => rfl
    | ended => exact (hstate (h.ended rfl)).elim
  · exact (hstate hdone).elim
  · exact .inr hbuf

section Calls

variable (hfits : s.Fits phase call) (hstep : s.stepCall enc ok call = some next)
include hfits hstep

theorem stepWriteHeader (md : MD) (msg : Option Message) (hcall : call = .writeHeader md msg ∨
    call = .headerState md msg ∨ call = .headerLocked md msg) : ∃ after, InOrder next after := by
  rcases hcall with rfl | rfl | rfl
  · simp only [ServerStream.stepCall] at hstep
    split at hstep <;> cases hstep
    · exact ⟨phase, h.returns hfits false⟩
    · next hunsent =>
      have hstart := h.unsent (by simpa using hunsent)
      exact ⟨phase, h.items, nofun, h.ended, ⟨rfl, hstart⟩, h.cleanups⟩
  · simp only [ServerStream.stepCall] at hstep
    split at hstep <;> cases hstep
    · next hstate => exact ⟨phase, h.returns (fun _ => .inr (.inl hstate)) false⟩
    · exact ⟨phase, h.goes hfits⟩
  · cases hstep
    have hset : InOrder { s with
        header := if md = [] then s.header else if s.header = [] then md else appendMD s.header md }
        phase := h.others rfl rfl rfl id id fun _ => .inl
    refine hset.writeHeaderLocked hfits.1 hfits.2 ?_
    cases msg with
    | none => exact fun _ => .inl nofun
    | some msg => exact ⟨hfits.1, .inl rfl⟩

theorem stepWrite (msg : Message) (hcall : call = .write msg ∨ call = .writeState msg ∨
    call = .quota msg ∨ call = .putData msg) : ∃ after, InOrder next after := by
  rcases hcall with rfl | rfl | rfl | rfl
  · simp only [ServerStream.stepCall] at hstep
    split at hstep <;> cases hstep
    · next hsent => exact ⟨phase, h.goes ⟨hsent, hfits⟩⟩
    · exact ⟨phase, h.goes hfits⟩
  · simp only [ServerStream.stepCall] at hstep
    split at hstep <;> cases hstep
    · exact ⟨phase, h.returns hfits.2 false⟩
    · next hstate => exact ⟨phase, h.goes ⟨hfits.1, h.opened hstate hfits.2 hfits.1⟩⟩
  · simp only [ServerStream.stepCall] at hstep
    split at hstep <;> cases hstep
    · exact ⟨phase, h.goes hfits⟩
    · refine ⟨phase, h.returns (fun _ => ?_) false⟩
      exact hfits.2.elim (fun hopened => .inl (by simp [hopened])) fun hbuf => .inr (.inr hbuf)
  · cases hstep
    refine h.putsLast .data rfl .opened (fun hbuf => ?_) hfits.1 nofun nofun _
    rw [hfits.2.resolve_right hbuf]
    rfl

theorem stepWriteStatus (st : RpcStatus) (hcall : call = .writeStatus st ∨
    call = .statusHeader st ∨ call = .statusLocked st) : ∃ after, InOrder next after := by
  rcases hcall with rfl | rfl | rfl
  · simp only [ServerStream.stepCall] at hstep
    split at hstep <;> cases hstep
    · exact ⟨phase, h.returns hfits true⟩
    · next hstate => exact ⟨phase, h.goes fun hended => hstate (h.ended hended)⟩
  · simp only [ServerStream.stepCall] at hstep
    split at hstep
    · next hsent =>
      cases hstep
      exact ⟨phase, h.goes ⟨hsent, hfits⟩⟩
    · next hunsent =>
      have hstart := h.unsent (by simpa using hunsent)
      split at hstep <;> cases hstep
      · exact ⟨phase, h.items, nofun, h.ended, ⟨rfl, hfits⟩, h.cleanups⟩
      · exact ⟨phase, h.items, nofun, h.ended, ⟨rfl, hstart⟩, h.cleanups⟩
  · cases hstep
    exact h.writeHeaderLocked hfits.1 hfits.2 ⟨hfits.1, nofun⟩

theorem stepFinish (hf : List HeaderField) (rst : Bool) (hcall : call = .check hf ∨ call = .rst hf ∨
    call = .finishStream hf rst ∨ call = .putTrailer hf rst) : ∃ after, InOrder next after := by
  rcases hcall with rfl | rfl | rfl | rfl
  · simp only [ServerStream.stepCall] at hstep
    split at hstep
    · next hbuf =>
      cases hstep
      exact ⟨phase, h.returns (fun _ => .inr (.inr hbuf)) false⟩
    · split at hstep <;> cases hstep
      · exact ⟨phase, h.goes hfits⟩
      · exact ⟨phase, h.goes hfits.1⟩
  · cases hstep
    exact ⟨phase, h.goes hfits⟩
  · simp only [ServerStream.stepCall] at hstep
    split at hstep <;> cases hstep
    · next hstate => exact ⟨phase, h.returns (fun _ => .inr (.inl hstate)) true⟩
    · exact ⟨phase, h.items, h.unsent, fun _ => rfl, ⟨hfits.1, hfits.2, rfl⟩, h.cleanups⟩
  · cases hstep
    refine h.putsLast .trailer rfl .ended (fun _ => ?_) hfits.1 (fun _ => hfits.2.2) nofun _
    cases phase <;> first | rfl | exact (hfits.2.1 rfl).elim

end Calls

theorem stepCall (hstep : s.stepCall enc ok s.call = some next) : ∃ after, InOrder next after := by
  have hfits := h.call
  generalize s.call = pc at hstep hfits
  cases pc with
  | idle _ => cases hstep
  | writeHeader md msg | headerState md msg | headerLocked md msg =>
    exact h.stepWriteHeader hfits hstep md msg (by simp)
  | write msg | writeState msg | quota msg | putData msg =>
    exact h.stepWrite hfits hstep msg (by simp)
  | writeStatus st | statusHeader st | statusLocked st =>
    exact h.stepWriteStatus hfits hstep st (by simp)
  | check hf | rst hf => exact h.stepFinish hfits hstep hf true (by simp)
  | finishStream hf rst | putTrailer hf rst => exact h.stepFinish hfits hstep hf rst (by simp)
  | closeStream =>
    cases hstep
    exact ⟨phase, h.items, h.unsent, fun _ => rfl, ⟨hfits, rfl⟩, h.cleanups⟩
  | putCleanup =>
    cases hstep
    have hput : InOrder (s.put (.cleanupStream (s.cleanup true ErrCode.internal))) phase :=
      h.others (phaseOf_put rfl) rfl rfl id id mem_putCleanup
    exact ⟨phase, hput.returns (fun _ => .inr (.inl hfits.2)) false⟩

theorem begin (hcall : s.Announces phase → s.Fits phase call)
    (hstep : s.begin call = some next) : InOrder next phase := by
  have hfits := h.call
  unfold ServerStream.begin at hstep
  split at hstep <;> cases hstep
  next hpc =>
  rw [hpc] at hfits
  exact h.goes (hcall hfits)

theorem step {event : StreamEvent} (hstep : s.step enc event = some next) :
    ∃ after, InOrder next after := by
  cases event with
  | writeHeader md | write msg | writeStatus st => exact ⟨phase, h.begin id hstep⟩
  | setHeader md | setTrailer md =>
    obtain ⟨same, hsame, rfl⟩ := Option.map_eq_some_iff.mp hstep
    have hbegun : InOrder same phase := h.begin (fun _ => h.call) hsame
    refine ⟨phase, ?_⟩
    split
    · exact hbegun
    · exact hbegun.others rfl rfl rfl id id fun _ => .inl
  | setBizStatusErr err =>
    obtain ⟨same, hsame, rfl⟩ := Option.map_eq_some_iff.mp hstep
    have hbegun : InOrder same phase := h.begin (fun _ => h.call) hsame
    exact ⟨phase, hbegun.others rfl rfl rfl id id fun _ => .inl⟩
  | step ok => exact h.stepCall hstep
  | closeStream rst rstCode =>
    cases hstep
    exact ⟨phase, h.others rfl rfl rfl (fun _ => rfl) id fun _ => .inl⟩
  | rstActiveStream =>
    simp only [ServerStream.step] at hstep
    split at hstep <;> cases hstep
    · exact ⟨phase, h⟩
    · exact ⟨phase, h.others rfl rfl rfl (fun _ => rfl) id fun _ => .inl⟩
  | putCleanup =>
    simp only [ServerStream.step] at hstep
    split at hstep <;> cases hstep
    next cleanup closers _ =>
    have hset : InOrder { s with closers := closers } phase :=
      h.others rfl rfl rfl id id fun _ => .inl
    exact ⟨phase, hset.others (phaseOf_put rfl) rfl rfl id id mem_putCleanup⟩
  | rstDeleted =>
    cases hstep
    exact ⟨phase, h.others (phaseOf_put rfl) rfl rfl id id mem_putCleanup⟩
  | endStream =>
    cases hstep
    exact ⟨phase, h.others rfl rfl rfl (fun hdone => by simp [hdone]) id fun _ => .inl⟩
  | settings max =>
    cases hstep
    refine ⟨phase, ?_⟩
    split
    · exact h
    · exact h.others rfl rfl rfl id id fun _ => .inl
  | finish =>
    cases hstep
    exact ⟨phase, h.others rfl rfl rfl id (fun _ => rfl) fun _ => .inl⟩

end InOrder

theorem inOrder_newStream (streamID : UInt32) (contentSubtype sendCompress : Bytes) (ended : Bool)
    (maxSendHeaderListSize : Option UInt32) :
    InOrder (newStream streamID contentSubtype sendCompress ended maxSendHeaderListSize) .start :=
  ⟨rfl, fun _ => rfl, nofun, nofun, nofun⟩

/-- For every sequence of calls of a handler, with resets, settings and the end of the transport at
any point: the items of the stream but for its cleanup are the headers at most once, then messages
if there were headers, then a trailer at most once. -/
theorem response_run (enc : HeaderText) (streamID : UInt32) (contentSubtype sendCompress : Bytes)
    (ended : Bool) (maxSendHeaderListSize : Option UInt32) (events : List StreamEvent)
    (s : ServerStream) (hrun : Machine.run (step enc)
      (newStream streamID contentSubtype sendCompress ended maxSendHeaderListSize) events =
        some s) : Response (s.items.filterMap CbItem.kind) ∧
      ∀ item ∈ s.items, item.kind = none → ∃ c, item = .cleanupStream c := by
  obtain ⟨phase, hphase⟩ : ∃ phase, InOrder s phase := by
    refine Machine.run_invariant (fun _ s => ∃ phase, InOrder s phase) ⟨.start, ?_⟩ ?_ hrun
    · exact inOrder_newStream streamID contentSubtype sendCompress ended maxSendHeaderListSize
    · rintro _ _ _ _ _ ⟨phase, hphase⟩ hstep
      exact hphase.step hstep
  exact ⟨response_of_run hphase.items, hphase.cleanups⟩

/-- A message, a reset that comes before the second message, and the status. -/
def resetRun : List StreamEvent :=
  .write ⟨[0], [1]⟩ :: List.replicate 6 (.step true) ++
    [.write ⟨[0], [2]⟩, .step true, .step true, .closeStream false 0, .putCleanup, .step true,
      .step true, .writeStatus ⟨0, [], none⟩, .step true]

theorem response_run_reset : ∃ s,
    Machine.run (step .verbatim) (newStream 1 [] [] false none) resetRun = some s ∧
    s.items.map CbItem.kind = [some .header, some .data, none, some .data] ∧
    Response (s.items.filterMap CbItem.kind) := by
  obtain ⟨s, hrun, hkinds⟩ : ∃ s,
      Machine.run (step .verbatim) (newStream 1 [] [] false none) resetRun = some s ∧
      s.items.map CbItem.kind = [some .header, some .data, none, some .data] :=
    ⟨_, rfl, rfl⟩
  exact ⟨s, hrun, hkinds, (response_run .verbatim 1 [] [] false none resetRun s hrun).1⟩

end ServerStream

end Kitex.Http2
