import Kitex.Nphttp2.ServerHandler

/-! # Every stream is answered

When `handleFunc` has returned, the stream has its trailer or a reset on the control buffer, or the
transport is closed. A panic that reaches `handleFunc` itself is recovered without an answer.
-/

namespace Kitex.Http2

/-- The item ends its stream. -/
def CbItem.ends : CbItem → Bool
  | .headerFrame h => h.endStream
  | .cleanupStream _ => true
  | _ => false

namespace ServerStream

variable {enc : HeaderText} {s next : ServerStream} {ok : Bool} {item : CbItem}

/-- The stream was ended by a trailer or a reset, or by a goroutine that is about to put the reset,
or the transport is closed. -/
def Answered (s : ServerStream) : Prop :=
  s.bufErr = true ∨ (∃ item ∈ s.items, item.ends = true) ∨ s.closers ≠ []

/-- A stream that is done is answered, or will be by the call in progress. -/
def Settles (s : ServerStream) : Prop :=
  s.state = .done → s.Answered ∨ (∃ hf rst, s.call = .putTrailer hf rst) ∨ s.call = .putCleanup

theorem Answered.keeps (h : s.Answered) (hbuf : s.bufErr = true → next.bufErr = true)
    (hitems : s.items ⊆ next.items) (hclosers : s.closers ≠ [] → next.closers ≠ []) :
    next.Answered :=
  h.imp hbuf (Or.imp (fun ⟨item, hmem, hends⟩ => ⟨item, hitems hmem, hends⟩) hclosers)

theorem items_subset_put : s.items ⊆ (s.put item).items := by
  unfold put
  split
  · exact fun _ => id
  · exact List.subset_append_left _ _

theorem answered_put (hends : item.ends) : (s.put item).Answered := by
  by_cases hbuf : s.bufErr = true
  · exact .inl hbuf
  · exact .inr (.inl ⟨item, by simp [put, hbuf], hends⟩)

/-- What a call of the handler leaves, whatever it does. -/
structure Kept (s next : ServerStream) : Prop where
  bufErr : next.bufErr = s.bufErr
  items : s.items ⊆ next.items
  closers : next.closers = s.closers

theorem kept_writeHeaderLocked (enc : HeaderText) (call : HandlerCall) :
    Kept s (s.writeHeaderLocked enc call) := by
  unfold writeHeaderLocked
  split
  · exact ⟨rfl, fun _ => id, rfl⟩
  · split
    · exact ⟨rfl, items_subset_put, rfl⟩
    · exact ⟨rfl, fun _ => id, rfl⟩

variable {call : HandlerCall} {event : StreamEvent}

theorem kept_stepCall (hstep : s.stepCall enc ok call = some next) : Kept s next := by
  cases call with
  | idle _ => cases hstep
  | writeHeader _ _ | headerState _ _ | write _ | writeState _ | quota _ | writeStatus _
  | finishStream _ _ =>
    simp only [stepCall] at hstep
    split at hstep <;> cases hstep <;> exact ⟨rfl, fun _ => id, rfl⟩
  | headerLocked md msg =>
    cases hstep
    have hlocked : Kept { s with
        header := if md = [] then s.header else if s.header = [] then md else appendMD s.header md }
        _ := kept_writeHeaderLocked enc (msg.elim (.idle true) .quota)
    exact ⟨hlocked.bufErr, hlocked.items, hlocked.closers⟩
  | statusHeader _ | check _ =>
    simp only [stepCall] at hstep
    split at hstep
    · cases hstep
      exact ⟨rfl, fun _ => id, rfl⟩
    · split at hstep <;> cases hstep <;> exact ⟨rfl, fun _ => id, rfl⟩
  | statusLocked _ =>
    cases hstep
    exact kept_writeHeaderLocked enc _
  | putData _ | putTrailer _ _ | putCleanup =>
    cases hstep
    exact ⟨rfl, items_subset_put, rfl⟩
  | rst _ | closeStream =>
    cases hstep
    exact ⟨rfl, fun _ => id, rfl⟩

theorem Kept.answered (hkept : Kept s next) (h : s.Answered) : next.Answered :=
  h.keeps (hkept.bufErr ▸ id) hkept.items (hkept.closers ▸ id)

/-- The call goes on without a change of the state. -/
theorem Settles.goes (h : s.Settles) (hkept : Kept s next) (hstate : next.state = s.state)
    (htrailer : ∀ hf rst, s.call ≠ .putTrailer hf rst) (hcleanup : s.call ≠ .putCleanup) :
    next.Settles := by
  intro hdone
  rcases h (hstate ▸ hdone) with hanswered | ⟨hf, rst, hcall⟩ | hcall
  · exact .inl (hkept.answered hanswered)
  · exact (htrailer hf rst hcall).elim
  · exact (hcleanup hcall).elim

/-- `WriteStatus` is in progress, or has returned and left an ended stream. -/
def Ending (s : ServerStream) : Prop :=
  match s.call with
  | .idle _ => s.state = .done ∨ s.bufErr = true
  | .writeStatus _ | .statusHeader _ | .statusLocked _ | .check _ | .rst _ | .finishStream _ _
  | .closeStream => True
  | .putTrailer _ _ | .putCleanup => s.state = .done
  | _ => False

theorem state_writeHeaderLocked (call : HandlerCall) :
    (s.writeHeaderLocked enc call).state = s.state := by
  unfold writeHeaderLocked
  split
  · rfl
  · split <;> rfl

theorem settles_stepCall (h : s.Settles) (hstep : s.stepCall enc ok s.call = some next) :
    next.Settles := by
  have hgoes := h.goes (kept_stepCall hstep)
  generalize s.call = pc at hstep hgoes
  cases pc with
  | idle _ => cases hstep
  | writeHeader _ _ | headerState _ _ | write _ | writeState _ | quota _ | writeStatus _ =>
    simp only [stepCall] at hstep
    split at hstep <;> cases hstep <;> exact hgoes rfl (by simp) (by simp)
  | headerLocked _ _ | statusLocked _ =>
    cases hstep
    exact hgoes (state_writeHeaderLocked _) (by simp) (by simp)
  | statusHeader _ | check _ =>
    simp only [stepCall] at hstep
    split at hstep
    · cases hstep
      exact hgoes rfl (by simp) (by simp)
    · split at hstep <;> cases hstep <;> exact hgoes rfl (by simp) (by simp)
  | putData _ | rst _ =>
    cases hstep
    exact hgoes rfl (by simp) (by simp)
  | finishStream hf rst =>
    simp only [stepCall] at hstep
    split at hstep <;> cases hstep
    · exact hgoes rfl (by simp) (by simp)
    · exact fun _ => .inr (.inl ⟨hf, rst, rfl⟩)
  | putTrailer hf rst =>
    cases hstep
    have hput : (s.put (s.trailerItem hf rst)).Answered := answered_put rfl
    exact fun _ => .inl (hput.keeps id (fun _ => id) id)
  | closeStream =>
    cases hstep
    exact fun _ => .inr (.inr rfl)
  | putCleanup =>
    cases hstep
    have hput : (s.put (.cleanupStream (s.cleanup true ErrCode.internal))).Answered :=
      answered_put rfl
    exact fun _ => .inl (hput.keeps id (fun _ => id) id)

theorem ending_writeHeaderLocked {hf : List HeaderField} (hcall : call = .check hf) :
    (s.writeHeaderLocked enc call).Ending := by
  unfold writeHeaderLocked
  split
  · next hbuf => exact .inr hbuf
  · split
    · rw [hcall]
      trivial
    · trivial

theorem ending_stepCall (h : s.Ending) (hstep : s.stepCall enc ok s.call = some next) :
    next.Ending := by
  unfold Ending at h
  generalize s.call = pc at h hstep
  cases pc with
  | idle _ => cases hstep
  | writeStatus _ | finishStream _ _ =>
    simp only [stepCall] at hstep
    split at hstep <;> cases hstep
    · next hdone => exact .inl hdone
    · trivial
  | statusHeader _ =>
    simp only [stepCall] at hstep
    split at hstep
    · cases hstep
      trivial
    · split at hstep <;> cases hstep <;> trivial
  | statusLocked _ =>
    cases hstep
    exact ending_writeHeaderLocked rfl
  | check _ =>
    simp only [stepCall] at hstep
    split at hstep
    · next hbuf =>
      cases hstep
      exact .inr hbuf
    · split at hstep <;> cases hstep <;> trivial
  | rst _ | closeStream =>
    cases hstep
    trivial
  | putTrailer _ _ | putCleanup =>
    cases hstep
    exact .inl h
  | writeHeader _ _ | headerState _ _ | headerLocked _ _ | write _ | writeState _ | quota _
  | putData _ => exact h.elim

/-- The events of other goroutines. -/
theorem others (hstep : s.step enc event = some next) (hother : ∀ ok, event ≠ .step ok)
    (huser : event.byHandler = false) :
    next.call = s.call ∧ (s.state = .done → next.state = .done) ∧
      (s.bufErr = true → next.bufErr = true) ∧ (s.Answered → next.Answered) ∧
      (next.state = .done → s.state = .done ∨ next.Answered) := by
  cases event with
  | writeHeader _ | write _ | writeStatus _ | setHeader _ | setTrailer _ | setBizStatusErr _ =>
    cases huser
  | step ok => exact (hother ok rfl).elim
  | closeStream rst rstCode =>
    cases hstep
    exact ⟨rfl, fun _ => rfl, id, fun h => h.keeps id (fun _ => id) (by simp),
      fun _ => .inr (.inr (.inr (by simp)))⟩
  | rstActiveStream =>
    simp only [step] at hstep
    split at hstep <;> cases hstep
    · exact ⟨rfl, id, id, id, .inl⟩
    · exact ⟨rfl, fun _ => rfl, id, fun h => h.keeps id (fun _ => id) (by simp),
        fun _ => .inr (.inr (.inr (by simp)))⟩
  | putCleanup =>
    simp only [step] at hstep
    split at hstep <;> cases hstep
    next cleanup closers _ =>
    exact ⟨rfl, id, id, fun _ => answered_put (s := { s with closers := closers }) rfl, .inl⟩
  | rstDeleted =>
    cases hstep
    exact ⟨rfl, id, id, fun _ => answered_put rfl, .inl⟩
  | endStream =>
    cases hstep
    refine ⟨rfl, fun hdone => by simp [hdone], id, fun h => h.keeps id (fun _ => id) id, ?_⟩
    intro hdone
    split at hdone
    · cases hdone
    · exact .inl hdone
  | settings max =>
    cases hstep
    split
    · exact ⟨rfl, id, id, id, .inl⟩
    · exact ⟨rfl, id, id, fun h => h.keeps id (fun _ => id) id, .inl⟩
  | finish =>
    cases hstep
    exact ⟨rfl, id, fun _ => rfl, fun _ => .inl rfl, .inl⟩

theorem settles_step (h : s.Settles) (hstep : s.step enc event = some next) : next.Settles := by
  have hbegin : ∀ {call same}, s.begin call = some same → same.Settles := by
    intro call same hsame
    unfold begin at hsame
    split at hsame <;> cases hsame
    next hpc => exact h.goes ⟨rfl, fun _ => id, rfl⟩ rfl (by simp [hpc]) (by simp [hpc])
  have hset : ∀ {same set : ServerStream}, same.Settles → set.state = same.state →
      set.call = same.call → set.bufErr = same.bufErr → set.items = same.items →
      set.closers = same.closers → set.Settles := by
    intro same set hsame hstate hcall hbuf hitems hclosers
    unfold Settles Answered
    rw [hstate, hcall, hbuf, hitems, hclosers]
    exact hsame
  cases event with
  | writeHeader md | write msg | writeStatus st => exact hbegin hstep
  | setHeader md | setTrailer md =>
    obtain ⟨same, hsame, rfl⟩ := Option.map_eq_some_iff.mp hstep
    split
    · exact hbegin hsame
    · exact hset (hbegin hsame) rfl rfl rfl rfl rfl
  | setBizStatusErr err =>
    obtain ⟨same, hsame, rfl⟩ := Option.map_eq_some_iff.mp hstep
    exact hset (hbegin hsame) rfl rfl rfl rfl rfl
  | step ok => exact settles_stepCall h hstep
  | _ =>
    obtain ⟨hcall, -, -, hanswered, hdone⟩ := others hstep nofun rfl
    intro hnext
    rcases hdone hnext with hold | hnew
    · rw [hcall]
      exact (h hold).imp_left hanswered
    · exact .inl hnew

theorem answered_step (h : s.Answered) (huser : event.byHandler = false)
    (hstep : s.step enc event = some next) : next.Answered := by
  by_cases hown : ∃ ok, event = .step ok
  · obtain ⟨ok, rfl⟩ := hown
    exact (kept_stepCall hstep).answered h
  · rw [not_exists] at hown
    exact (others hstep hown huser).2.2.2.1 h

/-- While the status is written, and after it. -/
theorem ending_step (h : s.Ending) (huser : event.byHandler = false)
    (hstep : s.step enc event = some next) : next.Ending := by
  by_cases hown : ∃ ok, event = .step ok
  · obtain ⟨ok, rfl⟩ := hown
    exact ending_stepCall h hstep
  · rw [not_exists] at hown
    obtain ⟨hcall, hstate, hbuf, -, -⟩ := others hstep hown huser
    unfold Ending at *
    rw [hcall]
    split at h
    all_goals first | exact trivial | exact h.elim | exact h.imp hstate hbuf | exact hstate h

end ServerStream

end Kitex.Http2

namespace Kitex.Nphttp2

open Kitex.Http2

/-- A panic goes through `handleFunc`. Those of a handler do not: they are recovered around it. -/
def ServeEvent.escapes : ServeEvent → Bool
  | .metaHandler (.error ()) | .unknownServiceHandler (.error ()) => true
  | .inkHdlFunc handler middlewares => middlewares (handleEndpoint handler).1 = .panicked
  | _ => false

namespace Serving

variable {opt : ServeOptions} {v w : Serving}

/-- `handleFunc` has returned, or a panic has ended it. -/
def gone (v : Serving) : Bool := v.pc = .returned || v.pc = .recovered

structure Answers (v : Serving) : Prop where
  settles : v.stream.Settles
  ending : v.pc = .writeStatus → v.stream.Ending
  returned : v.pc = .returned → v.stream.Answered
  alive : v.pc ≠ .recovered

namespace Answers

/-- A step of `handleFunc` that leaves the stream alone. -/
theorem goes (h : v.Answers) {pc : ServePc} (hstream : w.stream = v.stream) (hpc : w.pc = pc)
    (hstatus : pc ≠ .writeStatus) (halive : pc ≠ .recovered)
    (hreturned : pc = .returned → v.stream.Answered) : w.Answers where
  settles := hstream ▸ h.settles
  ending hnext := (hstatus (hpc.symm.trans hnext)).elim
  returned hnext := hstream ▸ hreturned (hpc.symm.trans hnext)
  alive := hpc ▸ halive

variable {stream : ServerStream}

theorem begin (h : v.stream.Settles) {call : HandlerCall}
    (hbegin : v.stream.begin call = some stream) : stream.Settles ∧ stream.call = call := by
  unfold ServerStream.begin at hbegin
  split at hbegin <;> cases hbegin
  next hpc =>
  exact ⟨h.goes ⟨rfl, fun _ => id, rfl⟩ rfl (by simp [hpc]) (by simp [hpc]), rfl⟩

theorem writeStatus {st : RpcStatus} (hstep : v.writeStatus st = some w)
    (h : v.stream.Settles) : w.Answers := by
  obtain ⟨stream, hbegin, rfl⟩ := Option.map_eq_some_iff.mp hstep
  obtain ⟨hsettles, hcall⟩ := begin h hbegin
  refine ⟨hsettles, fun _ => ?_, nofun, nofun⟩
  unfold ServerStream.Ending
  rw [hcall]
  trivial

/-- The status was written. -/
theorem answered (h : v.Answers) (hpc : v.pc = .writeStatus) (hidle : v.isIdle) :
    v.stream.Answered := by
  have hending := h.ending hpc
  unfold isIdle at hidle
  split at hidle
  · next ok hcall =>
    rw [ServerStream.Ending, hcall] at hending
    rcases hending with hdone | hbuf
    · exact (h.settles hdone).resolve_right (by simp [hcall])
    · exact .inl hbuf
  · cases hidle

theorem next (h : v.Answers) (hstep : v.next opt = some w) : w.Answers := by
  unfold Serving.next at hstep
  split at hstep
  · split at hstep
    · exact writeStatus hstep h.settles
    · split at hstep
      · exact writeStatus hstep h.settles
      · cases hstep
        exact h.goes rfl rfl nofun nofun nofun
  · cases hstep
    exact h.goes rfl rfl nofun nofun nofun
  · dsimp only at hstep
    split at hstep
    · split at hstep
      · cases hstep
        exact h.goes rfl rfl nofun nofun nofun
      · split at hstep <;> cases hstep <;> exact h.goes rfl rfl nofun nofun nofun
    · split at hstep <;> cases hstep <;> exact h.goes rfl rfl nofun nofun nofun
  · split at hstep <;> cases hstep
    exact h.goes rfl rfl nofun nofun nofun
  · exact writeStatus hstep h.settles
  · split at hstep
    · exact writeStatus hstep h.settles
    · exact writeStatus hstep h.settles
  · next hpc =>
    split at hstep <;> cases hstep
    next hidle => exact h.goes rfl rfl nofun nofun fun _ => h.answered hpc hidle
  · cases hstep

/-- An event of the stream while `handleFunc` stays where it is. -/
theorem streamStep (h : v.Answers) {event : StreamEvent}
    (huser : event.byHandler = true → v.inUserCode = true)
    (hstep : v.stream.step opt.enc event = some stream) : Answers { v with stream } where
  settles := ServerStream.settles_step h.settles hstep
  ending hpc := by
    refine ServerStream.ending_step (h.ending hpc) ?_ hstep
    by_contra hevent
    have hcode := huser (by simpa using hevent)
    rw [inUserCode, hpc] at hcode
    cases hcode
  returned hpc := by
    refine ServerStream.answered_step (h.returned hpc) ?_ hstep
    by_contra hevent
    have hcode := huser (by simpa using hevent)
    rw [inUserCode, hpc] at hcode
    cases hcode
  alive := h.alive

theorem step (h : v.Answers) {event : ServeEvent} (hcond : event.escapes = false)
    (hstep : v.step opt event = some w) : w.Answers := by
  cases event with
  | next => exact h.next hstep
  | metaHandler outcome =>
    simp only [Serving.step] at hstep
    split at hstep
    · cases hstep
      exact h.goes rfl rfl nofun nofun nofun
    · exact writeStatus hstep h.settles
    · cases hcond
    · cases hstep
  | unknownServiceHandler outcome =>
    simp only [Serving.step] at hstep
    split at hstep
    · split at hstep
      · cases hstep
        exact h.goes rfl rfl nofun nofun nofun
      · cases hcond
    · cases hstep
  | recvMsg err =>
    simp only [Serving.step] at hstep
    split at hstep
    · split at hstep <;> cases hstep <;> exact h.goes rfl rfl nofun nofun nofun
    · cases hstep
  | encodeErr =>
    simp only [Serving.step] at hstep
    split at hstep <;> cases hstep
    exact h.goes rfl rfl nofun nofun nofun
  | inkHdlFunc handler middlewares =>
    simp only [Serving.step] at hstep
    split at hstep
    · split at hstep
      · split at hstep
        · next hpanicked =>
          simp [ServeEvent.escapes, hpanicked] at hcond
        · cases hstep
          exact h.goes rfl rfl nofun nofun nofun
        · split at hstep <;> cases hstep <;> exact h.goes rfl rfl nofun nofun nofun
      · cases hstep
    · cases hstep
  | stream event =>
    simp only [Serving.step] at hstep
    split at hstep
    · obtain ⟨stream, hbegin, rfl⟩ := Option.map_eq_some_iff.mp hstep
      exact ⟨(begin h.settles hbegin).1, nofun, nofun, nofun⟩
    · split at hstep
      · cases hstep
      · next huser =>
        obtain ⟨stream, hstream, rfl⟩ := Option.map_eq_some_iff.mp hstep
        refine h.streamStep (fun hevent => ?_) hstream
        simpa [hevent] using huser

end Answers

/-- In every run in which no panic goes through `handleFunc`: when it has returned, the stream was
ended by a trailer or a reset, or the transport is closed. -/
theorem answered_run (opt : ServeOptions) (method : Bytes) (streamID : UInt32)
    (contentSubtype sendCompress : Bytes) (ended : Bool) (maxSendHeaderListSize : Option UInt32)
    (events : List ServeEvent) (v : Serving)
    (hrun : Machine.run (step opt) (start method (ServerStream.newStream streamID contentSubtype
      sendCompress ended maxSendHeaderListSize)) events = some v)
    (hcond : ∀ event ∈ events, event.escapes = false) (hgone : v.gone = true) :
    v.stream.Answered := by
  have hanswers : v.Answers := by
    refine Machine.run_invariant (fun past v => (∀ event ∈ past, event.escapes = false) → v.Answers)
      (fun _ => ?_) ?_ hrun hcond
    · exact ⟨by cases ended <;> exact nofun, nofun, nofun, nofun⟩
    · intro past v event next _ hanswers hstep hpast
      rw [List.forall_mem_append] at hpast
      exact (hanswers hpast.1).step (hpast.2 event (List.mem_singleton_self event)) hstep
  unfold gone at hgone
  simp only [Bool.or_eq_true, decide_eq_true_eq] at hgone
  exact hanswers.returned (hgone.resolve_right hanswers.alive)

/-- A server that knows no service, but has a handler for unknown ones. -/
def proxy : ServeOptions where
  enc := .verbatim
  quote := id
  convertStatus _ := ⟨codeInternal, [], none⟩
  grpcStatus _ := none
  metaHandlers := 0
  setMethodErr _ := none
  searchService _ _ := none
  hasUnknownServiceHandler := true
  compatibleMiddlewareForUnary := false

/-- The method `/S/m`, up to the handler for unknown services. -/
def proxied (outcome : Except Unit (Option Nat)) : List ServeEvent :=
  [.next, .next, .next, .unknownServiceHandler outcome]

theorem answered_run_error : ∃ v,
    Machine.run (step proxy) (start [47, 83, 47, 109] (ServerStream.newStream 1 [] [] true none))
      (proxied (.ok (some 0)) ++ .next :: List.replicate 6 (.stream (.step true)) ++ [.next]) =
      some v ∧
    v.pc = .returned ∧ v.stream.items.map CbItem.kind = [some .trailer] ∧ v.stream.Answered := by
  obtain ⟨v, hrun, hpc, hitems⟩ : ∃ v,
      Machine.run (step proxy) (start [47, 83, 47, 109] (ServerStream.newStream 1 [] [] true none))
        (proxied (.ok (some 0)) ++ .next :: List.replicate 6 (.stream (.step true)) ++ [.next]) =
        some v ∧
      v.pc = .returned ∧ v.stream.items.map CbItem.kind = [some .trailer] := ⟨_, rfl, rfl, rfl⟩
  refine ⟨v, hrun, hpc, hitems, answered_run proxy _ _ _ _ _ _ _ v hrun ?_ (by simp [gone, hpc])⟩
  simp [proxied, ServeEvent.escapes]

/-- The handler for unknown services panics. `handleFunc` recovers, and the client waits. -/
theorem exists_not_answered : ∃ v,
    Machine.run (step proxy) (start [47, 83, 47, 109] (ServerStream.newStream 1 [] [] true none))
      (proxied (.error ())) = some v ∧
    v.gone = true ∧ v.stream.items = [] ∧ ¬ v.stream.Answered := by
  refine ⟨_, rfl, rfl, rfl, ?_⟩
  rintro (hbuf | ⟨item, hmem, -⟩ | hclosers)
  · cases hbuf
  · cases hmem
  · exact hclosers rfl

end Serving

end Kitex.Nphttp2
