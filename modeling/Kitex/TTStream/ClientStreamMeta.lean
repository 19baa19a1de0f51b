import Kitex.TTStream.ClientStream

/-! # Header and trailer of a client stream

`Header` and `Trailer` wait for a signal on a channel with one slot, which is filled when a header
is received, when the stream is reset and when it is closed. The signal is taken out by the call
that receives it: a closed stream has one for the first call, and nobody puts it back for the
second one.
-/

namespace Kitex.TTStream

open Kitex.Container

/-- What `Header` and `Trailer` return. -/
inductive MetaAnswer where
  /-- a new map -/
  | empty
  /-- the field of the stream; whether it is not nil -/
  | received (set : Bool)
  | errClosedStream
  | errCanceledStream
  deriving DecidableEq, Repr

def Signal.answer (set : Bool) : Signal → MetaAnswer
  | .none => .empty
  | .active => .received set
  | .inactive => .errClosedStream
  | .cancel => .errCanceledStream

/-- A stream, and what the calls of `Header` and `Trailer` have returned, if they have. -/
structure MetaCalls where
  stream : ClientStream
  headers : List (Option MetaAnswer)
  trailers : List (Option MetaAnswer)
  deriving DecidableEq, Repr

inductive MetaEvent where
  | stream (event : StreamEvent)
  | header
  | headerReturn (call : Nat)
  | trailer
  | trailerReturn (call : Nat)

namespace MetaCalls

def step (codec : PayloadCodec) (s : MetaCalls) : MetaEvent → Option MetaCalls
  | .stream event =>
    -- it is the calls that take the signals
    if event = .takeHeader ∨ event = .takeTrailer then none
    else (s.stream.step codec event).map fun stream => { s with stream }
  | .header => some { s with headers := s.headers ++ [none] }
  | .headerReturn call =>
    match s.headers[call]?, s.stream.headerSig with
    | some none, some sig => some { s with
        stream := { s.stream with headerSig := none }
        headers := s.headers.set call (some (sig.answer s.stream.header)) }
    | _, _ => none
  | .trailer => some { s with trailers := s.trailers ++ [none] }
  | .trailerReturn call =>
    match s.trailers[call]?, s.stream.trailerSig with
    -- the signal of a trailer is sent after the field is set to one that is not nil
    | some none, some sig => some { s with
        stream := { s.stream with trailerSig := none }
        trailers := s.trailers.set call (some (sig.answer true)) }
    | _, _ => none

def run (codec : PayloadCodec) (events : List MetaEvent) : Option MetaCalls :=
  Machine.run (step codec) ⟨.newClientStream, [], []⟩ events

end MetaCalls

/-! ## The first signal -/

/-- There is a signal, or a call of `close` is still to send it. -/
def Due (sig : Option Signal) (owes : CloseStep → Prop) (closers : List Closer) : Prop :=
  sig.isSome ∨ ∃ closer ∈ closers, owes closer.next

section Due

variable {sig sig' : Option Signal} {owes : CloseStep → Prop} {closers : List Closer} {k : Nat}
  {closer : Closer} {change : Closer → Closer}

theorem due_or_some (signal : Signal) : Due (sig.or (some signal)) owes closers :=
  .inl (by simp)

theorem Due.concat (hdue : Due sig owes closers) (added : Closer) :
    Due sig owes (closers ++ [added]) :=
  hdue.imp_right exists_mem_concat

theorem Due.modify (hdue : Due sig owes closers) (hcloser : closers[k]? = some closer)
    (hkeep : owes closer.next → owes (change closer).next) :
    Due sig owes (closers.modify k change) :=
  hdue.imp_right (exists_mem_modify hcloser hkeep)

theorem due_modify_self (hcloser : closers[k]? = some closer) (howes : owes (change closer).next) :
    Due sig owes (closers.modify k change) :=
  .inr ⟨_, List.mem_of_getElem? (getElem?_modify_self hcloser change), howes⟩

end Due

namespace ClientStream

variable {codec : PayloadCodec} {s t : ClientStream} {event : StreamEvent}

def HeaderDue (s : ClientStream) : Prop := Due s.headerSig (· = .signalHeader) s.closers

def TrailerDue (s : ClientStream) : Prop :=
  Due s.trailerSig (fun next => next = .signalHeader ∨ next = .signalTrailer) s.closers

theorem CloserStepped.metaDue {k : Nat} {closer : Closer} (hstep : CloserStepped s k closer t)
    (hcloser : s.closers[k]? = some closer) (hinactive : t.state = .inactive) :
    ((s.state = .inactive → s.HeaderDue) → t.HeaderDue) ∧
      ((s.state = .inactive → s.TrailerDue) → t.TrailerDue) := by
  cases hstep with
  | swapWon hnext hstate =>
    exact ⟨fun _ => due_modify_self hcloser rfl, fun _ => due_modify_self hcloser (.inl rfl)⟩
  | signalHeader signal hnext =>
    refine ⟨fun _ => due_or_some signal, fun hdue => ?_⟩
    exact (hdue hinactive).modify hcloser fun _ => .inr rfl
  | signalTrailer signal hnext =>
    refine ⟨fun hdue => (hdue hinactive).modify hcloser fun howes => ?_,
      fun _ => due_or_some signal⟩
    cases hnext.symm.trans howes
  | store hnext | swapLost hnext _ | readerWrite _ hnext _ | readerSkip hnext _
  | readerClose hnext | sendRst hnext | skipRst hnext | sendTrailer hnext _
  | skipTrailer hnext _ | callbacks hnext | delete hnext | put hnext =>
    -- a call elsewhere owes no signal
    refine ⟨fun hdue => (hdue hinactive).modify hcloser fun howes => ?_,
      fun hdue => (hdue hinactive).modify hcloser fun howes => ?_⟩
    · cases hnext.symm.trans howes
    · rcases howes with howes | howes <;> cases hnext.symm.trans howes

/-- Once the stream is inactive, a signal is there until it is taken. -/
theorem Stepped.metaDue (hstep : Stepped codec s event t) (hinactive : t.state = .inactive) :
    (event ≠ .takeHeader → (s.state = .inactive → s.HeaderDue) → t.HeaderDue) ∧
      (event ≠ .takeTrailer → (s.state = .inactive → s.TrailerDue) → t.TrailerDue) := by
  cases hstep with
  | closer hcloser hstep =>
    exact ⟨fun _ => (hstep.metaDue hcloser hinactive).1, fun _ =>
      (hstep.metaDue hcloser hinactive).2⟩
  | close | recvCtxDone | recvTimeoutClose | readTrailer =>
    exact ⟨fun _ hdue => (hdue hinactive).concat _, fun _ hdue => (hdue hinactive).concat _⟩
  | closeSendWon => cases hinactive
  | readHeader =>
    refine ⟨fun _ hdue => ?_, fun _ hdue => hdue hinactive⟩
    unfold HeaderDue ClientStream.readHeader
    split
    next => exact hdue hinactive
    next => exact due_or_some _
  | readRst =>
    exact ⟨fun _ _ => due_or_some _, fun _ _ => due_or_some _⟩
  | takeHeader => exact ⟨fun hevent => absurd rfl hevent, fun _ hdue => hdue hinactive⟩
  | takeTrailer => exact ⟨fun _ hdue => hdue hinactive, fun hevent => absurd rfl hevent⟩
  | _ => exact ⟨fun _ hdue => hdue hinactive, fun _ hdue => hdue hinactive⟩

/-- The stream is closed, and the call of `close` that has won has sent its signals. -/
structure MetaClosed (s : ClientStream) : Prop where
  state : s.state = .inactive
  signalled : ∀ closer ∈ s.closers, closer.next ≠ .signalHeader ∧ closer.next ≠ .signalTrailer

theorem MetaClosed.headerSig (hclosed : s.MetaClosed) (hdue : s.HeaderDue) :
    ∃ sig, s.headerSig = some sig := by
  refine Option.isSome_iff_exists.mp (hdue.resolve_right ?_)
  rintro ⟨closer, hmem, hnext⟩
  exact (hclosed.signalled closer hmem).1 hnext

theorem MetaClosed.trailerSig (hclosed : s.MetaClosed) (hdue : s.TrailerDue) :
    ∃ sig, s.trailerSig = some sig := by
  refine Option.isSome_iff_exists.mp (hdue.resolve_right ?_)
  rintro ⟨closer, hmem, hnext | hnext⟩
  · exact (hclosed.signalled closer hmem).1 hnext
  · exact (hclosed.signalled closer hmem).2 hnext

end ClientStream

/-! ## Runs -/

namespace MetaCalls

variable {codec : PayloadCodec} {s t : MetaCalls} {calls : List (Option MetaAnswer)} {call : Nat}

/-- No call has returned yet. -/
def Unanswered (calls : List (Option MetaAnswer)) : Prop := ∀ call ∈ calls, call = none

/-- The first call will have its signal. -/
structure Sound (s : MetaCalls) : Prop where
  header : Unanswered s.headers → s.stream.state = .inactive → s.stream.HeaderDue
  trailer : Unanswered s.trailers → s.stream.state = .inactive → s.stream.TrailerDue

theorem not_unanswered_set {answer : MetaAnswer} (hcall : calls[call]? = some none) :
    ¬ Unanswered (calls.set call (some answer)) := by
  intro hnone
  have hlt := (List.getElem?_eq_some_iff.mp hcall).1
  cases hnone _ (List.mem_of_getElem? (List.getElem?_set_self hlt))

theorem Sound.step {event : MetaEvent} (hsound : s.Sound) (hstep : s.step codec event = some t) :
    t.Sound := by
  cases event with
  | stream event =>
    obtain ⟨hevent, hstep⟩ := Option.ite_none_left_eq_some.mp hstep
    obtain ⟨stream, hstream, rfl⟩ := Option.map_eq_some_iff.mp hstep
    rw [not_or] at hevent
    have hdue := @ClientStream.Stepped.metaDue _ _ _ _ (ClientStream.stepped_of_step hstream)
    exact ⟨fun hnone hinactive => (hdue hinactive).1 hevent.1 (hsound.header hnone),
      fun hnone hinactive => (hdue hinactive).2 hevent.2 (hsound.trailer hnone)⟩
  | header =>
    cases hstep
    exact ⟨fun hnone => hsound.header fun call hcall =>
      hnone call (List.mem_append_left _ hcall), hsound.trailer⟩
  | trailer =>
    cases hstep
    exact ⟨hsound.header, fun hnone => hsound.trailer fun call hcall =>
      hnone call (List.mem_append_left _ hcall)⟩
  | headerReturn call =>
    simp only [MetaCalls.step] at hstep
    split at hstep
    next hcall hsig =>
      cases hstep
      exact ⟨fun hnone => absurd hnone (not_unanswered_set hcall), hsound.trailer⟩
    next => cases hstep
  | trailerReturn call =>
    simp only [MetaCalls.step] at hstep
    split at hstep
    next hcall hsig =>
      cases hstep
      exact ⟨hsound.header, fun hnone => absurd hnone (not_unanswered_set hcall)⟩
    next => cases hstep

theorem run_sound {events : List MetaEvent} (hrun : run codec events = some s) : s.Sound :=
  Machine.run_invariant (fun _ s => s.Sound)
    ⟨fun _ hinactive => (by cases hinactive), fun _ hinactive => (by cases hinactive)⟩
    (fun _ _ _ _ _ hsound hnext => hsound.step hnext) hrun

/-- The only call of its kind. -/
theorem eq_singleton_of_length_le_one (hcalls : calls.length ≤ 1) {answer : Option MetaAnswer}
    (hcall : calls[call]? = some answer) : calls = [answer] := by
  match calls, call with
  | [_], 0 => simpa using hcall
  | [_], _ + 1 => simp at hcall
  | _ :: _ :: _, _ => simp at hcalls

/-- If `Header` and `Trailer` are called at most once, no call blocks on a closed stream, and there
are no two answers. -/
theorem answered_of_called_once {events : List MetaEvent} (hrun : run codec events = some s)
    (hheaders : s.headers.length ≤ 1) (htrailers : s.trailers.length ≤ 1)
    (hclosed : s.stream.MetaClosed) :
    (∀ call, s.headers[call]? = some none → ∃ t, s.step codec (.headerReturn call) = some t) ∧
      (∀ call, s.trailers[call]? = some none →
        ∃ t, s.step codec (.trailerReturn call) = some t) ∧
      (∀ a b : MetaAnswer, some a ∈ s.headers → some b ∈ s.headers → a = b) ∧
      ∀ a b : MetaAnswer, some a ∈ s.trailers → some b ∈ s.trailers → a = b := by
  have hsound := run_sound hrun
  have hone : ∀ calls : List (Option MetaAnswer), calls.length ≤ 1 →
      ∀ a b : MetaAnswer, some a ∈ calls → some b ∈ calls → a = b := by
    intro calls hcalls a b ha hb
    obtain ⟨call, hcall⟩ := List.mem_iff_getElem?.mp ha
    rw [eq_singleton_of_length_le_one hcalls hcall, List.mem_singleton] at hb
    exact (Option.some.inj hb).symm
  refine ⟨fun call hcall => ?_, fun call hcall => ?_, hone _ hheaders, hone _ htrailers⟩
  · have hnone : Unanswered s.headers := by
      rw [eq_singleton_of_length_le_one hheaders hcall]
      exact fun answer hmem => List.mem_singleton.mp hmem
    obtain ⟨sig, hsig⟩ := hclosed.headerSig (hsound.header hnone hclosed.state)
    simp only [step, hcall, hsig]
    exact ⟨_, rfl⟩
  · have hnone : Unanswered s.trailers := by
      rw [eq_singleton_of_length_le_one htrailers hcall]
      exact fun answer hmem => List.mem_singleton.mp hmem
    obtain ⟨sig, hsig⟩ := hclosed.trailerSig (hsound.trailer hnone hclosed.state)
    simp only [step, hcall, hsig]
    exact ⟨_, rfl⟩

/-- `close` without an exception, from its start to its end. -/
def closeEvents : List MetaEvent :=
  .stream (.close none false) :: List.replicate 11 (.stream (.closerStep 0 true))

theorem answered_of_called_once_closed :
    ∃ s, run .accepting (closeEvents ++ [.header, .trailer]) = some s ∧ s.stream.MetaClosed ∧
      ∃ t, s.step .accepting (.headerReturn 0) = some t := by
  have hclosed : ∀ s, run .accepting (closeEvents ++ [.header, .trailer]) = some s →
      s.stream.MetaClosed := by
    rintro _ ⟨⟩
    exact ⟨rfl, by decide⟩
  obtain ⟨s, hrun⟩ : ∃ s, run .accepting (closeEvents ++ [.header, .trailer]) = some s := ⟨_, rfl⟩
  have hanswered := answered_of_called_once hrun (by cases hrun; decide) (by cases hrun; decide)
    (hclosed s hrun)
  exact ⟨s, hrun, hclosed s hrun, hanswered.1 0 (by cases hrun; rfl)⟩

/-- The second call of `Header` on a closed stream has no signal to wait for. And if a header was
received and returned before, the second call returns another answer than the first one. -/
theorem second_header_call :
    (∃ s, run .accepting (closeEvents ++ [.header, .headerReturn 0, .header]) = some s ∧
        s.stream.MetaClosed ∧ (∀ closer ∈ s.stream.closers, closer.next = .returned) ∧
        s.headers = [some .empty, none] ∧ s.step .accepting (.headerReturn 1) = none) ∧
      ∃ s, run .accepting ([.stream (.readHeader true), .header, .headerReturn 0] ++
          closeEvents ++ [.header, .headerReturn 1]) = some s ∧
        s.headers = [some (.received true), some .empty] := by
  refine ⟨⟨_, rfl, ⟨rfl, by decide⟩, by decide, rfl, rfl⟩, _, rfl, rfl⟩

end MetaCalls

end Kitex.TTStream
