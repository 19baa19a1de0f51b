import Kitex.TTStream.ServerStream

/-! # Server transports

A server transport creates a stream for each header frame and keeps it in a map under
the stream id that the peer has chosen. The stream takes the entry of its id out of
the map when it is closed. Whoever closes the transport goes through the map once and
closes the streams that are found. Streams are numbered in the order in which they
were created.
-/

namespace Kitex.TTStream

open Kitex.Container

/-- Where `releaseResources` is. -/
inductive Sweep where
  /-- the transport is open -/
  | waiting
  | starting (err : Option Err)
  /-- goes through the map; the ids of `pending` were in it at the start -/
  | range (err : Option Err) (pending : List Int)
  /-- waits for a call of `close` for a stream -/
  | closing (err : Option Err) (pending : List Int) (stream closer : Nat)
  | released
  deriving DecidableEq, Repr

structure ServerTransport where
  streams : List ServerStream
  /-- `streams` of the source: the number of the stream that an id stands for -/
  table : AList fun _ : Int => Nat
  closed : Bool
  closedErr : Option Err
  sweep : Sweep
  deriving DecidableEq

inductive ServerEvent where
  /-- a header frame creates a stream -/
  | header (sid : Int)
  | trailer (sid : Int)
  | rst (sid : Int) (ex : Exception)
  /-- a step of the handler of a stream -/
  | handler (stream : Nat) (event : ServerStreamEvent)
  | closerStep (stream closer : Nat)
  | close (err : Option Err)
  | sweepStart
  | sweepVisit (sid : Int)
  | sweepNext
  | sweepDone
  deriving DecidableEq

def ServerStreamEvent.isHandler : ServerStreamEvent → Bool
  | .setHeader _ | .sendHeader _ | .setTrailer _ | .sendMsg _ | .closeSend _ | .proceed _ => true
  | _ => false

/-- The reason that the streams of a closed transport are cancelled with. -/
def errConnectionClosedCancel (err : Option Err) : Exception :=
  ⟨12013,
    match err with
    | none => "canceled by connection closed"
    | some .eof => "EOF"
    | some (.exception ex) => ex.message
    | some (.other message) => message, false⟩

namespace ServerTransport

def newServerTransport : ServerTransport where
  streams := []
  table := ∅
  closed := false
  closedErr := none
  sweep := .waiting

def setStream (t : ServerTransport) (stream : Nat) (s : ServerStream) : ServerTransport :=
  { t with streams := t.streams.modify stream fun _ => s }

/-- The transport is closed, by `Close` or by a write that fails. -/
def close (t : ServerTransport) (err : Option Err) : ServerTransport :=
  if t.closed then t
  else { t with
    streams := t.streams.map (·.closeTransport err)
    closed := true
    closedErr := err
    sweep := .starting err }

/-- A step of a stream; a write that fails closes the transport. -/
def stepStream (t : ServerTransport) (stream : Nat) (event : ServerStreamEvent) :
    Option ServerTransport :=
  t.streams[stream]?.bind fun s => (s.step event).map fun s' =>
    if s'.closed then (t.setStream stream s').close s'.closedErr else t.setStream stream s'

/-- `CloseStream`: the entry of the id is deleted, whoever it is for. -/
def closeStream (t : ServerTransport) (sid : Int) : ServerTransport :=
  { t with table := t.table.erase sid }

def step (t : ServerTransport) : ServerEvent → Option ServerTransport
  -- `readFrame` looks neither whether the id is taken nor whether the transport is closed
  | .header sid => some { t with
      streams := t.streams ++ [ServerStream.newServerStream sid t.closed t.closedErr]
      table := t.table.insert sid t.streams.length }
  -- other frames for an id that is not in the map are dropped
  | .trailer sid => (t.table.lookup sid).bind fun stream => t.stepStream stream .closeRecv
  | .rst sid ex => (t.table.lookup sid).bind fun stream => t.stepStream stream (.close ex)
  | .handler stream event => if event.isHandler then t.stepStream stream event else none
  | .closerStep stream k => t.streams[stream]?.bind fun s => s.closers[k]?.bind fun closer =>
    (t.stepStream stream (.closerStep k)).map fun next =>
      if closer.next = .callbacks then next.closeStream s.sid else next
  | .close err => some (t.close err)
  | .sweepStart =>
    match t.sweep with
    | .starting err => some { t with sweep := .range err t.table.keys }
    | _ => none
  -- `Range` finds what is in the map when it comes to an id, also an id that was
  -- stored after it had started
  | .sweepVisit sid =>
    match t.sweep with
    | .range err pending =>
      match t.table.lookup sid with
      | none => some { t with sweep := .range err (pending.erase sid) }
      | some stream => t.streams[stream]?.bind fun s =>
        (t.stepStream stream (.close (errConnectionClosedCancel err))).map fun next =>
          { next with sweep := .closing err (pending.erase sid) stream s.closers.length }
    | _ => none
  | .sweepNext =>
    match t.sweep with
    | .closing err pending stream k => t.streams[stream]?.bind fun s =>
      s.closers[k]?.bind fun closer =>
        if closer.next = .returned then some { t with sweep := .range err pending } else none
    | _ => none
  | .sweepDone =>
    match t.sweep with
    | .range _ [] => some { t with sweep := .released }
    | _ => none

def run (events : List ServerEvent) : Option ServerTransport :=
  Machine.run step newServerTransport events

/-! ## What a step does -/

/-- The steps of a transport: most of them are steps of one stream. -/
inductive Stepped (t : ServerTransport) : ServerEvent → ServerTransport → Prop
  | header (sid : Int) : Stepped t (.header sid) { t with
      streams := t.streams ++ [ServerStream.newServerStream sid t.closed t.closedErr]
      table := t.table.insert sid t.streams.length }
  | stream {event : ServerEvent} {stream : Nat} {move : ServerStreamEvent}
      {next : ServerTransport} (hstep : t.stepStream stream move = some next) :
      Stepped t event next
  | closeStream {stream k : Nat} {s : ServerStream} {closer : ServerCloser}
      {next : ServerTransport} (hstream : t.streams[stream]? = some s)
      (hcloser : s.closers[k]? = some closer) (hnext : closer.next = .callbacks)
      (hstep : t.stepStream stream (.closerStep k) = some next) :
      Stepped t (.closerStep stream k) (next.closeStream s.sid)
  | close (err : Option Err) : Stepped t (.close err) (t.close err)
  | sweepStart {err : Option Err} (hsweep : t.sweep = .starting err) :
      Stepped t .sweepStart { t with sweep := .range err t.table.keys }
  | sweepSkip {sid : Int} {err : Option Err} {pending : List Int}
      (hsweep : t.sweep = .range err pending) (hlookup : t.table.lookup sid = none) :
      Stepped t (.sweepVisit sid) { t with sweep := .range err (pending.erase sid) }
  | sweepVisit {sid : Int} {err : Option Err} {pending : List Int} {stream k : Nat}
      {next : ServerTransport} (hsweep : t.sweep = .range err pending)
      (hlookup : t.table.lookup sid = some stream)
      (hstep : t.stepStream stream (.close (errConnectionClosedCancel err)) = some next) :
      Stepped t (.sweepVisit sid)
        { next with sweep := .closing err (pending.erase sid) stream k }
  | sweepNext {err : Option Err} {pending : List Int} {stream k : Nat} {s : ServerStream}
      {closer : ServerCloser} (hsweep : t.sweep = .closing err pending stream k)
      (hstream : t.streams[stream]? = some s) (hcloser : s.closers[k]? = some closer)
      (hnext : closer.next = .returned) :
      Stepped t .sweepNext { t with sweep := .range err pending }
  | sweepDone {err : Option Err} (hsweep : t.sweep = .range err []) :
      Stepped t .sweepDone { t with sweep := .released }

variable {t next : ServerTransport}

theorem stepped_of_step {event : ServerEvent} (hstep : t.step event = some next) :
    Stepped t event next := by
  cases event with
  | header sid => cases hstep; exact .header sid
  | trailer sid | rst sid ex =>
    obtain ⟨stream, -, hstep⟩ := Option.bind_eq_some_iff.mp hstep
    exact .stream hstep
  | handler stream event =>
    obtain ⟨-, hstep⟩ := Option.ite_none_right_eq_some.mp hstep
    exact .stream hstep
  | closerStep stream k =>
    obtain ⟨s, hstream, hstep⟩ := Option.bind_eq_some_iff.mp hstep
    obtain ⟨closer, hcloser, hstep⟩ := Option.bind_eq_some_iff.mp hstep
    obtain ⟨moved, hmoved, rfl⟩ := Option.map_eq_some_iff.mp hstep
    split
    next hnext => exact .closeStream hstream hcloser hnext hmoved
    next => exact .stream hmoved
  | close err => cases hstep; exact .close err
  | sweepStart =>
    simp only [step] at hstep
    split at hstep
    next err hsweep => cases hstep; exact .sweepStart hsweep
    next => nomatch hstep
  | sweepVisit sid =>
    simp only [step] at hstep
    split at hstep
    next err pending hsweep =>
      split at hstep
      next hlookup => cases hstep; exact .sweepSkip hsweep hlookup
      next stream hlookup =>
        obtain ⟨s, -, hstep⟩ := Option.bind_eq_some_iff.mp hstep
        obtain ⟨moved, hmoved, rfl⟩ := Option.map_eq_some_iff.mp hstep
        exact .sweepVisit hsweep hlookup hmoved
    next => nomatch hstep
  | sweepNext =>
    simp only [step] at hstep
    split at hstep
    next err pending stream k hsweep =>
      obtain ⟨s, hstream, hstep⟩ := Option.bind_eq_some_iff.mp hstep
      obtain ⟨closer, hcloser, hstep⟩ := Option.bind_eq_some_iff.mp hstep
      obtain ⟨hnext, ⟨⟩⟩ := Option.ite_none_right_eq_some.mp hstep
      exact .sweepNext hsweep hstream hcloser hnext
    next => nomatch hstep
  | sweepDone =>
    simp only [step] at hstep
    split at hstep
    next err hsweep => cases hstep; exact .sweepDone hsweep
    next => nomatch hstep

/-! ## Steps of one stream -/

section StepStream

variable {stream : Nat} {move : ServerStreamEvent}

variable {p : Nat → ServerStream → Prop}

section

variable (hclose : ∀ k s err, p k s → p k (s.closeTransport err))
include hclose

/-- Closing the transport is told to every stream. -/
theorem forall_close (hall : ∀ (k : Nat) s, t.streams[k]? = some s → p k s) (err : Option Err) :
    ∀ (k : Nat) s, (t.close err).streams[k]? = some s → p k s := by
  unfold close
  split
  next => exact hall
  next =>
    intro k s hs
    rw [List.getElem?_map] at hs
    obtain ⟨old, hold, rfl⟩ := Option.map_eq_some_iff.mp hs
    exact hclose k old err (hall k old hold)

variable (hother : ∀ (k : Nat) s, k ≠ stream → t.streams[k]? = some s → p k s)
include hother

/-- What holds of the other streams and of the one that has moved holds of all, if
it does not depend on whether the transport is closed. -/
theorem forall_of_stepStream
    (hself : ∀ s s', t.streams[stream]? = some s → s.step move = some s' → p stream s')
    (hstep : t.stepStream stream move = some next) :
    ∀ (k : Nat) s, next.streams[k]? = some s → p k s := by
  obtain ⟨s, hs, hstep⟩ := Option.bind_eq_some_iff.mp hstep
  obtain ⟨s', hs', rfl⟩ := Option.map_eq_some_iff.mp hstep
  have hset : ∀ (k : Nat) found, (t.setStream stream s').streams[k]? = some found → p k found :=
    forall_getElem?_modify hother fun _ _ => hself s s' hs hs'
  split
  next => exact forall_close hclose hset s'.closedErr
  next => exact hset

theorem forall_stepStream
    (hself : ∀ s s', t.streams[stream]? = some s → ServerStream.Stepped s move s' → p stream s')
    (hstep : t.stepStream stream move = some next) :
    ∀ (k : Nat) s, next.streams[k]? = some s → p k s := by
  refine forall_of_stepStream hclose hother ?_ hstep
  exact fun s s' hs hs' => hself s s' hs (ServerStream.stepped_of_step hs')

end

variable (hstep : t.stepStream stream move = some next)
include hstep

theorem table_stepStream : next.table = t.table := by
  obtain ⟨s, -, hstep⟩ := Option.bind_eq_some_iff.mp hstep
  obtain ⟨s', -, rfl⟩ := Option.map_eq_some_iff.mp hstep
  unfold close
  split
  next => split <;> rfl
  next => rfl

theorem sweep_stepStream : next.sweep = t.sweep ∨ ∃ err, next.sweep = .starting err := by
  obtain ⟨s, -, hstep⟩ := Option.bind_eq_some_iff.mp hstep
  obtain ⟨s', -, rfl⟩ := Option.map_eq_some_iff.mp hstep
  unfold close
  split
  next =>
    split
    next => exact .inl rfl
    next => exact .inr ⟨_, rfl⟩
  next => exact .inl rfl

end StepStream

end ServerTransport

end Kitex.TTStream
