import Kitex.Machine.Run

/-! # Receive buffer of a stream

`recvBuffer` of `transport.go`: a channel with one place and a backlog behind it. Transports put
messages, holding the mutex. The one reader receives from the channel without the mutex, and then
calls `load`, which moves the head of the backlog to the channel.
-/

namespace Kitex.Http2

open Kitex.Machine

structure RecvMsg (Buffer Err : Type) where
  buffer : Option Buffer := none
  err : Option Err := none
  deriving DecidableEq, Repr

structure RecvBuffer (Buffer Err : Type) where
  c : Option (RecvMsg Buffer Err) := none
  backlog : List (RecvMsg Buffer Err) := []
  err : Option Err := none
  /-- a call of `put` holds the mutex and is about to append this message to the backlog -/
  appending : Option (RecvMsg Buffer Err) := none
  /-- the reader has received a message and not yet called `load` -/
  loadPending : Bool := false
  /-- what the reader has received -/
  delivered : List (RecvMsg Buffer Err) := []
  deriving DecidableEq, Repr

namespace RecvBuffer

variable {Buffer Err : Type}

/-- `put` up to where it has sent the message, dropped it, or found no place for it. -/
def put (b : RecvBuffer Buffer Err) (r : RecvMsg Buffer Err) : RecvBuffer Buffer Err :=
  if b.err.isSome then b
  else
    let b := { b with err := r.err }
    match b.backlog, b.c with
    | [], none => { b with c := some r }
    | _, _ => { b with appending := some r }

def load (b : RecvBuffer Buffer Err) : RecvBuffer Buffer Err :=
  match b.backlog, b.c with
  | r :: backlog, none => { b with c := some r, backlog }
  | _, _ => b

inductive Event (Buffer Err : Type) where
  /-- a call of `put` gets the mutex -/
  | put (r : RecvMsg Buffer Err)
  /-- it appends its message to the backlog and returns -/
  | append
  /-- the reader receives from the channel -/
  | receive
  /-- the reader calls `load` -/
  | load
  deriving DecidableEq, Repr

def step (b : RecvBuffer Buffer Err) : Event Buffer Err → Option (RecvBuffer Buffer Err)
  | .put r =>
    match b.appending with
    | some _ => none
    | none => some (b.put r)
  | .append =>
    match b.appending with
    | some r => some { b with backlog := b.backlog ++ [r], appending := none }
    | none => none
  | .receive =>
    match b.c, b.loadPending with
    | some m, false =>
      some { b with c := none, loadPending := true, delivered := b.delivered ++ [m] }
    | _, _ => none
  | .load =>
    match b.appending, b.loadPending with
    | none, true => some { b.load with loadPending := false }
    | _, _ => none

/-! ## What is to be delivered -/

/-- The messages put in a run, in the order of their calls. -/
def puts (events : List (Event Buffer Err)) : List (RecvMsg Buffer Err) :=
  events.filterMap fun
    | .put r => some r
    | _ => none

/-- The messages up to and including the first error. -/
def throughFirstErr : List (RecvMsg Buffer Err) → List (RecvMsg Buffer Err)
  | [] => []
  | r :: rest => if r.err.isSome then [r] else r :: throughFirstErr rest

/-- The messages that the reader has not received, in the order of the buffer. -/
def waiting (b : RecvBuffer Buffer Err) : List (RecvMsg Buffer Err) :=
  b.c.toList ++ b.backlog ++ b.appending.toList

def firstErr (msgs : List (RecvMsg Buffer Err)) : Option Err := msgs.findSome? (·.err)

/-- A message counts only if there is no error before it. -/
theorem throughFirstErr_concat (msgs : List (RecvMsg Buffer Err)) (r : RecvMsg Buffer Err) :
    throughFirstErr (msgs ++ [r]) =
      throughFirstErr msgs ++ if (firstErr msgs).isSome then [] else [r] := by
  induction msgs with
  | nil => cases h : r.err <;> simp [throughFirstErr, firstErr, h]
  | cons m msgs ih =>
    cases h : m.err with
    | some e => simp [throughFirstErr, firstErr, h]
    | none =>
      simp [throughFirstErr, firstErr, h, ih]

theorem firstErr_concat (msgs : List (RecvMsg Buffer Err)) (r : RecvMsg Buffer Err) :
    firstErr (msgs ++ [r]) = (firstErr msgs).or r.err := by
  simp [firstErr, List.findSome?_append]

theorem puts_concat (events : List (Event Buffer Err)) (event : Event Buffer Err) :
    puts (events ++ [event]) = puts events ++ puts [event] :=
  List.filterMap_append

/-! ## Every interleaving -/

/-- The messages received and those in the buffer are the messages put, up to the first error. If
there are messages behind the channel then it is not empty, or `load` is going to fill it. -/
structure Inv (past : List (Event Buffer Err)) (b : RecvBuffer Buffer Err) : Prop where
  content : b.delivered ++ b.waiting = throughFirstErr (puts past)
  err : b.err = firstErr (puts past)
  supplied : b.backlog ++ b.appending.toList ≠ [] → b.c.isSome ∨ b.loadPending = true

variable {past : List (Event Buffer Err)} {b b' : RecvBuffer Buffer Err}

/-- What a call of `put` does with its message: it is dropped, sent, or left for the backlog. -/
theorem put_cases (b : RecvBuffer Buffer Err) (r : RecvMsg Buffer Err) :
    (b.err.isSome ∧ b.put r = b) ∨
    (b.err = none ∧ b.c = none ∧ b.backlog = [] ∧
      b.put r = { b with err := r.err, c := some r }) ∨
    (b.err = none ∧ (b.c.isSome ∨ b.backlog ≠ []) ∧
      b.put r = { b with err := r.err, appending := some r }) := by
  unfold put
  cases herr : b.err with
  | some e => exact .inl ⟨rfl, rfl⟩
  | none =>
    cases hbacklog : b.backlog with
    | cons m backlog => exact .inr (.inr ⟨rfl, .inr (by simp), rfl⟩)
    | nil =>
      cases hc : b.c with
      | none => exact .inr (.inl ⟨rfl, rfl, rfl, rfl⟩)
      | some m => exact .inr (.inr ⟨rfl, .inl rfl, rfl⟩)

theorem Inv.put (h : b.Inv past) {r : RecvMsg Buffer Err} (hstep : b.step (.put r) = some b') :
    b'.Inv (past ++ [.put r]) := by
  simp only [step] at hstep
  split at hstep
  case h_1 => cases hstep
  case h_2 hfree =>
  cases hstep
  have hputs : puts (past ++ [.put r]) = puts past ++ [r] := puts_concat past (.put r)
  have hthrough := throughFirstErr_concat (puts past) r
  have hfirst := firstErr_concat (puts past) r
  rw [← hputs, ← h.err] at hthrough hfirst
  have hcontent := h.content
  rcases put_cases b r with ⟨herr, hput⟩ | ⟨herr, hc, hbacklog, hput⟩ | ⟨herr, hfull, hput⟩
  · rw [hput]
    rw [if_pos herr, List.append_nil] at hthrough
    refine ⟨by rw [hthrough, hcontent], ?_, h.supplied⟩
    rw [hfirst, Option.or_of_isSome herr]
  · rw [hput]
    rw [herr] at hthrough hfirst
    refine ⟨?_, by rw [hfirst, Option.none_or], fun _ => .inl rfl⟩
    rw [hthrough, ← hcontent]
    simp [waiting, hc, hbacklog, hfree]
  · rw [hput]
    rw [herr] at hthrough hfirst
    refine ⟨?_, by rw [hfirst, Option.none_or], fun _ => ?_⟩
    · rw [hthrough, ← hcontent]
      simp [waiting, hfree]
    · rcases hfull with hc | hbacklog
      · exact .inl hc
      · exact h.supplied (by simp [hbacklog])

theorem Inv.append (h : b.Inv past) (hstep : b.step .append = some b') :
    b'.Inv (past ++ [.append]) := by
  have hputs : puts (past ++ [.append]) = puts past := by simp [puts]
  simp only [step] at hstep
  split at hstep
  case h_2 => cases hstep
  case h_1 r happending =>
  cases hstep
  refine ⟨?_, by rw [hputs]; exact h.err, fun _ => h.supplied (by simp [happending])⟩
  rw [hputs, ← h.content]
  simp [waiting, happending]

theorem Inv.receive (h : b.Inv past) (hstep : b.step .receive = some b') :
    b'.Inv (past ++ [.receive]) := by
  have hputs : puts (past ++ [.receive]) = puts past := by simp [puts]
  simp only [step] at hstep
  split at hstep
  case h_2 => cases hstep
  case h_1 m hc _ =>
  cases hstep
  refine ⟨?_, by rw [hputs]; exact h.err, fun _ => .inr rfl⟩
  rw [hputs, ← h.content]
  simp [waiting, hc]

theorem load_cases (b : RecvBuffer Buffer Err) :
    (∃ r backlog, b.backlog = r :: backlog ∧ b.c = none ∧
      b.load = { b with c := some r, backlog }) ∨
    ((b.backlog = [] ∨ b.c.isSome) ∧ b.load = b) := by
  unfold load
  cases hbacklog : b.backlog with
  | nil => exact .inr ⟨.inl rfl, rfl⟩
  | cons r backlog =>
    cases hc : b.c with
    | none => exact .inl ⟨r, backlog, rfl, rfl, rfl⟩
    | some m => exact .inr ⟨.inr rfl, rfl⟩

theorem Inv.load (h : b.Inv past) (hstep : b.step .load = some b') : b'.Inv (past ++ [.load]) := by
  have hputs : puts (past ++ [.load]) = puts past := by simp [puts]
  simp only [step] at hstep
  split at hstep
  case h_2 => cases hstep
  case h_1 hfree _ =>
  cases hstep
  rcases load_cases b with ⟨r, backlog, hbacklog, hc, hload⟩ | ⟨hnothing, hload⟩
  · rw [hload]
    refine ⟨?_, by rw [hputs]; exact h.err, fun _ => .inl rfl⟩
    rw [hputs, ← h.content]
    simp [waiting, hc, hbacklog]
  · rw [hload]
    refine ⟨by rw [hputs]; exact h.content, by rw [hputs]; exact h.err, fun hbehind => .inl ?_⟩
    rcases hnothing with hbacklog | hc
    · simp [hbacklog, hfree] at hbehind
    · exact hc

theorem Inv.step (h : b.Inv past) {event : Event Buffer Err} (hstep : b.step event = some b') :
    b'.Inv (past ++ [event]) := by
  cases event with
  | put r => exact h.put hstep
  | append => exact h.append hstep
  | receive => exact h.receive hstep
  | load => exact h.load hstep

theorem run_inv {events : List (Event Buffer Err)}
    (hrun : run RecvBuffer.step ({} : RecvBuffer Buffer Err) events = some b) : b.Inv events :=
  run_invariant Inv ⟨rfl, rfl, fun h => absurd rfl h⟩
    (fun _ _ _ _ _ hinv hstep => hinv.step hstep) hrun

/-- In every interleaving the reader receives the messages in the order in which they are put, up
to and including the first error. What it has not received is in the buffer, and it finds the next
message in the channel unless it has still to call `load`. -/
theorem delivered_in_order {events : List (Event Buffer Err)}
    (hrun : run RecvBuffer.step ({} : RecvBuffer Buffer Err) events = some b) :
    b.delivered ++ b.waiting = throughFirstErr (puts events) ∧
      (b.backlog ≠ [] → b.loadPending = false → b.c.isSome) ∧
      (b.delivered ≠ throughFirstErr (puts events) → b.loadPending = false → b.c.isSome) := by
  have hinv := run_inv hrun
  have hsupplied (hbehind : b.backlog ++ b.appending.toList ≠ []) (hload : b.loadPending = false) :
      b.c.isSome := by
    rcases hinv.supplied hbehind with hc | hpending
    · exact hc
    · rw [hload] at hpending
      cases hpending
  refine ⟨hinv.content, fun hbacklog => hsupplied (by simp [hbacklog]), fun hleft hload => ?_⟩
  by_cases hbehind : b.backlog ++ b.appending.toList = []
  · -- then what is left is in the channel
    cases hc : b.c with
    | some m => rfl
    | none =>
      refine absurd ?_ hleft
      rw [← hinv.content, waiting, hc, Option.toList_none, List.nil_append, hbehind,
        List.append_nil]
  · exact hsupplied hbehind hload

/-- The reader receives the first message while the second one is put, and the stream ends. A
message after the end is dropped. -/
def receivedWhilePut : List (Event Nat String) :=
  [.put { buffer := some 1 }, .put { buffer := some 2 }, .receive, .append, .load,
    .put { err := some "EOF" }, .append, .put { buffer := some 3 }, .receive, .load]

theorem delivered_in_order_receivedWhilePut :
    ∃ b, run RecvBuffer.step {} receivedWhilePut = some b ∧
      b.delivered = [{ buffer := some 1 }, { buffer := some 2 }] ∧
      b.delivered ++ b.waiting =
        [{ buffer := some 1 }, { buffer := some 2 }, { err := some "EOF" }] ∧
      b.c.isSome := by
  obtain ⟨b, hrun, hdelivered, hload⟩ : ∃ b, run RecvBuffer.step {} receivedWhilePut = some b ∧
      b.delivered = [{ buffer := some 1 }, { buffer := some 2 }] ∧ b.loadPending = false :=
    ⟨_, rfl, rfl, rfl⟩
  obtain ⟨hcontent, -, hnext⟩ := delivered_in_order hrun
  have hputs : throughFirstErr (puts receivedWhilePut) =
      [{ buffer := some 1 }, { buffer := some 2 }, { err := some "EOF" }] := by decide
  rw [hputs] at hcontent hnext
  exact ⟨b, hrun, hdelivered, hcontent, hnext (by simp [hdelivered]) hload⟩

end RecvBuffer

end Kitex.Http2
