import Kitex.Machine.Run

/-! # Writers that collect frames in batches

`keepBufWriter` and `reuseBufWriter` of `framer.go`. Both fill a buffer of two batches and write it
to the connection once it holds a batch; an error of the connection is kept and returned by all
later calls. The first one owns its buffer, the second one takes a buffer with the first write and
gives it back when it is flushed. What a new buffer holds is left open.

Both refine one writer that has no buffer but the list of the bytes that it holds back.
-/

namespace Kitex.Http2

variable {Err : Type} {e : Err}

/-- The connection: what was written to it, and what its `Write` returns for each call. -/
structure WriteConn (Err : Type) where
  outcome : Nat → Nat × Option Err
  writes : List (List UInt8)

def WriteConn.write (c : WriteConn Err) (b : List UInt8) : (Nat × Option Err) × WriteConn Err :=
  (c.outcome c.writes.length, { c with writes := c.writes ++ [b] })

/-- `keepBufWriter`, which is also embedded in `reuseBufWriter`. -/
structure BufWriter (Err : Type) where
  writer : WriteConn Err
  /-- a nil slice is `none` -/
  buf : Option (List UInt8)
  offset : Nat
  batchSize : Nat
  err : Option Err

/-- A buffer with arbitrary contents. -/
def dirtyBytes (dirt : Nat → UInt8) (n : Nat) : List UInt8 := (List.range n).map dirt

def newBufWriter (writer : WriteConn Err) (batchSize : Nat) (reuse : Bool) (dirt : Nat → UInt8) :
    BufWriter Err where
  writer := writer
  buf := if reuse then none else some (dirtyBytes dirt (batchSize * 2))
  offset := 0
  batchSize := batchSize
  err := none

namespace BufWriter

def flushAllocatedBuffer (w : BufWriter Err) : Option Err × BufWriter Err :=
  match w.err with
  | some e => (some e, w)
  | none =>
    if w.offset = 0 then (none, w)
    else
      let (outcome, writer) := w.writer.write ((w.buf.getD []).take w.offset)
      (outcome.2, { w with writer, err := outcome.2, offset := 0 })

/-- How much `copy(w.buf[w.offset:], b)` copies. -/
def copied (w : BufWriter Err) (b : List UInt8) : Nat :=
  min ((w.buf.getD []).length - w.offset) b.length

def copyIn (w : BufWriter Err) (b : List UInt8) : BufWriter Err :=
  { w with
    buf := w.buf.map fun buf =>
      buf.take w.offset ++ b.take (w.copied b) ++ buf.drop (w.offset + w.copied b)
    offset := w.offset + w.copied b }

/-- The loop of `Write`; without fuel it has not come to an end. -/
def writeLoop : (fuel : Nat) → BufWriter Err → (b : List UInt8) → (n : Nat) →
    Option ((Nat × Option Err) × BufWriter Err)
  | _, w, [], n => some ((n, none), w)
  | 0, _, _ :: _, _ => none
  | fuel + 1, w, c :: b, n =>
    let nn := w.copied (c :: b)
    let w := w.copyIn (c :: b)
    if w.batchSize ≤ w.offset then
      match w.flushAllocatedBuffer with
      | (some e, w) => some ((n + nn, some e), w)
      | (none, w) => writeLoop fuel w ((c :: b).drop nn) (n + nn)
    else writeLoop fuel w ((c :: b).drop nn) (n + nn)

/-- `Write` of the two writers; `dirt` is what a buffer from the cache holds. -/
def write (reuse : Bool) (w : BufWriter Err) (dirt : Nat → UInt8) (b : List UInt8) :
    Option ((Nat × Option Err) × BufWriter Err) :=
  match w.err with
  | some e => some ((0, some e), w)
  | none =>
    if w.batchSize = 0 then
      let (outcome, writer) := w.writer.write b
      some (outcome, { w with writer })
    else if reuse && w.buf.isNone then
      writeLoop b.length { w with buf := some (dirtyBytes dirt (w.batchSize * 2)) } b 0
    else writeLoop b.length w b 0

/-- `Flush` of the two writers. -/
def flush (reuse : Bool) (w : BufWriter Err) : Option Err × BufWriter Err :=
  match w.flushAllocatedBuffer with
  | (some e, w) => (some e, w)
  -- the buffer goes back to the cache
  | (none, w) => (none, if reuse then { w with buf := none } else w)

end BufWriter

/-! ## Calls -/

inductive WriterCall where
  | write (b : List UInt8) (dirt : Nat → UInt8)
  | flush

def WriterCall.bytes : WriterCall → List UInt8
  | .write b _ => b
  | .flush => []

inductive CallResult (Err : Type) where
  | wrote (n : Nat) (err : Option Err)
  | flushed (err : Option Err)
  deriving DecidableEq

def CallResult.err : CallResult Err → Option Err
  | .wrote _ err | .flushed err => err

/-- What a call returns that does nothing because of an earlier error. -/
def WriterCall.refused (e : Err) : WriterCall → CallResult Err
  | .write _ _ => .wrote 0 (some e)
  | .flush => .flushed (some e)

/-- A writer and what its calls have returned. -/
structure WriterSession (Writer Err : Type) where
  w : Writer
  results : List (CallResult Err)

namespace BufWriter

def call (reuse : Bool) (s : WriterSession (BufWriter Err) Err) :
    WriterCall → Option (WriterSession (BufWriter Err) Err)
  | .write b dirt => (s.w.write reuse dirt b).map fun (result, w) =>
    ⟨w, s.results ++ [.wrote result.1 result.2]⟩
  | .flush =>
    let (err, w) := s.w.flush reuse
    some ⟨w, s.results ++ [.flushed err]⟩

/-- The calls of a new writer. -/
def run (writer : WriteConn Err) (batchSize : Nat) (reuse : Bool) (dirt : Nat → UInt8)
    (calls : List WriterCall) : Option (WriterSession (BufWriter Err) Err) :=
  Machine.run (call reuse) ⟨newBufWriter writer batchSize reuse dirt, []⟩ calls

end BufWriter

/-! ## A writer without a buffer -/

/-- The bytes that are held back are a list. -/
structure Batcher (Err : Type) where
  writer : WriteConn Err
  pending : List UInt8
  batchSize : Nat
  err : Option Err

namespace Batcher

def flush (s : Batcher Err) : Option Err × Batcher Err :=
  match s.err with
  | some e => (some e, s)
  | none =>
    if s.pending = [] then (none, s)
    else
      let (outcome, writer) := s.writer.write s.pending
      (outcome.2, { s with writer, err := outcome.2, pending := [] })

/-- Up to two batches are collected. -/
def taken (s : Batcher Err) (b : List UInt8) : Nat :=
  min (s.batchSize * 2 - s.pending.length) b.length

def take (s : Batcher Err) (b : List UInt8) : Batcher Err :=
  { s with pending := s.pending ++ b.take (s.taken b) }

def writeLoop : (fuel : Nat) → Batcher Err → (b : List UInt8) → (n : Nat) →
    Option ((Nat × Option Err) × Batcher Err)
  | _, s, [], n => some ((n, none), s)
  | 0, _, _ :: _, _ => none
  | fuel + 1, s, c :: b, n =>
    let nn := s.taken (c :: b)
    let s := s.take (c :: b)
    if s.batchSize ≤ s.pending.length then
      match s.flush with
      | (some e, s) => some ((n + nn, some e), s)
      | (none, s) => writeLoop fuel s ((c :: b).drop nn) (n + nn)
    else writeLoop fuel s ((c :: b).drop nn) (n + nn)

def write (s : Batcher Err) (b : List UInt8) : Option ((Nat × Option Err) × Batcher Err) :=
  match s.err with
  | some e => some ((0, some e), s)
  | none => writeLoop b.length s b 0

def call (s : WriterSession (Batcher Err) Err) :
    WriterCall → Option (WriterSession (Batcher Err) Err)
  | .write b _ => (s.w.write b).map fun (result, w) =>
    ⟨w, s.results ++ [.wrote result.1 result.2]⟩
  | .flush => some ⟨s.w.flush.2, s.results ++ [.flushed s.w.flush.1]⟩

variable {s : Batcher Err} {b : List UInt8} {n fuel : Nat}

/-- What was written to the connection, and what is held back. -/
def bytes (s : Batcher Err) : List UInt8 := s.writer.writes.flatten ++ s.pending

/-- The error is kept. Less than a batch is held back, and nothing is lost without an error. -/
structure Wrote (s : Batcher Err) (b : List UInt8) (err : Option Err) (next : Batcher Err) :
    Prop where
  err : err = next.err
  size : next.batchSize = s.batchSize
  small : next.pending.length < s.batchSize
  bytes : next.err = none → next.bytes = s.bytes ++ b

variable {err : Option Err} {next : Batcher Err}

theorem Wrote.after {first : Batcher Err} {k : Nat} (h : Wrote first (b.drop k) err next)
    (hsize : first.batchSize = s.batchSize) (hbytes : first.bytes = s.bytes ++ b.take k) :
    Wrote s b err next where
  err := h.err
  size := h.size.trans hsize
  small := hsize ▸ h.small
  bytes hnone := by rw [h.bytes hnone, hbytes, List.append_assoc, List.take_append_drop]

theorem bytes_take : (s.take b).bytes = s.bytes ++ b.take (s.taken b) :=
  (List.append_assoc ..).symm

theorem wrote_flush (herr : s.err = none) (hpos : 0 < s.batchSize) :
    Wrote s [] s.flush.1 s.flush.2 := by
  simp only [flush, herr]
  split
  next hpending => exact ⟨herr.symm, rfl, hpending ▸ hpos, fun _ => (List.append_nil _).symm⟩
  next => exact ⟨rfl, rfl, hpos, fun _ => by simp [bytes, WriteConn.write]⟩

/-- The loop ends. -/
theorem writeLoop_spec (hsmall : s.pending.length < s.batchSize) (herr : s.err = none)
    (hfuel : b.length ≤ fuel) :
    ∃ m err s', writeLoop fuel s b n = some ((m, err), s') ∧ Wrote s b err s' := by
  have hnil : Wrote s [] none s := ⟨herr.symm, rfl, hsmall, fun _ => (List.append_nil _).symm⟩
  induction fuel generalizing s b n with
  | zero =>
    rw [List.eq_nil_of_length_eq_zero (Nat.le_zero.mp hfuel)]
    exact ⟨n, none, s, rfl, hnil⟩
  | succ fuel ih =>
    cases b with
    | nil => exact ⟨n, none, s, rfl, hnil⟩
    | cons c b =>
      have htaken : s.taken (c :: b) = min (s.batchSize * 2 - s.pending.length)
        (b.length + 1) := rfl
      have hrest : ((c :: b).drop (s.taken (c :: b))).length ≤ fuel := by
        rw [List.length_drop]
        omega
      -- the rest is written by a state that has taken over the first part
      have hgoes : ∀ first : Batcher Err, Wrote (s.take (c :: b)) [] none first →
          ∃ m err s', writeLoop fuel first ((c :: b).drop (s.taken (c :: b)))
            (n + s.taken (c :: b)) = some ((m, err), s') ∧ Wrote s (c :: b) err s' := by
        intro first hfirst
        have hnone := hfirst.err.symm
        have hsize : first.batchSize = s.batchSize := hfirst.size
        have hless : first.pending.length < first.batchSize := hsize ▸ hfirst.small
        obtain ⟨m, err, s', hloop, hwrote⟩ := ih (n := n + s.taken (c :: b)) hless hnone hrest
          ⟨hfirst.err, rfl, hless, fun _ => (List.append_nil _).symm⟩
        refine ⟨m, err, s', hloop, hwrote.after hsize ?_⟩
        rw [hfirst.bytes hnone, List.append_nil, bytes_take]
      simp only [writeLoop]
      split
      next =>
        have hflushed := @wrote_flush _ (s.take (c :: b)) herr (Nat.zero_lt_of_lt hsmall)
        split
        next e s' hflush =>
          rw [hflush] at hflushed
          refine ⟨_, some e, s', rfl, hflushed.err, hflushed.size, hflushed.small, fun hnone => ?_⟩
          cases hflushed.err.trans hnone
        next s' hflush => exact hgoes s' (by rwa [hflush] at hflushed)
      next hroom =>
        exact hgoes _ ⟨herr.symm, rfl, Nat.not_le.mp hroom, fun _ => (List.append_nil _).symm⟩

/-- The writer has collected or passed on what was written, unless an error was returned. -/
structure Sound (batchSize : Nat) (written : List UInt8)
    (session : WriterSession (Batcher Err) Err) : Prop where
  size : session.w.batchSize = batchSize
  small : session.w.pending.length < batchSize
  bytes : session.w.err = none → session.w.bytes = written
  err : ∀ e, session.w.err = some e ↔ ∃ result ∈ session.results, result.err = some e

variable {batchSize : Nat} {written : List UInt8} {session : WriterSession (Batcher Err) Err}

theorem Sound.extend (h : Sound batchSize written session) (result : CallResult Err)
    (herr : session.w.err = none) (hwrote : Wrote session.w b result.err next) :
    Sound batchSize (written ++ b) ⟨next, session.results ++ [result]⟩ where
  size := hwrote.size.trans h.size
  small := h.size ▸ hwrote.small
  bytes hnone := (hwrote.bytes hnone).trans (congrArg (· ++ b) (h.bytes herr))
  err e := by
    have hbefore : ¬ ∃ result ∈ session.results, result.err = some e := by
      rw [← h.err, herr]
      exact Option.some_ne_none e ∘ Eq.symm
    have hlast : (∃ r ∈ session.results ++ [result], r.err = some e) ↔ result.err = some e := by
      grind
    rw [hlast, hwrote.err]

/-- After an error nothing is done. -/
theorem call_of_err (herr : session.w.err = some e) (c : WriterCall) :
    call session c = some { session with results := session.results ++ [c.refused e] } := by
  cases c with
  | write b dirt => simp only [call, write, herr, Option.map_some, WriterCall.refused]
  | flush => simp only [call, flush, herr, WriterCall.refused]

theorem Sound.call (h : Sound batchSize written session) (c : WriterCall) :
    ∃ next, Batcher.call session c = some next ∧ Sound batchSize (written ++ c.bytes) next := by
  cases herr : session.w.err with
  | some e =>
    refine ⟨_, call_of_err herr c, h.size, h.small, fun hnone => ?_, ?_⟩
    · cases herr.symm.trans hnone
    · intro e'
      have hrefused : (c.refused e).err = session.w.err := by
        cases c <;> exact herr.symm
      have hbefore := h.err e'
      grind
  | none =>
    have hsmall : session.w.pending.length < session.w.batchSize := h.size.symm ▸ h.small
    cases c with
    | write b dirt =>
      obtain ⟨m, err, s', hloop, hwrote⟩ :=
        writeLoop_spec (n := 0) hsmall herr (Nat.le_refl b.length)
      refine ⟨_, ?_, h.extend (.wrote m err) herr hwrote⟩
      simp only [Batcher.call, write, herr, hloop, Option.map_some]
    | flush =>
      exact ⟨_, rfl, h.extend (.flushed _) herr (wrote_flush herr (Nat.zero_lt_of_lt hsmall))⟩

theorem Sound.run (h : Sound batchSize written session) (calls : List WriterCall) :
    ∃ final, Machine.run Batcher.call session calls = some final ∧
      Sound batchSize (written ++ calls.flatMap WriterCall.bytes) final := by
  induction calls generalizing written session with
  | nil => exact ⟨session, rfl, by simpa using h⟩
  | cons c calls ih =>
    obtain ⟨next, hnext, hsound⟩ := h.call c
    obtain ⟨final, hfinal, hall⟩ := ih hsound
    refine ⟨final, ?_, ?_⟩
    · rw [Machine.run_cons, hnext, Option.bind_some, hfinal]
    · rwa [List.flatMap_cons, ← List.append_assoc]

end Batcher

namespace BufWriter

/-! ## The buffer holds the bytes back -/

variable {w : BufWriter Err} {b : List UInt8} {n fuel : Nat}

/-- The part of the buffer that is to be written. -/
def held (w : BufWriter Err) : List UInt8 := (w.buf.getD []).take w.offset

def batcher (w : BufWriter Err) : Batcher Err := ⟨w.writer, w.held, w.batchSize, w.err⟩

/-- There is a buffer of two batches. -/
structure Allocated (w : BufWriter Err) : Prop where
  batchSize_ne : w.batchSize ≠ 0
  buf : ∃ buf, w.buf = some buf ∧ buf.length = w.batchSize * 2
  offset : w.offset ≤ w.batchSize * 2

theorem Allocated.length_held (h : w.Allocated) : w.held.length = w.offset := by
  obtain ⟨buf, hbuf, hlength⟩ := h.buf
  have hoffset := h.offset
  rw [held, hbuf, Option.getD_some, List.length_take]
  omega

theorem Allocated.copied_eq (h : w.Allocated) (b : List UInt8) :
    w.copied b = w.batcher.taken b := by
  obtain ⟨buf, hbuf, hlength⟩ := h.buf
  rw [copied, Batcher.taken, batcher, h.length_held, hbuf, Option.getD_some, hlength]

theorem Allocated.copyIn (h : w.Allocated) (b : List UInt8) :
    (w.copyIn b).Allocated ∧ (w.copyIn b).batcher = w.batcher.take b := by
  obtain ⟨buf, hbuf, hlength⟩ := h.buf
  have hoffset := h.offset
  have hcopied : w.copied b = min (w.batchSize * 2 - w.offset) b.length := by
    rw [copied, hbuf, Option.getD_some, hlength]
  have htake : (buf.take w.offset ++ b.take (w.copied b)).length = w.offset + w.copied b := by
    rw [List.length_append, List.length_take, List.length_take]
    omega
  refine ⟨⟨h.batchSize_ne, ⟨_, congrArg (Option.map _) hbuf, ?_⟩, ?_⟩, ?_⟩
  · simp only [BufWriter.copyIn, List.length_append, htake, List.length_drop]
    omega
  · simp only [BufWriter.copyIn]
    omega
  · have hheld : (w.copyIn b).held = w.held ++ b.take (w.batcher.taken b) := by
      rw [← h.copied_eq, held, held, BufWriter.copyIn, hbuf, Option.map_some, Option.getD_some,
        Option.getD_some, ← htake, List.take_left]
    rw [batcher, hheld]
    rfl

theorem Allocated.flushAllocatedBuffer (h : w.Allocated) : w.flushAllocatedBuffer.2.Allocated := by
  unfold BufWriter.flushAllocatedBuffer
  split
  next => exact h
  next =>
    split
    next => exact h
    next => exact ⟨h.batchSize_ne, h.buf, Nat.zero_le _⟩

theorem offset_flushAllocatedBuffer (hflush : w.flushAllocatedBuffer.1 = none) :
    w.flushAllocatedBuffer.2.offset = 0 := by
  unfold flushAllocatedBuffer at hflush ⊢
  split at hflush
  next => cases hflush
  next =>
    split
    next hzero => exact hzero
    next => rfl

theorem flushAllocatedBuffer_refines (hheld : w.held.length = w.offset) :
    w.flushAllocatedBuffer.1 = w.batcher.flush.1 ∧
      w.flushAllocatedBuffer.2.batcher = w.batcher.flush.2 := by
  unfold flushAllocatedBuffer Batcher.flush
  simp only [batcher]
  cases herr : w.err with
  | some e => simp [herr]
  | none =>
    by_cases hzero : w.offset = 0
    · have hnil : w.held = [] := List.eq_nil_of_length_eq_zero (hheld.trans hzero)
      simp [hzero, hnil, herr]
    · have hne : w.held ≠ [] := fun hnil => hzero (by rw [← hheld, hnil]; rfl)
      simp only [hzero, hne, if_false]
      exact ⟨rfl, rfl⟩

theorem Allocated.writeLoop (h : w.Allocated) :
    (w.writeLoop fuel b n).map (Prod.map id batcher) = w.batcher.writeLoop fuel b n ∧
      ∀ result, w.writeLoop fuel b n = some result → result.2.Allocated := by
  induction fuel generalizing w b n with
  | zero =>
    cases b with
    | nil => exact ⟨rfl, by rintro _ ⟨⟩; exact h⟩
    | cons c b => exact ⟨rfl, fun _ hnone => by cases hnone⟩
  | succ fuel ih =>
    cases b with
    | nil => exact ⟨rfl, by rintro _ ⟨⟩; exact h⟩
    | cons c b =>
      obtain ⟨hcopy, hbatcher⟩ := h.copyIn (c :: b)
      obtain ⟨herr, hflush⟩ := flushAllocatedBuffer_refines hcopy.length_held
      have hflushed := hcopy.flushAllocatedBuffer
      have hfull : (w.copyIn (c :: b)).batchSize ≤ (w.copyIn (c :: b)).offset ↔
          (w.batcher.take (c :: b)).batchSize ≤ (w.batcher.take (c :: b)).pending.length := by
        rw [← hbatcher, batcher, hcopy.length_held]
      simp only [BufWriter.writeLoop, Batcher.writeLoop, ← h.copied_eq]
      rw [hbatcher] at herr hflush
      by_cases hbatch : (w.copyIn (c :: b)).batchSize ≤ (w.copyIn (c :: b)).offset
      · rw [if_pos hbatch, if_pos (hfull.mp hbatch)]
        cases hbuf : (w.copyIn (c :: b)).flushAllocatedBuffer with
        | mk err w' =>
          rw [hbuf] at herr hflush hflushed
          have hpair : (w.batcher.take (c :: b)).flush = (err, w'.batcher) :=
            Prod.ext herr.symm hflush.symm
          rw [hpair]
          cases err with
          | some e => exact ⟨rfl, by rintro _ ⟨⟩; exact hflushed⟩
          | none => exact ih hflushed
      · rw [if_neg hbatch, if_neg (mt hfull.mpr hbatch), ← hbatcher]
        exact ih hcopy

/-! ## Both writers refine it -/

/-- The writer has a buffer, or it is the one that takes one with the next write. -/
structure Ready (reuse : Bool) (w : BufWriter Err) : Prop where
  batchSize_ne : w.batchSize ≠ 0
  buf : w.Allocated ∨ reuse = true ∧ w.buf = none ∧ w.offset = 0

variable {batchSize : Nat} {reuse : Bool} {session : WriterSession (BufWriter Err) Err}

theorem ready_newBufWriter {writer : WriteConn Err} {dirt : Nat → UInt8} (hsize : batchSize ≠ 0) :
    Ready reuse (newBufWriter writer batchSize reuse dirt) where
  batchSize_ne := hsize
  buf := by
    cases reuse with
    | false => exact .inl ⟨hsize, ⟨_, rfl, by simp [dirtyBytes, newBufWriter]⟩, Nat.zero_le _⟩
    | true => exact .inr ⟨rfl, rfl, rfl⟩

theorem Ready.length_held (h : w.Ready reuse) : w.held.length = w.offset := by
  obtain hbuf | ⟨-, -, hoffset⟩ := h.buf
  · exact hbuf.length_held
  · rw [held, hoffset, List.take_zero, List.length_nil]

theorem Ready.write (h : w.Ready reuse) (dirt : Nat → UInt8) (b : List UInt8) :
    (w.write reuse dirt b).map (Prod.map id batcher) = w.batcher.write b ∧
      ∀ result, w.write reuse dirt b = some result → result.2.Ready reuse := by
  cases herr : w.err with
  | some e =>
    have hkept : w.write reuse dirt b = some ((0, some e), w) := by
      simp only [BufWriter.write, herr]
    have hbatcher : w.batcher.write b = some ((0, some e), w.batcher) := by
      simp only [Batcher.write, batcher, herr]
    rw [hkept, hbatcher]
    exact ⟨rfl, by rintro _ ⟨⟩; exact h⟩
  | none =>
    -- the loop starts with a buffer that holds the same bytes
    obtain ⟨w', hloop, hready, hbatcher⟩ : ∃ w' : BufWriter Err,
        w.write reuse dirt b = writeLoop b.length w' b 0 ∧
          w'.Allocated ∧ w'.batcher = w.batcher := by
      simp only [BufWriter.write, herr, if_neg h.batchSize_ne]
      obtain hbuf | ⟨hreuse, hnone, hoffset⟩ := h.buf
      · obtain ⟨buf, hsome, -⟩ := hbuf.buf
        exact ⟨w, by simp [hsome], hbuf, rfl⟩
      · refine ⟨_, if_pos (by simp [hreuse, hnone]), ?_, ?_⟩
        · exact ⟨h.batchSize_ne, ⟨_, rfl, by simp [dirtyBytes]⟩, by simp [hoffset]⟩
        · simp [batcher, held, hoffset, herr]
    obtain ⟨hmap, hkept⟩ := @Allocated.writeLoop _ _ b 0 b.length hready
    rw [hloop]
    refine ⟨?_, fun result hresult => ?_⟩
    · rw [hmap, hbatcher]
      simp only [Batcher.write, batcher, herr]
    · have hbuf := hkept result hresult
      exact ⟨hbuf.batchSize_ne, .inl hbuf⟩

theorem Ready.flush (h : w.Ready reuse) :
    (w.flush reuse).1 = w.batcher.flush.1 ∧ (w.flush reuse).2.batcher = w.batcher.flush.2 ∧
      (w.flush reuse).2.Ready reuse := by
  obtain ⟨herr, hbatcher⟩ := flushAllocatedBuffer_refines h.length_held
  have hready : w.flushAllocatedBuffer.2.Ready reuse := by
    obtain hbuf | ⟨hreuse, hnone, hoffset⟩ := h.buf
    · exact ⟨hbuf.flushAllocatedBuffer.batchSize_ne, .inl hbuf.flushAllocatedBuffer⟩
    · have hsame : w.flushAllocatedBuffer.2 = w := by
        unfold BufWriter.flushAllocatedBuffer
        split
        next => rfl
        next => rw [if_pos hoffset]
      rw [hsame]
      exact h
  have hempty := @offset_flushAllocatedBuffer _ w
  unfold BufWriter.flush
  cases hflush : w.flushAllocatedBuffer with
  | mk err w' =>
    rw [hflush] at herr hbatcher hready hempty
    cases err with
    | some e => exact ⟨herr, hbatcher, hready⟩
    | none =>
      have hoffset : w'.offset = 0 := hempty rfl
      cases reuse with
      | false => exact ⟨herr, hbatcher, hready⟩
      | true =>
        refine ⟨herr, ?_, hready.batchSize_ne, .inr ⟨rfl, rfl, hoffset⟩⟩
        rw [← hbatcher]
        simp [batcher, held, hoffset]

def abstract (session : WriterSession (BufWriter Err) Err) : WriterSession (Batcher Err) Err :=
  ⟨session.w.batcher, session.results⟩

theorem Ready.call (h : session.w.Ready reuse) (c : WriterCall) :
    (call reuse session c).map abstract = Batcher.call (abstract session) c ∧
      ∀ next, call reuse session c = some next → next.w.Ready reuse := by
  cases c with
  | write b dirt =>
    obtain ⟨hmap, hready⟩ := h.write dirt b
    simp only [BufWriter.call, Batcher.call, abstract, ← hmap, Option.map_map]
    refine ⟨rfl, fun next hnext => ?_⟩
    obtain ⟨result, hresult, hsession⟩ := Option.map_eq_some_iff.mp hnext
    exact hsession ▸ hready result hresult
  | flush =>
    obtain ⟨herr, hbatcher, hready⟩ := h.flush
    refine ⟨?_, by rintro _ ⟨⟩; exact hready⟩
    simp only [BufWriter.call, Batcher.call, abstract, Option.map_some, herr, hbatcher]

/-- Whichever writer it is, its calls are those of the writer without a buffer. -/
theorem run_refines (writer : WriteConn Err) (hsize : batchSize ≠ 0) (reuse : Bool)
    (dirt : Nat → UInt8) (calls : List WriterCall) :
    (run writer batchSize reuse dirt calls).map abstract =
        Machine.run Batcher.call ⟨⟨writer, [], batchSize, none⟩, []⟩ calls ∧
      ∀ final, run writer batchSize reuse dirt calls = some final → final.w.Ready reuse := by
  have hready : Ready reuse (newBufWriter writer batchSize reuse dirt) := ready_newBufWriter hsize
  have hsession : Ready reuse (⟨newBufWriter writer batchSize reuse dirt, []⟩ :
    WriterSession (BufWriter Err) Err).w := hready
  exact Machine.run_map_of_step abstract (·.w.Ready reuse) (fun _ c h => Ready.call h c)
    hsession calls

/-- The state that a run reaches is one of the writer without a buffer. -/
theorem run_sound (writer : WriteConn Err) (hsize : batchSize ≠ 0) (calls : List WriterCall) :
    ∃ final : WriterSession (Batcher Err) Err,
      Batcher.Sound batchSize (writer.writes.flatten ++ calls.flatMap WriterCall.bytes) final ∧
      ∀ reuse dirt, ∃ session, run writer batchSize reuse dirt calls = some session ∧
        abstract session = final ∧ session.w.Ready reuse := by
  have hstart : Batcher.Sound batchSize writer.writes.flatten
      (⟨⟨writer, [], batchSize, none⟩, []⟩ : WriterSession (Batcher Err) Err) :=
    ⟨rfl, Nat.pos_of_ne_zero hsize, fun _ => List.append_nil _, by simp⟩
  obtain ⟨final, hfinal, hsound⟩ := hstart.run calls
  refine ⟨final, hsound, fun reuse dirt => ?_⟩
  obtain ⟨hmap, hready⟩ := run_refines writer hsize reuse dirt calls
  obtain ⟨session, hsession, habstract⟩ := Option.map_eq_some_iff.mp (hmap.trans hfinal)
  exact ⟨session, hsession, habstract, hready session hsession⟩

theorem call_of_err (herr : session.w.err = some e) (c : WriterCall) : call reuse session c =
      some { session with results := session.results ++ [c.refused e] } := by
  cases c with
  | write b dirt => simp only [call, write, herr, Option.map_some, WriterCall.refused]
  | flush => simp only [call, flush, flushAllocatedBuffer, herr, WriterCall.refused]

theorem run_of_err (herr : session.w.err = some e) (calls : List WriterCall) :
    Machine.run (call reuse) session calls =
      some { session with results := session.results ++ calls.map (·.refused e) } := by
  induction calls generalizing session with
  | nil => simp
  | cons c calls ih =>
    rw [Machine.run_cons, call_of_err herr, Option.bind_some, ih (by exact herr)]
    simp

/-- The two writers make the same writes and return the same; less than a batch is held back,
nothing is lost before the first error and nothing is done after it. -/
theorem bufWriters_agree (writer : WriteConn Err) {batchSize : Nat} (hsize : batchSize ≠ 0)
    (dirt : Nat → UInt8) (calls : List WriterCall) :
    ∃ keep reuse, run writer batchSize false dirt calls = some keep ∧
      run writer batchSize true dirt calls = some reuse ∧
      keep.w.writer.writes = reuse.w.writer.writes ∧ keep.results = reuse.results ∧
      keep.w.held = reuse.w.held ∧ keep.w.offset < batchSize ∧ reuse.w.offset < batchSize ∧
      ((∀ result ∈ keep.results, result.err = none) →
        keep.w.writer.writes.flatten ++ keep.w.held =
          writer.writes.flatten ++ calls.flatMap WriterCall.bytes) ∧
      ∀ result ∈ keep.results, ∀ e, result.err = some e → ∀ more,
        run writer batchSize false dirt (calls ++ more) =
            some { keep with results := keep.results ++ more.map (·.refused e) } ∧
          run writer batchSize true dirt (calls ++ more) =
            some { reuse with results := reuse.results ++ more.map (·.refused e) } := by
  obtain ⟨final, hsound, hall⟩ := run_sound writer hsize calls
  obtain ⟨keep, hkeep, hkeepFinal, hkeepReady⟩ := hall false dirt
  obtain ⟨reuse, hreuse, hreuseFinal, hreuseReady⟩ := hall true dirt
  have hsame : abstract keep = abstract reuse := hkeepFinal.trans hreuseFinal.symm
  have hw : keep.w.batcher = reuse.w.batcher := congrArg WriterSession.w hsame
  have hresults := congrArg WriterSession.results hsame
  rw [← hkeepFinal] at hsound
  have hsmall : keep.w.held.length < batchSize := hsound.small
  have hheld : keep.w.held = reuse.w.held := congrArg Batcher.pending hw
  have herr : keep.w.err = reuse.w.err := congrArg Batcher.err hw
  refine ⟨keep, reuse, hkeep, hreuse, congrArg (WriteConn.writes ∘ Batcher.writer) hw, hresults,
    hheld, ?_, ?_, fun hnone => ?_, ?_⟩
  · rwa [hkeepReady.length_held] at hsmall
  · rwa [hheld, hreuseReady.length_held] at hsmall
  · refine hsound.bytes (Option.eq_none_iff_forall_ne_some.mpr fun e he => ?_)
    obtain ⟨result, hmem, hresult⟩ := (hsound.err e).mp he
    cases (hnone result hmem).symm.trans hresult
  · intro result hmem e hresult more
    have hkept : keep.w.err = some e := (hsound.err e).mpr ⟨result, hmem, hresult⟩
    unfold run at hkeep hreuse ⊢
    rw [Machine.run_append, Machine.run_append, hkeep, hreuse, Option.bind_some,
      Option.bind_some]
    exact ⟨run_of_err hkept more, run_of_err (herr ▸ hkept) more⟩

/-- The second write of the connection fails. -/
theorem bufWriters_agree_broken :
    let writer : WriteConn Unit := ⟨fun n => (2, if n = 0 then none else some ()), []⟩
    let dirt : Nat → UInt8 := fun _ => 0
    let calls : List WriterCall :=
      [.write [1, 2, 3] dirt, .write [4] dirt, .flush, .write [5] dirt]
    ∃ keep reuse, run writer 2 false dirt calls = some keep ∧
      run writer 2 true dirt calls = some reuse ∧
      keep.w.writer.writes = reuse.w.writer.writes ∧
      keep.results = reuse.results ∧
      keep.results =
        [.wrote 3 none, .wrote 1 none, .flushed (some ()), .wrote 0 (some ())] := by
  intro writer dirt calls
  obtain ⟨keep, reuse, hkeep, hreuse, hwrites, hresults, -⟩ :=
    bufWriters_agree writer (Nat.succ_ne_zero 1) dirt calls
  refine ⟨keep, reuse, hkeep, hreuse, hwrites, hresults, ?_⟩
  cases hkeep
  rfl

end BufWriter

end Kitex.Http2
