import Kitex.Machine.Run
import Mathlib.Tactic.Linarith
import Mathlib.Tactic.Ring

/-! # The default byte buffer

A slice with a read index and a write index. A write that does not fit doubles the capacity until
it does. `Next` moves the read index whether or not there are enough bytes, and `AppendBuffer`
writes to any buffer, also to one without capacity, whose double is none either.
-/

namespace Kitex.Remote

open Kitex.Machine

structure DefaultByteBuffer where
  /-- `buff[:writeIdx]`. -/
  written : List UInt8
  /-- `cap(buff)`. -/
  capacity : Nat
  readIdx : Nat := 0
  /-- The bits of `status`. -/
  readable : Bool := false
  writable : Bool := false
  deriving DecidableEq, Repr

/-- What a call returns: the bytes read, or an error. -/
inductive BufResult where
  | ok (bytes : List UInt8)
  | error (text : String)
  | panics
  deriving DecidableEq, Repr

inductive BufCall where
  | next (n : Nat)
  | peek (n : Nat)
  | skip (n : Nat)
  | read (len : Nat)
  | readString (n : Nat)
  | readBinary (len : Nat)
  /-- The caller fills what it gets. -/
  | malloc (fill : List UInt8)
  | writeString (s : List UInt8)
  | write (p : List UInt8)
  | writeBinary (p : List UInt8)
  /-- With what was written to the other buffer. -/
  | appendBuffer (buf : List UInt8)
  deriving DecidableEq, Repr

/-- The `int` that a sum or a shift gives. -/
def wrapInt (n : Int) : Int := n.bmod 18446744073709551616

/-- The loop of `ensureWritable`. -/
def growCapacity : Nat → Int → Int → Option Int
  | 0, _, _ => none
  | fuel + 1, newCapacity, minNewCapacity =>
    if newCapacity < minNewCapacity then
      growCapacity fuel (wrapInt (2 * newCapacity)) minNewCapacity
    else some newCapacity

namespace DefaultByteBuffer

def newReaderByteBuffer (buf : List UInt8) (capacity : Nat) : DefaultByteBuffer :=
  { written := buf, capacity, readable := true }

def estimated (estimatedLength : Int) : Nat :=
  if estimatedLength ≤ 0 then 256 else estimatedLength.toNat

def newWriterByteBuffer (estimatedLength : Int) : DefaultByteBuffer :=
  { written := [], capacity := estimated estimatedLength, writable := true }

def newReaderWriterByteBuffer (estimatedLength : Int) : DefaultByteBuffer :=
  { written := [], capacity := estimated estimatedLength, readable := true, writable := true }

variable (b : DefaultByteBuffer)

def writeIdx : Nat := b.written.length

def readableLen : Int := if b.readable then (b.writeIdx : Int) - b.readIdx else -1

def readableCheck (n : Int) : Option String :=
  if b.writeIdx ≤ b.readIdx ∧ 0 < n then some "EOF"
  else if b.readableLen < n then some ("default byteBuffer not enough, read[" ++ toString n ++
    "] but remain[" ++ toString b.readableLen ++ "]")
  else none

/-- A slice with a negative length is out of bounds. -/
def peek (n : Int) : BufResult :=
  if b.readable then
    match b.readableCheck n with
    | some err => .error err
    | none => if n < 0 then .panics else .ok ((b.written.drop b.readIdx).take n.toNat)
  else .error "unreadable buffer, cannot support Peek"

def next (n : Int) : BufResult × DefaultByteBuffer :=
  if b.readable then (b.peek n, { b with readIdx := (b.readIdx + n).toNat })
  else (.error "unreadable buffer, cannot support Next", b)

def skip (n : Nat) : BufResult × DefaultByteBuffer :=
  if b.readable then
    match b.readableCheck n with
    | some err => (.error err, b)
    | none => (.ok [], { b with readIdx := b.readIdx + n })
  else (.error "unreadable buffer, cannot support Skip", b)

def read (len : Nat) : BufResult × DefaultByteBuffer :=
  if b.readable then
    if b.readableLen = 0 then (.error "EOF", b)
    else if len ≤ b.readableLen then b.next len
    else b.next b.readableLen
  else (.error "unreadable buffer, cannot support Read", b)

/-- `ReadString` and `ReadBinary`. -/
def readBy (method : String) (n : Nat) : BufResult × DefaultByteBuffer :=
  if b.readable then b.next n
  else (.error ("unreadable buffer, cannot support " ++ method), b)

variable (fuel : Nat)

def writableLen : Int := if b.writable then (b.capacity : Int) - b.writeIdx else -1

def ensureWritable (minWritableBytes : Nat) : Option DefaultByteBuffer :=
  if minWritableBytes ≤ b.writableLen then some b
  else (growCapacity fuel b.capacity (wrapInt (b.writeIdx + minWritableBytes))).map
    fun newCapacity => { b with capacity := newCapacity.toNat }

/-- What `AppendBuffer` and the writing methods do after their checks. -/
def put (bytes : List UInt8) : Option (BufResult × DefaultByteBuffer) :=
  (b.ensureWritable fuel bytes.length).map fun b =>
    if b.capacity < b.writeIdx + bytes.length then (.panics, b)
    else (.ok [], { b with written := b.written ++ bytes })

def writeBy (method : String) (bytes : List UInt8) : Option (BufResult × DefaultByteBuffer) :=
  if b.writable then b.put fuel bytes
  else some (.error ("unwritable buffer, cannot support " ++ method), b)

/-- There is no result if a loop does not end with the fuel. -/
def call : BufCall → Option (BufResult × DefaultByteBuffer)
  | .next n => some (b.next n)
  | .peek n => some (b.peek n, b)
  | .skip n => some (b.skip n)
  | .read len => some (b.read len)
  | .readString n => some (b.readBy "ReadString" n)
  | .readBinary len => some (b.readBy "ReadBinary" len)
  | .malloc fill => b.writeBy fuel "Malloc" fill
  | .writeString s => b.writeBy fuel "WriteString" s
  | .write p => b.writeBy fuel "Write" p
  | .writeBinary p => b.writeBy fuel "WriteBinary" p
  | .appendBuffer buf => b.put fuel buf

end DefaultByteBuffer

/-! ## Growing -/

theorem wrapInt_eq {n : Int} (hlow : 0 ≤ n) (hhigh : n < 9223372036854775808) : wrapInt n = n := by
  unfold wrapInt
  rw [Int.bmod_eq_of_le] <;> omega

/-- A positive capacity is doubled until it is enough, and does not overflow before. -/
theorem growCapacity_eq_some {k fuel : Nat} {newCapacity minNewCapacity : Int}
    (hpos : 0 < newCapacity) (hmin : minNewCapacity ≤ 4611686018427387904)
    (henough : minNewCapacity ≤ newCapacity * 2 ^ k) (hfuel : k < fuel) :
    ∃ grown, growCapacity fuel newCapacity minNewCapacity = some grown ∧
      minNewCapacity ≤ grown ∧ newCapacity ≤ grown := by
  induction k generalizing fuel newCapacity with
  | zero =>
    obtain ⟨fuel, rfl⟩ := Nat.exists_eq_succ_of_ne_zero (Nat.ne_zero_of_lt hfuel)
    rw [pow_zero, mul_one] at henough
    exact ⟨newCapacity, by rw [growCapacity, if_neg (by omega)], henough, le_rfl⟩
  | succ k ih =>
    obtain ⟨fuel, rfl⟩ := Nat.exists_eq_succ_of_ne_zero (Nat.ne_zero_of_lt hfuel)
    rw [growCapacity]
    split_ifs with hlt
    · rw [wrapInt_eq (by omega) (by omega)]
      have hdouble : minNewCapacity ≤ 2 * newCapacity * 2 ^ k := by
        calc minNewCapacity ≤ newCapacity * (2 ^ k * 2) := henough
          _ = 2 * newCapacity * 2 ^ k := by ring
      obtain ⟨grown, hgrown, hle, hge⟩ := ih (by omega) hdouble (Nat.lt_of_succ_lt_succ hfuel)
      exact ⟨grown, hgrown, hle, by omega⟩
    · exact ⟨newCapacity, rfl, by omega, le_rfl⟩

theorem growCapacity_zero (fuel : Nat) {minNewCapacity : Int} (hmin : 0 < minNewCapacity) :
    growCapacity fuel 0 minNewCapacity = none := by
  induction fuel with
  | zero => rfl
  | succ fuel ih =>
    rw [growCapacity, if_pos hmin]
    exact ih

namespace DefaultByteBuffer

variable {b : DefaultByteBuffer} {fuel : Nat} {n : Nat}

/-- The indices are in order, and what can be written to has a capacity. -/
structure Inv (b : DefaultByteBuffer) : Prop where
  readIdx_le : b.readIdx ≤ b.writeIdx
  writeIdx_le : b.writeIdx ≤ b.capacity
  capacity_pos : b.writable = true → 0 < b.capacity

theorem put_eq (hinv : b.Inv) (hfuel : 62 < fuel) {bytes : List UInt8}
    (hlength : b.writeIdx + bytes.length ≤ 4611686018427387904)
    (hcapacity : 0 < b.capacity ∨ bytes = []) :
    ∃ capacity, b.put fuel bytes =
        some (.ok [], { b with capacity, written := b.written ++ bytes }) ∧
      b.writeIdx + bytes.length ≤ capacity ∧ b.capacity ≤ capacity := by
  have hensure : ∃ capacity, b.ensureWritable fuel bytes.length = some { b with capacity } ∧
      b.writeIdx + bytes.length ≤ capacity ∧ b.capacity ≤ capacity := by
    rw [ensureWritable]
    split_ifs with hfits
    · refine ⟨b.capacity, rfl, ?_, le_rfl⟩
      rw [writableLen] at hfits
      split_ifs at hfits <;> omega
    rw [wrapInt_eq (by omega) (by omega)]
    rcases hcapacity with hpos | rfl
    · have henough : ((b.writeIdx + bytes.length : Nat) : Int) ≤ b.capacity * 2 ^ 62 := by
        omega
      obtain ⟨grown, hgrown, hle, hge⟩ := growCapacity_eq_some (by omega) (by omega) henough hfuel
      rw [Nat.cast_add] at hgrown
      rw [hgrown]
      exact ⟨grown.toNat, rfl, by omega, by omega⟩
    · obtain ⟨fuel, rfl⟩ := Nat.exists_eq_succ_of_ne_zero (Nat.ne_zero_of_lt hfuel)
      have hle := hinv.writeIdx_le
      rw [List.length_nil, growCapacity, if_neg (by omega)]
      exact ⟨b.capacity, rfl, by omega, le_rfl⟩
  obtain ⟨capacity, heq, hle, hge⟩ := hensure
  refine ⟨capacity, ?_, hle, hge⟩
  rw [put, heq, Option.map_some]
  exact congrArg some (if_neg (Nat.not_lt.mpr hle))

/-! ## Reading -/

theorem readableCheck_eq_none_iff (hreadable : b.readable = true) :
    b.readableCheck n = none ↔ b.readIdx + n ≤ b.writeIdx := by
  rw [readableCheck, readableLen, if_pos hreadable]
  split_ifs <;> simp <;> omega

/-- The bytes after the read index. -/
def ahead (b : DefaultByteBuffer) (n : Nat) : List UInt8 := (b.written.drop b.readIdx).take n

theorem peek_eq (hreadable : b.readable = true) (hn : b.readIdx + n ≤ b.writeIdx) :
    b.peek n = .ok (b.ahead n) := by
  rw [peek, if_pos hreadable, (readableCheck_eq_none_iff hreadable).mpr hn]
  exact if_neg (by omega)

theorem next_eq (hreadable : b.readable = true) (hn : b.readIdx + n ≤ b.writeIdx) :
    b.next n = (.ok (b.ahead n), { b with readIdx := b.readIdx + n }) := by
  rw [next, if_pos hreadable, peek_eq hreadable hn]
  rfl

/-- A reading call fails and leaves the buffer, or takes the next bytes. -/
inductive Reads (b : DefaultByteBuffer) : BufResult × DefaultByteBuffer → Prop
  | fails {text : String} : Reads b (.error text, b)
  | takes {n : Nat} (hn : b.readIdx + n ≤ b.writeIdx) :
      Reads b (.ok (b.ahead n), { b with readIdx := b.readIdx + n })

theorem reads_next (hn : b.readable = true → b.readIdx + n ≤ b.writeIdx) : b.Reads (b.next n) := by
  by_cases hreadable : b.readable = true
  · exact next_eq hreadable (hn hreadable) ▸ .takes (hn hreadable)
  · rw [next, if_neg hreadable]
    exact .fails

theorem reads_readBy {method : String} (hn : b.readable = true → b.readIdx + n ≤ b.writeIdx) :
    b.Reads (b.readBy method n) := by
  rw [readBy]
  split_ifs
  · exact reads_next hn
  · exact .fails

theorem reads_read (hinv : b.Inv) {len : Nat} : b.Reads (b.read len) := by
  have hle := hinv.readIdx_le
  rw [read]
  split_ifs with hreadable hempty hlen
  · exact .fails
  · refine reads_next fun _ => ?_
    rw [readableLen, if_pos hreadable] at hlen
    omega
  · have hlen : b.readableLen = ((b.writeIdx - b.readIdx : Nat) : Int) := by
      rw [readableLen, if_pos hreadable]
      omega
    rw [hlen]
    exact reads_next fun _ => by omega
  · exact .fails

end DefaultByteBuffer

/-! ## Sessions -/

/-- A buffer with the bytes read from it, those skipped among them, and the bytes written to it. -/
structure BufSession where
  buffer : DefaultByteBuffer
  got : List UInt8 := []
  put : List UInt8
  deriving DecidableEq, Repr

namespace BufCall

/-- What a call has taken from the buffer. -/
def taken (b : DefaultByteBuffer) (bytes : List UInt8) : BufCall → List UInt8
  | .peek _ => []
  | .skip n => b.ahead n
  | _ => bytes

def bytes : BufCall → List UInt8
  | .malloc p | .writeString p | .write p | .writeBinary p | .appendBuffer p => p
  | _ => []

/-- Reads of more than there is, except by `Peek`, `Skip` and `Read`, and writes of more than half
of the largest `int`, and to a buffer without capacity, are left out. -/
def Covered (b : DefaultByteBuffer) : BufCall → Prop
  | .next n | .readString n | .readBinary n => b.readable = true → b.readIdx + n ≤ b.writeIdx
  | .malloc p | .writeString p | .write p | .writeBinary p =>
    b.writable = true → b.writeIdx + p.length ≤ 4611686018427387904
  | .appendBuffer p =>
    b.writeIdx + p.length ≤ 4611686018427387904 ∧ (0 < b.capacity ∨ p = [])
  | _ => True

instance (b : DefaultByteBuffer) : DecidablePred (Covered b) := fun call => by
  cases call <;> unfold Covered <;> infer_instance

end BufCall

namespace BufSession

def start (b : DefaultByteBuffer) : BufSession := { buffer := b, put := b.written }

def step (fuel : Nat) (s : BufSession) (call : BufCall) : Option BufSession :=
  match s.buffer.call fuel call with
  | none | some (.panics, _) => none
  | some (.error _, buffer) => some { s with buffer }
  | some (.ok bytes, buffer) => some {
      buffer
      got := s.got ++ call.taken s.buffer bytes
      put := s.put ++ call.bytes }

end BufSession

/-- What a covered call does. -/
inductive Answers (b : DefaultByteBuffer) (call : BufCall) : BufResult × DefaultByteBuffer → Prop
  | fails {text : String} : Answers b call (.error text, b)
  | takes {n : Nat} {bytes : List UInt8} (hn : b.readIdx + n ≤ b.writeIdx)
      (htaken : call.taken b bytes = b.ahead n) (hbytes : call.bytes = []) :
      Answers b call (.ok bytes, { b with readIdx := b.readIdx + n })
  | puts {capacity : Nat} (hfits : b.writeIdx + call.bytes.length ≤ capacity)
      (hgrown : b.capacity ≤ capacity) (htaken : call.taken b [] = []) :
      Answers b call (.ok [], { b with capacity, written := b.written ++ call.bytes })

namespace DefaultByteBuffer

variable {b : DefaultByteBuffer} {fuel : Nat} {call : BufCall} {n : Nat}

theorem Reads.answers {answer : BufResult × DefaultByteBuffer} (hreads : b.Reads answer)
    (htaken : ∀ bytes, call.taken b bytes = bytes) (hbytes : call.bytes = []) :
    Answers b call answer := by
  cases hreads with
  | fails => exact .fails
  | takes hn => exact .takes hn (htaken _) hbytes

theorem put_answers (hinv : b.Inv) (hfuel : 62 < fuel)
    (hlength : b.writeIdx + call.bytes.length ≤ 4611686018427387904)
    (hcapacity : 0 < b.capacity ∨ call.bytes = []) (htaken : call.taken b [] = []) :
    ∃ answer, b.put fuel call.bytes = some answer ∧ Answers b call answer := by
  obtain ⟨capacity, heq, hfits, hgrown⟩ := put_eq hinv hfuel hlength hcapacity
  exact ⟨_, heq, .puts hfits hgrown htaken⟩

theorem writeBy_answers (hinv : b.Inv) (hfuel : 62 < fuel) {method : String}
    (hlength : b.writable = true → b.writeIdx + call.bytes.length ≤ 4611686018427387904)
    (htaken : call.taken b [] = []) :
    ∃ answer, b.writeBy fuel method call.bytes = some answer ∧ Answers b call answer := by
  rw [writeBy]
  split_ifs with hwritable
  · exact put_answers hinv hfuel (hlength hwritable) (.inl (hinv.capacity_pos hwritable)) htaken
  · exact ⟨_, rfl, .fails⟩

theorem skip_answers : Answers b (.skip n) (b.skip n) := by
  rw [skip]
  split_ifs with hreadable
  · cases hcheck : b.readableCheck n with
    | some err => exact .fails
    | none => exact .takes ((readableCheck_eq_none_iff hreadable).mp hcheck) rfl rfl
  · exact .fails

theorem peek_cases (n : Nat) : (∃ text, b.peek n = .error text) ∨
    b.readIdx + n ≤ b.writeIdx ∧ b.peek n = .ok (b.ahead n) := by
  by_cases hreadable : b.readable = true
  · cases hcheck : b.readableCheck n with
    | some err => exact .inl ⟨err, by rw [peek, if_pos hreadable, hcheck]⟩
    | none =>
      have hn := (readableCheck_eq_none_iff hreadable).mp hcheck
      exact .inr ⟨hn, peek_eq hreadable hn⟩
  · exact .inl ⟨_, if_neg hreadable⟩

theorem peek_answers : Answers b (.peek n) (b.peek n, b) := by
  rcases @peek_cases b n with ⟨text, heq⟩ | ⟨hn, heq⟩ <;> rw [heq]
  · exact .fails
  · exact @Answers.takes b (.peek n) 0 _ (by omega) rfl rfl

theorem call_answers (hinv : b.Inv) (hfuel : 62 < fuel) (hcovered : call.Covered b) :
    ∃ answer, b.call fuel call = some answer ∧ Answers b call answer := by
  cases call with
  | next n => exact ⟨_, rfl, (reads_next hcovered).answers (fun _ => rfl) rfl⟩
  | peek n => exact ⟨_, rfl, peek_answers⟩
  | skip n => exact ⟨_, rfl, skip_answers⟩
  | read len => exact ⟨_, rfl, (reads_read hinv).answers (fun _ => rfl) rfl⟩
  | readString n | readBinary n =>
    exact ⟨_, rfl, (reads_readBy hcovered).answers (fun _ => rfl) rfl⟩
  | malloc p => exact @writeBy_answers _ _ (.malloc p) hinv hfuel _ hcovered rfl
  | writeString p => exact @writeBy_answers _ _ (.writeString p) hinv hfuel _ hcovered rfl
  | write p => exact @writeBy_answers _ _ (.write p) hinv hfuel _ hcovered rfl
  | writeBinary p => exact @writeBy_answers _ _ (.writeBinary p) hinv hfuel _ hcovered rfl
  | appendBuffer p =>
    exact @put_answers _ _ (.appendBuffer p) hinv hfuel hcovered.1 hcovered.2 rfl

end DefaultByteBuffer

namespace BufSession

variable {s : BufSession} {fuel : Nat} {call : BufCall} {calls : List BufCall}
  {b : DefaultByteBuffer}

structure Inv (s : BufSession) : Prop extends s.buffer.Inv where
  got_eq : s.got = s.buffer.written.take s.buffer.readIdx
  put_eq : s.put = s.buffer.written

open DefaultByteBuffer

theorem Inv.step (hinv : s.Inv) (hfuel : 62 < fuel) (hcovered : call.Covered s.buffer) :
    ∃ next, s.step fuel call = some next ∧ next.Inv := by
  obtain ⟨answer, hcall, hanswers⟩ := s.buffer.call_answers hinv.toInv hfuel hcovered
  have hread := hinv.readIdx_le
  have hwrite := hinv.writeIdx_le
  rw [BufSession.step, hcall]
  cases hanswers with
  | fails => exact ⟨_, rfl, hinv⟩
  | @takes n bytes hn htaken hbytes =>
    refine ⟨_, rfl, ⟨hn, hwrite, hinv.capacity_pos⟩, ?_, ?_⟩
    · rw [hinv.got_eq, htaken, ahead, List.take_add]
    · rw [hinv.put_eq, hbytes, List.append_nil]
  | @puts capacity hfits hgrown htaken =>
    refine ⟨_, rfl, ⟨?_, ?_, fun hwritable => ?_⟩, ?_, ?_⟩
    · simp only [writeIdx, List.length_append] at hread ⊢
      omega
    · simpa [writeIdx] using hfits
    · exact Nat.lt_of_lt_of_le (hinv.capacity_pos hwritable) hgrown
    · rw [hinv.got_eq, htaken, List.append_nil, List.take_append_of_le_length hread]
    · rw [hinv.put_eq]

/-- A new buffer, in any of its modes. -/
inductive New : DefaultByteBuffer → Prop
  | reader {buf : List UInt8} {capacity : Nat} (hlength : buf.length ≤ capacity) :
      New (.newReaderByteBuffer buf capacity)
  | writer (estimatedLength : Int) : New (.newWriterByteBuffer estimatedLength)
  | readerWriter (estimatedLength : Int) : New (.newReaderWriterByteBuffer estimatedLength)

theorem New.inv (hnew : New b) : (start b).Inv := by
  have hpos : ∀ estimatedLength, 0 < estimated estimatedLength := by
    intro estimatedLength
    rw [estimated]
    split_ifs <;> omega
  cases hnew with
  | reader hlength => exact ⟨⟨Nat.zero_le _, hlength, fun h => by cases h⟩, rfl, rfl⟩
  | writer n | readerWriter n => exact ⟨⟨Nat.zero_le _, Nat.zero_le _, fun _ => hpos n⟩, rfl, rfl⟩

/-- As long as the calls are covered, none panics and every loop ends, the indices are in order,
what was read is a prefix of what was written, what `Peek` shows comes next, and a call that fails
changes nothing. -/
theorem run_covered (hnew : New b) (hfuel : 62 < fuel)
    (hmeets : Meets (step fuel) (fun s call => call.Covered s.buffer) (start b) calls) :
    ∃ s, run (step fuel) (start b) calls = some s ∧ s.buffer.readIdx ≤ s.buffer.writeIdx ∧
      s.buffer.writeIdx ≤ s.buffer.capacity ∧ s.got <+: s.put ∧
      (∀ n bytes next, s.buffer.call fuel (.peek n) = some (.ok bytes, next) →
        s.got ++ bytes <+: s.put) ∧
      ∀ call text next, call.Covered s.buffer →
        s.buffer.call fuel call = some (.error text, next) → next = s.buffer := by
  obtain ⟨s, hrun, hinv⟩ := exists_run_of_meets Inv hnew.inv
    (fun s call hinv hcovered => hinv.step hfuel hcovered) hmeets
  refine ⟨s, hrun, hinv.readIdx_le, hinv.writeIdx_le, ?_, ?_, ?_⟩
  · rw [hinv.got_eq, hinv.put_eq]
    exact List.take_prefix _ _
  · intro n bytes next hpeek
    obtain ⟨hok, -⟩ := Prod.mk.inj (Option.some.inj hpeek)
    rcases @DefaultByteBuffer.peek_cases s.buffer n with ⟨text, herror⟩ | ⟨-, hahead⟩
    · cases herror.symm.trans hok
    · cases hahead.symm.trans hok
      rw [hinv.got_eq, hinv.put_eq, ahead, ← List.take_add]
      exact List.take_prefix _ _
  · intro call text next hcovered herror
    obtain ⟨answer, hcall, hanswers⟩ := s.buffer.call_answers hinv.toInv hfuel hcovered
    cases hcall.symm.trans herror
    cases hanswers
    rfl

theorem run_covered_readerWriter :
    ∃ s, run (step 63) (start (.newReaderWriterByteBuffer 2))
        [.write [1, 2, 3], .read 2, .skip 1, .peek 1] = some s ∧ s.got <+: s.put := by
  obtain ⟨s, hrun, -, -, hgot, -⟩ := @run_covered 63 [.write [1, 2, 3], .read 2, .skip 1, .peek 1] _
    (.readerWriter 2) (by decide) (by decide)
  exact ⟨s, hrun, hgot⟩

/-- A `Next` of more than there is fails and moves the read index past the write index, and then
`Read` panics. Nothing can be appended to a buffer over an empty slice: the loop never ends. -/
theorem next_fails_and_read_panics :
    (∃ text next, (DefaultByteBuffer.newReaderByteBuffer [1] 1).call 0 (.next 2) =
      some (.error text, next) ∧ next.writeIdx < next.readIdx ∧
        (next.call 0 (.read 1)).map Prod.fst = some .panics) ∧
    ∀ fuel, (DefaultByteBuffer.newReaderByteBuffer [] 0).call fuel (.appendBuffer [1]) = none := by
  refine ⟨⟨_, _, rfl, by decide, by decide⟩, fun fuel => ?_⟩
  have hwrap : wrapInt 1 = 1 := by decide
  have hgrow := growCapacity_zero fuel one_pos
  simp [DefaultByteBuffer.call, DefaultByteBuffer.put, DefaultByteBuffer.ensureWritable,
    DefaultByteBuffer.newReaderByteBuffer, DefaultByteBuffer.writableLen,
    DefaultByteBuffer.writeIdx, hwrap, hgrow]

end BufSession

end Kitex.Remote
