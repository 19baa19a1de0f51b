import Mathlib.Algebra.Ring.Nat
import Mathlib.Data.List.Induction
import Kitex.Thrift.Wire

/-! # The binary protocol

Numbers are big-endian; a string is its 32-bit length and its bytes; the header of a list, a map
or a field is the codes of its types with the count or the field id.
-/

namespace Kitex.Thrift

namespace Binary

/-- The last `width` base-256 digits of a number, the most significant first. -/
def bigEndian : Nat → Nat → Bytes
  | 0, _ => []
  | width + 1, n => bigEndian width (n / 256) ++ [UInt8.ofNat n]

def fromBigEndian (bytes : Bytes) : Nat :=
  bytes.foldl (fun n b => n * 256 + b.toNat) 0

@[simp]
theorem length_bigEndian (width n : Nat) : (bigEndian width n).length = width := by
  induction width generalizing n with
  | zero => rfl
  | succ width ih => simp [bigEndian, ih]

variable {width n size : Nat} {input bytes rest : Bytes} {α : Type} {a : α}

/-- The digits that there is no room for are lost. -/
theorem fromBigEndian_bigEndian_mod (width n : Nat) :
    fromBigEndian (bigEndian width n) = n % 256 ^ width := by
  induction width generalizing n with
  | zero => simp [bigEndian, fromBigEndian, Nat.mod_one]
  | succ width ih =>
    have hdigits := ih (n / 256)
    unfold fromBigEndian at hdigits ⊢
    rw [bigEndian, List.foldl_append, hdigits, pow_succ', Nat.mod_mul]
    simp only [List.foldl_cons, List.foldl_nil, UInt8.toNat_ofNat']
    omega

/-- A number that fits is read back. -/
theorem fromBigEndian_bigEndian (hn : n < 256 ^ width) :
    fromBigEndian (bigEndian width n) = n := by
  rw [fromBigEndian_bigEndian_mod, Nat.mod_eq_of_lt hn]

theorem fromBigEndian_lt (bytes : Bytes) : fromBigEndian bytes < 256 ^ bytes.length := by
  -- from the right: one more digit multiplies the bound by the base
  induction bytes using List.reverseRecOn with
  | nil => simp [fromBigEndian]
  | append_singleton bytes b ih =>
    have hb := b.toNat_lt
    unfold fromBigEndian at ih ⊢
    rw [List.foldl_append, List.length_append, List.length_singleton, pow_succ]
    simp only [List.foldl_cons, List.foldl_nil]
    omega

/-- Bytes are the digits of the number that is read from them. -/
theorem bigEndian_fromBigEndian (bytes : Bytes) :
    bigEndian bytes.length (fromBigEndian bytes) = bytes := by
  induction bytes using List.reverseRecOn with
  | nil => rfl
  | append_singleton bytes b ih =>
    have hb := b.toNat_lt
    have hdigits : fromBigEndian (bytes ++ [b]) = fromBigEndian bytes * 256 + b.toNat := by
      simp [fromBigEndian]
    have hlast : UInt8.ofNat (fromBigEndian bytes * 256 + b.toNat) = b :=
      UInt8.toNat_inj.mp (by rw [UInt8.toNat_ofNat']; omega)
    rw [List.length_append, List.length_singleton, bigEndian, hdigits, hlast,
      show (fromBigEndian bytes * 256 + b.toNat) / 256 = fromBigEndian bytes by omega, ih]

/-- Takes the first `size` bytes. -/
def readBytes (size : Nat) : Read Bytes := fun input =>
  if size ≤ input.length then some (input.take size, input.drop size) else none

theorem takes_readBytes (size : Nat) : Takes (readBytes size) size := by
  intro input bytes rest hread
  unfold readBytes at hread
  split at hread
  · cases hread
    rw [List.length_drop]
    omega
  · cases hread

theorem length_of_readBytes (hread : readBytes size input = some (bytes, rest)) :
    bytes.length = size := by
  unfold readBytes at hread
  split at hread
  · cases hread
    rw [List.length_take]
    omega
  · cases hread

/-- Takes `size` bytes and makes a value of them. -/
def readFixed {α : Type} (size : Nat) (decode : Bytes → α) : Read α := fun input =>
  (readBytes size input).map fun (bytes, rest) => (decode bytes, rest)

/-- A value of fixed size is made of just that many bytes. -/
theorem readFixed_eq_some {decode : Bytes → α}
    (hread : readFixed size decode input = some (a, rest)) :
    ∃ bytes, readBytes size input = some (bytes, rest) ∧ decode bytes = a := by
  obtain ⟨⟨bytes, rest'⟩, hbytes, heq⟩ := Option.map_eq_some_iff.mp hread
  cases heq
  exact ⟨bytes, hbytes, rfl⟩

theorem takes_readFixed (size : Nat) (decode : Bytes → α) : Takes (readFixed size decode) size := by
  intro input a rest hread
  obtain ⟨bytes, hbytes, -⟩ := readFixed_eq_some hread
  exact takes_readBytes size hbytes

/-- A number in two's complement. -/
def wordOf {width : Nat} (bytes : Bytes) : BitVec width :=
  BitVec.ofNat width (fromBigEndian bytes)

def readString : Read Bytes := fun input => do
  let (size, rest) ← readFixed 4 fromBigEndian input
  readBytes size rest

/-- The length of a string takes four bytes, whatever follows. -/
theorem takes_readString : Takes readString 4 := by
  intro input bytes rest hread
  obtain ⟨⟨size, rest'⟩, hsize, hbytes⟩ := Option.bind_eq_some_iff.mp hread
  have hheader := takes_readFixed _ _ hsize
  have hbody := takes_readBytes _ hbytes
  omega

def typeOf (bytes : Bytes) (place : Nat) : UInt8 := bytes.getD place stop

def listHeader (bytes : Bytes) : UInt8 × Nat :=
  (typeOf bytes 0, fromBigEndian (bytes.drop 1))

def mapHeader (bytes : Bytes) : UInt8 × UInt8 × Nat :=
  (typeOf bytes 0, typeOf bytes 1, fromBigEndian (bytes.drop 2))

/-- A field header, or the single byte that ends the struct. -/
def readFieldBegin : Read (UInt8 × Int16)
  | [] => none
  | t :: input =>
    if t = stop then some ((stop, 0), input)
    else (readFixed 2 (fun bytes => (t, Int16.ofBitVec (wordOf bytes)))) input

/-- The header of a field takes a byte at least, and so does the end of a struct. -/
theorem takes_readFieldBegin : Takes readFieldBegin 1 := by
  intro input header rest hread
  cases input with
  | nil => cases hread
  | cons t input =>
    rw [readFieldBegin] at hread
    split at hread
    · cases hread
      exact Nat.le_refl _
    · have hid := takes_readFixed _ _ hread
      rw [List.length_cons]
      omega

/-- Passes over `count` values. -/
def skipEach (skip : Read Unit) : Nat → Read Unit
  | 0, input => some ((), input)
  | count + 1, input => do
    let (_, rest) ← skip input
    skipEach skip count rest

/-- Passing over values puts no bytes back, however many there are. -/
theorem takes_skipEach {skip : Read Unit} (hskip : Takes skip 0) (count : Nat) :
    Takes (skipEach skip count) 0 := by
  induction count with
  | zero =>
    intro input a rest hread
    cases hread
    exact Nat.le_refl _
  | succ count ih =>
    intro input a rest hread
    obtain ⟨⟨_, rest'⟩, hfirst, hrest⟩ := Option.bind_eq_some_iff.mp hread
    exact Nat.le_trans (ih hrest) (hskip hfirst)

/-- Passes over the fields of a struct, of which there are at most `count`. -/
def skipFields (skip : UInt8 → Read Unit) : Nat → Read Unit
  | 0, _ => none
  | count + 1, input => do
    let ((t, _), rest) ← readFieldBegin input
    if t = stop then some ((), rest) else
      let (_, rest) ← skip t rest
      skipFields skip count rest

theorem takes_skipFields {skip : UInt8 → Read Unit} (hskip : ∀ t, Takes (skip t) 0)
    (count : Nat) : Takes (skipFields skip count) 0 := by
  induction count with
  | zero =>
    intro input a rest hread
    cases hread
  | succ count ih =>
    intro input a rest hread
    obtain ⟨⟨⟨t, id⟩, rest'⟩, hfield, hread⟩ := Option.bind_eq_some_iff.mp hread
    have hheader := takes_readFieldBegin hfield
    dsimp only at hread
    split at hread
    · cases hread
      omega
    · obtain ⟨⟨_, rest''⟩, hvalue, hread⟩ := Option.bind_eq_some_iff.mp hread
      have hvalue := hskip t hvalue
      have hfields : rest.length + 0 ≤ rest''.length := ih hread
      omega

/-- Passes over the key and the value of a map entry. -/
def skipEntry (skipKey skipElem : Read Unit) : Read Unit := fun input => do
  let (_, rest) ← skipKey input
  skipElem rest

theorem takes_skipEntry {skipKey skipElem : Read Unit} (hkey : Takes skipKey 0)
    (helem : Takes skipElem 0) : Takes (skipEntry skipKey skipElem) 0 := by
  intro input a rest hread
  obtain ⟨⟨_, rest'⟩, hfirst, hsecond⟩ := Option.bind_eq_some_iff.mp hread
  exact Nat.le_trans (helem hsecond) (hkey hfirst)

/-- Passes over a value whose nesting is at most `depth`. -/
def skipValue : Nat → UInt8 → Read Unit
  | 0, _, _ => none
  | depth + 1, t, input =>
    match t with
    | 2 | 3 => readFixed 1 (fun _ => ()) input
    | 6 => readFixed 2 (fun _ => ()) input
    | 8 => readFixed 4 (fun _ => ()) input
    | 4 | 10 => readFixed 8 (fun _ => ()) input
    | 11 => (readString input).map fun (_, rest) => ((), rest)
    | 12 => skipFields (skipValue depth) (input.length + 1) input
    | 13 => do
      let ((k, e, count), rest) ← readFixed 6 mapHeader input
      skipEach (skipEntry (skipValue depth k) (skipValue depth e)) count rest
    | 14 | 15 => do
      let ((e, count), rest) ← readFixed 5 listHeader input
      skipEach (skipValue depth e) count rest
    | _ => none

/-- Nor does a value of any type, by induction on its nesting. -/
theorem takes_skipValue (depth : Nat) (t : UInt8) : Takes (skipValue depth t) 0 := by
  induction depth generalizing t with
  | zero =>
    intro input a rest hread
    cases hread
  | succ depth ih =>
    intro input a rest hread
    rw [skipValue.eq_def] at hread
    dsimp only at hread
    split at hread
    case h_7 =>
      obtain ⟨⟨s, rest'⟩, hstring, heq⟩ := Option.map_eq_some_iff.mp hread
      cases heq
      exact Nat.le_trans (Nat.le_add_right _ 4) (takes_readString hstring)
    case h_8 => exact takes_skipFields ih _ hread
    case h_9 =>
      obtain ⟨⟨⟨k, e, count⟩, rest'⟩, hheader, hread⟩ := Option.bind_eq_some_iff.mp hread
      have hentries := takes_skipEach (takes_skipEntry (ih k) (ih e)) count hread
      exact Nat.le_trans hentries (Nat.le_of_add_right_le (takes_readFixed _ _ hheader))
    case h_10 | h_11 =>
      obtain ⟨⟨⟨e, count⟩, rest'⟩, hheader, hread⟩ := Option.bind_eq_some_iff.mp hread
      have helems := takes_skipEach (ih e) count hread
      exact Nat.le_trans helems (Nat.le_of_add_right_le (takes_readFixed _ _ hheader))
    case h_12 => cases hread
    all_goals exact Nat.le_of_add_right_le (takes_readFixed _ _ hread)

/-- How deep a value may nest for its reader to pass over it. -/
def skipDepth : Nat := 64

/-- Four bytes hold a count of 32 bits. -/
theorem count_lt (hlength : bytes.length = 4) : fromBigEndian bytes < countLimit := by
  have hlt := fromBigEndian_lt bytes
  rw [hlength] at hlt
  exact hlt

end Binary

open Binary in
/-- The binary protocol. -/
def binary : Wire where
  readBool := readFixed 1 (· = [1])
  readByte := readFixed 1 (Int8.ofBitVec ∘ wordOf)
  readI16 := readFixed 2 (Int16.ofBitVec ∘ wordOf)
  readI32 := readFixed 4 (Int32.ofBitVec ∘ wordOf)
  readI64 := readFixed 8 (Int64.ofBitVec ∘ wordOf)
  readDouble := readFixed 8 (UInt64.ofBitVec ∘ wordOf)
  readString := readString
  readListBegin := readFixed 5 listHeader
  readMapBegin := readFixed 6 mapHeader
  readFieldBegin := readFieldBegin
  skip := skipValue skipDepth
  takes_bool := takes_readFixed _ _
  takes_byte := takes_readFixed _ _
  takes_i16 := takes_readFixed _ _
  takes_i32 := takes_readFixed _ _
  takes_i64 := takes_readFixed _ _
  takes_double := takes_readFixed _ _
  takes_string := takes_readString
  takes_listBegin := takes_readFixed _ _
  takes_mapBegin := takes_readFixed _ _
  takes_fieldBegin := takes_readFieldBegin
  takes_skip := takes_skipValue skipDepth
  listBegin_count hread := by
    obtain ⟨bytes, hbytes, hheader⟩ := readFixed_eq_some hread
    obtain rfl := (Prod.ext_iff.mp hheader).2
    exact count_lt (by simp [length_of_readBytes hbytes])
  mapBegin_count hread := by
    obtain ⟨bytes, hbytes, hheader⟩ := readFixed_eq_some hread
    obtain rfl := (Prod.ext_iff.mp (Prod.ext_iff.mp hheader).2).2
    exact count_lt (by simp [length_of_readBytes hbytes])

end Kitex.Thrift
