import Kitex.Codec.FrameContained

/-! # The mesh header

After the magic and the size comes the header: the number of its pairs and the pairs, each string
after its 16-bit length. The count and the lengths are what the peer says. `Checked` has the
functions that index, with the bounds checks of the language, which panic outside of a slice.
-/

namespace Kitex.Codec

open Kitex.Thrift Kitex.Thrift.Binary Kitex.Machine.Fallible

variable {D I : Type}

abbrev StrInfo := AList fun _ : Bytes => Bytes

namespace Checked

/-- Without a value the reader has panicked. -/
abbrev Read := ExceptT String Option

def slice (bytes : Bytes) (low high : Nat) : Option Bytes :=
  if low ≤ high ∧ high ≤ bytes.length then some ((bytes.take high).drop low) else none

def uint16 (buf : Bytes) : Option Nat := if 2 ≤ buf.length then some (Codec.uint16 buf) else none

def isMeshHeader (flagBuf : Bytes) : Option Bool :=
  if 4 ≤ flagBuf.length then some (Codec.isMeshHeader flagBuf) else none

def bytes2Uint16 (bytes : Bytes) (off : Nat) : Read Nat := do
  if (bytes.length : Int) - off < 2 then throw "EOF"
  return ← uint16 (← slice bytes off bytes.length)

def readString2BLen (bytes : Bytes) (off : Nat) : Read (Bytes × Nat) := do
  let strLen ← bytes2Uint16 bytes off
  if (bytes.length : Int) - (off + 2) < strLen then throw "EOF"
  return (← slice bytes (off + 2) (off + 2 + strLen), off + 2 + strLen)

theorem slice_to_end {bytes : Bytes} {off : Nat} (hoff : off ≤ bytes.length) :
    slice bytes off bytes.length = some (bytes.drop off) := by
  rw [slice, if_pos ⟨hoff, Nat.le_refl _⟩, List.take_length]

theorem bytes2Uint16_eq (bytes : Bytes) (off : Nat) :
    (bytes2Uint16 bytes off).run = some (Codec.bytes2Uint16 bytes off) := by
  unfold bytes2Uint16 Codec.bytes2Uint16
  split
  · rfl
  next hlong =>
    have hword : uint16 (bytes.drop off) = some (Codec.uint16 (bytes.drop off)) :=
      if_pos (by rw [List.length_drop]; omega)
    rw [slice_to_end (by omega)]
    change (ExceptT.lift (uint16 (bytes.drop off)) : Read Nat) = _
    rw [hword]
    rfl

theorem readString2BLen_eq (bytes : Bytes) (off : Nat) :
    (readString2BLen bytes off).run = some (Codec.readString2BLen bytes off) := by
  unfold readString2BLen Codec.readString2BLen
  rw [ExceptT.run_bind, bytes2Uint16_eq]
  cases Codec.bytes2Uint16 bytes off with
  | error err => rfl
  | ok strLen =>
    change ExceptT.run (ite _ _ _) = some (ite _ _ _)
    split
    · rfl
    next hlong =>
      have hslice : slice bytes (off + 2) (off + 2 + strLen) =
          some ((bytes.drop (off + 2)).take strLen) := by
        rw [slice, if_pos (by omega), List.drop_take]
        simp
      rw [hslice]
      rfl

/-- The header meta has four bytes, so that the magic and the size are in it. -/
theorem headerMeta_eq {s t : Decoding D I} {headerMeta : Bytes}
    (hmeta : next 4 s = .ok headerMeta t) :
    isMeshHeader headerMeta = some (Codec.isMeshHeader headerMeta) ∧
      (slice headerMeta 2 headerMeta.length >>= uint16) =
        some (Codec.uint16 (headerMeta.drop 2)) := by
  have hlength : headerMeta.length = 4 := by
    rcases Nat.lt_or_ge s.input.bytes.length 4 with hshort | hlong
    · cases hmeta.symm.trans (next_of_lt hshort)
    · cases hmeta.symm.trans (next_of_le hlong)
      simpa using hlong
  constructor
  · rw [isMeshHeader, if_pos hlength.ge]
  · rw [slice_to_end (by omega)]
    exact if_pos (by simp [hlength])

end Checked

/-! ## The pairs -/

/-- A string after its length. -/
def prefixed (str : Bytes) : Bytes := bigEndian 2 str.length ++ str

def layout (pairs : List (Bytes × Bytes)) : Bytes :=
  pairs.flatMap fun pair => prefixed pair.1 ++ prefixed pair.2

/-- The lengths of the strings are 16-bit numbers. -/
def Short (pair : Bytes × Bytes) : Prop := pair.1.length < 2 ^ 16 ∧ pair.2.length < 2 ^ 16

/-- A later pair replaces an earlier one. -/
def addPairs (pairs : List (Bytes × Bytes)) (info : StrInfo) : StrInfo :=
  pairs.foldl (fun info pair => info.insert pair.1 pair.2) info

variable {bytes buf str : Bytes} {off n idx size : Nat} {info info' : StrInfo}

theorem bytes2Uint16_eq_ok (h : bytes2Uint16 bytes off = .ok n) :
    bytes.drop off = bigEndian 2 n ++ bytes.drop (off + 2) ∧ n < 2 ^ 16 := by
  unfold bytes2Uint16 at h
  split at h
  · cases h
  next hlong =>
    cases h
    have hlength : ((bytes.drop off).take 2).length = 2 := by simp; omega
    constructor
    · have hword := bigEndian_fromBigEndian ((bytes.drop off).take 2)
      rw [hlength] at hword
      rw [uint16, hword, ← List.drop_drop, List.take_append_drop]
    · have hlt := fromBigEndian_lt ((bytes.drop off).take 2)
      rwa [hlength] at hlt

theorem readString2BLen_eq_ok (h : readString2BLen bytes off = .ok (str, idx)) :
    bytes.drop off = prefixed str ++ bytes.drop idx ∧ str.length < 2 ^ 16 := by
  unfold readString2BLen at h
  cases hsize : bytes2Uint16 bytes off with
  | error err => rw [hsize] at h; cases h
  | ok strLen =>
    obtain ⟨hdrop, hlt⟩ := bytes2Uint16_eq_ok hsize
    rw [hsize] at h
    change (if _ then _ else _) = _ at h
    split at h
    · cases h
    next hlong =>
      cases h
      have hlength : ((bytes.drop (off + 2)).take strLen).length = strLen := by simp; omega
      have hsplit := List.take_append_drop strLen (bytes.drop (off + 2))
      rw [List.drop_drop] at hsplit
      rw [prefixed, hlength, hdrop, List.append_assoc, hsplit]
      exact ⟨rfl, hlt⟩

theorem readStrKVs_eq_ok (h : readStrKVs buf size idx info = .ok info') :
    ∃ pairs rest, pairs.length = size ∧ buf.drop idx = layout pairs ++ rest ∧
      (∀ pair ∈ pairs, Short pair) ∧ info' = addPairs pairs info := by
  induction size generalizing idx info with
  | zero =>
    cases h
    exact ⟨[], _, rfl, rfl, by simp, rfl⟩
  | succ size ih =>
    rw [readStrKVs] at h
    cases hkey : readString2BLen buf idx with
    | error err => rw [hkey] at h; cases h
    | ok key =>
      cases hval : readString2BLen buf key.2 with
      | error err => simp [hkey, hval, bind, Except.bind] at h
      | ok val =>
        simp only [hkey, hval, bind, Except.bind] at h
        obtain ⟨pairs, rest, hsize, hdrop, hshort, rfl⟩ := ih h
        obtain ⟨hkeyDrop, hkeyShort⟩ := readString2BLen_eq_ok hkey
        obtain ⟨hvalDrop, hvalShort⟩ := readString2BLen_eq_ok hval
        refine ⟨(key.1, val.1) :: pairs, rest, by simp [hsize], ?_, ?_, rfl⟩
        · rw [hkeyDrop, hvalDrop, hdrop]
          simp [layout]
        · exact List.forall_mem_cons.mpr ⟨⟨hkeyShort, hvalShort⟩, hshort⟩

theorem readStrKVInfo_eq_ok (h : readStrKVInfo buf info = .ok info') :
    ∃ pairs rest, buf = bigEndian 2 pairs.length ++ layout pairs ++ rest ∧
      pairs.length < 2 ^ 16 ∧ (∀ pair ∈ pairs, Short pair) ∧ info' = addPairs pairs info := by
  unfold readStrKVInfo at h
  cases hsize : bytes2Uint16 buf 0 with
  | error err => rw [hsize] at h; cases h
  | ok kvSize =>
    obtain ⟨hdrop, hlt⟩ := bytes2Uint16_eq_ok hsize
    rw [hsize] at h
    change (readStrKVs buf kvSize 2 info).mapError _ = _ at h
    cases hpairs : readStrKVs buf kvSize 2 info with
    | error err => rw [hpairs] at h; cases h
    | ok info =>
      rw [hpairs] at h
      cases h
      obtain ⟨pairs, rest, rfl, hrest, hshort, hinfo⟩ := readStrKVs_eq_ok hpairs
      refine ⟨pairs, rest, ?_, hlt, hshort, hinfo⟩
      rwa [List.drop_zero, hrest, ← List.append_assoc] at hdrop

/-! ## The header -/

/-- The size that the header declares. -/
def declaredSize (bytes : Bytes) : Nat := uint16 (bytes.drop 2)

theorem uint16_take_four (bytes : Bytes) : uint16 ((bytes.take 4).drop 2) = declaredSize bytes := by
  rw [declaredSize, uint16, uint16, List.drop_take, List.take_take]
  rfl

variable (s : Decoding D I)

theorem Decoding.consume_consume (m n : Nat) : (s.consume m).consume n = s.consume (m + n) := by
  simp [consume, ByteBuffer.advance, Int.add_assoc]

@[simp]
theorem Decoding.consume_message (n : Nat) : (s.consume n).message = s.message := rfl

theorem Decoding.consume_zero : s.consume 0 = s := by
  simp [consume, ByteBuffer.advance]

/-- Nothing is indexed outside of a slice, whatever the bytes are; a failure consumes no more than
the header, and success all of it, which has the pairs. -/
theorem meshHeaderDecode_exact :
    (∀ bytes off, (Checked.bytes2Uint16 bytes off).run = some (bytes2Uint16 bytes off) ∧
        (Checked.readString2BLen bytes off).run = some (readString2BLen bytes off)) ∧
      (∀ headerMeta t, next 4 s = .ok headerMeta t →
        Checked.isMeshHeader headerMeta = some (isMeshHeader headerMeta) ∧
        (Checked.slice headerMeta 2 headerMeta.length >>= Checked.uint16) =
          some (uint16 (headerMeta.drop 2))) ∧
      ((∃ err k, k ≤ s.input.bytes.length ∧ k ≤ 4 + declaredSize s.input.bytes ∧
          meshHeaderDecode s = .error err (s.consume k)) ∨
        ∃ pairs rest following,
          s.input.bytes = s.input.bytes.take 4 ++
            (bigEndian 2 pairs.length ++ layout pairs ++ rest) ++ following ∧
          (bigEndian 2 pairs.length ++ layout pairs ++ rest).length =
            declaredSize s.input.bytes ∧
          pairs.length < 2 ^ 16 ∧ (∀ pair ∈ pairs, Short pair) ∧
          meshHeaderDecode s = .ok () { s.consume (4 + declaredSize s.input.bytes) with
            message := fillBasicInfoOfTTHeader
              { s.message with transStrInfo := addPairs pairs s.message.transStrInfo } }) := by
  refine ⟨fun bytes off =>
    ⟨Checked.bytes2Uint16_eq bytes off, Checked.readString2BLen_eq bytes off⟩,
    fun headerMeta t => Checked.headerMeta_eq, ?_⟩
  unfold meshHeaderDecode
  rcases Nat.lt_or_ge s.input.bytes.length 4 with hshort | hlong
  · have hmeta : next 4 s = .error (.other s.input.err) (s.consume 0) := by
      rw [Decoding.consume_zero]
      exact next_of_lt hshort
    exact .inl ⟨_, 0, by omega, by omega, bind_of_error (adaptExcept_of_error hmeta)⟩
  · have hmeta : next 4 s = .ok _ _ := next_of_le hlong
    rw [bind_of_ok (adaptExcept_of_ok hmeta)]
    simp only [uint16_take_four]
    split
    · exact .inl ⟨_, 4, hlong, by omega, rfl⟩
    · have hleft : (s.consume 4).input.bytes = s.input.bytes.drop 4 := rfl
      rcases Nat.lt_or_ge (s.consume 4).input.bytes.length (declaredSize s.input.bytes) with
        hshort | hheader
      · exact .inl ⟨_, 4, hlong, by omega, bind_of_error (adaptExcept_of_error (next_of_lt hshort))⟩
      · rw [bind_of_ok (adaptExcept_of_ok (next_of_le hheader)), Decoding.consume_consume]
        rw [hleft, List.length_drop] at hheader
        cases hkv : readStrKVInfo ((s.consume 4).input.bytes.take (declaredSize s.input.bytes))
            s.message.transStrInfo with
        | error err =>
          refine .inl ⟨.protocol 0 s!"meshHeader read kv info failed, {err}", _, by omega,
            Nat.le_refl _, ?_⟩
          simp [Decoding.consume_message, hkv]
        | ok info =>
          obtain ⟨pairs, rest, hbuf, hlt, hpairs, rfl⟩ := readStrKVInfo_eq_ok hkv
          refine .inr ⟨pairs, rest, s.input.bytes.drop (4 + declaredSize s.input.bytes), ?_, ?_,
            hlt, hpairs, ?_⟩
          · rw [← hbuf, hleft, List.append_assoc, ← List.drop_drop, List.take_append_drop,
              List.take_append_drop]
          · rw [← hbuf, hleft]
            simp
            omega
          · simp [Decoding.consume_message, hkv]

end Kitex.Codec
